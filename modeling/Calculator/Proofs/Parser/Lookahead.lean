import Calculator.Proofs.Parser.Arrival

/-!
# Looking one token ahead

Rule by rule the parser on positions arrives where the parser on the tokens that
are left does. So on any list of tokens it ends, and is never outside of the
list; it never comes past the first end of the line, and of the list it sees
nothing beyond the token at its last position.
-/

namespace Calculator

namespace Parser

namespace Cursor

variable {l : Split} {c : Cursor} {s : State Environment} {limit : Option Nat} {calls : Calls}
  {floor : Nat}
  {left : Node} {onNode : Node → State Environment → Prop} {onAbort : State Environment → Prop}

/-! ## Steps -/

theorem follows_nest (h : Views l c s) {span : Span} {e : Expr} {depth : Nat}
    (hnest : (Parser.nest limit s span e depth).Satisfies onNode onAbort) :
    Follows l (nest limit span e depth) c onNode onAbort := by
  rw [satisfies_nest] at hnest
  unfold nest
  split
  next hallowed =>
    rw [if_pos hallowed] at hnest
    exact follows_pure h hnest
  next hdeep =>
    rw [if_neg hdeep] at hnest
    exact follows_fail h hnest

theorem follows_commit (h : Views l c s) {span : Span}
    {change : Environment → Except Fault Environment} {onUnit : Unit → State Environment → Prop}
    (hcommit : (Parser.commit s span (Environment.attempt change)).Satisfies onUnit onAbort) :
    Follows l (commit span change) c onUnit onAbort := by
  rw [satisfies_commit_attempt] at hcommit
  refine follows_get ?_
  rw [h.diagnostics, h.environment]
  split
  next faultless =>
    rw [if_pos faultless] at hcommit
    cases hchange : change s.environment with
    | ok env =>
        rw [hchange] at hcommit
        have hchanged : Views l { c with environment := env, diagnostics := s.diagnostics }
            { s with environment := env } :=
          { h with environment := rfl, diagnostics := rfl }
        exact follows_set rfl hchanged hcommit
    | error fault =>
        rw [hchange] at hcommit
        exact follows_fail h hcommit
  next hfaulty =>
    rw [if_neg hfaulty] at hcommit
    exact arrives_pure ⟨s, h, hcommit⟩

theorem follows_closingParen (h : Views l c s) {onToken : Token → State Environment → Prop}
    (hclosing : (Parser.closingParen s).Satisfies onToken onAbort) :
    Follows l closingParen c onToken onAbort := by
  rw [satisfies_closingParen] at hclosing
  refine follows_peek h fun next hkind hspan => ?_
  rw [hkind, hspan]
  split
  next hparen =>
    rw [if_pos hparen] at hclosing
    rcases s.rest_cases with hrest | ⟨token, rest, hrest⟩
    · rw [State.next_of_nil hrest] at hparen
      cases hparen
    · rw [State.next_of_rest hrest, hrest] at hclosing
      obtain ⟨htoken, hne, hviews⟩ := h.token_of_rest hrest
      exact arrives_move htoken hne ⟨_, hviews, hclosing⟩
  next hparen =>
    rw [if_neg hparen] at hclosing
    exact follows_fail h hclosing

theorem follows_resolve (h : Views l c s) {token : Token}
    (hok : ∀ e, Parser.resolve s token.lexeme = .ok e → onNode (.leaf e token.span) s)
    (habort : ∀ fault, Parser.resolve s token.lexeme = .error fault →
      onAbort (s.report token.span fault)) :
    Follows l (resolve token) c onNode onAbort := by
  refine follows_peek h fun next hkind _ => follows_get ?_
  unfold Parser.resolve at hok habort
  rw [hkind, h.inBody, h.environment]
  dsimp only at hok habort
  split
  next hdeclares => exact follows_pure h (hok _ (if_pos hdeclares))
  next hdeclares =>
    rw [if_neg hdeclares] at hok habort
    split
    next hparameter => exact follows_pure h (hok _ (if_pos hparameter))
    next hparameter =>
      rw [if_neg hparameter, Environment.scope_lookup] at hok habort
      cases hlookup : s.environment.lookup token.lexeme with
      | none =>
          rw [hlookup] at habort
          exact follows_fail h (habort _ rfl)
      | some binding =>
          rw [hlookup] at hok habort
          dsimp only at hok habort ⊢
          split
          next hcalled => exact follows_pure h (hok _ (if_pos hcalled))
          next hcalled =>
            rw [if_neg hcalled] at hok habort
            cases binding with
            | constant value => exact follows_pure h (hok _ rfl)
            | assigned value => exact follows_pure h (hok _ rfl)
            | builtin _ => exact follows_fail h (habort _ rfl)
            | defined _ => exact follows_fail h (habort _ rfl)

theorem follows_declared (h : Views l c s) {inBody target : Fault}
    {onName : String → State Environment → Prop}
    (hok : ∀ name, Parser.declared s left inBody target s.next.span = .ok name → onName name s)
    (habort : ∀ span fault,
      Parser.declared s left inBody target s.next.span = .error (span, fault) →
        onAbort (s.report span fault)) :
    Follows l (declared left inBody target) c onName onAbort := by
  refine follows_peek h fun sign _ hspan => follows_get ?_
  unfold Parser.declared at hok habort
  rw [hspan, h.inBody, h.environment]
  split
  next hinside => exact follows_fail h (habort _ _ (if_pos hinside))
  next hinside =>
    rw [if_neg hinside] at hok habort
    split
    next name hname =>
      rw [hname] at hok habort
      dsimp only at hok habort
      split
      next hexists => exact follows_fail h (habort _ _ (if_pos hexists))
      next hexists => exact follows_pure h (hok _ (if_neg hexists))
    next hname =>
      refine follows_fail h (habort _ _ ?_)
      split
      next name he => exact absurd he (hname name)
      next => rfl

/-! ## Rules -/

/-- What is called does what the parser does from a state on. -/
structure Traces (l : Split) (limit : Option Nat) (calls : Calls)
    (s : State Environment) : Prop where
  expr {c : Cursor} {floor : Nat} {onOk : Node → State Environment → Prop}
      {onAbort : State Environment → Prop}
    (h : Views l c s) (hexpr : (Parser.expr limit floor s).Satisfies onOk onAbort) :
    Follows l (calls.expr floor) c onOk onAbort
  extend {c : Cursor} {floor : Nat} {left : Node} {onOk : Node → State Environment → Prop}
    {onAbort : State Environment → Prop} (h : Views l c s)
    (hextend : (Parser.extend limit floor left s).Satisfies onOk onAbort) :
    Follows l (calls.extend floor left) c onOk onAbort
  chain {c : Cursor} {floor : Nat} {left : Node} {onOk : Node → State Environment → Prop}
    {onAbort : State Environment → Prop} (h : Views l c s)
    (hchain : (Parser.chain limit floor left s).Satisfies onOk onAbort) :
    Follows l (calls.chain floor left) c onOk onAbort

theorem follows_grouping (ih : Traces l limit calls s) (h : Views l c s) {opening : Token}
    (hgroup : (Parser.grouping limit opening.span s).Satisfies onNode onAbort) :
    Follows l (grouping limit calls opening) c onNode onAbort := by
  rw [satisfies_grouping] at hgroup
  refine Follows.bind (ih.expr h hgroup) fun inner d t ht hclosing => ?_
  refine Follows.bind (follows_closingParen ht hclosing) fun closing e u hu hnest => ?_
  exact follows_nest hu hnest

section Signs

variable {token : Token} {rest : List Token}

theorem follows_callOrProduct (ih : Traces l limit calls { s with rest := rest }) (h : Views l c s)
    (hrest : s.rest = token :: rest)
    (hcall : (Parser.callOrProduct limit left token.span { s with rest := rest }).Satisfies
      onNode onAbort) :
    Follows l (callOrProduct limit calls left) c onNode onAbort := by
  refine follows_advance h hrest fun d hd => ?_
  split
  next name hname =>
    rw [satisfies_call hname] at hcall
    refine follows_get ?_
    rw [hd.environment]
    cases hcallee : callee? s.environment name with
    | none =>
        rw [hcallee] at hcall
        exact follows_fail hd hcall
    | some call =>
        rw [hcallee] at hcall
        refine Follows.bind (ih.expr hd hcall) fun arg e t ht hclosing => ?_
        refine Follows.bind (follows_closingParen ht hclosing) fun closing f u hu hnest => ?_
        exact follows_nest hu hnest
  next hname =>
    rw [satisfies_product hname] at hcall
    refine Follows.bind (follows_grouping ih hd hcall) fun group e t ht hnest => ?_
    exact follows_nest ht hnest

theorem follows_factorial (h : Views l c s) (hrest : s.rest = token :: rest)
    (hnatural : left.expr.evaluate.isNatural = true →
      (Parser.nest limit { s with rest := rest } (left.span.cover token.span)
        (.unary .factorial left.expr) left.depth).Satisfies onNode onAbort)
    (hunnatural : ¬left.expr.evaluate.isNatural = true →
      onAbort (State.report { s with rest := rest } token.span .nonNaturalFactorial)) :
    Follows l (factorial limit left) c onNode onAbort := by
  refine follows_advance h hrest fun d hd => ?_
  split
  next natural => exact follows_nest hd (hnatural natural)
  next unnatural => exact follows_fail hd (hunnatural unnatural)

theorem follows_declaration (h : Views l c s) (hrest : s.rest = token :: rest)
    {inBody target : Fault} {f : String → Action Node}
    (hok : ∀ name d, Parser.declared s left inBody target token.span = .ok name →
      Views l d { s with rest := rest } → Follows l (f name) d onNode onAbort)
    (habort : ∀ span fault,
      Parser.declared s left inBody target token.span = .error (span, fault) →
        onAbort (s.report span fault)) :
    Follows l (declared left inBody target >>= fun name => advance >>= fun _ => f name) c
      onNode onAbort := by
  have hsign : s.next.span = token.span := by rw [State.next_of_rest hrest]
  have hdeclared : Follows l (declared left inBody target) c
      (fun name t => t = s ∧ Parser.declared s left inBody target token.span = .ok name)
      onAbort := by
    refine follows_declared h (fun name hname => ⟨rfl, hsign ▸ hname⟩) ?_
    exact fun span fault hrefused => habort span fault (hsign ▸ hrefused)
  refine Follows.bind hdeclared fun name d t hd ⟨ht, hname⟩ => ?_
  subst ht
  exact follows_advance hd hrest fun e he => hok name e hname he

theorem follows_assignment (ih : Traces l limit calls { s with rest := rest }) (h : Views l c s)
    (hrest : s.rest = token :: rest)
    (hok : ∀ name,
      Parser.declared s left .assignmentInFunction .assignmentTarget token.span = .ok name →
        (Parser.assignment limit name left.span { s with rest := rest }).Satisfies onNode onAbort)
    (habort : ∀ span fault,
      Parser.declared s left .assignmentInFunction .assignmentTarget token.span =
        .error (span, fault) → onAbort (s.report span fault)) :
    Follows l (assignment limit calls left) c onNode onAbort := by
  refine follows_declaration h hrest (fun name d hname hd => ?_) habort
  have hassign := hok name hname
  rw [satisfies_assignment] at hassign
  refine Follows.bind (ih.expr hd hassign) fun value e t ht hcommit => ?_
  refine Follows.bind (follows_commit ht hcommit) fun _ f u hu hnest => ?_
  exact follows_nest hu hnest

theorem follows_body (ih : Traces l limit calls { s with inBody := true }) (h : Views l c s)
    (hbody : (Parser.expr limit 0 { s with inBody := true }).Satisfies
      (fun node t => onNode node { t with inBody := false })
      fun t => onAbort { t with inBody := false }) :
    Follows l (body calls) c onNode onAbort := by
  have hinside : Views l { c with inBody := true } { s with inBody := true } :=
    { h with inBody := rfl }
  refine follows_bracket rfl (fun _ => rfl) (ih.expr hinside hbody) fun d t ht => ?_
  exact { ht with inBody := rfl }

theorem follows_definition (ih : Traces l limit calls { s with rest := rest, inBody := true })
    (h : Views l c s) (hrest : s.rest = token :: rest)
    (hok : ∀ name,
      Parser.declared s left .definitionInFunction .definitionTarget token.span = .ok name →
        (Parser.definition limit name left.span { s with rest := rest }).Satisfies onNode onAbort)
    (habort : ∀ span fault,
      Parser.declared s left .definitionInFunction .definitionTarget token.span =
        .error (span, fault) → onAbort (s.report span fault)) :
    Follows l (definition limit calls left) c onNode onAbort := by
  refine follows_declaration h hrest (fun name d hname hd => ?_) habort
  have hdefine := hok name hname
  rw [satisfies_definition] at hdefine
  have hbody : Follows l (body calls) d
      (fun inner t =>
        (Parser.commit t left.span fun env => Scope.define env name inner.expr).Satisfies
          (fun _ u => (Parser.nest limit u (left.span.cover inner.span)
            (.definition name inner.expr) inner.depth).Satisfies onNode onAbort) onAbort)
      onAbort := follows_body ih hd hdefine
  refine hbody.bind fun inner e t ht hcommit => ?_
  refine Follows.bind (follows_commit ht hcommit) fun _ f u hu hnest => ?_
  exact follows_nest hu hnest

end Signs

/-! ## What follows an operand -/

theorem follows_chain
    (ih : ∀ u : State Environment, u.rest.length < s.rest.length → Traces l limit calls u)
    (h : Views l c s) (hchain : (Parser.chain limit floor left s).Satisfies onNode onAbort) :
    Follows l (chain limit calls floor left) c onNode onAbort := by
  refine follows_peek h fun next hkind _ => ?_
  rw [hkind]
  by_cases hfloor : s.next.kind.precedence ≤ floor
  · rw [satisfies_chain_closed hfloor] at hchain
    cases hop : s.next.kind.operator? with
    | none => exact follows_pure h hchain
    | some op =>
        rw [TokenKind.precedence_of_operator? hop] at hfloor
        dsimp only
        rw [if_pos hfloor]
        exact follows_pure h hchain
  · obtain ⟨token, rest, op, hrest, hop, hop_floor⟩ := operator_of_precedence hfloor
    have hlt : rest.length < s.rest.length := by simp [hrest]
    have hclosed : ¬op.precedence ≤ floor := Nat.not_le.2 hop_floor
    rw [satisfies_chain_operator hrest hop, if_neg hclosed] at hchain
    rw [State.next_of_rest hrest, hop]
    dsimp only
    rw [if_neg hclosed]
    refine follows_advance h hrest fun d hd => ?_
    refine Follows.bind ((ih _ hlt).expr hd hchain.bounded) fun right e t ht ⟨hshort, hnest⟩ => ?_
    have hshort : t.rest.length < s.rest.length := Nat.lt_trans hshort hlt
    refine Follows.bind (follows_nest ht hnest.bounded) fun node f u hu ⟨hnested, hextend⟩ => ?_
    have hnested : u.rest.length < s.rest.length := by omega
    refine Follows.bind ((ih u hnested).extend hu hextend.bounded) ?_
    intro folded g v hv ⟨hfolded, hrepeat⟩
    exact (ih v (by omega)).chain hv hrepeat

theorem follows_extend
    (ih : ∀ u : State Environment, u.rest.length < s.rest.length → Traces l limit calls u)
    (h : Views l c s) (hextend : (Parser.extend limit floor left s).Satisfies onNode onAbort) :
    Follows l (extend limit calls floor left) c onNode onAbort := by
  refine follows_peek h fun next hkind _ => ?_
  rw [hkind]
  by_cases hoperator : 0 < s.next.kind.precedence
  · obtain ⟨token, rest, op, hrest, hop, -⟩ := operator_of_precedence (Nat.not_le.2 hoperator)
    rw [satisfies_extend_operator hrest hop] at hextend
    rw [if_pos hoperator]
    exact follows_chain ih h hextend
  rw [if_neg hoperator]
  have hfloor : s.next.kind.precedence ≤ floor := by omega
  rcases s.rest_cases with hrest | ⟨token, rest, hrest⟩
  · rw [satisfies_extend_nil hrest] at hextend
    rw [State.next_of_nil hrest]
    exact follows_pure h hextend
  · have hlt : rest.length < s.rest.length := by simp [hrest]
    have continued (m : Action Node)
        (hm : Follows l m c (fun node t => t.rest.length < rest.length + 1 ∧
          (Parser.extend limit floor node t).Satisfies onNode onAbort) onAbort) :
        Follows l (m >>= fun node => calls.extend floor node) c onNode onAbort := by
      refine hm.bind fun node d t ht ⟨hshort, hmore⟩ => ?_
      have hshort : t.rest.length < s.rest.length := by omega
      exact (ih t hshort).extend ht hmore
    rw [State.next_of_rest hrest]
    cases hk : token.kind with
    | leftParen =>
        rw [satisfies_extend_leftParen hrest hk] at hextend
        exact continued _ (follows_callOrProduct (ih _ hlt) h hrest hextend.bounded)
    | bang =>
        rw [satisfies_extend_bang hrest hk] at hextend
        refine continued _ (follows_factorial h hrest (fun natural => ?_) fun unnatural => ?_)
        · rw [if_pos natural] at hextend
          exact hextend.bounded
        · rwa [if_neg unnatural] at hextend
    | equals =>
        rw [satisfies_extend_equals hrest hk] at hextend
        refine continued _ (follows_assignment (ih _ hlt) h hrest (fun name hname => ?_) ?_)
        · rw [hname] at hextend
          exact hextend.bounded
        · intro span fault hrefused
          rwa [hrefused] at hextend
    | colon =>
        rw [satisfies_extend_colon hrest hk] at hextend
        refine continued _ (follows_definition (ih _ hlt) h hrest (fun name hname => ?_) ?_)
        · rw [hname] at hextend
          exact hextend.bounded
        · intro span fault hrefused
          rwa [hrefused] at hextend
    | _ =>
        have hattach : s.next.kind.attaches = false := by
          rw [State.next_of_rest hrest, hk]
          rfl
        rw [satisfies_extend_closed ⟨hattach, hfloor⟩] at hextend
        exact follows_pure h hextend

/-! ## Expressions -/

theorem follows_operand
    (ih : ∀ u : State Environment, u.rest.length < s.rest.length → Traces l limit calls u)
    (h : Views l c s) (hoperand : (Parser.operand limit floor s).Satisfies onNode onAbort) :
    Follows l (operand limit calls floor) c onNode onAbort := by
  rcases s.rest_cases with hrest | ⟨token, rest, hrest⟩
  · rw [satisfies_operand_nil hrest] at hoperand
    refine follows_advance_nil h hrest ?_
    rw [l.finish, h.stop]
    exact follows_fail h hoperand
  · have hlt : rest.length < s.rest.length := by simp [hrest]
    refine follows_advance h hrest fun d hd => ?_
    cases hk : token.kind with
    | number value =>
        rw [satisfies_operand_number hrest hk] at hoperand
        exact (ih _ hlt).extend hd hoperand
    | identifier =>
        rw [satisfies_operand_identifier hrest hk] at hoperand
        have hname : Follows l (resolve token) d (fun node t =>
            t = { s with rest := rest } ∧
              (Parser.extend limit floor node t).Satisfies onNode onAbort) onAbort := by
          refine follows_resolve hd (fun e he => ⟨rfl, ?_⟩) fun fault hfault => ?_
          · rwa [he] at hoperand
          · rwa [hfault] at hoperand
        refine hname.bind fun node e t ht ⟨hstays, hextend⟩ => ?_
        subst hstays
        exact (ih _ hlt).extend ht hextend
    | minus =>
        rw [satisfies_operand_minus hrest hk] at hoperand
        refine Follows.bind ((ih _ hlt).expr hd hoperand.bounded) ?_
        intro inner e t ht ⟨hshort, hnest⟩
        have hshort : t.rest.length < s.rest.length := Nat.lt_trans hshort hlt
        refine Follows.bind (follows_nest ht hnest.bounded) fun node f u hu ⟨hnested, hextend⟩ => ?_
        exact (ih u (by omega)).extend hu hextend
    | leftParen =>
        rw [satisfies_operand_leftParen hrest hk] at hoperand
        refine Follows.bind (follows_grouping (ih _ hlt) hd hoperand.bounded) ?_
        intro node e t ht ⟨hshort, hextend⟩
        exact (ih t (Nat.lt_trans hshort hlt)).extend ht hextend
    | _ =>
        rw [satisfies_operand_other hrest (by simp [hk]) (by simp [hk]) (by simp [hk])
          (by simp [hk]), hk] at hoperand
        exact follows_fail hd hoperand

theorem follows_expr
    (ih : ∀ u : State Environment, u.rest.length < s.rest.length → Traces l limit calls u)
    (h : Views l c s) (hexpr : (Parser.expr limit floor s).Satisfies onNode onAbort) :
    Follows l (expr limit calls floor) c onNode onAbort := by
  rw [satisfies_expr] at hexpr
  refine follows_get ?_
  rw [h.nesting]
  split
  next hallowed =>
    rw [if_pos hallowed] at hexpr
    have hinside : Views l { c with nesting := c.nesting + 1 }
        { s with nesting := s.nesting + 1 } := { h with nesting := by rw [h.nesting] }
    refine follows_bracket rfl (fun _ => rfl) (follows_operand ?_ hinside hexpr) fun d t ht => ?_
    · exact ih
    · exact { ht with nesting := by rw [ht.nesting] }
  next hdeep =>
    rw [if_neg hdeep] at hexpr
    refine follows_peek h fun next _ hspan => ?_
    rw [hspan]
    exact follows_fail h hexpr

/-- Calls may be nested less deep than a number that is greater than that of the tokens left. -/
theorem traces (l : Split) (limit : Option Nat) {bound : Nat} (h : s.rest.length < bound) :
    Traces l limit (rules limit bound) s := by
  induction bound generalizing s with
  | zero => exact absurd h (Nat.not_lt_zero _)
  | succ bound ih =>
      have hcalls (u : State Environment) (hu : u.rest.length < s.rest.length) :
          Traces l limit (rules limit bound) u := ih (by omega)
      exact ⟨follows_expr hcalls, follows_extend hcalls, follows_chain hcalls⟩

/-! ## Lines -/

theorem follows_deletion (h : Views l c s) {onExpr : Expr → State Environment → Prop}
    (hdelete : (Parser.deletion s).Satisfies onExpr onAbort) :
    Follows l deletion c onExpr onAbort := by
  rw [satisfies_deletion] at hdelete
  rcases s.rest_cases with hrest | ⟨token, rest, hrest⟩
  · rw [State.next_of_nil hrest, if_neg (by simp)] at hdelete
    have hviews : Views l c { s with rest := s.rest.tail } :=
      { h with rest := by rw [h.rest, hrest]; rfl }
    refine follows_advance_nil h hrest ?_
    rw [if_neg (by simp [l.finish]), h.stop]
    exact follows_fail hviews hdelete
  · rw [State.next_of_rest hrest, hrest] at hdelete
    refine follows_advance h hrest fun d hd => ?_
    split
    next hname =>
      rw [if_pos hname] at hdelete
      exact Follows.bind (follows_commit hd hdelete) fun _ e t ht hexpr => follows_pure ht hexpr
    next hname =>
      rw [if_neg hname] at hdelete
      exact follows_fail hd hdelete

theorem follows_statement {bound : Nat} (hbound : s.rest.length < bound) (h : Views l c s)
    {onExpr : Expr → State Environment → Prop}
    (hstatement : (Parser.statement limit s).Satisfies onExpr onAbort) :
    Follows l (statement limit bound) c onExpr onAbort := by
  rw [satisfies_statement] at hstatement
  refine follows_peek h fun next hkind _ => ?_
  rw [hkind]
  split
  next hdel =>
    rw [if_pos hdel] at hstatement
    rcases s.rest_cases with hrest | ⟨token, rest, hrest⟩
    · rw [State.next_of_nil hrest] at hdel
      cases hdel
    · rw [hrest] at hstatement
      exact follows_advance h hrest fun d hd => follows_deletion hd hstatement
  next hdel =>
    rw [if_neg hdel] at hstatement
    refine Follows.bind ((traces l limit hbound).expr h hstatement) fun node d t ht hexpr => ?_
    exact follows_pure ht hexpr

/-- A run over a line arrives where the parser does. -/
theorem follows_topLevel (limit : Option Nat) {bound : Nat} (hbound : s.rest.length < bound)
    (h : Views l c s) : Follows l (topLevel limit bound) c (fun e t => Parser.run limit s = (e, t))
      fun t => Parser.run limit s = (.error, t) := by
  have hself : (Parser.statement limit s).Satisfies
      (fun e t => ∃ hshort, Parser.statement limit s = .ok e t hshort)
      fun t => Parser.run limit s = (.error, t) := by
    refine (Parser.statement limit s).satisfies_self.imp (fun e t he => he) fun t ht => ?_
    rw [run, ht]
  refine Follows.bind (follows_statement hbound h hself) fun e d t ht ⟨hshort, hstatement⟩ => ?_
  refine follows_peek ht fun next hkind hspan => ?_
  rw [hkind, hspan]
  rcases t.rest_cases with hrest | ⟨token, rest, hrest⟩
  · rw [State.next_of_nil hrest, if_pos rfl]
    refine follows_pure ht ?_
    rw [run, hstatement]
    simp [hrest]
  · have hne := (ht.token_of_rest hrest).2.1
    rw [State.next_of_rest hrest, if_neg hne]
    refine follows_fail ht ?_
    rw [run, hstatement]
    simp [hrest, State.next]

/-! ## Lists of tokens -/

section Complete

variable {tokens front : List Token} {stop : Token}

/-- Nothing is changed about the tokens of a list where it is completed. -/
theorem complete_eq_append (tokens : List Token) :
    ∃ ending, complete tokens = tokens.filter (·.kind != .space) ++ ending := by
  unfold complete
  dsimp only
  split
  next hnone => exact ⟨[.finish 0], by rw [List.getLast?_eq_none_iff.1 hnone, List.nil_append]⟩
  next last _ =>
    split
    next => exact ⟨[], (List.append_nil _).symm⟩
    next => exact ⟨[.finish last.span.stop], rfl⟩

theorem complete_of_finish (front later : List Token) (hstop : stop.kind = .finish) :
    ∃ ending, complete (front ++ stop :: later) =
      front.filter (·.kind != .space) ++ stop :: ending := by
  obtain ⟨ending, hcomplete⟩ := complete_eq_append (front ++ stop :: later)
  refine ⟨later.filter (·.kind != .space) ++ ending, ?_⟩
  rw [hcomplete]
  simp [hstop]

theorem complete_of_no_finish (h : ∀ t ∈ tokens.filter (·.kind != .space), t.kind ≠ .finish) :
    complete tokens = tokens.filter (·.kind != .space) ++
      [.finish (((tokens.filter (·.kind != .space)).getLast?.map (·.span.stop)).getD 0)] := by
  unfold complete
  dsimp only
  split
  next hnone => rw [hnone, List.getLast?_eq_none_iff.1 hnone]; rfl
  next last hlast => rw [hlast, if_neg (h last (List.mem_of_getLast? hlast))]; rfl

theorem takeWhile_front (hfront : ∀ t ∈ front, t.kind ≠ .finish) (back : List Token) :
    (front ++ back).takeWhile (·.kind != .finish) =
      front ++ back.takeWhile (·.kind != .finish) :=
  List.takeWhile_append_of_pos (by simpa using hfront)

/-- At the start of a list of tokens a cursor stands for a parser of them. -/
theorem exists_split (tokens : List Token) (d : Diagnostics) (env : Environment) :
    ∃ l : Split, l.tokens = complete tokens ∧
      Views l ⟨0, env, d, false, 0⟩ (.ofTokens tokens env d) := by
  cases hfind : (tokens.filter (·.kind != .space)).find? (·.kind == .finish) with
  | none =>
      have hfront : ∀ t ∈ tokens.filter (·.kind != .space), t.kind ≠ .finish := by
        simpa using List.find?_eq_none.1 hfind
      refine ⟨⟨_, _, [], hfront, rfl⟩, (complete_of_no_finish hfront).symm,
        ⟨Nat.zero_le _, ?_, ?_, rfl, rfl, rfl, rfl⟩⟩
      · simpa [State.ofTokens] using (takeWhile_front hfront []).symm
      · simp [State.ofTokens, hfind]
  | some stop =>
      obtain ⟨hstop, front, later, hvisible, hfront⟩ := List.find?_eq_some_iff_append.1 hfind
      obtain ⟨ending, hcomplete⟩ := complete_eq_append tokens
      have hfinish : stop.kind = .finish := by simpa using hstop
      have hfront : ∀ t ∈ front, t.kind ≠ .finish := by simpa using hfront
      refine ⟨⟨front, stop, later ++ ending, hfront, hfinish⟩, ?_,
        ⟨Nat.zero_le _, ?_, ?_, rfl, rfl, rfl, rfl⟩⟩
      · rw [hcomplete, hvisible, List.append_assoc]
        rfl
      · simp [State.ofTokens, hvisible, takeWhile_front hfront, hfinish]
      · simp [State.ofTokens, hfind]

theorem Split.findIdx_tokens (l : Split) :
    l.tokens.findIdx (·.kind == .finish) = l.front.length := by
  have hlt : l.front.length < l.tokens.length := by simp [Split.tokens]
  rw [List.findIdx_eq hlt]
  constructor
  · simp [Split.tokens, l.finish]
  · intro j hj
    have hmem : l.tokens[j] ∈ l.front := by
      simp [Split.tokens, List.getElem_append_left hj]
    simpa using l.ne_finish _ hmem

end Complete

/-! ## What a parser on positions sees -/

section Parse

variable {limit : Option Nat} {tokens : List Token} {d : Diagnostics} {env : Environment}

/-- A line is parsed where calls may go as deep as there are tokens in it, and on every list that is
the same up to where its parser ends. -/
theorem parse_of_run {e : Expr} {t : State Environment} {bound : Nat}
    (hl : l.tokens = complete tokens)
    (hstart : Views l ⟨0, env, d, false, 0⟩ (.ofTokens tokens env d))
    (hrun : Parser.run limit (.ofTokens tokens env d) = (e, t)) (hbound : l.tokens.length ≤ bound) :
    ∃ c, Views l c t ∧ ∀ tokens', SameUpTo c.position (complete tokens) (complete tokens') →
      parse limit bound tokens' d env = some (.ok e, c) := by
  have hshort : (State.ofTokens tokens env d).rest.length < bound := by
    rw [← hstart.rest, List.drop_zero]
    rw [Split.tokens, List.length_append, List.length_cons] at hbound
    omega
  obtain ⟨result, c, -, hends, hresult⟩ := follows_topLevel limit hshort hstart
  rw [hl] at hends
  cases result with
  | ok e' =>
      obtain ⟨t', ht, hrun'⟩ := hresult
      cases hrun.symm.trans hrun'
      refine ⟨c, ht, fun tokens' hsame => ?_⟩
      rw [parse, hends _ hsame]
      rfl
  | error halt =>
      cases halt with
      | abort =>
          obtain ⟨t', ht, hrun'⟩ := hresult
          cases hrun.symm.trans hrun'
          refine ⟨c, ht, fun tokens' hsame => ?_⟩
          rw [parse, hends _ hsame]
          rfl
      | outside => exact hresult.elim

/-- Where the parser on positions ends does not depend on how deep its calls may go. -/
theorem exists_parse (limit : Option Nat) (tokens : List Token) (d : Diagnostics)
    (env : Environment) : ∃ e c, readTokens limit tokens d env = ⟨e, c.diagnostics, c.environment⟩ ∧
      c.position ≤ (complete tokens).findIdx (·.kind == .finish) ∧
      ∀ bound, (complete tokens).length ≤ bound →
        ∀ tokens', SameUpTo c.position (complete tokens) (complete tokens') →
          parse limit bound tokens' d env = some (.ok e, c) := by
  obtain ⟨l, hl, hstart⟩ := exists_split tokens d env
  obtain ⟨e, t, hrun⟩ : ∃ e t, Parser.run limit (.ofTokens tokens env d) = (e, t) := ⟨_, _, rfl⟩
  obtain ⟨c, hc, -⟩ := parse_of_run hl hstart hrun (Nat.le_refl _)
  refine ⟨e, c, ?_, ?_, fun bound hbound => ?_⟩
  · rw [readTokens, hrun, hc.diagnostics, hc.environment]
  · rw [← hl, l.findIdx_tokens]
    exact hc.position_le
  · obtain ⟨c', hc', hparse⟩ := parse_of_run hl hstart hrun (hl ▸ hbound)
    cases hc.unique hc'
    exact hparse

/-- Lists on which the parser on positions ends in the same way are read in the same way. -/
theorem readTokens_eq_of_parse_eq {tokens' : List Token} {bound : Nat}
    (hbound : (complete tokens).length ≤ bound) (hbound' : (complete tokens').length ≤ bound)
    (h : parse limit bound tokens' d env = parse limit bound tokens d env) :
    readTokens limit tokens' d env = readTokens limit tokens d env := by
  obtain ⟨e, c, hreads, -, hparse⟩ := exists_parse limit tokens d env
  obtain ⟨e', c', hreads', -, hparse'⟩ := exists_parse limit tokens' d env
  rw [hparse bound hbound tokens rfl, hparse' bound hbound' tokens' rfl] at h
  cases h
  rw [hreads, hreads']

/-- Lists that are the same up to an end of the line are completed in the same way up to there. -/
theorem sameUpTo_complete_of_finish {front later later' : List Token} {stop : Token}
    (hstop : stop.kind = .finish) :
    SameUpTo ((complete (front ++ stop :: later)).findIdx (·.kind == .finish))
      (complete (front ++ stop :: later)) (complete (front ++ stop :: later')) := by
  obtain ⟨ending, hcomplete⟩ := complete_of_finish front later hstop
  obtain ⟨ending', hcomplete'⟩ := complete_of_finish front later' hstop
  rw [hcomplete, hcomplete']
  have hsame : SameUpTo (front.filter (·.kind != .space)).length
      (front.filter (·.kind != .space) ++ stop :: ending)
      (front.filter (·.kind != .space) ++ stop :: ending') := by
    simp [SameUpTo, List.take_append]
  refine hsame.mono (Nat.le_of_not_lt fun hlt => ?_)
  have hnot := List.not_of_lt_findIdx hlt
  simp [hstop] at hnot

/--
On every list of tokens the parser on positions ends, with calls that are nested no deeper than
there are tokens, is never outside of the list, and reads what the line is read as. It does not come
past the first end of the line, and sees no token behind its last position: what is the same up to
there, and at it, is parsed in the same way, and so what stands after an end of the line does not
matter.
-/
theorem parse_looks_one_token_ahead (limit : Option Nat) (tokens : List Token) (d : Diagnostics)
    (env : Environment) :
    ∃ e c, (∀ bound, (complete tokens).length ≤ bound →
        parse limit bound tokens d env = some (.ok e, c)) ∧
      readTokens limit tokens d env = ⟨e, c.diagnostics, c.environment⟩ ∧
      (complete tokens).findIdx (·.kind == .finish) < (complete tokens).length ∧
      c.position ≤ (complete tokens).findIdx (·.kind == .finish) ∧
      (∀ tokens', SameUpTo c.position (complete tokens) (complete tokens') →
        (∀ bound, (complete tokens).length ≤ bound →
          parse limit bound tokens' d env = some (.ok e, c)) ∧
        readTokens limit tokens' d env = readTokens limit tokens d env) ∧
      ∀ front stop later later', tokens = front ++ stop :: later → stop.kind = .finish →
        readTokens limit (front ++ stop :: later') d env = readTokens limit tokens d env := by
  obtain ⟨e, c, hreads, hposition, hparse⟩ := exists_parse limit tokens d env
  have hlocal (tokens' : List Token)
      (hsame : SameUpTo c.position (complete tokens) (complete tokens')) :
      readTokens limit tokens' d env = readTokens limit tokens d env := by
    refine readTokens_eq_of_parse_eq (Nat.le_max_left _ _) (Nat.le_max_right _ _) ?_
    rw [hparse _ (Nat.le_max_left _ _) tokens' hsame, hparse _ (Nat.le_max_left _ _) tokens rfl]
  refine ⟨e, c, fun bound hbound => hparse bound hbound tokens rfl, hreads, ?_, hposition, ?_, ?_⟩
  · obtain ⟨l, hl, -⟩ := exists_split tokens d env
    rw [← hl, l.findIdx_tokens]
    simp [Split.tokens]
  · exact fun tokens' hsame => ⟨fun bound hbound => hparse bound hbound tokens' hsame,
      hlocal tokens' hsame⟩
  · intro front stop later later' htokens hstop
    subst htokens
    exact hlocal _ ((sameUpTo_complete_of_finish hstop).mono hposition)

end Parse

end Cursor

end Parser

end Calculator
