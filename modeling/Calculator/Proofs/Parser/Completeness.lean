import Calculator.Proofs.Grammar.Resolution
import Calculator.Proofs.Parser.Soundness

/-!
# What the rules accept

Where the tokens ahead are those of a well-formed phrase that is not nested too
deeply, the rules read the phrase to its end and arrive at its tree, or report
the one fault that its reading has.
-/

namespace Calculator

namespace Token

theorem kind_of_symbol_mark {t : Token} {k : TokenKind} (h : t.symbol = .mark k) : t.kind = k := by
  unfold symbol at h
  split at h
  · cases h
  · cases h
  next => simpa using h

theorem kind_of_symbol_number {t : Token} {value : Binary64} (h : t.symbol = .number value) :
    t.kind = .number value := by
  unfold symbol at h
  split at h
  next hk =>
    cases h
    exact hk
  · cases h
  · cases h

theorem of_symbol_name {t : Token} {n : String} (h : t.symbol = .name n) :
    t.kind = .identifier ∧ t.lexeme = n := by
  unfold symbol at h
  split at h
  · cases h
  next hk =>
    cases h
    exact ⟨hk, rfl⟩
  · cases h

end Token

theorem Phrase.depth_pos (p : Phrase) : 0 < p.depth := by
  cases p <;> exact Nat.succ_pos _

/-- Before what does not attach, a negated expression ends. -/
theorem TokenKind.closes_negationFloor {k : TokenKind} (h : k.attaches = false) :
    k.Closes Priority.negationFloor := by
  refine ⟨h, ?_⟩
  cases hop : k.operator? with
  | none => exact precedence_of_no_operator? hop ▸ Nat.zero_le _
  | some op => exact precedence_of_operator? hop ▸ Nat.le_of_lt op.precedence_lt_negationFloor

namespace Parser

/-! ## Tokens ahead -/

def firstKind (rest : List Token) : TokenKind :=
  (rest.head?.map Token.kind).getD .finish

theorem State.next_kind (s : State Environment) : s.next.kind = firstKind s.rest := by
  unfold next firstKind
  cases s.rest <;> rfl

def Spells (ahead : List Token) (symbols : List Symbol) (rest : List Token) : Prop :=
  ∃ tokens, ahead = tokens ++ rest ∧ tokens.map Token.symbol = symbols

section Spells

variable {ahead rest : List Token} {x : Symbol} {xs ys : List Symbol}

theorem Spells.cons (h : Spells ahead (x :: xs) rest) :
    ∃ token mid, ahead = token :: mid ∧ token.symbol = x ∧ Spells mid xs rest := by
  obtain ⟨tokens, rfl, hmap⟩ := h
  obtain ⟨token, tail, rfl, hx, hxs⟩ := List.map_eq_cons_iff.1 hmap
  exact ⟨token, tail ++ rest, rfl, hx, tail, rfl, hxs⟩

theorem Spells.single (h : Spells ahead [x] rest) :
    ∃ token, ahead = token :: rest ∧ token.symbol = x := by
  obtain ⟨token, mid, rfl, hx, tokens, rfl, hnil⟩ := h.cons
  cases List.map_eq_nil_iff.1 hnil
  exact ⟨token, rfl, hx⟩

theorem Spells.append (h : Spells ahead (xs ++ ys) rest) :
    ∃ mid, Spells ahead xs mid ∧ Spells mid ys rest := by
  obtain ⟨tokens, rfl, hmap⟩ := h
  obtain ⟨front, back, rfl, hxs, hys⟩ := List.map_eq_append_iff.1 hmap
  exact ⟨back ++ rest, ⟨front, List.append_assoc .., hxs⟩, back, rfl, hys⟩

end Spells

/-- The phrase is next, there is room to read it, and no fault has been found. -/
structure Ahead (limit : Option Nat) (s : State Environment) (p : Phrase)
    (rest : List Token) : Prop where
  spells : Spells s.rest p.symbols rest
  wellFormed : p.WellFormed
  endsBefore : p.EndsBefore (firstKind rest)
  allowed : allowsDepth limit (s.nesting + p.depth)
  faultless : s.diagnostics.isEmpty

def Aborts (onAbort : State Environment → Prop) (d : Diagnostics) (fault : Fault) : Prop :=
  ∀ t span, t.diagnostics = d.report span fault → onAbort t

/--
Where the phrase is next, an operand is it or goes on from it, if its reading has
no fault, and aborts with the fault that its reading has otherwise.
-/
def Complete (limit : Option Nat) (p : Phrase) : Prop :=
  ∀ {floor : Nat} {s : State Environment} {rest : List Token}
    {onOk : Node → State Environment → Prop} {onAbort : State Environment → Prop},
    Ahead limit s p rest → p.Above floor →
    p.Resolves s.inBody s.environment
      (fun e env => ∀ span, (extend limit floor ⟨e, span, p.depth⟩
        { s with rest := rest, environment := env, nesting := s.nesting + 1 }).Satisfies
          onOk onAbort)
      (Aborts onAbort s.diagnostics) →
    (operand limit floor { s with nesting := s.nesting + 1 }).Satisfies onOk onAbort

section Complete

variable {limit : Option Nat} {p : Phrase} {s : State Environment} {floor : Nat} {rest : List Token}
  {onAbort : State Environment → Prop}

theorem Complete.expr {onOk : Node → State Environment → Prop} (hp : Complete limit p)
    (h : Ahead limit s p rest) (above : p.Above floor) (hclosed : (firstKind rest).Closes floor)
    (hres : p.Resolves s.inBody s.environment
      (fun e env => ∀ span, onOk ⟨e, span, p.depth⟩ { s with rest := rest, environment := env })
      (Aborts onAbort s.diagnostics)) :
    (expr limit floor s).Satisfies onOk onAbort := by
  have hpos := p.depth_pos
  rw [satisfies_expr, if_pos (allowsDepth_mono h.allowed (by omega))]
  refine hp h above (hres.imp (fun e env _ he span => ?_) fun fault hf t span ht => hf _ span ht)
  rw [satisfies_extend_closed (by rw [State.next_kind]; exact hclosed)]
  exact he span

theorem Complete.enclosed {onOk : Node → Token → State Environment → Prop} (hp : Complete limit p)
    (hspells : Spells s.rest (p.symbols ++ [.mark .rightParen]) rest) (hwell : p.WellFormed)
    (hallowed : allowsDepth limit (s.nesting + p.depth)) (faultless : s.diagnostics.isEmpty)
    (hres : p.Resolves s.inBody s.environment
      (fun e env => ∀ span closing,
        onOk ⟨e, span, p.depth⟩ closing { s with rest := rest, environment := env })
      (Aborts onAbort s.diagnostics)) :
    (Parser.expr limit 0 s).Satisfies
      (fun inner t => (closingParen t).Satisfies (onOk inner) onAbort) onAbort := by
  obtain ⟨mid, hp', hparen⟩ := hspells.append
  obtain ⟨token, rfl, hsymbol⟩ := hparen.single
  have hk := Token.kind_of_symbol_mark hsymbol
  have hclosed : (firstKind (token :: rest)).Closes 0 := by
    rw [show firstKind (token :: rest) = .rightParen from hk]
    exact ⟨rfl, Nat.le_refl 0⟩
  refine hp.expr ⟨hp', hwell, Phrase.endsBefore_of_closes hclosed, hallowed, faultless⟩
    (fun _ _ => Nat.pos_of_ne_zero ?_) hclosed (hres.imp (fun e env _ he span => ?_) fun _ => id)
  · exact Nat.ne_of_gt (BinaryOp.precedence_pos _)
  · rw [satisfies_closingParen, if_pos (by exact hk)]
    exact he span token

/-! ## Names -/

theorem resolve_alone {n : String} (h : (Phrase.name n).EndsBefore s.next.kind) :
    resolve s n = Phrase.readName s.inBody s.environment n := by
  obtain ⟨hparen, hequals, hcolon⟩ := h
  unfold resolve Phrase.readName
  simp only [hequals, hcolon, hparen, or_self, if_false, Environment.scope_lookup]
  split
  next => rfl
  next =>
    cases s.environment.lookup n with
    | none => rfl
    | some binding => cases binding <;> rfl

theorem resolve_declared {n : String} (h : s.next.kind = .equals ∨ s.next.kind = .colon) :
    resolve s n = .ok (.name n) := by
  unfold resolve
  simp only [h, if_true]

theorem resolve_called {n : String} (h : s.next.kind = .leftParen) :
    resolve s n =
      if ¬(s.inBody ∧ n = parameterName) ∧ s.environment.lookup n = none then
        .error (.unknownName n)
      else .ok (.name n) := by
  unfold resolve
  simp only [h, reduceCtorEq, or_self, if_false, if_true]
  by_cases hparameter : s.inBody ∧ n = parameterName
  · simp [hparameter]
  · simp only [hparameter, if_false, not_false_eq_true, true_and, Environment.scope_lookup]
    cases s.environment.lookup n <;> simp

theorem complete_number (limit : Option Nat) (value : Binary64) :
    Complete limit (.number value) := by
  intro floor s rest onOk onAbort h above hres
  obtain ⟨token, hrest, hsymbol⟩ := h.spells.single
  rw [satisfies_operand_number (s := { s with nesting := s.nesting + 1 }) hrest
    (Token.kind_of_symbol_number hsymbol)]
  exact hres token.span

theorem complete_name (limit : Option Nat) (n : String) : Complete limit (.name n) := by
  intro floor s rest onOk onAbort h above hres
  obtain ⟨token, hrest, hsymbol⟩ := h.spells.single
  obtain ⟨hk, hlexeme⟩ := Token.of_symbol_name hsymbol
  rw [satisfies_operand_identifier (s := { s with nesting := s.nesting + 1 }) hrest hk, hlexeme,
    resolve_alone (by rw [State.next_kind]; exact h.endsBefore)]
  rw [Phrase.resolves_name] at hres
  split at hres
  next e hread =>
    rw [hread]
    exact hres token.span
  next fault hread =>
    rw [hread]
    exact hres _ token.span rfl

theorem complete_neg (hp : Complete limit p) : Complete limit (.neg p) := by
  intro floor s rest onOk onAbort h above hres
  obtain ⟨token, mid, hrest, hsymbol, hspells⟩ := h.spells.cons
  obtain ⟨hattach, hends⟩ := h.endsBefore
  have hallowed : allowsDepth limit (s.nesting + 1 + p.depth) :=
    allowsDepth_mono h.allowed (by simp [Phrase.depth]; omega)
  rw [satisfies_operand_minus (s := { s with nesting := s.nesting + 1 }) hrest
    (Token.kind_of_symbol_mark hsymbol)]
  rw [Phrase.resolves_neg] at hres
  refine hp.expr ⟨hspells, h.wellFormed.1, hends, hallowed, h.faultless⟩ h.wellFormed.2
    (TokenKind.closes_negationFloor hattach) (hres.imp (fun e env _ he span => ?_) fun _ => id)
  rw [satisfies_nest, if_pos (allowsDepth_mono hallowed (by dsimp only; omega))]
  exact he _

theorem complete_factorial (hp : Complete limit p) : Complete limit (.factorial p) := by
  intro floor s rest onOk onAbort h above hres
  obtain ⟨mid, hspells, hbang⟩ := h.spells.append
  obtain ⟨token, rfl, hsymbol⟩ := hbang.single
  have hk := Token.kind_of_symbol_mark hsymbol
  have hallowed : allowsDepth limit (p.depth + 1) :=
    allowsDepth_mono h.allowed (by simp [Phrase.depth])
  rw [Phrase.resolves_factorial] at hres
  refine hp ⟨hspells, h.wellFormed.1, ?_, allowsDepth_mono h.allowed ?_, h.faultless⟩ ?_
    (hres.imp (fun e env _ he span => ?_) fun _ => id)
  · rw [show firstKind (token :: rest) = .bang from hk]
    exact h.wellFormed.2
  · simp [Phrase.depth]
  · exact Phrase.above_of_operator?_eq_none
      (Phrase.operator?_eq_none_of_endsBefore h.wellFormed.2 rfl)
  · rw [satisfies_extend_bang (by rfl) hk]
    dsimp only
    split at he
    next natural =>
      rw [if_pos natural, satisfies_nest, if_pos hallowed]
      exact he _
    next unnatural =>
      rw [if_neg unnatural]
      exact he _ _ rfl

theorem complete_binary {l r : Phrase} {op : BinaryOp} (hl : Complete limit l)
    (hr : Complete limit r) : Complete limit (.binary l op r) := by
  intro floor s rest onOk onAbort h above hres
  obtain ⟨mid, hspells, hmid⟩ := h.spells.append
  obtain ⟨token, tail, rfl, hsymbol, hspells'⟩ := hmid.cons
  obtain ⟨hwell, hends, hwell', habove'⟩ := h.wellFormed
  obtain ⟨hattach, hprecedence, hends'⟩ := h.endsBefore
  have hk := Token.kind_of_symbol_mark hsymbol
  have hop : token.kind.operator? = some op := by rw [hk, op.operator?_kind]
  have hfloor : floor < op.precedence := above op rfl
  have hdepth : (Phrase.binary l op r).depth = max l.depth r.depth + 1 := rfl
  rw [Phrase.resolves_binary] at hres
  refine hl ⟨hspells, hwell, ?_, allowsDepth_mono h.allowed ?_, h.faultless⟩ ?_
    (hres.imp (fun e env _ he span => ?_) fun _ => id)
  · rw [show firstKind (token :: tail) = op.kind from hk]
    exact hends
  · rw [hdepth]
    omega
  · intro inner hinner
    have hle := Phrase.precedence_le_of_endsBefore hends inner hinner
    rw [op.precedence_kind] at hle
    exact Nat.lt_of_lt_of_le hfloor hle
  · rw [satisfies_extend_operator (by rfl) hop, satisfies_chain_operator (by rfl) hop,
      if_neg (Nat.not_le.2 hfloor)]
    refine hr.expr ⟨hspells', hwell', hends', allowsDepth_mono h.allowed ?_, h.faultless⟩ habove'
      ⟨hattach, hprecedence⟩ (he.imp (fun d env' _ hd span' => ?_) fun _ => id)
    · rw [hdepth]
      dsimp only
      omega
    · rw [satisfies_nest, if_pos (allowsDepth_mono h.allowed (by rw [hdepth]; dsimp only; omega)),
        satisfies_extend_closed (by rw [State.next_kind]; exact ⟨hattach, hprecedence⟩),
        ← satisfies_extend_chain (by rw [State.next_kind]; exact hattach)]
      exact hd _

theorem complete_product {l : Phrase} (hl : Complete limit l) (hp : Complete limit p) :
    Complete limit (.product l p) := by
  intro floor s rest onOk onAbort h above hres
  obtain ⟨mid, hspells, hmid⟩ := h.spells.append
  obtain ⟨token, tail, rfl, hsymbol, hspells'⟩ := hmid.cons
  obtain ⟨hwell, hends, hwell'⟩ := h.wellFormed
  have hk := Token.kind_of_symbol_mark hsymbol
  have hdepth : (Phrase.product l p).depth = max l.depth (p.depth + 1) + 1 := rfl
  rw [Phrase.resolves_product] at hres
  refine hl ⟨hspells, hwell, ?_, allowsDepth_mono h.allowed ?_, h.faultless⟩ ?_
    (hres.imp (fun e env hreads he span => ?_) fun _ => id)
  · rw [show firstKind (token :: tail) = .leftParen from hk]
    exact hends
  · rw [hdepth]
    omega
  · exact Phrase.above_of_operator?_eq_none (Phrase.operator?_eq_none_of_endsBefore hends rfl)
  · have hname (n : String) : e ≠ .name n := by
      rintro rfl
      rw [hreads.eq_name] at hends
      exact hends.1 rfl
    rw [satisfies_extend_leftParen (by rfl) hk, satisfies_product hname, satisfies_grouping]
    refine hp.enclosed hspells' hwell' (allowsDepth_mono h.allowed ?_) h.faultless
      (he.imp (fun d env' _ hd span' closing => ?_) fun _ => id)
    · rw [hdepth]
      dsimp only
      omega
    · rw [satisfies_nest, if_pos (allowsDepth_mono h.allowed (by rw [hdepth]; dsimp only; omega)),
        satisfies_nest, if_pos (allowsDepth_mono h.allowed (by rw [hdepth]; dsimp only; omega))]
      exact hd _

theorem complete_grouping (hp : Complete limit p) : Complete limit (.grouping p) := by
  intro floor s rest onOk onAbort h above hres
  obtain ⟨token, mid, hrest, hsymbol, hspells⟩ := h.spells.cons
  have hallowed : allowsDepth limit (s.nesting + 1 + p.depth) :=
    allowsDepth_mono h.allowed (by simp [Phrase.depth]; omega)
  rw [satisfies_operand_leftParen (s := { s with nesting := s.nesting + 1 }) hrest
    (Token.kind_of_symbol_mark hsymbol), satisfies_grouping]
  rw [Phrase.resolves_grouping] at hres
  refine hp.enclosed hspells h.wellFormed hallowed h.faultless
    (hres.imp (fun e env _ he span closing => ?_) fun _ => id)
  rw [satisfies_nest, if_pos (allowsDepth_mono hallowed (by dsimp only; omega))]
  exact he _

theorem complete_call (hp : Complete limit p) (n : String) : Complete limit (.call n p) := by
  intro floor s rest onOk onAbort h above hres
  obtain ⟨token, mid, hrest, hsymbol, hmid⟩ := h.spells.cons
  obtain ⟨opening, tail, rfl, hopening, hspells⟩ := hmid.cons
  obtain ⟨hk, hlexeme⟩ := Token.of_symbol_name hsymbol
  have hparen := Token.kind_of_symbol_mark hopening
  have hallowed : allowsDepth limit (s.nesting + 1 + p.depth) :=
    allowsDepth_mono h.allowed (by simp [Phrase.depth]; omega)
  rw [satisfies_operand_identifier (s := { s with nesting := s.nesting + 1 }) hrest hk, hlexeme,
    resolve_called (by rw [State.next_kind]; exact hparen)]
  rw [Phrase.resolves_call] at hres
  unfold Phrase.readCallee at hres
  by_cases hunknown : ¬(s.inBody ∧ n = parameterName) ∧ s.environment.lookup n = none
  · rw [if_pos hunknown] at hres
    rw [if_pos (by exact hunknown)]
    exact hres _ _ rfl
  · rw [if_neg hunknown] at hres
    rw [if_neg (by exact hunknown)]
    dsimp only
    rw [satisfies_extend_leftParen (by rfl) hparen, satisfies_call (by rfl)]
    dsimp only
    cases hcallee : callee? s.environment n with
    | none =>
        rw [hcallee] at hres
        exact hres _ _ rfl
    | some apply =>
        rw [hcallee] at hres
        refine hp.enclosed hspells h.wellFormed hallowed h.faultless
          (hres.imp (fun e env _ he span closing => ?_) fun _ => id)
        rw [satisfies_nest, if_pos (allowsDepth_mono hallowed (by dsimp only; omega))]
        exact he _

/-! ## Declarations -/

/-- A name before the sign of a declaration is the fault that its reading has, or declared. -/
theorem declared_cases {n : String} {inBody : Fault} {onFault : Fault → Prop} {declares : Prop}
    (span sign : Span) (target : Fault)
    (h : if s.inBody then onFault inBody
      else if s.environment.contains n then onFault (.alreadyExists n)
      else declares) :
    (∃ place fault, declared s (.leaf (.name n) span) inBody target sign = .error (place, fault) ∧
        onFault fault) ∨
      declared s (.leaf (.name n) span) inBody target sign = .ok n ∧ s.inBody = false ∧
        declares := by
  unfold declared
  split at h
  next hbody => exact .inl ⟨sign, inBody, if_pos hbody, h⟩
  next hbody =>
    rw [if_neg hbody]
    split at h
    next hbound => exact .inl ⟨span, .alreadyExists n, if_pos hbound, h⟩
    next hbound => exact .inr ⟨if_neg hbound, Bool.eq_false_iff.2 hbody, h⟩

theorem complete_assignment (hp : Complete limit p) (n : String) :
    Complete limit (.assignment n p) := by
  intro floor s rest onOk onAbort h above hres
  obtain ⟨token, mid, hrest, hsymbol, hmid⟩ := h.spells.cons
  obtain ⟨sign, tail, rfl, hsign, hspells⟩ := hmid.cons
  obtain ⟨hk, hlexeme⟩ := Token.of_symbol_name hsymbol
  have hequals := Token.kind_of_symbol_mark hsign
  obtain ⟨hattach, hzero, hends⟩ := h.endsBefore
  have hallowed : allowsDepth limit (s.nesting + 1 + p.depth) :=
    allowsDepth_mono h.allowed (by simp [Phrase.depth]; omega)
  rw [satisfies_operand_identifier (s := { s with nesting := s.nesting + 1 }) hrest hk, hlexeme,
    resolve_declared (.inl (by rw [State.next_kind]; exact hequals))]
  dsimp only
  rw [satisfies_extend_equals (by rfl) hequals]
  rw [Phrase.resolves_assignment] at hres
  rcases declared_cases (s := { s with rest := sign :: tail, nesting := s.nesting + 1 })
    token.span sign.span .assignmentTarget hres with
    ⟨place, fault, hdeclared, hfault⟩ | ⟨hdeclared, hbody, hres⟩
  · rw [hdeclared]
    exact hfault _ _ rfl
  · rw [hdeclared]
    dsimp only at hbody ⊢
    rw [satisfies_assignment]
    rw [← hbody] at hres
    refine hp.expr ⟨hspells, h.wellFormed, hends, hallowed, h.faultless⟩
      (fun op _ => op.precedence_pos) ⟨hattach, Nat.le_of_eq hzero⟩
      (hres.imp (fun e env _ he span => ?_) fun _ => id)
    rw [satisfies_commit_declare, if_pos (by exact h.faultless)]
    dsimp only
    cases hdeclare : env.declare n e.evaluate with
    | error fault =>
        rw [hdeclare] at he
        exact he _ _ rfl
    | ok env' =>
        rw [hdeclare] at he
        dsimp only
        rw [satisfies_nest, if_pos (allowsDepth_mono hallowed (by omega))]
        exact he _

theorem complete_definition (hp : Complete limit p) (n : String) :
    Complete limit (.definition n p) := by
  intro floor s rest onOk onAbort h above hres
  obtain ⟨token, mid, hrest, hsymbol, hmid⟩ := h.spells.cons
  obtain ⟨sign, tail, rfl, hsign, hspells⟩ := hmid.cons
  obtain ⟨hk, hlexeme⟩ := Token.of_symbol_name hsymbol
  have hcolon := Token.kind_of_symbol_mark hsign
  obtain ⟨hattach, hzero, hends⟩ := h.endsBefore
  have hallowed : allowsDepth limit (s.nesting + 1 + p.depth) :=
    allowsDepth_mono h.allowed (by simp [Phrase.depth]; omega)
  rw [satisfies_operand_identifier (s := { s with nesting := s.nesting + 1 }) hrest hk, hlexeme,
    resolve_declared (.inr (by rw [State.next_kind]; exact hcolon))]
  dsimp only
  rw [satisfies_extend_colon (by rfl) hcolon]
  rw [Phrase.resolves_definition] at hres
  rcases declared_cases (s := { s with rest := sign :: tail, nesting := s.nesting + 1 })
    token.span sign.span .definitionTarget hres with
    ⟨place, fault, hdeclared, hfault⟩ | ⟨hdeclared, hbody, hres⟩
  · rw [hdeclared]
    exact hfault _ _ rfl
  · rw [hdeclared]
    dsimp only at hbody ⊢
    rw [satisfies_definition]
    refine hp.expr ⟨hspells, h.wellFormed, hends, hallowed, h.faultless⟩
      (fun op _ => op.precedence_pos) ⟨hattach, Nat.le_of_eq hzero⟩
      (hres.imp (fun e env _ he span => ?_) fun fault hf t span ht => hf _ span ht)
    rw [satisfies_commit_define, if_pos (by exact h.faultless)]
    dsimp only
    cases hdefine : env.define n e with
    | error fault =>
        rw [hdefine] at he
        exact he _ _ rfl
    | ok env' =>
        rw [hdefine, hbody] at he
        dsimp only
        rw [satisfies_nest, if_pos (allowsDepth_mono hallowed (by omega))]
        exact he _

theorem complete (limit : Option Nat) (p : Phrase) : Complete limit p := by
  induction p with
  | number value => exact complete_number limit value
  | name n => exact complete_name limit n
  | neg p ih => exact complete_neg ih
  | factorial p ih => exact complete_factorial ih
  | binary l op r ihl ihr => exact complete_binary ihl ihr
  | product l p ihl ih => exact complete_product ihl ih
  | grouping p ih => exact complete_grouping ih
  | call n p ih => exact complete_call ih n
  | assignment n p ih => exact complete_assignment ih n
  | definition n p ih => exact complete_definition ih n

end Complete

end Parser

end Calculator
