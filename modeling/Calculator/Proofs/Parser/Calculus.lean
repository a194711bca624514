import Calculator.Proofs.Grammar.Phrase

/-!
# A calculus for the rules of the grammar

A condition on where a parser arrives is traced back through its steps: each
statement below gives, for one rule and one next token, what the parts of the
rule have to satisfy. Later modules argue from these and unfold no rule.
-/

namespace Calculator

namespace Parser

variable {E α β : Type} {m n : Nat}

namespace Outcome

/-- One condition on what is arrived at, and one on where a fault leaves the parser. -/
def Satisfies (o : Outcome E n α) (onOk : α → State E → Prop) (onAbort : State E → Prop) : Prop :=
  match o with
  | ok value state _ => onOk value state
  | abort state => onAbort state

variable {onOk : α → State E → Prop} {onAbort : State E → Prop}

@[simp] theorem satisfies_ok {a : α} {s : State E} {h : s.rest.length < n} :
    (ok a s h : Outcome E n α).Satisfies onOk onAbort ↔ onOk a s := Iff.rfl

@[simp] theorem satisfies_abort {s : State E} :
    (abort s : Outcome E n α).Satisfies onOk onAbort ↔ onAbort s := Iff.rfl

@[simp] theorem satisfies_weaken {h : m ≤ n} {o : Outcome E m α} :
    (o.weaken h).Satisfies onOk onAbort ↔ o.Satisfies onOk onAbort := by
  cases o <;> rfl

@[simp] theorem satisfies_mapState {f : State E → State E} {h : ∀ s, (f s).rest = s.rest}
    {o : Outcome E n α} :
    (o.mapState f h).Satisfies onOk onAbort ↔
      o.Satisfies (fun a s => onOk a (f s)) fun s => onAbort (f s) := by
  cases o <;> rfl

theorem bind_ok {a : α} {s : State E} {h : s.rest.length < m}
    {f : (value : α) → (state : State E) → state.rest.length < m → Outcome E n β} :
    (ok a s h : Outcome E m α).bind f = f a s h := rfl

/-- The bound that a continuation is given does not matter to what it satisfies. -/
theorem satisfies_bind {o : Outcome E m α}
    {f : (value : α) → (state : State E) → state.rest.length < m → Outcome E n β}
    {onOk : β → State E → Prop} {next : α → State E → Prop}
    (h : ∀ a s hs, (f a s hs).Satisfies onOk onAbort ↔ next a s) :
    (o.bind f).Satisfies onOk onAbort ↔ o.Satisfies next onAbort := by
  cases o with
  | ok a s hs => exact h a s hs
  | abort s => rfl

theorem Satisfies.imp {o : Outcome E n α} {onOk' : α → State E → Prop} {onAbort' : State E → Prop}
    (h : o.Satisfies onOk onAbort) (hok : ∀ a s, onOk a s → onOk' a s)
    (habort : ∀ s, onAbort s → onAbort' s) : o.Satisfies onOk' onAbort' := by
  cases o with
  | ok a s hs => exact hok a s h
  | abort s => exact habort s h

/-- Two conditions on what is arrived at. -/
theorem Satisfies.and {o : Outcome E n α} {onOk' : α → State E → Prop} {onAbort' : State E → Prop}
    (h : o.Satisfies onOk onAbort) (h' : o.Satisfies onOk' onAbort') :
    o.Satisfies (fun a s => onOk a s ∧ onOk' a s) onAbort := by
  cases o with
  | ok a s hs => exact ⟨h, h'⟩
  | abort s => exact h

/-- What is arrived at keeps to its bound. -/
theorem Satisfies.bounded {o : Outcome E n α} (h : o.Satisfies onOk onAbort) :
    o.Satisfies (fun a s => s.rest.length < n ∧ onOk a s) onAbort := by
  cases o with
  | ok a s hs => exact ⟨hs, h⟩
  | abort s => exact h

theorem satisfies_self (o : Outcome E n α) :
    o.Satisfies (fun a t => ∃ h, o = .ok a t h) fun t => o = .abort t := by
  cases o with
  | ok a t h => exact ⟨h, rfl⟩
  | abort t => rfl

end Outcome

namespace State

def symbols (s : State E) : List Symbol :=
  s.rest.map Token.symbol

theorem rest_cases (s : State E) : s.rest = [] ∨ ∃ token rest, s.rest = token :: rest := by
  cases s.rest with
  | nil => exact .inl rfl
  | cons token rest => exact .inr ⟨token, rest, rfl⟩

theorem next_of_rest {s : State E} {token : Token} {rest : List Token}
    (h : s.rest = token :: rest) :
    s.next = token := by
  simp [next, h]

theorem next_of_nil {s : State E} (h : s.rest = []) : s.next = ⟨.finish, s.stop, ""⟩ := by
  simp [next, h]

end State

variable {limit : Option Nat} {floor : Nat} {left : Node} {s : State E} {token : Token}
  {rest : List Token} {onOk : Node → State E → Prop} {onAbort : State E → Prop}

/-! ## Steps -/

theorem satisfies_nest {span : Span} {e : Expr} {depth : Nat} :
    (nest limit s span e depth).Satisfies onOk onAbort ↔
      if allowsDepth limit (depth + 1) then onOk ⟨e, span, depth + 1⟩ s
      else onAbort (s.report span .tooDeep) := by
  unfold nest
  split <;> rfl

theorem satisfies_commit {span : Span} {change : E → Except Fault Unit × E}
    {onOk : Unit → State E → Prop} :
    (commit s span change).Satisfies onOk onAbort ↔
      if s.diagnostics.isEmpty then
        match change s.environment with
        | (.ok _, env) => onOk () { s with environment := env }
        | (.error fault, env) => onAbort (State.report { s with environment := env } span fault)
      else onAbort s := by
  unfold commit
  split
  next =>
    obtain ⟨result, env⟩ := change s.environment
    cases result with
    | ok u => rfl
    | error fault => rfl
  next => rfl

section Environment

variable {s : State Environment} {span : Span} {n : String} {onOk : Unit → State Environment → Prop}
  {onAbort : State Environment → Prop}

/-- A change that is refused leaves the environment as it was. -/
theorem satisfies_commit_attempt {change : Environment → Except Fault Environment} :
    (commit s span (Environment.attempt change)).Satisfies onOk onAbort ↔
      if s.diagnostics.isEmpty then
        match change s.environment with
        | .ok env => onOk () { s with environment := env }
        | .error fault => onAbort (s.report span fault)
      else onAbort s := by
  rw [satisfies_commit, Environment.attempt]
  cases change s.environment with
  | ok env => rfl
  | error fault => rfl

theorem satisfies_commit_declare {value : Binary64} :
    (commit s span fun env => Scope.declare env n value).Satisfies onOk onAbort ↔
      if s.diagnostics.isEmpty then
        match s.environment.declare n value with
        | .ok env => onOk () { s with environment := env }
        | .error fault => onAbort (s.report span fault)
      else onAbort s :=
  satisfies_commit_attempt

theorem satisfies_commit_define {body : Expr} :
    (commit s span fun env => Scope.define env n body).Satisfies onOk onAbort ↔
      if s.diagnostics.isEmpty then
        match s.environment.define n body with
        | .ok env => onOk () { s with environment := env }
        | .error fault => onAbort (s.report span fault)
      else onAbort s :=
  satisfies_commit_attempt

theorem satisfies_commit_remove :
    (commit s span fun env => Scope.remove env n).Satisfies onOk onAbort ↔
      if s.diagnostics.isEmpty then
        match (s.environment.remove n).map (·.2) with
        | .ok env => onOk () { s with environment := env }
        | .error fault => onAbort (s.report span fault)
      else onAbort s :=
  satisfies_commit_attempt

end Environment

theorem satisfies_closingParen {onOk : Token → State E → Prop} :
    (closingParen s).Satisfies onOk onAbort ↔
      if s.next.kind = .rightParen then onOk s.next { s with rest := s.rest.tail }
      else onAbort (s.report s.next.span .expectedClosingParen) := by
  obtain ⟨tokens, stop, env, diagnostics, inBody, nesting⟩ := s
  cases tokens with
  | nil => rfl
  | cons token rest =>
      by_cases hk : token.kind = .rightParen
      · simp [closingParen, State.next, hk]
      · simp [closingParen, State.next, hk]

/-- A token that binds tighter than the floor is an operator. -/
theorem operator_of_precedence (h : ¬s.next.kind.precedence ≤ floor) :
    ∃ token rest op, s.rest = token :: rest ∧ token.kind.operator? = some op ∧
      floor < op.precedence := by
  rcases s.rest_cases with hrest | ⟨token, rest, hrest⟩
  · rw [State.next_of_nil hrest] at h
    exact absurd (Nat.zero_le floor) h
  · rw [State.next_of_rest hrest] at h
    cases hop : token.kind.operator? with
    | none =>
        rw [TokenKind.precedence_of_no_operator? hop] at h
        exact absurd (Nat.zero_le floor) h
    | some op =>
        rw [TokenKind.precedence_of_operator? hop] at h
        exact ⟨token, rest, op, hrest, hop, Nat.lt_of_not_le h⟩

variable [Scope E]

/-! ## Expressions and operands -/

theorem satisfies_expr :
    (expr limit floor s).Satisfies onOk onAbort ↔
      if allowsDepth limit (s.nesting + 1) then
        (operand limit floor { s with nesting := s.nesting + 1 }).Satisfies
          (fun node t => onOk node { t with nesting := t.nesting - 1 })
          fun t => onAbort { t with nesting := t.nesting - 1 }
      else onAbort (s.report s.next.span .tooDeep) := by
  rw [expr]
  split
  next => exact Outcome.satisfies_mapState
  next => rfl

theorem satisfies_operand_nil (h : s.rest = []) :
    (operand limit floor s).Satisfies onOk onAbort ↔
      onAbort (s.report s.stop .invalidExpression) := by
  obtain ⟨tokens, stop, env, diagnostics, inBody, nesting⟩ := s
  cases h
  rw [operand]
  rfl

theorem satisfies_operand_number {value : Binary64} (h : s.rest = token :: rest)
    (hk : token.kind = .number value) :
    (operand limit floor s).Satisfies onOk onAbort ↔
      (extend limit floor (.leaf (.literal value) token.span) { s with rest := rest }).Satisfies
        onOk onAbort := by
  obtain ⟨tokens, stop, env, diagnostics, inBody, nesting⟩ := s
  cases h
  rw [operand]
  simp only [hk]

theorem satisfies_operand_identifier (h : s.rest = token :: rest) (hk : token.kind = .identifier) :
    (operand limit floor s).Satisfies onOk onAbort ↔
      match resolve { s with rest := rest } token.lexeme with
      | .ok e =>
          (extend limit floor (.leaf e token.span) { s with rest := rest }).Satisfies onOk onAbort
      | .error fault => onAbort (State.report { s with rest := rest } token.span fault) := by
  obtain ⟨tokens, stop, env, diagnostics, inBody, nesting⟩ := s
  cases h
  rw [operand]
  simp only [hk]
  cases resolve ⟨rest, stop, env, diagnostics, inBody, nesting⟩ token.lexeme with
  | ok e => rfl
  | error fault => rfl

theorem satisfies_operand_minus (h : s.rest = token :: rest) (hk : token.kind = .minus) :
    (operand limit floor s).Satisfies onOk onAbort ↔
      (expr limit Priority.negationFloor { s with rest := rest }).Satisfies
        (fun inner t =>
          (nest limit t (token.span.cover inner.span) (.unary .neg inner.expr)
            inner.depth).Satisfies
            (fun node u => (extend limit floor node u).Satisfies onOk onAbort) onAbort)
        onAbort := by
  obtain ⟨tokens, stop, env, diagnostics, inBody, nesting⟩ := s
  cases h
  rw [operand]
  simp only [hk]
  exact Outcome.satisfies_bind fun inner t ht =>
    Outcome.satisfies_bind fun node u hu => Outcome.satisfies_weaken

theorem satisfies_operand_leftParen (h : s.rest = token :: rest) (hk : token.kind = .leftParen) :
    (operand limit floor s).Satisfies onOk onAbort ↔
      (grouping limit token.span { s with rest := rest }).Satisfies
        (fun node t => (extend limit floor node t).Satisfies onOk onAbort) onAbort := by
  obtain ⟨tokens, stop, env, diagnostics, inBody, nesting⟩ := s
  cases h
  rw [operand]
  simp only [hk]
  exact Outcome.satisfies_bind fun node t ht => Outcome.satisfies_weaken

/-- What no operand starts with. -/
theorem satisfies_operand_other (h : s.rest = token :: rest)
    (hnumber : ∀ value, token.kind ≠ .number value) (hname : token.kind ≠ .identifier)
    (hminus : token.kind ≠ .minus) (hparen : token.kind ≠ .leftParen) :
    (operand limit floor s).Satisfies onOk onAbort ↔
      onAbort (State.report { s with rest := rest } token.span
        (if token.kind = .del then .misplacedDel else .invalidExpression)) := by
  obtain ⟨tokens, stop, env, diagnostics, inBody, nesting⟩ := s
  cases h
  rw [operand]
  cases hk : token.kind with
  | number value => exact absurd hk (hnumber value)
  | identifier => exact absurd hk hname
  | minus => exact absurd hk hminus
  | leftParen => exact absurd hk hparen
  | _ => simp [hk]

theorem satisfies_grouping {opening : Span} :
    (grouping limit opening s).Satisfies onOk onAbort ↔
      (expr limit 0 s).Satisfies
        (fun inner t =>
          (closingParen t).Satisfies
            (fun closing u =>
              (nest limit u (opening.cover closing.span) (.grouping inner.expr)
                inner.depth).Satisfies onOk onAbort) onAbort) onAbort := by
  rw [grouping]
  exact Outcome.satisfies_bind fun inner t ht =>
    Outcome.satisfies_bind fun closing u hu => Outcome.satisfies_weaken

/-! ## What follows an operand -/

theorem satisfies_extend_nil (h : s.rest = []) :
    (extend limit floor left s).Satisfies onOk onAbort ↔ onOk left s := by
  obtain ⟨tokens, stop, env, diagnostics, inBody, nesting⟩ := s
  cases h
  rw [extend]
  rfl

theorem satisfies_extend_operator {op : BinaryOp} (h : s.rest = token :: rest)
    (hop : token.kind.operator? = some op) :
    (extend limit floor left s).Satisfies onOk onAbort ↔
      (chain limit floor left s).Satisfies onOk onAbort := by
  obtain ⟨tokens, stop, env, diagnostics, inBody, nesting⟩ := s
  cases h
  rw [extend]
  simp [hop]

theorem satisfies_extend_leftParen (h : s.rest = token :: rest) (hk : token.kind = .leftParen) :
    (extend limit floor left s).Satisfies onOk onAbort ↔
      (callOrProduct limit left token.span { s with rest := rest }).Satisfies
        (fun node t => (extend limit floor node t).Satisfies onOk onAbort) onAbort := by
  obtain ⟨tokens, stop, env, diagnostics, inBody, nesting⟩ := s
  cases h
  rw [extend]
  simp only [hk, TokenKind.operator?, Option.isSome_none, Bool.false_eq_true, if_false]
  exact Outcome.satisfies_bind fun node t ht => Outcome.satisfies_weaken

theorem satisfies_extend_bang (h : s.rest = token :: rest) (hk : token.kind = .bang) :
    (extend limit floor left s).Satisfies onOk onAbort ↔
      if left.expr.evaluate.isNatural then
        (nest limit { s with rest := rest } (left.span.cover token.span)
          (.unary .factorial left.expr) left.depth).Satisfies
          (fun node t => (extend limit floor node t).Satisfies onOk onAbort) onAbort
      else onAbort (State.report { s with rest := rest } token.span .nonNaturalFactorial) := by
  obtain ⟨tokens, stop, env, diagnostics, inBody, nesting⟩ := s
  cases h
  rw [extend]
  simp only [hk, TokenKind.operator?, Option.isSome_none, Bool.false_eq_true, if_false]
  split
  next => exact Outcome.satisfies_bind fun node t ht => Outcome.satisfies_weaken
  next => rfl

theorem satisfies_extend_equals (h : s.rest = token :: rest) (hk : token.kind = .equals) :
    (extend limit floor left s).Satisfies onOk onAbort ↔
      match declared s left .assignmentInFunction .assignmentTarget token.span with
      | .error (span, fault) => onAbort (s.report span fault)
      | .ok name =>
          (assignment limit name left.span { s with rest := rest }).Satisfies
            (fun node t => (extend limit floor node t).Satisfies onOk onAbort) onAbort := by
  obtain ⟨tokens, stop, env, diagnostics, inBody, nesting⟩ := s
  cases h
  rw [extend]
  simp only [hk, TokenKind.operator?, Option.isSome_none, Bool.false_eq_true, if_false]
  cases declared (_ : State E) left .assignmentInFunction .assignmentTarget token.span with
  | ok name => exact Outcome.satisfies_bind fun node t ht => Outcome.satisfies_weaken
  | error e => rfl

theorem satisfies_extend_colon (h : s.rest = token :: rest) (hk : token.kind = .colon) :
    (extend limit floor left s).Satisfies onOk onAbort ↔
      match declared s left .definitionInFunction .definitionTarget token.span with
      | .error (span, fault) => onAbort (s.report span fault)
      | .ok name =>
          (definition limit name left.span { s with rest := rest }).Satisfies
            (fun node t => (extend limit floor node t).Satisfies onOk onAbort) onAbort := by
  obtain ⟨tokens, stop, env, diagnostics, inBody, nesting⟩ := s
  cases h
  rw [extend]
  simp only [hk, TokenKind.operator?, Option.isSome_none, Bool.false_eq_true, if_false]
  cases declared (_ : State E) left .definitionInFunction .definitionTarget token.span with
  | ok name => exact Outcome.satisfies_bind fun node t ht => Outcome.satisfies_weaken
  | error e => rfl

/-- A token that begins no continuation. -/
theorem satisfies_extend_other (h : s.rest = token :: rest) (hop : token.kind.operator? = none)
    (hparen : token.kind ≠ .leftParen) (hbang : token.kind ≠ .bang)
    (hequals : token.kind ≠ .equals) (hcolon : token.kind ≠ .colon) :
    (extend limit floor left s).Satisfies onOk onAbort ↔ onOk left s := by
  obtain ⟨tokens, stop, env, diagnostics, inBody, nesting⟩ := s
  cases h
  rw [extend]
  simp only [hop, Option.isSome_none, Bool.false_eq_true, if_false]
  cases hk : token.kind with
  | leftParen => exact absurd hk hparen
  | bang => exact absurd hk hbang
  | equals => exact absurd hk hequals
  | colon => exact absurd hk hcolon
  | _ => simp

theorem satisfies_chain_other (h : s.next.kind.operator? = none) :
    (chain limit floor left s).Satisfies onOk onAbort ↔ onOk left s := by
  obtain ⟨tokens, stop, env, diagnostics, inBody, nesting⟩ := s
  cases tokens with
  | nil =>
      rw [chain]
      rfl
  | cons token rest =>
      have hop : token.kind.operator? = none := h
      rw [chain]
      simp [hop]

theorem satisfies_chain_operator {op : BinaryOp} (h : s.rest = token :: rest)
    (hop : token.kind.operator? = some op) :
    (chain limit floor left s).Satisfies onOk onAbort ↔
      if op.precedence ≤ floor then onOk left s
      else
        (expr limit op.precedence { s with rest := rest }).Satisfies
          (fun right t =>
            (nest limit t (left.span.cover right.span) (.binary left.expr op right.expr)
              (max left.depth right.depth)).Satisfies
              (fun node u =>
                (extend limit op.precedence node u).Satisfies
                  (fun folded v => (chain limit floor folded v).Satisfies onOk onAbort) onAbort)
              onAbort)
          onAbort := by
  obtain ⟨tokens, stop, env, diagnostics, inBody, nesting⟩ := s
  cases h
  rw [chain]
  simp only [hop]
  split
  next => rfl
  next =>
    exact Outcome.satisfies_bind fun right t ht =>
      Outcome.satisfies_bind fun node u hu =>
        Outcome.satisfies_bind fun folded v hv => Outcome.satisfies_weaken

theorem satisfies_call {name : String} {opening : Span} (h : left.expr = .name name) :
    (callOrProduct limit left opening s).Satisfies onOk onAbort ↔
      match callee? s.environment name with
      | none => onAbort (s.report left.span (.unknownFunction name))
      | some call =>
          (expr limit 0 s).Satisfies
            (fun arg t =>
              (closingParen t).Satisfies
                (fun closing u =>
                  (nest limit u (left.span.cover closing.span) (call arg.expr)
                    arg.depth).Satisfies onOk onAbort) onAbort) onAbort := by
  rw [callOrProduct]
  simp only [h]
  cases callee? s.environment name with
  | none => rfl
  | some call =>
      exact Outcome.satisfies_bind fun arg t ht =>
        Outcome.satisfies_bind fun closing u hu => Outcome.satisfies_weaken

theorem satisfies_product {opening : Span} (h : ∀ name, left.expr ≠ .name name) :
    (callOrProduct limit left opening s).Satisfies onOk onAbort ↔
      (grouping limit opening s).Satisfies
        (fun group t =>
          (nest limit t (left.span.cover group.span) (.binary left.expr .mul group.expr)
            (max left.depth group.depth)).Satisfies onOk onAbort) onAbort := by
  rw [callOrProduct]
  cases he : left.expr with
  | name n => exact absurd he (h n)
  | _ =>
      exact Outcome.satisfies_bind fun group t ht => Outcome.satisfies_weaken

theorem satisfies_assignment {name : String} {target : Span} :
    (assignment limit name target s).Satisfies onOk onAbort ↔
      (expr limit 0 s).Satisfies
        (fun value t =>
          (commit t target fun env => Scope.declare env name value.expr.evaluate).Satisfies
            (fun _ u =>
              (nest limit u (target.cover value.span) (.assignment name value.expr)
                value.depth).Satisfies onOk onAbort) onAbort) onAbort := by
  rw [assignment]
  exact Outcome.satisfies_bind fun value t ht =>
    Outcome.satisfies_bind fun _ u hu => Outcome.satisfies_weaken

theorem satisfies_definition {name : String} {target : Span} :
    (definition limit name target s).Satisfies onOk onAbort ↔
      (expr limit 0 { s with inBody := true }).Satisfies
        (fun body t =>
          (commit { t with inBody := false } target
              fun env => Scope.define env name body.expr).Satisfies
            (fun _ u =>
              (nest limit u (target.cover body.span) (.definition name body.expr)
                body.depth).Satisfies onOk onAbort) onAbort)
        (fun t => onAbort { t with inBody := false }) := by
  rw [definition]
  cases expr limit 0 { s with inBody := true } with
  | ok body t ht =>
      simp only [Outcome.mapState, Outcome.bind_ok, Outcome.satisfies_ok]
      exact Outcome.satisfies_bind fun _ u hu => Outcome.satisfies_weaken
  | abort t => rfl

/-! ## Ends -/

theorem satisfies_chain_closed (h : s.next.kind.precedence ≤ floor) :
    (chain limit floor left s).Satisfies onOk onAbort ↔ onOk left s := by
  cases hop : s.next.kind.operator? with
  | none => exact satisfies_chain_other hop
  | some op =>
      rcases s.rest_cases with hrest | ⟨token, rest, hrest⟩
      · rw [State.next_of_nil hrest] at hop
        cases hop
      · rw [TokenKind.precedence_of_operator? hop] at h
        rw [State.next_of_rest hrest] at hop
        rw [satisfies_chain_operator hrest hop, if_pos h]

/-- Where nothing goes with what has been read, only operators go on from it. -/
theorem satisfies_extend_chain (h : s.next.kind.attaches = false) :
    (extend limit floor left s).Satisfies onOk onAbort ↔
      (chain limit floor left s).Satisfies onOk onAbort := by
  rcases s.rest_cases with hrest | ⟨token, rest, hrest⟩
  · rw [satisfies_extend_nil hrest, satisfies_chain_other (by rw [State.next_of_nil hrest]; rfl)]
  · rw [State.next_of_rest hrest] at h
    cases hop : token.kind.operator? with
    | some op => exact satisfies_extend_operator hrest hop
    | none =>
        rw [satisfies_chain_other (by rw [State.next_of_rest hrest]; exact hop)]
        apply satisfies_extend_other hrest hop
        all_goals
          intro hk
          rw [hk] at h
          cases h

/-- Where an expression above the floor ends, nothing is added to it. -/
theorem satisfies_extend_closed (h : s.next.kind.Closes floor) :
    (extend limit floor left s).Satisfies onOk onAbort ↔ onOk left s := by
  rw [satisfies_extend_chain h.1, satisfies_chain_closed h.2]

/-! ## Lines -/

theorem satisfies_deletion {onOk : Expr → State E → Prop} :
    (deletion s).Satisfies onOk onAbort ↔
      if s.next.kind = .identifier then
        (commit { s with rest := s.rest.tail } s.next.span fun env =>
          Scope.remove env s.next.lexeme).Satisfies
          (fun _ t => onOk (.deletion s.next.lexeme) t) onAbort
      else onAbort (State.report { s with rest := s.rest.tail } s.next.span .expectedName) := by
  obtain ⟨tokens, stop, env, diagnostics, inBody, nesting⟩ := s
  cases tokens with
  | nil => rfl
  | cons token rest =>
      by_cases hk : token.kind = .identifier
      · simp only [deletion, State.next, List.head?_cons, Option.getD_some, List.tail_cons, hk,
          if_true]
        exact Outcome.satisfies_bind fun _ t ht => Iff.rfl
      · simp [deletion, State.next, hk]

theorem satisfies_statement {onOk : Expr → State E → Prop} :
    (statement limit s).Satisfies onOk onAbort ↔
      if s.next.kind = .del then
        (deletion { s with rest := s.rest.tail }).Satisfies onOk onAbort
      else
        (expr limit 0 s).Satisfies (fun node t => onOk node.expr t) onAbort := by
  unfold statement
  split
  next => exact Outcome.satisfies_weaken
  next => exact Outcome.satisfies_bind fun node t ht => Iff.rfl

end Parser

end Calculator
