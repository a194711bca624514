import Calculator.Proofs.Parser.Completeness
import Calculator.Proofs.Token.Lexemes

/-!
# Declarations that are rejected

Where no sign of a declaration is ahead, no rule changes the environment. So the
one change that a line of one declaration makes is made by that declaration, once
its right-hand side has been read, and a line that is too deep has been too deep
before that, unless the right-hand side itself is just as deep as a tree may be.
-/

namespace Calculator

namespace Parser

/-- No sign of a declaration is ahead, and this is the environment. -/
structure State.Undeclaring (env : Environment) (s : State Environment) : Prop where
  unsigned : ∀ token ∈ s.rest, token.kind ≠ .equals ∧ token.kind ≠ .colon
  environment : s.environment = env

namespace Outcome

/-- The environment is kept, and no sign of a declaration comes to be ahead. -/
def Keeps {α : Type} {n : Nat} (env : Environment) (o : Outcome Environment n α) : Prop :=
  o.Satisfies (fun _ t => t.Undeclaring env) fun t => t.environment = env

theorem Keeps.imp {α : Type} {n : Nat} {env : Environment} {o : Outcome Environment n α}
    {onOk : α → State Environment → Prop} (h : o.Keeps env)
    (hok : ∀ a t, t.rest.length < n → t.Undeclaring env → onOk a t) :
    o.Satisfies onOk fun t => t.environment = env :=
  Satisfies.imp (Satisfies.bounded h) (fun a t ht => hok a t ht.1 ht.2) fun _ => id

end Outcome

section Rules

variable {env : Environment} {limit : Option Nat} {left : Node} {s : State Environment}
  {token : Token}
  {rest : List Token}

theorem State.Undeclaring.read (h : s.Undeclaring env) (hrest : s.rest = token :: rest) :
    State.Undeclaring env { s with rest := rest } :=
  ⟨fun t ht => h.unsigned t (by rw [hrest]; exact List.mem_cons_of_mem _ ht), h.environment⟩

theorem keeps_nest (h : s.Undeclaring env) (span : Span) (e : Expr) (depth : Nat) :
    (nest limit s span e depth).Keeps env := by
  unfold Outcome.Keeps
  rw [satisfies_nest]
  split
  · exact h
  · exact h.environment

theorem keeps_closingParen (h : s.Undeclaring env) : (closingParen s).Keeps env := by
  unfold Outcome.Keeps
  rw [satisfies_closingParen]
  split
  · exact ⟨fun t ht => h.unsigned t (List.mem_of_mem_tail ht), h.environment⟩
  · exact h.environment

/-- Where no sign of a declaration is ahead, the rules keep the environment. -/
structure KeepsOn (limit : Option Nat) (s : State Environment) : Prop where
  expr {env : Environment} (h : s.Undeclaring env) (floor : Nat) : (expr limit floor s).Keeps env
  extend {env : Environment} (h : s.Undeclaring env) (floor : Nat) (left : Node) :
    (extend limit floor left s).Keeps env
  chain {env : Environment} (h : s.Undeclaring env) (floor : Nat) (left : Node) :
    (chain limit floor left s).Keeps env

theorem keeps_enclosed (ih : KeepsOn limit s) (h : s.Undeclaring env)
    {onOk : Node → Token → State Environment → Prop}
    (hok : ∀ inner closing t, t.Undeclaring env → onOk inner closing t) :
    (expr limit 0 s).Satisfies
      (fun inner t => (closingParen t).Satisfies (onOk inner) fun u => u.environment = env)
      fun t => t.environment = env := by
  refine (ih.expr h 0).imp fun inner t _ ht => ?_
  exact (keeps_closingParen ht).imp fun closing u _ hu => hok inner closing u hu

theorem keeps_grouping (ih : KeepsOn limit s) (h : s.Undeclaring env) (opening : Span) :
    (grouping limit opening s).Keeps env := by
  unfold Outcome.Keeps
  rw [satisfies_grouping]
  exact keeps_enclosed ih h fun inner closing t ht => keeps_nest ht ..

theorem keeps_callOrProduct (ih : KeepsOn limit s) (h : s.Undeclaring env) (opening : Span) :
    (callOrProduct limit left opening s).Keeps env := by
  unfold Outcome.Keeps
  by_cases hname : ∃ n, left.expr = .name n
  · obtain ⟨n, hname⟩ := hname
    rw [satisfies_call hname]
    split
    · exact h.environment
    · exact keeps_enclosed ih h fun arg closing t ht => keeps_nest ht ..
  · rw [satisfies_product fun n he => hname ⟨n, he⟩]
    exact (keeps_grouping ih h opening).imp fun group t _ ht => keeps_nest ht ..

theorem keeps_chain (ih : ∀ t : State Environment, t.rest.length < s.rest.length → KeepsOn limit t)
    (h : s.Undeclaring env) (floor : Nat) (left : Node) : (chain limit floor left s).Keeps env := by
  unfold Outcome.Keeps
  by_cases hfloor : s.next.kind.precedence ≤ floor
  · rw [satisfies_chain_closed hfloor]
    exact h
  · obtain ⟨token, rest, op, hrest, hop, hop_floor⟩ := operator_of_precedence hfloor
    have hlt : rest.length < s.rest.length := by simp [hrest]
    rw [satisfies_chain_operator hrest hop, if_neg (Nat.not_le.2 hop_floor)]
    refine ((ih _ hlt).expr (h.read hrest) op.precedence).imp fun right t ht hkept => ?_
    have ht : t.rest.length < s.rest.length := Nat.lt_trans ht hlt
    refine (keeps_nest hkept ..).imp fun node u hu hkept => ?_
    have hu : u.rest.length < s.rest.length := by omega
    refine ((ih u hu).extend hkept op.precedence node).imp fun folded v hv hkept => ?_
    exact (ih v (by omega)).chain hkept floor folded

theorem keeps_extend (ih : ∀ t : State Environment, t.rest.length < s.rest.length → KeepsOn limit t)
    (h : s.Undeclaring env) (floor : Nat) (left : Node) :
    (extend limit floor left s).Keeps env := by
  unfold Outcome.Keeps
  by_cases hattach : s.next.kind.attaches = false
  · rw [satisfies_extend_chain hattach]
    exact keeps_chain ih h floor left
  · rcases s.rest_cases with hrest | ⟨token, rest, hrest⟩
    · rw [State.next_of_nil hrest] at hattach
      exact absurd rfl hattach
    · rw [State.next_of_rest hrest] at hattach
      have hlt : rest.length < s.rest.length := by simp [hrest]
      have hunsigned := h.unsigned token (by rw [hrest]; exact List.mem_cons_self)
      have continued (node : Node) (t : State Environment) (ht : t.rest.length < rest.length + 1)
          (hkept : t.Undeclaring env) : (extend limit floor node t).Keeps env := by
        have ht : t.rest.length < s.rest.length := by omega
        exact (ih t ht).extend hkept floor node
      cases hk : token.kind with
      | leftParen =>
          rw [satisfies_extend_leftParen hrest hk]
          exact (keeps_callOrProduct (ih _ hlt) (h.read hrest) token.span).imp continued
      | bang =>
          rw [satisfies_extend_bang hrest hk]
          split
          · exact (keeps_nest (h.read hrest) ..).imp continued
          · exact h.environment
      | equals => exact absurd hk hunsigned.1
      | colon => exact absurd hk hunsigned.2
      | _ => exact absurd (congrArg TokenKind.attaches hk) hattach

theorem keeps_operand
    (ih : ∀ t : State Environment, t.rest.length < s.rest.length → KeepsOn limit t)
    (h : s.Undeclaring env) (floor : Nat) : (operand limit floor s).Keeps env := by
  unfold Outcome.Keeps
  rcases s.rest_cases with hrest | ⟨token, rest, hrest⟩
  · rw [satisfies_operand_nil hrest]
    exact h.environment
  · have hlt : rest.length < s.rest.length := by simp [hrest]
    have hread := h.read hrest
    cases hk : token.kind with
    | number value =>
        rw [satisfies_operand_number hrest hk]
        exact (ih _ hlt).extend hread floor _
    | identifier =>
        rw [satisfies_operand_identifier hrest hk]
        split
        next e _ => exact (ih _ hlt).extend hread floor _
        next fault _ => exact h.environment
    | minus =>
        rw [satisfies_operand_minus hrest hk]
        refine ((ih _ hlt).expr hread _).imp fun inner t ht hkept => ?_
        have ht : t.rest.length < s.rest.length := Nat.lt_trans ht hlt
        refine (keeps_nest hkept ..).imp fun node u hu hkept => ?_
        exact (ih u (by omega)).extend hkept floor node
    | leftParen =>
        rw [satisfies_operand_leftParen hrest hk]
        refine (keeps_grouping (ih _ hlt) hread _).imp fun node t ht hkept => ?_
        exact (ih t (Nat.lt_trans ht hlt)).extend hkept floor node
    | _ =>
        rw [satisfies_operand_other hrest (by simp [hk]) (by simp [hk]) (by simp [hk])
          (by simp [hk])]
        exact h.environment

theorem keeps_expr (ih : ∀ t : State Environment, t.rest.length < s.rest.length → KeepsOn limit t)
    (h : s.Undeclaring env) (floor : Nat) : (expr limit floor s).Keeps env := by
  unfold Outcome.Keeps
  rw [satisfies_expr]
  split
  next =>
    have hoperand := keeps_operand (s := { s with nesting := s.nesting + 1 }) ih
      ⟨h.unsigned, h.environment⟩ floor
    exact hoperand.imp fun node t _ ht => ⟨ht.unsigned, ht.environment⟩
  next => exact h.environment

theorem keepsOn (limit : Option Nat) (s : State Environment) : KeepsOn limit s := by
  have ih (t : State Environment) (_ : t.rest.length < s.rest.length) : KeepsOn limit t :=
    keepsOn limit t
  exact ⟨keeps_expr ih, keeps_extend ih, keeps_chain ih⟩
termination_by s.rest.length

end Rules

end Parser

/-! ## Lines of one declaration -/

def Diagnostics.TooDeep (d : Diagnostics) : Prop :=
  ∃ span, (span, Fault.tooDeep) ∈ d.entries

theorem Diagnostics.not_tooDeep_of_isEmpty {d : Diagnostics} (h : d.isEmpty) : ¬d.TooDeep := by
  rintro ⟨span, hmem⟩
  rw [List.isEmpty_iff.1 h] at hmem
  cases hmem

theorem Diagnostics.not_tooDeep_report {d : Diagnostics} {span : Span} {fault : Fault}
    (h : ¬d.TooDeep) (hfault : fault ≠ .tooDeep) : ¬(d.report span fault).TooDeep := by
  rintro ⟨place, hmem⟩
  rcases Diagnostics.mem_of_mem_report hmem with he | hmem
  · exact hfault (congrArg Prod.snd he).symm
  · exact h ⟨place, hmem⟩

/--
The declaration of a name has been applied, although its right-hand side, which
the symbols begin with, is as deep as a tree may be and leaves no room for it.
-/
inductive Environment.Oversteps (most : Nat) (env : Environment) (n : String)
    (symbols : List Symbol) : TokenKind → Environment → Prop
  | assigned {p : Phrase} {later : List Symbol} {e : Expr} {env' : Environment}
      (split : symbols = p.symbols ++ later) (wellFormed : p.WellFormed)
      (read : p.Reads false env e env) (depth : p.depth = most)
      (bound : env.declare n e.evaluate = .ok env') : Oversteps most env n symbols .equals env'
  | defined {p : Phrase} {later : List Symbol} {e : Expr} {env' : Environment}
      (split : symbols = p.symbols ++ later) (wellFormed : p.WellFormed)
      (read : p.Reads true env e env) (depth : p.depth = most)
      (bound : env.define n e = .ok env') : Oversteps most env n symbols .colon env'

namespace Parser

/-- If the line is too deep, it has changed nothing, or what it did is known. -/
def Accounts (env : Environment) (applied : Environment → Prop) (t : State Environment) : Prop :=
  t.diagnostics.TooDeep → t.environment = env ∨ applied t.environment

section Lines

variable {most : Nat} {env : Environment} {n : String} {left node : Node} {s t : State Environment}
  {token sign : Token} {rest : List Token} {symbols : List Symbol}

theorem eq_of_allowsDepth {depth : Nat} (h : allowsDepth (some most) depth)
    (hdeep : allowsDepth (some most) (depth + 1) = false) : depth = most := by
  simp only [allowsDepth, decide_eq_true_eq, decide_eq_false_iff_not] at h hdeep
  omega

theorem accounts_of_environment {applied : Environment → Prop} (h : t.environment = env) :
    Accounts env applied t :=
  fun _ => .inl h

/-- From its commitment on, a declaration that is not applied is applied or too deep. -/
theorem accounts_bind {applied : Environment → Prop} {target span : Span} {e : Expr} {depth : Nat}
    {b : UserBinding} (henv : s.environment = env) (hclosed : s.next.kind.Closes 0)
    (happlied : allowsDepth (some most) (depth + 1) = false → ∀ env', env.bind n b = .ok env' →
      applied env') :
    (commit s target (Environment.attempt fun env => env.bind n b)).Satisfies
      (fun _ t => (nest (some most) t span e depth).Satisfies
        (fun node u => (extend (some most) 0 node u).Satisfies (fun _ v => v.diagnostics.isEmpty)
          (Accounts env applied)) (Accounts env applied)) (Accounts env applied) := by
  rw [satisfies_commit_attempt]
  split
  next faultless =>
    rw [henv]
    split
    next env' bound =>
      rw [satisfies_nest]
      split
      next =>
        exact (satisfies_extend_closed (by exact hclosed)).2 faultless
      next hdeep => exact fun _ => .inr (happlied (Bool.eq_false_iff.2 hdeep) env' bound)
    next => exact accounts_of_environment henv
  next => exact accounts_of_environment henv

theorem accounts_assignment (target : Span) (h : s.Undeclaring env) (hbody : s.inBody = false) :
    (assignment (some most) n target s).Satisfies
      (fun node t => (extend (some most) 0 node t).Satisfies (fun _ u => u.diagnostics.isEmpty)
        (Accounts env (env.Oversteps most n s.symbols .equals)))
      (Accounts env (env.Oversteps most n s.symbols .equals)) := by
  rw [satisfies_assignment]
  have hread := (readsPhrases (some most) s).expr 0
  refine (((keepsOn (some most) s).expr h 0).and hread).imp (fun value t ht => ?_)
    fun t => accounts_of_environment
  obtain ⟨hkept, p, hp, -, hclosed⟩ := ht
  have hreads := hp.reads
  rw [hbody, h.environment, hkept.environment] at hreads
  refine accounts_bind hkept.environment hclosed fun hdeep env' bound => ?_
  rw [hp.depth] at hdeep
  exact .assigned hp.symbols hp.wellFormed hreads (eq_of_allowsDepth hp.allowed hdeep) bound

theorem accounts_definition (target : Span) (h : s.Undeclaring env) :
    (definition (some most) n target s).Satisfies
      (fun node t => (extend (some most) 0 node t).Satisfies (fun _ u => u.diagnostics.isEmpty)
        (Accounts env (env.Oversteps most n s.symbols .colon)))
      (Accounts env (env.Oversteps most n s.symbols .colon)) := by
  rw [satisfies_definition]
  have hbody : State.Undeclaring env { s with inBody := true } := ⟨h.unsigned, h.environment⟩
  have hread := (readsPhrases (some most) { s with inBody := true }).expr 0
  refine (((keepsOn (some most) _).expr hbody 0).and hread).imp (fun body t ht => ?_)
    fun t => accounts_of_environment
  obtain ⟨hkept, p, hp, -, hclosed⟩ := ht
  have hreads : p.Reads true s.environment body.expr t.environment := hp.reads
  rw [h.environment, hkept.environment] at hreads
  refine accounts_bind hkept.environment hclosed fun hdeep env' bound => ?_
  rw [hp.depth] at hdeep
  exact .defined hp.symbols hp.wellFormed hreads (eq_of_allowsDepth hp.allowed hdeep) bound

def Unsigned (symbols : List Symbol) : Prop :=
  .mark .equals ∉ symbols ∧ .mark .colon ∉ symbols

theorem undeclaring_of_unsigned (h : Unsigned s.symbols) : s.Undeclaring s.environment := by
  refine ⟨fun token ht => ⟨fun hk => h.1 ?_, fun hk => h.2 ?_⟩, rfl⟩
  · rw [← Token.symbol_of_mark hk (by simp) (by simp)]
    exact List.mem_map_of_mem ht
  · rw [← Token.symbol_of_mark hk (by simp) (by simp)]
    exact List.mem_map_of_mem ht

/-- A line that is one declaration, from its sign on. -/
theorem accounts_extend {kind : TokenKind} {later : List Symbol} {span : Span}
    (hsymbols : s.symbols = .mark kind :: later) (hkind : kind = .equals ∨ kind = .colon)
    (hlater : Unsigned later) :
    (extend (some most) 0 (.leaf (.name n) span) s).Satisfies (fun _ t => t.diagnostics.isEmpty)
      (Accounts s.environment (s.environment.Oversteps most n later kind)) := by
  obtain ⟨sign, rest, hrest, hsign, rfl⟩ := List.map_eq_cons_iff.1 hsymbols
  have hk := Token.kind_of_symbol_mark hsign
  have hkept : State.Undeclaring s.environment { s with rest := rest } :=
    undeclaring_of_unsigned (s := { s with rest := rest }) hlater
  have rejected (place : Span) (fault : Fault) :
      Accounts s.environment (s.environment.Oversteps most n (rest.map Token.symbol) kind)
        (s.report place fault) := accounts_of_environment rfl
  rcases hkind with rfl | rfl
  · rw [satisfies_extend_equals hrest hk]
    split
    next place fault _ => exact rejected place fault
    next m hdeclared =>
      obtain ⟨hbody, hname, -⟩ := declared_eq_ok hdeclared
      cases hname
      exact accounts_assignment span hkept hbody
  · rw [satisfies_extend_colon hrest hk]
    split
    next place fault _ => exact rejected place fault
    next m hdeclared =>
      obtain ⟨-, hname, -⟩ := declared_eq_ok hdeclared
      cases hname
      exact accounts_definition span hkept

theorem accounts_statement {kind : TokenKind} {later : List Symbol}
    (hsymbols : s.symbols = .name n :: .mark kind :: later)
    (hkind : kind = .equals ∨ kind = .colon) (hlater : Unsigned later) :
    (statement (some most) s).Satisfies (fun _ t => t.diagnostics.isEmpty)
      (Accounts s.environment (s.environment.Oversteps most n later kind)) := by
  obtain ⟨token, rest, hrest, hname, hmap⟩ := List.map_eq_cons_iff.1 hsymbols
  obtain ⟨hk, rfl⟩ := Token.of_symbol_name hname
  have hnext : (State.next { s with rest := rest, nesting := s.nesting + 1 }).kind = kind := by
    obtain ⟨sign, rest, rfl, hsign, -⟩ := List.map_eq_cons_iff.1 hmap
    exact Token.kind_of_symbol_mark hsign
  have hresolve : resolve { s with rest := rest, nesting := s.nesting + 1 } token.lexeme =
      .ok (.name token.lexeme) := resolve_declared (by rwa [hnext])
  rw [satisfies_statement, if_neg (by rw [State.next_of_rest hrest, hk]; simp), satisfies_expr]
  split
  next =>
    rw [satisfies_operand_identifier (s := { s with nesting := s.nesting + 1 }) hrest hk, hresolve]
    exact accounts_extend (s := { s with rest := rest, nesting := s.nesting + 1 }) hmap hkind hlater
  next => exact accounts_of_environment rfl

theorem accounts_run {kind : TokenKind} {later : List Symbol}
    (hsymbols : s.symbols = .name n :: .mark kind :: later)
    (hkind : kind = .equals ∨ kind = .colon) (hlater : Unsigned later) :
    Accounts s.environment (s.environment.Oversteps most n later kind) (run (some most) s).2 := by
  have hstatement : (statement (some most) s).Satisfies (fun _ t => t.diagnostics.isEmpty)
      (Accounts s.environment (s.environment.Oversteps most n later kind)) :=
    accounts_statement hsymbols hkind hlater
  unfold run
  cases hs : statement (some most) s with
  | abort t =>
      rw [hs] at hstatement
      exact hstatement
  | ok e t _ =>
      rw [hs] at hstatement
      have hfine := Diagnostics.not_tooDeep_of_isEmpty (Outcome.satisfies_ok.1 hstatement)
      dsimp only
      split
      · exact fun hdeep => absurd hdeep hfine
      · exact fun hdeep => absurd hdeep (Diagnostics.not_tooDeep_report hfine (by simp))

end Lines

end Parser

/--
A line of one declaration that is too deep leaves the environment as it was. The
exception is a right-hand side that is itself just as deep as a tree may be: it
is bound to the name before the declaration turns out to be too deep.
-/
theorem readLine_tooDeep_declaration {env : Environment} {source n : String} {kind : TokenKind}
    {later : List Symbol} (hsymbols : symbolsOf source = .name n :: .mark kind :: later)
    (hkind : kind = .equals ∨ kind = .colon)
    (hlater : .mark .equals ∉ later ∧ .mark .colon ∉ later)
    (hdeep : (readLine env source).diagnostics.TooDeep) :
    (readLine env source).environment = env ∨
      env.Oversteps maxNesting n later kind (readLine env source).environment := by
  let s := Parser.State.ofTokens (tokenize source) env (lexicalFaults (tokenize source))
  have hs : s.symbols = .name n :: .mark kind :: later := (symbols_ofTokens ..).trans hsymbols
  exact Parser.accounts_run hs hkind hlater hdeep

theorem readLine_tooDeep_declaration_of_signs :
    (readLine .empty ("y = " ++ "".pushn '-' 128 ++ "1")).diagnostics.TooDeep ∧
      ((readLine .empty ("y = " ++ "".pushn '-' 128 ++ "1")).environment = .empty ∨
        Environment.empty.Oversteps maxNesting "y"
          (List.replicate 128 (.mark .minus) ++ [.number (.ofNat 1)]) .equals
          (readLine .empty ("y = " ++ "".pushn '-' 128 ++ "1")).environment) := by
  have hsymbols : symbolsOf ("y = " ++ "".pushn '-' 128 ++ "1") = .name "y" :: .mark .equals ::
      (List.replicate 128 (.mark .minus) ++ [.number (.ofNat 1)]) := by decide +kernel
  have hdeep : (readLine .empty ("y = " ++ "".pushn '-' 128 ++ "1")).diagnostics.entries =
      [(.ofLength 131 1, .tooDeep)] := by decide +kernel
  have htooDeep : (readLine .empty ("y = " ++ "".pushn '-' 128 ++ "1")).diagnostics.TooDeep :=
    ⟨.ofLength 131 1, by rw [hdeep]; exact List.mem_cons_self⟩
  exact ⟨htooDeep, readLine_tooDeep_declaration hsymbols (.inl rfl) (by decide) htooDeep⟩

/-- An assignment of so many factorials has been too deep, and its variable is bound. -/
theorem readLine_applies_tooDeep_declaration :
    symbolsOf ("y = 1" ++ "".pushn '!' 127) =
        .name "y" :: .mark .equals :: .number (.ofNat 1) :: List.replicate 127 (.mark .bang) ∧
      (readLine .empty ("y = 1" ++ "".pushn '!' 127)).diagnostics.entries =
        [(.ofLength 0 132, .tooDeep)] ∧
      (readLine .empty ("y = 1" ++ "".pushn '!' 127)).environment.valueOf? "y" =
        some (.ofNat 1) ∧
      (readLine .empty ("y = 1" ++ "".pushn '!' 127)).environment ≠ .empty := by
  decide +kernel

end Calculator
