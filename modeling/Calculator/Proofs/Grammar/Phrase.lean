import Calculator.Parser.Rules

/-!
# Phrases

A phrase is the shape of a line before its names are read: it is made of
symbols, which are tokens without their places, and a product without an
operator is told apart from one with an asterisk. Reading the names of a phrase
from left to right in an environment gives a tree.
-/

namespace Calculator

/-- What matters of a token to a parser. -/
inductive Symbol where
  | number (value : Binary64)
  | name (name : String)
  | mark (kind : TokenKind)
deriving DecidableEq

def Token.symbol (t : Token) : Symbol :=
  match t.kind with
  | .number value => .number value
  | .identifier => .name t.lexeme
  | kind => .mark kind

namespace Token

theorem symbol_of_number {t : Token} {value : Binary64} (h : t.kind = .number value) :
    t.symbol = .number value := by
  simp [symbol, h]

theorem symbol_of_identifier {t : Token} (h : t.kind = .identifier) :
    t.symbol = .name t.lexeme := by
  simp [symbol, h]

theorem symbol_of_mark {t : Token} {k : TokenKind} (h : t.kind = k)
    (hnumber : ∀ value, k ≠ .number value) (hname : k ≠ .identifier) : t.symbol = .mark k := by
  subst h
  cases hk : t.kind with
  | number value => exact absurd hk (hnumber value)
  | identifier => exact absurd hk hname
  | _ => simp [symbol, hk]

end Token

namespace TokenKind

def attaches : TokenKind → Bool
  | leftParen => true
  | bang => true
  | equals => true
  | colon => true
  | _ => false

/-- An expression above the floor ends before a token of this kind. -/
def Closes (floor : Nat) (k : TokenKind) : Prop :=
  k.attaches = false ∧ k.precedence ≤ floor

theorem precedence_of_operator? {k : TokenKind} {op : BinaryOp} (h : k.operator? = some op) :
    k.precedence = op.precedence := by
  simp [precedence, h]

theorem precedence_of_no_operator? {k : TokenKind} (h : k.operator? = none) :
    k.precedence = 0 := by
  simp [precedence, h]

theorem attaches_of_operator? {k : TokenKind} {op : BinaryOp} (h : k.operator? = some op) :
    k.attaches = false := by
  cases k <;> first | rfl | cases h

end TokenKind

def BinaryOp.kind : BinaryOp → TokenKind
  | add => .plus
  | sub => .minus
  | mul => .star
  | div => .slash
  | rem => .percent
  | power => .caret

theorem TokenKind.eq_kind_of_operator? {k : TokenKind} {op : BinaryOp}
    (h : k.operator? = some op) : k = op.kind := by
  cases k <;> cases h <;> rfl

namespace BinaryOp

@[simp] theorem operator?_kind (op : BinaryOp) : op.kind.operator? = some op := by
  cases op <;> rfl

@[simp] theorem attaches_kind (op : BinaryOp) : op.kind.attaches = false := by
  cases op <;> rfl

@[simp] theorem precedence_kind (op : BinaryOp) : op.kind.precedence = op.precedence :=
  TokenKind.precedence_of_operator? op.operator?_kind

theorem precedence_pos (op : BinaryOp) : 0 < op.precedence := by
  cases op <;> decide

theorem precedence_lt_negationFloor (op : BinaryOp) :
    op.precedence < Priority.negationFloor :=
  op.priority.precedence_lt_negationFloor

end BinaryOp

inductive Phrase where
  | number (value : Binary64)
  | name (name : String)
  | neg (operand : Phrase)
  | factorial (operand : Phrase)
  | binary (lhs : Phrase) (op : BinaryOp) (rhs : Phrase)
  /-- A factor and a parenthesized factor, with no operator between them. -/
  | product (lhs inner : Phrase)
  | grouping (inner : Phrase)
  | call (name : String) (arg : Phrase)
  | assignment (name : String) (value : Phrase)
  | definition (name : String) (body : Phrase)
deriving DecidableEq

namespace Phrase

def symbols : Phrase → List Symbol
  | number value => [.number value]
  | name n => [.name n]
  | neg p => .mark .minus :: p.symbols
  | factorial p => p.symbols ++ [.mark .bang]
  | binary l op r => l.symbols ++ .mark op.kind :: r.symbols
  | product l p => l.symbols ++ .mark .leftParen :: (p.symbols ++ [.mark .rightParen])
  | grouping p => .mark .leftParen :: (p.symbols ++ [.mark .rightParen])
  | call n p => .name n :: .mark .leftParen :: (p.symbols ++ [.mark .rightParen])
  | assignment n p => .name n :: .mark .equals :: p.symbols
  | definition n p => .name n :: .mark .colon :: p.symbols

def depth : Phrase → Nat
  | number _ => 1
  | name _ => 1
  | neg p => p.depth + 1
  | factorial p => p.depth + 1
  | binary l _ r => max l.depth r.depth + 1
  | product l p => max l.depth (p.depth + 1) + 1
  | grouping p => p.depth + 1
  | call _ p => p.depth + 1
  | assignment _ p => p.depth + 1
  | definition _ p => p.depth + 1

/-! ## Shape -/

def operator? : Phrase → Option BinaryOp
  | binary _ op _ => some op
  | _ => none

/-- A token of this kind after the phrase is not taken for more of it. -/
def EndsBefore : Phrase → TokenKind → Prop
  | name _, k => k ≠ .leftParen ∧ k ≠ .equals ∧ k ≠ .colon
  | neg p, k => k.attaches = false ∧ p.EndsBefore k
  | binary _ op r, k => k.attaches = false ∧ k.precedence ≤ op.precedence ∧ r.EndsBefore k
  | assignment _ p, k => k.attaches = false ∧ k.precedence = 0 ∧ p.EndsBefore k
  | definition _ p, k => k.attaches = false ∧ k.precedence = 0 ∧ p.EndsBefore k
  | _, _ => True

def Above (floor : Nat) (p : Phrase) : Prop :=
  ∀ op ∈ p.operator?, floor < op.precedence

theorem above_of_operator?_eq_none {p : Phrase} {floor : Nat} (h : p.operator? = none) :
    p.Above floor := by
  intro op hop
  rw [h] at hop
  cases hop

theorem operator?_eq_none_of_above {p : Phrase} (h : p.Above Priority.negationFloor) :
    p.operator? = none := by
  cases hop : p.operator? with
  | none => rfl
  | some op => exact absurd (h op hop) (Nat.lt_asymm op.precedence_lt_negationFloor)

/-- Any phrase ends before what is neither an operator nor goes with it. -/
theorem endsBefore_of_closes {p : Phrase} {k : TokenKind} (h : k.Closes 0) : p.EndsBefore k := by
  have hzero : k.precedence = 0 := Nat.le_zero.1 h.2
  have hattach := h.1
  induction p with
  | name n => refine ⟨?_, ?_, ?_⟩ <;> rintro rfl <;> cases hattach
  | neg p ih => exact ⟨hattach, ih⟩
  | binary l op r ihl ihr => exact ⟨hattach, hzero ▸ Nat.zero_le _, ihr⟩
  | assignment n p ih => exact ⟨hattach, hzero, ih⟩
  | definition n p ih => exact ⟨hattach, hzero, ih⟩
  | _ => trivial

/-- What attaches comes after no operation. -/
theorem operator?_eq_none_of_endsBefore {p : Phrase} {k : TokenKind} (h : p.EndsBefore k)
    (hk : k.attaches) : p.operator? = none := by
  cases p with
  | binary l op r => simp [h.1] at hk
  | _ => rfl

theorem precedence_le_of_endsBefore {p : Phrase} {k : TokenKind} (h : p.EndsBefore k) :
    ∀ inner ∈ p.operator?, k.precedence ≤ inner.precedence := by
  intro inner hinner
  cases p with
  | binary l op r =>
      cases hinner
      exact h.2.1
  | _ => cases hinner

def WellFormed : Phrase → Prop
  | number _ => True
  | name _ => True
  | neg p => p.WellFormed ∧ p.Above Priority.negationFloor
  | factorial p => p.WellFormed ∧ p.EndsBefore .bang
  | binary l op r =>
      l.WellFormed ∧ l.EndsBefore op.kind ∧ r.WellFormed ∧ r.Above op.precedence
  | product l p => l.WellFormed ∧ l.EndsBefore .leftParen ∧ p.WellFormed
  | grouping p => p.WellFormed
  | call _ p => p.WellFormed
  | assignment _ p => p.WellFormed
  | definition _ p => p.WellFormed

/-! ## Names -/

/-- What a name that nothing goes with is read as. -/
def readName (inBody : Bool) (env : Environment) (n : String) : Except Fault Expr :=
  if inBody ∧ n = parameterName then .ok (.name n)
  else
    match env.lookup n with
    | none => .error (.unknownName n)
    | some (.constant value) => .ok (.literal value)
    | some (.assigned value) => .ok (.literal value)
    | some _ => .error (.uncalledFunction n)

/-- What a name before a parenthesis does to its argument. -/
def readCallee (inBody : Bool) (env : Environment) (n : String) : Except Fault (Expr → Expr) :=
  if ¬(inBody ∧ n = parameterName) ∧ env.lookup n = none then .error (.unknownName n)
  else
    match Parser.callee? env n with
    | none => .error (.unknownFunction n)
    | some apply => .ok apply

/-- What is read for a name is the name itself or a value. -/
theorem tree_of_readName {inBody : Bool} {env : Environment} {n : String} {e : Expr}
    (h : readName inBody env n = .ok e) : e = .name n ∨ ∃ value, e = .literal value := by
  unfold readName at h
  split at h
  · cases h
    exact .inl rfl
  · split at h <;> cases h <;> exact .inr ⟨_, rfl⟩

/-- A call is a tree of its own, never the argument's. -/
theorem apply_of_readCallee {inBody : Bool} {env : Environment} {n : String}
    {apply : Expr → Expr} (h : readCallee inBody env n = .ok apply) :
    (∃ f, env.lookup n = some (.builtin f) ∧ apply = .builtinCall n f) ∨
      ∃ body, env.lookup n = some (.defined body) ∧ apply = .userCall n body := by
  unfold readCallee at h
  split at h
  · cases h
  · unfold Parser.callee? at h
    cases hlookup : env.lookup n with
    | none => simp [hlookup] at h
    | some binding =>
        cases binding with
        | constant value => simp [hlookup] at h
        | assigned value => simp [hlookup] at h
        | builtin f =>
            simp only [Environment.scope_lookup, hlookup, Except.ok.injEq] at h
            exact .inl ⟨f, rfl, h.symm⟩
        | defined body =>
            simp only [Environment.scope_lookup, hlookup, Except.ok.injEq] at h
            exact .inr ⟨body, rfl, h.symm⟩

theorem readCallee_of_callee? {inBody : Bool} {env : Environment} {n : String}
    {apply : Expr → Expr} (h : Parser.callee? env n = some apply) :
    readCallee inBody env n = .ok apply := by
  have hlookup : env.lookup n ≠ none := by
    intro hnone
    simp [Parser.callee?, hnone] at h
  simp [readCallee, hlookup, h]

/--
The tree of a phrase in an environment, and the environment after it. Names are
read from left to right, and a declaration holds from its end on.
-/
def resolve : Phrase → Bool → Environment → Except Fault (Expr × Environment)
  | number value, _, env => .ok (.literal value, env)
  | name n, inBody, env => do
      let e ← readName inBody env n
      return (e, env)
  | neg p, inBody, env => do
      let (e, env) ← p.resolve inBody env
      return (.unary .neg e, env)
  | factorial p, inBody, env => do
      let (e, env) ← p.resolve inBody env
      if e.evaluate.isNatural then return (.unary .factorial e, env)
      else throw .nonNaturalFactorial
  | binary l op r, inBody, env => do
      let (e, env) ← l.resolve inBody env
      let (d, env) ← r.resolve inBody env
      return (.binary e op d, env)
  | product l p, inBody, env => do
      let (e, env) ← l.resolve inBody env
      let (d, env) ← p.resolve inBody env
      return (.binary e .mul (.grouping d), env)
  | grouping p, inBody, env => do
      let (e, env) ← p.resolve inBody env
      return (.grouping e, env)
  | call n p, inBody, env => do
      let apply ← readCallee inBody env n
      let (e, env) ← p.resolve inBody env
      return (apply e, env)
  | assignment n p, inBody, env =>
      if inBody then throw .assignmentInFunction
      else if env.contains n then throw (.alreadyExists n)
      else do
        let (e, env) ← p.resolve false env
        let env ← env.declare n e.evaluate
        return (.assignment n e, env)
  | definition n p, inBody, env =>
      if inBody then throw .definitionInFunction
      else if env.contains n then throw (.alreadyExists n)
      else do
        let (e, env) ← p.resolve true env
        let env ← env.define n e
        return (.definition n e, env)

/-- The readings of phrases that succeed, rule by rule. -/
inductive Reads : Phrase → Bool → Environment → Expr → Environment → Prop
  | number {b env v} : Reads (number v) b env (.literal v) env
  | name {b env n e} (h : readName b env n = .ok e) : Reads (name n) b env e env
  | neg {p b env e env'} (h : Reads p b env e env') : Reads (neg p) b env (.unary .neg e) env'
  | factorial {p b env e env'} (h : Reads p b env e env') (natural : e.evaluate.isNatural) :
      Reads (factorial p) b env (.unary .factorial e) env'
  | binary {l op r b env e env' d env''} (hl : Reads l b env e env') (hr : Reads r b env' d env'') :
      Reads (binary l op r) b env (.binary e op d) env''
  | product {l p b env e env' d env''} (hl : Reads l b env e env') (h : Reads p b env' d env'') :
      Reads (product l p) b env (.binary e .mul (.grouping d)) env''
  | grouping {p b env e env'} (h : Reads p b env e env') :
      Reads (grouping p) b env (.grouping e) env'
  | call {n p b env apply e env'} (hn : readCallee b env n = .ok apply)
      (h : Reads p b env e env') : Reads (call n p) b env (apply e) env'
  | assignment {n p env e env' env''} (fresh : env.contains n = false)
      (h : Reads p false env e env') (hd : env'.declare n e.evaluate = .ok env'') :
      Reads (assignment n p) false env (.assignment n e) env''
  | definition {n p env e env' env''} (fresh : env.contains n = false)
      (h : Reads p true env e env') (hd : env'.define n e = .ok env'') :
      Reads (definition n p) false env (.definition n e) env''

/-- Only a name is read as a name. -/
theorem Reads.eq_name {p : Phrase} {b : Bool} {env env' : Environment} {n : String}
    (h : p.Reads b env (.name n) env') : p = .name n := by
  generalize he : Expr.name n = e at h
  cases h with
  | name hn =>
      subst he
      rcases tree_of_readName hn with he | ⟨value, he⟩
      · cases he
        rfl
      · cases he
  | call hn h =>
      rcases apply_of_readCallee hn with ⟨f, -, rfl⟩ | ⟨body, -, rfl⟩ <;> cases he
  | _ => cases he

/-- Nothing is declared in a body. -/
theorem Reads.environment_of_inBody {p : Phrase} {env env' : Environment} {e : Expr}
    (h : p.Reads true env e env') : env' = env := by
  generalize hb : true = inBody at h
  induction h with
  | number => rfl
  | name hn => rfl
  | neg h ih => exact ih hb
  | factorial h natural ih => exact ih hb
  | binary hl hr ihl ihr => exact (ihr hb).trans (ihl hb)
  | product hl h ihl ih => exact (ih hb).trans (ihl hb)
  | grouping h ih => exact ih hb
  | call hn h ih => exact ih hb
  | assignment => cases hb
  | definition => cases hb

private theorem bind_eq_ok {α β : Type} {o : Except Fault α} {f : α → Except Fault β} {b : β} :
    (o >>= f) = .ok b ↔ ∃ a, o = .ok a ∧ f a = .ok b := by
  cases o with
  | error fault => simp [bind, Except.bind]
  | ok a => simp [bind, Except.bind]

/-- A declaration succeeds outside of bodies only, and for a name that stands for nothing. -/
private theorem declaration_eq_ok {α : Type} {b : Bool} {env : Environment} {n : String}
    {inBody taken : Fault} {o : Except Fault α} {a : α} :
    (if b then throw inBody else if env.contains n then throw taken else o) = .ok a ↔
      b = false ∧ env.contains n = false ∧ o = .ok a := by
  cases b with
  | true => simp [throw, throwThe, MonadExceptOf.throw]
  | false => cases env.contains n <;> simp [throw, throwThe, MonadExceptOf.throw]

theorem reads_of_resolve {p : Phrase} {b : Bool} {env env' : Environment} {e : Expr}
    (h : p.resolve b env = .ok (e, env')) : p.Reads b env e env' := by
  induction p generalizing b env e env' with
  | number v =>
      cases h
      exact .number
  | name n =>
      obtain ⟨d, hn, h⟩ := bind_eq_ok.1 h
      cases h
      exact .name hn
  | neg p ih =>
      obtain ⟨⟨d, env₁⟩, hp, h⟩ := bind_eq_ok.1 h
      cases h
      exact .neg (ih hp)
  | factorial p ih =>
      obtain ⟨⟨d, env₁⟩, hp, h⟩ := bind_eq_ok.1 h
      dsimp only at h
      split at h
      next natural =>
        cases h
        exact .factorial (ih hp) natural
      next => cases h
  | binary l op r ihl ihr =>
      obtain ⟨⟨d, env₁⟩, hl, h⟩ := bind_eq_ok.1 h
      obtain ⟨⟨d', env₂⟩, hr, h⟩ := bind_eq_ok.1 h
      cases h
      exact .binary (ihl hl) (ihr hr)
  | product l p ihl ih =>
      obtain ⟨⟨d, env₁⟩, hl, h⟩ := bind_eq_ok.1 h
      obtain ⟨⟨d', env₂⟩, hp, h⟩ := bind_eq_ok.1 h
      cases h
      exact .product (ihl hl) (ih hp)
  | grouping p ih =>
      obtain ⟨⟨d, env₁⟩, hp, h⟩ := bind_eq_ok.1 h
      cases h
      exact .grouping (ih hp)
  | call n p ih =>
      obtain ⟨apply, hn, h⟩ := bind_eq_ok.1 h
      obtain ⟨⟨d, env₁⟩, hp, h⟩ := bind_eq_ok.1 h
      cases h
      exact .call hn (ih hp)
  | assignment n p ih =>
      obtain ⟨rfl, fresh, h⟩ := declaration_eq_ok.1 h
      obtain ⟨⟨d, env₁⟩, hp, h⟩ := bind_eq_ok.1 h
      obtain ⟨env₂, hd, h⟩ := bind_eq_ok.1 h
      cases h
      exact .assignment fresh (ih hp) hd
  | definition n p ih =>
      obtain ⟨rfl, fresh, h⟩ := declaration_eq_ok.1 h
      obtain ⟨⟨d, env₁⟩, hp, h⟩ := bind_eq_ok.1 h
      obtain ⟨env₂, hd, h⟩ := bind_eq_ok.1 h
      cases h
      exact .definition fresh (ih hp) hd

theorem resolve_of_reads {p : Phrase} {b : Bool} {env env' : Environment} {e : Expr}
    (h : p.Reads b env e env') : p.resolve b env = .ok (e, env') := by
  induction h with
  | number => rfl
  | name h => simp [resolve, h, bind, Except.bind, pure, Except.pure]
  | neg h ih => simp [resolve, ih, bind, Except.bind, pure, Except.pure]
  | factorial h natural ih => simp [resolve, ih, natural, bind, Except.bind, pure, Except.pure]
  | binary hl hr ihl ihr => simp [resolve, ihl, ihr, bind, Except.bind, pure, Except.pure]
  | product hl h ihl ih => simp [resolve, ihl, ih, bind, Except.bind, pure, Except.pure]
  | grouping h ih => simp [resolve, ih, bind, Except.bind, pure, Except.pure]
  | call hn h ih => simp [resolve, hn, ih, bind, Except.bind, pure, Except.pure]
  | assignment fresh h hd ih =>
      simp [resolve, fresh, ih, hd, bind, Except.bind, pure, Except.pure]
  | definition fresh h hd ih =>
      simp [resolve, fresh, ih, hd, bind, Except.bind, pure, Except.pure]

end Phrase

end Calculator
