import Calculator.Proofs.Grammar.FunctionBody

/-!
# Interpretation

A line carried out from left to right, without a tree: a name has the value that
it stands for where it is reached, and an operator is applied to the values of
its operands. A tree is evaluated only after the whole line has been read, and
still gives the same value and leaves the same environment.
-/

namespace Calculator

namespace Environment

def number? (env : Environment) (n : String) : Option Binary64 :=
  match env.lookup n with
  | some (.constant value) => some value
  | some (.assigned value) => some value
  | _ => none

def function? (env : Environment) (n : String) : Option (Binary64 → Binary64) :=
  match env.lookup n with
  | some (.builtin f) => some f.apply
  | some (.defined body) => some body.evaluateWith
  | _ => none

end Environment

namespace Phrase

/--
The body that a function is given: its parameter is left open, every other name
has become its number, and a call keeps what it calls.
-/
def capture (env : Environment) : Phrase → Option Expr
  | number value => some (.literal value)
  | name n => if n = parameterName then some (.name n) else (env.number? n).map .literal
  | neg p => (p.capture env).map (.unary .neg)
  | factorial p => (p.capture env).map (.unary .factorial)
  | binary l op r => do
      let e ← l.capture env
      let d ← r.capture env
      return .binary e op d
  | product l p => do
      let e ← l.capture env
      let d ← p.capture env
      return .binary e .mul (.grouping d)
  | grouping p => (p.capture env).map .grouping
  | call n p => do
      let arg ← p.capture env
      match env.lookup n with
      | some (.builtin f) => some (.builtinCall n f arg)
      | some (.defined body) => some (.userCall n body arg)
      | _ => none
  | assignment _ _ => none
  | definition _ _ => none

/-- The value of a phrase that is carried out in an environment, and the environment after it. -/
def interpret : Phrase → Environment → Option (Binary64 × Environment)
  | number value, env => some (value, env)
  | name n, env => do
      let value ← env.number? n
      return (value, env)
  | neg p, env => do
      let (a, env) ← p.interpret env
      return (UnaryOp.neg.apply a, env)
  | factorial p, env => do
      let (a, env) ← p.interpret env
      return (UnaryOp.factorial.apply a, env)
  | binary l op r, env => do
      let (a, env) ← l.interpret env
      let (b, env) ← r.interpret env
      return (op.apply a b, env)
  | product l p, env => do
      let (a, env) ← l.interpret env
      let (b, env) ← p.interpret env
      return (BinaryOp.mul.apply a b, env)
  | grouping p, env => p.interpret env
  | call n p, env => do
      let f ← env.function? n
      let (a, env) ← p.interpret env
      return (f a, env)
  | assignment n p, env => do
      let (a, env) ← p.interpret env
      let env ← (env.declare n a).toOption
      return (a, env)
  | definition n p, env => do
      let body ← p.capture env
      let env ← (env.define n body).toOption
      return (body.evaluateWith (.zero false), env)

/-! ## Names -/

theorem number?_of_readName {inBody : Bool} {env : Environment} {n : String} {e : Expr}
    (hn : ¬(inBody ∧ n = parameterName)) (h : readName inBody env n = .ok e) :
    ∃ value, env.number? n = some value ∧ e = .literal value := by
  rw [readName, if_neg hn] at h
  unfold Environment.number?
  split at h
  next => cases h
  next value hlookup =>
    rw [hlookup]
    cases h
    exact ⟨value, rfl, rfl⟩
  next value hlookup =>
    rw [hlookup]
    cases h
    exact ⟨value, rfl, rfl⟩
  next => cases h

/-- A call gives what the function that is called gives for the value of the argument. -/
theorem function?_of_readCallee {inBody : Bool} {env : Environment} {n : String}
    {apply : Expr → Expr} (h : readCallee inBody env n = .ok apply) :
    ∃ f, env.function? n = some f ∧ ∀ e x, (apply e).evaluateWith x = f (e.evaluateWith x) := by
  unfold Environment.function?
  rcases apply_of_readCallee h with ⟨f, hlookup, rfl⟩ | ⟨body, hlookup, rfl⟩
  · rw [hlookup]
    exact ⟨f.apply, rfl, fun e x => rfl⟩
  · rw [hlookup]
    exact ⟨body.evaluateWith, rfl, fun e x => rfl⟩

/-! ## Readings -/

/-- The body that is read for a function is the body with its names captured. -/
theorem Reads.capture {p : Phrase} {env env' : Environment} {e : Expr}
    (h : p.Reads true env e env') : p.capture env = some e := by
  generalize hb : true = inBody at h
  induction h with
  | number => rfl
  | @name inBody env n e hn =>
      subst hb
      unfold Phrase.capture
      by_cases hparameter : n = parameterName
      · rw [readName, if_pos ⟨rfl, hparameter⟩] at hn
        cases hn
        rw [if_pos hparameter]
      · obtain ⟨value, hvalue, rfl⟩ := number?_of_readName (fun h => hparameter h.2) hn
        rw [if_neg hparameter, hvalue]
        rfl
  | neg h ih => simp [Phrase.capture, ih hb]
  | factorial h natural ih => simp [Phrase.capture, ih hb]
  | binary hl hr ihl ihr =>
      subst hb
      cases hl.environment_of_inBody
      simp [Phrase.capture, ihl rfl, ihr rfl]
  | product hl h ihl ih =>
      subst hb
      cases hl.environment_of_inBody
      simp [Phrase.capture, ihl rfl, ih rfl]
  | grouping h ih => simp [Phrase.capture, ih hb]
  | call hn h ih =>
      rcases apply_of_readCallee hn with ⟨f, hlookup, rfl⟩ | ⟨body, hlookup, rfl⟩ <;>
        simp [Phrase.capture, ih hb, hlookup]
  | assignment => cases hb
  | definition => cases hb

/--
Carrying a phrase out gives the value of its tree and leaves the environment
that reading it leaves, although the tree is evaluated after all of the phrase
has been read.
-/
theorem Reads.interpret {p : Phrase} {env env' : Environment} {e : Expr}
    (h : p.Reads false env e env') : p.interpret env = some (e.evaluate, env') := by
  generalize hb : false = inBody at h
  unfold Expr.evaluate
  induction h with
  | number => rfl
  | name hn =>
      subst hb
      obtain ⟨value, hvalue, rfl⟩ := number?_of_readName (fun h => Bool.noConfusion h.1) hn
      simp [Phrase.interpret, hvalue, Expr.evaluateWith]
  | neg h ih => simp [Phrase.interpret, ih hb, Expr.evaluateWith]
  | factorial h natural ih => simp [Phrase.interpret, ih hb, Expr.evaluateWith]
  | binary hl hr ihl ihr => simp [Phrase.interpret, ihl hb, ihr hb, Expr.evaluateWith]
  | product hl h ihl ih => simp [Phrase.interpret, ihl hb, ih hb, Expr.evaluateWith]
  | grouping h ih => exact ih hb
  | call hn h ih =>
      obtain ⟨f, hf, hcall⟩ := function?_of_readCallee hn
      simp [Phrase.interpret, hf, ih hb, hcall]
  | assignment fresh h hd ih =>
      rw [Expr.evaluate] at hd
      simp [Phrase.interpret, ih hb, hd, Except.toOption, Expr.evaluateWith]
  | definition fresh h hd ih =>
      cases h.environment_of_inBody
      simp [Phrase.interpret, h.capture, hd, Except.toOption, Expr.evaluateWith]

/-! ## Lines -/

/-- The tokens of a line tell how it is read, whichever phrase is made out of them. -/
theorem Reads.of_symbols {s : Parser.State Environment} {p q : Phrase} {env' : Environment}
    {e : Expr}
    (hq : q.Reads s.inBody s.environment e env') (hqsymbols : s.symbols = q.symbols)
    (hqwell : q.WellFormed) (hpsymbols : s.symbols = p.symbols) (hpwell : p.WellFormed)
    (faultless : s.diagnostics.isEmpty) : p.Reads s.inBody s.environment e env' := by
  have hqstatement : (Parser.statement none s).Satisfies
      (fun d t => d = e ∧ t.environment = env') fun _ => False := by
    refine Parser.statement_of_phrase hqsymbols hqwell rfl faultless ?_
    rw [Resolves, resolve_of_reads hq]
    exact ⟨rfl, rfl⟩
  have hpstatement : (Parser.statement none s).Satisfies
      (fun d t => p.Reads s.inBody s.environment d t.environment) fun _ => True := by
    refine Parser.statement_of_phrase hpsymbols hpwell rfl faultless ?_
    unfold Resolves
    cases hp : p.resolve s.inBody s.environment with
    | ok result => exact reads_of_resolve hp
    | error fault => exact fun t span ht => trivial
  cases hstatement : Parser.statement none s with
  | abort t =>
      rw [hstatement] at hqstatement
      exact hqstatement.elim
  | ok d t _ =>
      rw [hstatement] at hqstatement hpstatement
      obtain ⟨rfl, rfl⟩ := hqstatement
      exact hpstatement

end Phrase

/--
A line that is accepted and deletes nothing is a phrase, and carrying the phrase
out from left to right gives the value of the tree of the line and the
environment after the line.
-/
theorem readLine_interprets {env : Environment} {source : String}
    (h : (readLine env source).isOk) (hdel : .mark .del ∉ symbolsOf source) :
    (∃ p : Phrase, p.symbols = symbolsOf source ∧ p.WellFormed) ∧
      ∀ p : Phrase, p.symbols = symbolsOf source → p.WellFormed →
        p.interpret env =
          some ((readLine env source).expr.evaluate, (readLine env source).environment) := by
  obtain ⟨st, hsymbols, hwell, hreads, -, -⟩ := reads_readLine h
  generalize (readLine env source).expr = e at hreads ⊢
  generalize (readLine env source).environment = env' at hreads ⊢
  cases hreads with
  | @deletion n _ _ _ =>
      rw [← hsymbols] at hdel
      exact absurd List.mem_cons_self hdel
  | @phrase q _ _ _ hq =>
      refine ⟨⟨q, hsymbols, hwell⟩, fun p hp hpwell => ?_⟩
      let s := Parser.State.ofTokens (tokenize source) env .empty
      have hs : s.symbols = symbolsOf source := symbols_ofTokens source env .empty
      have hreads : p.Reads false env e env' :=
        Phrase.Reads.of_symbols (s := s) hq (hs.trans hsymbols.symm) hwell (hs.trans hp.symm)
          hpwell rfl
      exact hreads.interpret

theorem readLine_interprets_of_capture :
    (readLine .empty "(y = 2) + (f: y * x) + f(3)").isOk ∧
      .mark .del ∉ symbolsOf "(y = 2) + (f: y * x) + f(3)" ∧
      ∃ p : Phrase, p.symbols = symbolsOf "(y = 2) + (f: y * x) + f(3)" ∧ p.WellFormed ∧
        p.interpret .empty =
          some (.ofNat 8, (readLine .empty "(y = 2) + (f: y * x) + f(3)").environment) := by
  have h : (readLine .empty "(y = 2) + (f: y * x) + f(3)").isOk := by decide +kernel
  have hdel : .mark .del ∉ symbolsOf "(y = 2) + (f: y * x) + f(3)" := by decide +kernel
  have hvalue : (readLine .empty "(y = 2) + (f: y * x) + f(3)").expr.evaluate = .ofNat 8 := by
    decide +kernel
  obtain ⟨⟨p, hp, hwell⟩, hinterpret⟩ := readLine_interprets h hdel
  have hp_interpret := hinterpret p hp hwell
  rw [hvalue] at hp_interpret
  exact ⟨h, hdel, p, hp, hwell, hp_interpret⟩

end Calculator
