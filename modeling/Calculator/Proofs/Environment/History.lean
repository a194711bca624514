import Calculator.Proofs.Environment.Persistence

/-!
# Histories

An environment comes about by operations: a name is declared, defined or
removed, all names are removed, or a line is read. Whatever the operations and
their order, builtins, variables and functions share one namespace.
-/

namespace Calculator

inductive Operation where
  | declare (name : String) (value : Binary64)
  | define (name : String) (body : Expr)
  | remove (name : String)
  | clear
  | line (source : String)
deriving DecidableEq

namespace Operation

/--
The environment after an operation, or why it is refused. A line is never
refused: what is wrong with it stands in its diagnostics.
-/
def run (op : Operation) (env : Environment) : Except Fault Environment :=
  match op with
  | declare n value => env.declare n value
  | define n body => env.define n body
  | remove n => (env.remove n).map (·.2)
  | clear => .ok .empty
  | line source => .ok (readLine env source).environment

/-- A function is defined from outside, with any tree as its body. -/
def isDefine : Operation → Bool
  | define _ _ => true
  | _ => false

end Operation

namespace Environment

variable {env env' : Environment} {n : String}

def apply (env : Environment) (op : Operation) : Environment :=
  match op.run env with
  | .ok env' => env'
  | .error _ => env

def after (history : List Operation) : Environment :=
  history.foldl apply .empty

theorem after_append_line (history : List Operation) (source : String) :
    after (history ++ [.line source]) = (readLine (after history) source).environment := by
  simp [after, apply, Operation.run]

/-! ## Invariants -/

/--
What holds at first, and is kept by the declarations that lines make and by the
removal of variables, holds after a history, if the definitions from outside
keep it too.
-/
theorem after_invariant {P : Environment → Prop} {history : List Operation} (empty : P .empty)
    (declares : ∀ {env env'}, P env → env.Declares (some maxNesting) env' → P env')
    (removes : ∀ {env env' n value}, P env → env.Loses env' n value → P env')
    (defines : ∀ {env env' n body}, .define n body ∈ history → P env →
      env.define n body = .ok env' → P env') : P (after history) := by
  refine List.foldlRecOn history apply empty fun env henv op hop => ?_
  unfold apply
  split
  next env' hrun =>
    cases op with
    | declare n value => exact declares henv (.assigned hrun)
    | define n body => exact defines hop henv hrun
    | remove n =>
        obtain ⟨value, hloses⟩ := remove_eq_ok hrun
        exact removes henv hloses
    | clear =>
        cases hrun
        exact empty
    | line source =>
        cases hrun
        rcases readLine_changes env source with hdeclares | ⟨n, value, rest, -, hloses⟩
        · generalize (readLine env source).environment = env' at hdeclares
          induction hdeclares with
          | refl => exact henv
          | tail _ hstep ih => exact declares ih hstep
        · exact removes henv hloses
  next => exact henv

/-! ## Variables and functions -/

theorem mem_values {value : Binary64} : (n, value) ∈ env.values ↔ env.valueOf? n = some value := by
  rw [valueOf?_eq_some_iff, Table.get?_eq_some_iff, values, List.mem_filterMap]
  constructor
  · rintro ⟨⟨m, b⟩, he, hb⟩
    cases b with
    | assigned v =>
        cases hb
        exact he
    | defined body => cases hb
  · intro he
    exact ⟨_, he, rfl⟩

theorem mem_bodies {body : Expr} : (n, body) ∈ env.bodies ↔ env.bodyOf? n = some body := by
  rw [bodyOf?_eq_some_iff, Table.get?_eq_some_iff, bodies, List.mem_filterMap]
  constructor
  · rintro ⟨⟨m, b⟩, he, hb⟩
    cases b with
    | assigned v => cases hb
    | defined body =>
        cases hb
        exact he
  · intro he
    exact ⟨_, he, rfl⟩

/-- What is picked from the entries of a table is in order if it keeps their names. -/
theorem ascending_filterMap_entries {α : Type} (env : Environment)
    {pick : String × UserBinding → Option (String × α)}
    (hpick : ∀ e c, pick e = some c → c.1 = e.1) :
    Ascending (env.bindings.entries.filterMap pick) := by
  refine env.bindings.ascending.filterMap pick fun e e' hlt c hc c' hc' => ?_
  rw [hpick e c hc, hpick e' c' hc']
  exact hlt

theorem ascending_values (env : Environment) : Ascending env.values := by
  refine env.ascending_filterMap_entries fun e c hc => ?_
  split at hc <;> cases hc
  rfl

theorem ascending_bodies (env : Environment) : Ascending env.bodies := by
  refine env.ascending_filterMap_entries fun e c hc => ?_
  split at hc <;> cases hc
  rfl

theorem nodup_values (env : Environment) : (env.values.map Prod.fst).Nodup :=
  Table.nodup_keys ⟨env.values, env.ascending_values⟩

theorem nodup_bodies (env : Environment) : (env.bodies.map Prod.fst).Nodup :=
  Table.nodup_keys ⟨env.bodies, env.ascending_bodies⟩

/-! ## One namespace -/

def AvoidsBuiltins (env : Environment) : Prop :=
  ∀ n b, env.bindings.get? n = some b → Builtin.ofName? n = none

theorem AvoidsBuiltins.bind {b : UserBinding} (h : env.AvoidsBuiltins)
    (bound : env.bind n b = .ok env') : env'.AvoidsBuiltins := by
  intro m c hm
  rw [get?_of_bind bound] at hm
  split at hm
  next heq =>
    rw [heq]
    exact (contains_eq_false_iff.1 (bind_eq_ok.1 bound).1).1
  next => exact h m c hm

theorem AvoidsBuiltins.loses {value : Binary64} (h : env.AvoidsBuiltins)
    (hloses : env.Loses env' n value) : env'.AvoidsBuiltins := by
  intro m c hm
  rw [hloses.get?] at hm
  split at hm
  · cases hm
  · exact h m c hm

theorem avoidsBuiltins_after (history : List Operation) : (after history).AvoidsBuiltins := by
  refine after_invariant ?_ ?_ ?_ ?_
  · intro n b hn
    cases hn
  · intro env env' henv hdeclares
    obtain ⟨n, b, bound⟩ := hdeclares.bind
    exact henv.bind bound
  · intro env env' n value henv hloses
    exact henv.loses hloses
  · intro env env' n body _ henv bound
    exact henv.bind bound

/-- What an environment binds is found under its name. -/
theorem AvoidsBuiltins.lookup {b : UserBinding} (h : env.AvoidsBuiltins)
    (hn : env.bindings.get? n = some b) : env.lookup n = some b.binding := by
  simp [Environment.lookup, h n b hn, hn]

theorem AvoidsBuiltins.nodup_names (h : env.AvoidsBuiltins) :
    (Builtin.table.map Prod.fst ++ env.values.map Prod.fst ++
      env.bodies.map Prod.fst).Nodup := by
  have builtin {m : String} {b : UserBinding} (hm : env.bindings.get? m = some b) :
      ∀ k ∈ Builtin.table.map Prod.fst, k ≠ m := by
    rintro k hk rfl
    obtain ⟨e, he, rfl⟩ := List.mem_map.1 hk
    simpa using List.lookup_eq_none_iff.1 (h _ b hm) e he
  have assigned {m : String} (hm : m ∈ env.values.map Prod.fst) :
      ∃ value, env.bindings.get? m = some (.assigned value) := by
    obtain ⟨e, he, rfl⟩ := List.mem_map.1 hm
    exact ⟨e.2, valueOf?_eq_some_iff.1 (mem_values.1 he)⟩
  have defined {m : String} (hm : m ∈ env.bodies.map Prod.fst) :
      ∃ body, env.bindings.get? m = some (.defined body) := by
    obtain ⟨e, he, rfl⟩ := List.mem_map.1 hm
    exact ⟨e.2, bodyOf?_eq_some_iff.1 (mem_bodies.1 he)⟩
  refine List.nodup_append.2 ⟨List.nodup_append.2 ⟨?_, env.nodup_values, ?_⟩, env.nodup_bodies, ?_⟩
  · decide
  · intro k hk m hm
    obtain ⟨value, hm⟩ := assigned hm
    exact builtin hm k hk
  · intro k hk m hm hkm
    obtain ⟨body, hm⟩ := defined hm
    rcases List.mem_append.1 hk with hk | hk
    · exact builtin hm k hk hkm
    · obtain ⟨value, hk⟩ := assigned hk
      rw [hkm, hm] at hk
      cases hk

end Environment

end Calculator
