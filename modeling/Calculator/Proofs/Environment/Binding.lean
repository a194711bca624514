import Calculator.Scope

/-!
# What a declaration changes

A name that stands for nothing comes to stand for what it is bound to, and no
other name changes. Removing a variable is the reverse.
-/

namespace Calculator

namespace Environment

variable {env env' : Environment} {n : String} {b : UserBinding}

theorem contains_eq_false_iff :
    env.contains n = false ↔ Builtin.ofName? n = none ∧ env.bindings.get? n = none := by
  simp [contains, Table.contains]

theorem contains_iff_lookup : env.contains n ↔ env.lookup n ≠ none := by
  unfold contains lookup Table.contains
  cases Builtin.ofName? n with
  | some builtin => simp
  | none => cases env.bindings.get? n <;> simp

theorem contains_eq_false_iff_lookup : env.contains n = false ↔ env.lookup n = none := by
  rw [Bool.eq_false_iff, Ne, contains_iff_lookup, Decidable.not_not]

/-- What a name stands for is a builtin, or else what it is bound to. -/
theorem lookup_eq_some {binding : Binding} (h : env.lookup n = some binding) :
    (∃ builtin, Builtin.ofName? n = some builtin ∧ builtin.binding = binding) ∨
      Builtin.ofName? n = none ∧ ∃ b, env.bindings.get? n = some b ∧ b.binding = binding := by
  unfold lookup at h
  split at h
  next builtin hn =>
    cases h
    exact .inl ⟨builtin, hn, rfl⟩
  next hn => exact .inr ⟨hn, Option.map_eq_some_iff.1 h⟩

/-- What a name that is no builtin's stands for is what it is bound to. -/
theorem bound_of_lookup (h : env.lookup n = some b.binding) :
    Builtin.ofName? n = none ∧ env.bindings.get? n = some b := by
  rcases lookup_eq_some h with ⟨builtin, -, hbinding⟩ | ⟨hn, c, hget, hbinding⟩
  · cases builtin <;> cases b <;> cases hbinding
  · cases b <;> cases c <;> cases hbinding <;> exact ⟨hn, hget⟩

theorem valueOf?_eq_some_iff {value : Binary64} :
    env.valueOf? n = some value ↔ env.bindings.get? n = some (.assigned value) := by
  unfold valueOf?
  cases env.bindings.get? n with
  | none => simp
  | some b => cases b <;> simp

theorem bodyOf?_eq_some_iff {body : Expr} :
    env.bodyOf? n = some body ↔ env.bindings.get? n = some (.defined body) := by
  unfold bodyOf?
  cases env.bindings.get? n with
  | none => simp
  | some b => cases b <;> simp

theorem bind_eq_ok :
    env.bind n b = .ok env' ↔
      env.contains n = false ∧ env' = ⟨env.bindings.insert n b⟩ := by
  unfold bind
  cases env.contains n with
  | true => simp
  | false => simp [eq_comm]

theorem get?_of_bind (h : env.bind n b = .ok env') (m : String) :
    env'.bindings.get? m = if m = n then some b else env.bindings.get? m := by
  obtain ⟨-, rfl⟩ := bind_eq_ok.1 h
  exact Table.get?_insert ..

theorem lookup_of_bind (h : env.bind n b = .ok env') (m : String) :
    env'.lookup m = if m = n then some b.binding else env.lookup m := by
  unfold lookup
  rw [get?_of_bind h]
  by_cases hm : m = n
  · rw [hm, (contains_eq_false_iff.1 (bind_eq_ok.1 h).1).1]
    simp
  · rw [if_neg hm, if_neg hm]

theorem attempt_bind (env : Environment) (n : String) (b : UserBinding) :
    attempt (fun env => env.bind n b) env =
      if env.contains n then (.error (.alreadyExists n), env)
      else (.ok (), ⟨env.bindings.insert n b⟩) := by
  unfold attempt bind
  dsimp only
  cases env.contains n <;> rfl

/-! ## Removal -/

/-- A variable is bound no more, and every other name as before. -/
structure Loses (env env' : Environment) (n : String) (value : Binary64) : Prop where
  bound : env.lookup n = some (.assigned value)
  unbound : env'.lookup n = none
  entries : ∀ e, e ∈ env'.bindings.entries ↔ e ∈ env.bindings.entries ∧ e.1 ≠ n

variable {value : Binary64}

theorem Loses.get? (h : env.Loses env' n value) (m : String) :
    env'.bindings.get? m = if m = n then none else env.bindings.get? m := by
  apply Option.ext
  intro b
  rw [Table.get?_eq_some_iff, h.entries, ← Table.get?_eq_some_iff]
  split
  next hm => simp [hm]
  next hm => simp [hm]

theorem Loses.lookup (h : env.Loses env' n value) (m : String) :
    env'.lookup m = if m = n then none else env.lookup m := by
  split
  next hm => rw [hm, h.unbound]
  next hm => rw [Environment.lookup, Environment.lookup, h.get?, if_neg hm]

theorem loses_erase (h : env.lookup n = some (.assigned value)) :
    env.Loses ⟨env.bindings.erase n⟩ n value where
  bound := h
  unbound := by
    have hbuiltin := (bound_of_lookup (b := .assigned value) h).1
    rw [lookup, hbuiltin, Table.get?_erase, if_pos rfl]
    rfl
  entries e := by rw [Table.mem_erase, ne_comm]

theorem remove_eq_ok (h : (env.remove n).map (·.2) = .ok env') :
    ∃ value, env.Loses env' n value := by
  unfold remove at h
  cases hlookup : env.lookup n with
  | none => simp [hlookup, Except.map] at h
  | some binding =>
      cases binding with
      | assigned value =>
          simp only [hlookup, Except.map, Except.ok.injEq] at h
          exact ⟨value, h ▸ loses_erase hlookup⟩
      | _ => simp [hlookup, Except.map] at h

/-! ## Copies -/

/-- A copy in which a variable has a value, whatever it was before. -/
def assign (env : Environment) (n : String) (value : Binary64) : Environment :=
  ⟨env.bindings.insert n (.assigned value)⟩

theorem get?_assign (env : Environment) (n : String) (value : Binary64) (m : String) :
    (env.assign n value).bindings.get? m =
      if m = n then some (.assigned value) else env.bindings.get? m :=
  Table.get?_insert ..

theorem lookup_assign_self {env : Environment} {n : String} (hn : Builtin.ofName? n = none)
    (value : Binary64) : (env.assign n value).lookup n = some (.assigned value) := by
  simp [lookup, hn, get?_assign, UserBinding.binding]

theorem lookup_assign_of_ne {env : Environment} {n m : String} (h : m ≠ n) (value : Binary64) :
    (env.assign n value).lookup m = env.lookup m := by
  simp [lookup, get?_assign, h]

end Environment

end Calculator
