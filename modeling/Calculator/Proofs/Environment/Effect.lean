import Calculator.Proofs.Environment.Binding
import Calculator.Proofs.Grammar.Statement

/-!
# The effect of a line

What a line does to the environment can be read off its tree: a deletion removes
its variable, and any other tree adds what is declared in it.
-/

namespace Calculator

/-- What is declared in a tree, from left to right. A body that is called declares nothing. -/
def Expr.declarations : Expr → List (String × UserBinding)
  | unary _ operand => operand.declarations
  | binary lhs _ rhs => lhs.declarations ++ rhs.declarations
  | grouping inner => inner.declarations
  | builtinCall _ _ arg => arg.declarations
  | userCall _ _ arg => arg.declarations
  | assignment n value => value.declarations ++ [(n, .assigned value.evaluate)]
  | definition n body => body.declarations ++ [(n, .defined body)]
  | _ => []

namespace Environment

variable {env env' env'' : Environment} {n : String}

theorem contains_eq_false_iff_entries :
    env.contains n = false ↔ Builtin.ofName? n = none ∧ ∀ b, (n, b) ∉ env.bindings.entries := by
  simp only [contains_eq_false_iff, ← Table.get?_eq_some_iff, Option.eq_none_iff_forall_ne_some]

/-- The second environment is the first with new names bound, each of them once. -/
structure Gains (env env' : Environment) (added : List (String × UserBinding)) : Prop where
  distinct : (added.map Prod.fst).Nodup
  fresh : ∀ n ∈ added.map Prod.fst, env.contains n = false
  entries : ∀ e, e ∈ env'.bindings.entries ↔ e ∈ env.bindings.entries ∨ e ∈ added

theorem Gains.nothing (env : Environment) : env.Gains env [] :=
  ⟨List.nodup_nil, by simp, by simp⟩

theorem gains_of_bind {b : UserBinding} (h : env.bind n b = .ok env') :
    env.Gains env' [(n, b)] := by
  obtain ⟨fresh, rfl⟩ := bind_eq_ok.1 h
  refine ⟨by simp, by simpa using fresh, fun e => ?_⟩
  have hnew : e ∈ env.bindings.entries → n ≠ e.1 := by
    rintro he rfl
    exact (contains_eq_false_iff_entries.1 fresh).2 e.2 he
  rw [Table.mem_insert, List.mem_singleton, and_iff_left_of_imp hnew, or_comm]

variable {added added' : List (String × UserBinding)}

/-- What was unbound after names were added was unbound before, and is none of them. -/
theorem Gains.fresh_before (h : env.Gains env' added) (hn : env'.contains n = false) :
    env.contains n = false ∧ n ∉ added.map Prod.fst := by
  obtain ⟨hbuiltin, hentries⟩ := contains_eq_false_iff_entries.1 hn
  refine ⟨contains_eq_false_iff_entries.2 ⟨hbuiltin, fun b hb => ?_⟩, fun hmem => ?_⟩
  · exact hentries b ((h.entries _).2 (.inl hb))
  · obtain ⟨⟨m, b⟩, hb, rfl⟩ := List.mem_map.1 hmem
    exact hentries b ((h.entries _).2 (.inr hb))

theorem Gains.append (h : env.Gains env' added) (h' : env'.Gains env'' added') :
    env.Gains env'' (added ++ added') where
  distinct := by
    rw [List.map_append]
    refine List.nodup_append.2 ⟨h.distinct, h'.distinct, fun n hn m hm hnm => ?_⟩
    exact (h.fresh_before (h'.fresh m hm)).2 (hnm ▸ hn)
  fresh n hn := by
    rw [List.map_append, List.mem_append] at hn
    rcases hn with hn | hn
    · exact h.fresh n hn
    · exact (h.fresh_before (h'.fresh n hn)).1
  entries e := by
    rw [h'.entries, h.entries, List.mem_append, or_assoc]

theorem Gains.bind {b : UserBinding} (h : env.Gains env' added)
    (hb : env'.bind n b = .ok env'') : env.Gains env'' (added ++ [(n, b)]) :=
  h.append (gains_of_bind hb)

end Environment

namespace Phrase

theorem declarations_of_readCallee {inBody : Bool} {env : Environment} {n : String}
    {apply : Expr → Expr} (h : readCallee inBody env n = .ok apply) (e : Expr) :
    (apply e).declarations = e.declarations := by
  rcases apply_of_readCallee h with ⟨f, -, rfl⟩ | ⟨body, -, rfl⟩ <;> rfl

/-- Reading a phrase adds what its tree declares, and nothing else. -/
theorem Reads.gains {p : Phrase} {inBody : Bool} {env env' : Environment} {e : Expr}
    (h : p.Reads inBody env e env') : env.Gains env' e.declarations := by
  induction h with
  | number => exact .nothing _
  | name hn => rcases tree_of_readName hn with rfl | ⟨value, rfl⟩ <;> exact .nothing _
  | neg h ih => exact ih
  | factorial h natural ih => exact ih
  | binary hl hr ihl ihr => exact ihl.append ihr
  | product hl h ihl ih => exact ihl.append ih
  | grouping h ih => exact ih
  | call hn h ih =>
      rw [declarations_of_readCallee hn]
      exact ih
  | assignment fresh h hd ih => exact ih.bind hd
  | definition fresh h hd ih => exact ih.bind hd

theorem Reads.ne_deletion {p : Phrase} {inBody : Bool} {env env' : Environment} {e : Expr}
    (h : p.Reads inBody env e env') (n : String) : e ≠ .deletion n := by
  cases h with
  | name hn => rcases tree_of_readName hn with rfl | ⟨value, rfl⟩ <;> simp
  | call hn h => rcases apply_of_readCallee hn with ⟨f, -, rfl⟩ | ⟨body, -, rfl⟩ <;> simp
  | _ => simp

end Phrase

/--
The tree of a line without faults records what the line does to the environment.
A deletion removes the variable that it names, and only this. Any other tree
adds what is declared in it, under names that are distinct and were unbound.
-/
theorem declarations_of_readLine {env : Environment} {source : String}
    (h : (readLine env source).isOk) :
    (∀ n, (readLine env source).expr = .deletion n →
        ∃ value, env.Loses (readLine env source).environment n value) ∧
      ((∀ n, (readLine env source).expr ≠ .deletion n) →
        env.Gains (readLine env source).environment (readLine env source).expr.declarations) := by
  obtain ⟨st, -, -, hreads, -, -⟩ := reads_readLine h
  generalize (readLine env source).expr = tree at hreads ⊢
  generalize (readLine env source).environment = env' at hreads ⊢
  cases hreads with
  | deletion hloses =>
      refine ⟨fun n hn => ?_, fun hne => absurd rfl (hne _)⟩
      cases hn
      exact ⟨_, hloses⟩
  | phrase hp => exact ⟨fun n hn => absurd hn (hp.ne_deletion n), fun _ => hp.gains⟩

/-- A line declares three names, the inner ones first, and another one deletes the first of them. -/
theorem declarations_of_readLine_of_nested_declarations :
    ∃ env, (readLine .empty "a = 1 + (b = 2)(c: x)").environment = env ∧
      (readLine .empty "a = 1 + (b = 2)(c: x)").isOk ∧
      (readLine .empty "a = 1 + (b = 2)(c: x)").expr.declarations.map Prod.fst =
        ["b", "c", "a"] ∧
      Environment.empty.Gains env
        (readLine .empty "a = 1 + (b = 2)(c: x)").expr.declarations ∧
      env.bindings.entries =
        [("a", .assigned (.ofBits 0x3ff0000000000000)),
          ("b", .assigned (.ofBits 0x4000000000000000)), ("c", .defined (.name "x"))] ∧
      (readLine env "del b").isOk ∧
      (∃ value, env.Loses (readLine env "del b").environment "b" value) ∧
      (readLine env "del b").environment.bindings.entries =
        [("a", .assigned (.ofBits 0x3ff0000000000000)), ("c", .defined (.name "x"))] := by
  refine ⟨_, rfl, ?declared, by decide +kernel, ?gains, by decide +kernel, ?deleted, ?loses,
    by decide +kernel⟩
  case declared => decide +kernel
  case deleted => decide +kernel
  case gains =>
    refine (declarations_of_readLine (by decide +kernel)).2 fun n hn => ?_
    have hdeclared : (readLine .empty "a = 1 + (b = 2)(c: x)").expr.declarations ≠ [] := by
      decide +kernel
    rw [hn] at hdeclared
    exact hdeclared rfl
  case loses => exact (declarations_of_readLine (by decide +kernel)).1 "b" (by decide +kernel)

end Calculator
