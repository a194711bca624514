import Calculator.Proofs.Environment.History
import Calculator.Proofs.Expr.Nodes

/-!
# The trees of phrases

What phrases are read as: in a body no name but the parameter is left, outside
of bodies no name at all, and a call goes to what its name stands for.
-/

namespace Calculator

namespace Environment

variable {env env' : Environment} {n : String}

theorem Keeps.bodies (h : env.Keeps env') : env.bodies ⊆ env'.bodies := by
  rintro ⟨n, body⟩ hmem
  exact mem_bodies.2 (h.bodyOf? (mem_bodies.1 hmem))

theorem ofName?_of_lookup_builtin {f : BuiltinFunction} (h : env.lookup n = some (.builtin f)) :
    Builtin.ofName? n = some (.function f) := by
  rcases lookup_eq_some h with ⟨builtin, hn, hf⟩ | ⟨-, b, -, hf⟩
  · cases builtin <;> cases hf
    exact hn
  · cases b <;> cases hf

theorem mem_bodies_of_lookup {body : Expr} (h : env.lookup n = some (.defined body)) :
    (n, body) ∈ env.bodies := by
  rw [mem_bodies, bodyOf?_eq_some_iff]
  exact (bound_of_lookup (b := .defined body) h).2

end Environment

namespace Phrase

variable {p : Phrase} {inBody : Bool} {env env' : Environment} {e : Expr}

theorem Reads.keeps (h : p.Reads inBody env e env') : env.Keeps env' := by
  intro n b hn
  rw [Table.get?_eq_some_iff] at hn ⊢
  exact (h.gains.entries _).2 (.inl hn)

theorem Reads.outerNames (h : p.Reads false env e env') : e.outerNames = [] := by
  generalize hb : false = inBody at h
  induction h with
  | number => rfl
  | name hn =>
      subst hb
      unfold readName at hn
      split at hn
      next hparameter => exact absurd hparameter.1 Bool.false_ne_true
      next => split at hn <;> cases hn <;> rfl
  | neg h ih => exact ih hb
  | factorial h natural ih => exact ih hb
  | binary hl hr ihl ihr => exact List.append_eq_nil_iff.2 ⟨ihl hb, ihr hb⟩
  | product hl h ihl ih => exact List.append_eq_nil_iff.2 ⟨ihl hb, ih hb⟩
  | grouping h ih => exact ih hb
  | call hn h ih =>
      rcases apply_of_readCallee hn with ⟨f, -, rfl⟩ | ⟨body, -, rfl⟩ <;> exact ih hb
  | assignment fresh h hd ih => exact ih rfl
  | definition => rfl

/-- Whatever is in the tree of a phrase has been read among the functions there after it. -/
theorem Reads.isReadAmong (h : p.Reads inBody env e env') :
    ∀ d ∈ e.nodes, d.IsReadAmong env'.bodies inBody := by
  induction h with
  | number => simp [Expr.nodes, Expr.IsReadAmong]
  | name hn =>
      unfold readName at hn
      split at hn
      next hparameter =>
        cases hn
        simpa [Expr.nodes, Expr.IsReadAmong] using hparameter.2
      next => split at hn <;> cases hn <;> simp [Expr.nodes, Expr.IsReadAmong]
  | neg h ih => exact List.forall_mem_cons.2 ⟨trivial, ih⟩
  | factorial h natural ih => exact List.forall_mem_cons.2 ⟨trivial, ih⟩
  | binary hl hr ihl ihr =>
      refine List.forall_mem_cons.2 ⟨trivial, List.forall_mem_append.2 ⟨fun d hd => ?_, ihr⟩⟩
      exact (ihl d hd).mono hr.keeps.bodies
  | product hl h ihl ih =>
      refine List.forall_mem_cons.2 ⟨trivial, List.forall_mem_append.2 ⟨fun d hd => ?_, ?_⟩⟩
      · exact (ihl d hd).mono h.keeps.bodies
      · exact List.forall_mem_cons.2 ⟨trivial, ih⟩
  | grouping h ih => exact List.forall_mem_cons.2 ⟨trivial, ih⟩
  | call hn h ih =>
      rcases apply_of_readCallee hn with ⟨f, hf, rfl⟩ | ⟨body, hbody, rfl⟩
      · exact List.forall_mem_cons.2 ⟨Environment.ofName?_of_lookup_builtin hf, ih⟩
      · exact List.forall_mem_cons.2
          ⟨h.keeps.bodies (Environment.mem_bodies_of_lookup hbody), ih⟩
  | assignment fresh h hd ih =>
      refine List.forall_mem_cons.2 ⟨rfl, fun d hmem => ?_⟩
      exact (ih d hmem).mono (Environment.keeps_of_bind hd).bodies
  | definition fresh h hd ih =>
      refine List.forall_mem_cons.2 ⟨rfl, fun d hmem => ?_⟩
      exact ((ih d hmem).mono (Environment.keeps_of_bind hd).bodies).outside

end Phrase

end Calculator
