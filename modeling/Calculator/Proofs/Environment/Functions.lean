import Calculator.Proofs.Expr.Recursion
import Calculator.Proofs.Grammar.Trees
import Mathlib.Data.List.Nodup

/-!
# The functions of an environment

Functions that lines define are defined one after another, each in terms of
those before it, and none is ever changed. So what a body calls is still there
under its name, and no function calls itself, not even through others.
-/

namespace Calculator

/--
Functions in the order of their definition, the last one first: each body has
been read where those before it were all there were.
-/
inductive Layered : List (String × Expr) → Prop
  | nil : Layered []
  | cons {n : String} {body : Expr} {earlier : List (String × Expr)} (rest : Layered earlier)
      (fresh : n ∉ earlier.map Prod.fst) (read : ∀ d ∈ body.nodes, d.IsReadAmong earlier true)
      (shallow : body.depth ≤ maxNesting) : Layered ((n, body) :: earlier)

namespace Layered

variable {functions : List (String × Expr)} {n : String} {body : Expr}

theorem nodup (h : Layered functions) : (functions.map Prod.fst).Nodup := by
  induction h with
  | nil => exact List.nodup_nil
  | cons rest fresh read shallow ih => exact List.nodup_cons.2 ⟨fresh, ih⟩

theorem of_append {later earlier : List (String × Expr)} (h : Layered (later ++ earlier)) :
    Layered earlier := by
  induction later with
  | nil => exact h
  | cons e later ih =>
      cases h with
      | cons rest fresh read shallow => exact ih rest

/-- A body has been read among the functions before it. -/
theorem read_of_append {later earlier : List (String × Expr)}
    (h : Layered (later ++ (n, body) :: earlier)) :
    (∀ d ∈ body.nodes, d.IsReadAmong earlier true) ∧ body.depth ≤ maxNesting := by
  cases h.of_append with
  | cons rest fresh read shallow => exact ⟨read, shallow⟩

theorem read (h : Layered functions) (hmem : (n, body) ∈ functions) :
    ∀ d ∈ body.nodes, d.IsReadAmong functions true := by
  obtain ⟨later, earlier, rfl⟩ := List.append_of_mem hmem
  intro d hd
  refine (h.read_of_append.1 d hd).mono fun e he => ?_
  exact List.mem_append_right _ (.tail _ he)

end Layered

namespace Environment

variable {env env' : Environment} {n : String} {functions : List (String × Expr)}

/-- These are the functions of the environment, in the order of their definition. -/
structure Layers (env : Environment) (functions : List (String × Expr)) : Prop where
  mem_iff : ∀ e, e ∈ functions ↔ e ∈ env.bodies
  layered : Layered functions

theorem Layers.empty : Layers .empty [] :=
  ⟨fun _ => Iff.rfl, .nil⟩

theorem Layers.perm (h : env.Layers functions) : functions.Perm env.bodies := by
  have hfunctions := List.Nodup.of_map _ h.layered.nodup
  have hbodies := List.Nodup.of_map _ env.nodup_bodies
  exact (List.perm_ext_iff_of_nodup hfunctions hbodies).2 h.mem_iff

theorem mem_bodies_of_bind {b : UserBinding} {e : String × Expr} (h : env.bind n b = .ok env') :
    e ∈ env'.bodies ↔ e ∈ env.bodies ∨ e.1 = n ∧ b = .defined e.2 := by
  obtain ⟨m, body⟩ := e
  have fresh := (contains_eq_false_iff.1 (bind_eq_ok.1 h).1).2
  rw [mem_bodies, mem_bodies, bodyOf?_eq_some_iff, bodyOf?_eq_some_iff, get?_of_bind h]
  by_cases hm : m = n
  · subst hm
    simp [fresh]
  · simp [hm]

theorem mem_bodies_of_loses {value : Binary64} {e : String × Expr}
    (h : env.Loses env' n value) : e ∈ env'.bodies ↔ e ∈ env.bodies := by
  obtain ⟨m, body⟩ := e
  have hvalue := (bound_of_lookup (b := .assigned value) h.bound).2
  rw [mem_bodies, mem_bodies, bodyOf?_eq_some_iff, bodyOf?_eq_some_iff, h.get?]
  by_cases hm : m = n
  · subst hm
    simp [hvalue]
  · simp [hm]

/-- A function that a line defines comes after those that are there. -/
theorem Layers.declares (h : env.Layers functions)
    (hdeclares : env.Declares (some maxNesting) env') :
    ∃ functions', env'.Layers functions' := by
  cases hdeclares with
  | assigned bound =>
      refine ⟨functions, fun e => ?_, h.layered⟩
      simp [h.mem_iff, mem_bodies_of_bind bound]
  | @defined n p body read allowed bound =>
      have fresh := (contains_eq_false_iff.1 (bind_eq_ok.1 bound).1).2
      refine ⟨(n, body) :: functions, fun e => ?_, .cons h.layered ?_ ?_ ?_⟩
      · rw [List.mem_cons, h.mem_iff, mem_bodies_of_bind bound, or_comm, Prod.ext_iff]
        simp [eq_comm]
      · intro hmem
        obtain ⟨e, he, rfl⟩ := List.mem_map.1 hmem
        have hbody := bodyOf?_eq_some_iff.1 (mem_bodies.1 ((h.mem_iff e).1 he))
        rw [fresh] at hbody
        cases hbody
      · intro d hd
        exact (read.isReadAmong d hd).mono fun e he => (h.mem_iff e).2 he
      · rw [read.depth]
        simpa [allowsDepth] using allowed

theorem layers_after {history : List Operation} (h : ∀ op ∈ history, op.isDefine = false) :
    ∃ functions, (after history).Layers functions := by
  refine after_invariant (P := fun env => ∃ functions, env.Layers functions) ⟨[], .empty⟩ ?_ ?_ ?_
  · rintro env env' ⟨functions, hlayers⟩ hdeclares
    exact hlayers.declares hdeclares
  · rintro env env' n value ⟨functions, hlayers⟩ hloses
    exact ⟨functions, fun e => (hlayers.mem_iff e).trans (mem_bodies_of_loses hloses).symm,
      hlayers.layered⟩
  · intro env env' n body hmem
    cases h _ hmem

/-! ## Calls -/

def Calls (env : Environment) (n m : String) : Prop :=
  ∃ body t arg, env.bodyOf? n = some body ∧ .userCall m t arg ∈ body.nodes

theorem Layers.read (h : env.Layers functions) {body : Expr} (hn : env.bodyOf? n = some body) :
    ∀ d ∈ body.nodes, d.IsReadAmong env.bodies true := by
  intro d hd
  have hmem := (h.mem_iff _).2 (mem_bodies.2 hn)
  exact (h.layered.read hmem d hd).mono fun e he => (h.mem_iff e).1 he

/-- A chain of calls leads to bodies that call fewer others from one another. -/
theorem Layers.callDepth_lt (h : env.Layers functions) {m : String}
    (hcalls : Relation.TransGen env.Calls n m) :
    ∃ body t, env.bodyOf? n = some body ∧ env.bodyOf? m = some t ∧
      t.callDepth < body.callDepth := by
  induction hcalls with
  | single hcall =>
      obtain ⟨body, t, arg, hn, hmem⟩ := hcall
      exact ⟨body, t, hn, mem_bodies.1 (h.read hn _ hmem), Expr.callDepth_lt_of_mem hmem⟩
  | tail _ hcall ih =>
      obtain ⟨body, c, hn, hm, hlt⟩ := ih
      obtain ⟨c', t, arg, hm', hmem⟩ := hcall
      cases hm.symm.trans hm'
      exact ⟨body, t, hn, mem_bodies.1 (h.read hm _ hmem),
        Nat.lt_trans (Expr.callDepth_lt_of_mem hmem) hlt⟩

theorem Layers.not_calls_self (h : env.Layers functions) (n : String) :
    ¬Relation.TransGen env.Calls n n := by
  intro hcalls
  obtain ⟨body, t, hn, hn', hlt⟩ := h.callDepth_lt hcalls
  cases hn.symm.trans hn'
  exact Nat.lt_irrefl _ hlt

/--
Where functions are only defined by lines, a call in a body goes to what its
name stands for still: a builtin function, or the function that has that body.
The functions have an order in which each calls only those before it, so none
comes back to itself through calls.
-/
theorem after_keeps_callees {history : List Operation}
    (h : ∀ op ∈ history, op.isDefine = false) :
    (∀ n body, (after history).bodyOf? n = some body →
        (∀ m f arg, .builtinCall m f arg ∈ body.nodes →
          Builtin.ofName? m = some (.function f)) ∧
        ∀ m t arg, .userCall m t arg ∈ body.nodes → (after history).bodyOf? m = some t) ∧
      (∃ order : List (String × Expr), order.Perm (after history).bodies ∧
        ∀ earlier n body later, order = earlier ++ (n, body) :: later →
          ∀ m t arg, .userCall m t arg ∈ body.nodes → (m, t) ∈ earlier) ∧
      ∀ n, ¬Relation.TransGen (after history).Calls n n := by
  obtain ⟨functions, hlayers⟩ := layers_after h
  refine ⟨fun n body hn => ⟨fun m f arg hmem => ?_, fun m t arg hmem => ?_⟩, ?_,
    hlayers.not_calls_self⟩
  · exact hlayers.read hn _ hmem
  · exact mem_bodies.1 (hlayers.read hn _ hmem)
  · refine ⟨functions.reverse, functions.reverse_perm.trans hlayers.perm, ?_⟩
    intro earlier n body later horder m t arg hmem
    have hfunctions : functions = later.reverse ++ (n, body) :: earlier.reverse := by
      rw [← functions.reverse_reverse, horder]
      simp
    have hlayered := hlayers.layered
    rw [hfunctions] at hlayered
    exact List.mem_reverse.1 (hlayered.read_of_append.1 _ hmem)

/-- The line that defines `f` is at fault after that, and the removal of `g` is refused. -/
theorem after_keeps_callees_of_late_fault :
    (∀ op ∈ [.line "g: -x", .line "f: g(x) + sin(x) 3", .remove "g"],
        Operation.isDefine op = false) ∧
      (after [.line "g: -x", .line "f: g(x) + sin(x) 3", .remove "g"]).bodyOf? "f" =
        some (.binary (.userCall "g" (.unary .neg (.name "x")) (.name "x")) .add
          (.builtinCall "sin" .sin (.name "x"))) ∧
      (after [.line "g: -x", .line "f: g(x) + sin(x) 3", .remove "g"]).bodyOf? "g" =
        some (.unary .neg (.name "x")) ∧
      ¬Relation.TransGen
        (after [.line "g: -x", .line "f: g(x) + sin(x) 3", .remove "g"]).Calls "f" "f" := by
  have h : ∀ op ∈ [.line "g: -x", .line "f: g(x) + sin(x) 3", .remove "g"],
      Operation.isDefine op = false := by decide
  have hf : (after [.line "g: -x", .line "f: g(x) + sin(x) 3", .remove "g"]).bodyOf? "f" =
      some (.binary (.userCall "g" (.unary .neg (.name "x")) (.name "x")) .add
        (.builtinCall "sin" .sin (.name "x"))) := by decide +kernel
  obtain ⟨hcallees, -, hacyclic⟩ := after_keeps_callees h
  exact ⟨h, hf, (hcallees "f" _ hf).2 "g" _ (.name "x") (by simp [Expr.nodes]), hacyclic "f"⟩

/-! ## Trees -/

/--
Where functions are only defined by lines, a body declares and deletes nothing
and has no name in it but the parameter. The tree of a line without faults has
names only in the bodies that it defines, is a deletion or has none in it, and
has one value if it defines nothing.
-/
theorem after_reads_closed_trees {history : List Operation}
    (h : ∀ op ∈ history, op.isDefine = false) :
    (∀ n body, (after history).bodyOf? n = some body → ∀ d ∈ body.nodes, d.IsPure) ∧
      ∀ source, (readLine (after history) source).isOk →
        .error ∉ (readLine (after history) source).expr.nodes ∧
        (∀ n, .deletion n ∈ (readLine (after history) source).expr.nodes →
          (readLine (after history) source).expr = .deletion n) ∧
        (readLine (after history) source).expr.outerNames = [] ∧
        ((∀ n body, .definition n body ∉ (readLine (after history) source).expr.nodes) →
          ∀ x y, (readLine (after history) source).expr.evaluateWith x =
            (readLine (after history) source).expr.evaluateWith y) := by
  obtain ⟨functions, hlayers⟩ := layers_after h
  refine ⟨fun n body hn d hd => (hlayers.read hn d hd).isPure, fun source hok => ?_⟩
  obtain ⟨st, -, -, hreads, -, -⟩ := reads_readLine hok
  generalize (readLine (after history) source).expr = tree at hreads ⊢
  generalize (readLine (after history) source).environment = env' at hreads
  cases hreads with
  | @deletion n _ _ _ =>
      refine ⟨by simp [Expr.nodes], fun m hm => ?_, rfl, fun _ x y => rfl⟩
      simp [Expr.nodes] at hm
      rw [hm]
  | phrase hp =>
      have hnames := hp.outerNames
      refine ⟨fun hmem => hp.isReadAmong _ hmem, fun n hmem => (hp.isReadAmong _ hmem).elim, hnames,
        fun hdefinition => Expr.evaluateWith_eq_of_closed hnames hdefinition⟩

/-- A call of a function and a declaration, whose value does not depend on the parameter. -/
theorem after_reads_closed_trees_of_call :
    (∀ op ∈ [.line "g: -x 3", .clear, .line "y = 2", .line "f: x + y 3"],
        Operation.isDefine op = false) ∧
      (after [.line "g: -x 3", .clear, .line "y = 2", .line "f: x + y 3"]).bodyOf? "f" =
        some (.binary (.name "x") .add (.literal (.ofNat 2))) ∧
      (∀ body, (after [.line "g: -x 3", .clear, .line "y = 2", .line "f: x + y 3"]).bodyOf? "f" =
        some body → ∀ d ∈ body.nodes, d.IsPure) ∧
      (readLine (after [.line "g: -x 3", .clear, .line "y = 2", .line "f: x + y 3"])
        "f(y) + (g = y)").isOk ∧
      ∀ x y,
        (readLine (after [.line "g: -x 3", .clear, .line "y = 2", .line "f: x + y 3"])
          "f(y) + (g = y)").expr.evaluateWith x =
        (readLine (after [.line "g: -x 3", .clear, .line "y = 2", .line "f: x + y 3"])
          "f(y) + (g = y)").expr.evaluateWith y := by
  have h : ∀ op ∈ [.line "g: -x 3", .clear, .line "y = 2", .line "f: x + y 3"],
      Operation.isDefine op = false := by decide
  have hok : (readLine (after [.line "g: -x 3", .clear, .line "y = 2", .line "f: x + y 3"])
      "f(y) + (g = y)").isOk := by decide +kernel
  have hexpr : (readLine (after [.line "g: -x 3", .clear, .line "y = 2", .line "f: x + y 3"])
      "f(y) + (g = y)").expr =
        .binary (.userCall "f" (.binary (.name "x") .add (.literal (.ofNat 2)))
          (.literal (.ofNat 2))) .add (.grouping (.assignment "g" (.literal (.ofNat 2)))) := by
    decide +kernel
  obtain ⟨hbodies, htrees⟩ := after_reads_closed_trees h
  refine ⟨h, by decide +kernel, hbodies "f", hok, (htrees _ hok).2.2.2 fun n body => ?_⟩
  rw [hexpr]
  simp [Expr.nodes]

end Environment

end Calculator
