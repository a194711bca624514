import Calculator.Proofs.Environment.Functions
import Calculator.Proofs.Grammar.FunctionBody
import Calculator.Proofs.Grammar.Printing

/-!
# Chains of calls

The limit on the depth of trees bounds how deep evaluation goes inside of one
body. With each function that is called from the one before, evaluation may go
as deep again, and there are no more of these than functions. Since there may be
any number of functions, nothing else bounds it.
-/

namespace Calculator

namespace Layered

variable {functions : List (String × Expr)} {n : String} {body : Expr}

/-- From a body only those before it are called. -/
theorem callDepth_lt (h : Layered functions) (hmem : (n, body) ∈ functions) :
    body.callDepth < functions.length := by
  induction h generalizing n body with
  | nil => cases hmem
  | @cons m first earlier rest fresh read shallow ih =>
      rcases List.mem_cons.1 hmem with heq | hmem
      · cases heq
        exact Nat.lt_succ_of_le (Expr.callDepth_le fun k t arg ht => ih (read _ ht))
      · exact Nat.lt_succ_of_lt (ih hmem)

theorem evaluationDepth_le (h : Layered functions) (hmem : (n, body) ∈ functions) :
    body.evaluationDepth ≤ maxNesting + (maxNesting - 1) * body.callDepth := by
  induction h generalizing n body with
  | nil => cases hmem
  | @cons m first earlier rest fresh read shallow ih =>
      rcases List.mem_cons.1 hmem with heq | hmem
      · cases heq
        have hbody := Expr.evaluationDepth_le (k := maxNesting - 1)
          fun k t arg ht => ih (read (.userCall k t arg) ht)
        exact Nat.le_trans hbody (Nat.add_le_add_right shallow _)
      · exact ih hmem

end Layered

namespace Environment

/-- What an accepted line calls is a function of the environment after it. -/
theorem mem_bodies_of_readLine {env : Environment} {source : String}
    (hok : (readLine env source).isOk) {n : String} {body arg : Expr}
    (hmem : .userCall n body arg ∈ (readLine env source).expr.nodes) :
    (n, body) ∈ (readLine env source).environment.bodies := by
  obtain ⟨st, -, -, hreads, -, -⟩ := reads_readLine hok
  generalize (readLine env source).expr = tree at hreads hmem
  generalize (readLine env source).environment = env' at hreads
  cases hreads with
  | deletion _ => simp [Expr.nodes] at hmem
  | phrase hp => exact hp.isReadAmong _ hmem

theorem layers_readLine {history : List Operation} (h : ∀ op ∈ history, op.isDefine = false)
    (source : String) :
    ∃ functions, (readLine (after history) source).environment.Layers functions := by
  rw [← after_append_line]
  exact layers_after (List.forall_mem_append.2 ⟨h, List.forall_mem_singleton.2 rfl⟩)

/--
Where functions are only defined by lines, evaluation of an accepted line goes
no deeper than the limit, and once more almost as deep for each function that is
called from the one before. There are no more of these than functions, so that
many frames are enough.
-/
theorem after_bounds_evaluation {history : List Operation}
    (h : ∀ op ∈ history, op.isDefine = false) {source : String}
    (hok : (readLine (after history) source).isOk) :
    (readLine (after history) source).expr.evaluationDepth ≤
        maxNesting + (maxNesting - 1) * (readLine (after history) source).expr.callDepth ∧
      (readLine (after history) source).expr.callDepth ≤
        (readLine (after history) source).environment.bodies.length ∧
      (readLine (after history) source).expr.evaluateWithin
          (maxNesting + (maxNesting - 1) *
            (readLine (after history) source).environment.bodies.length) (.zero false) =
        some (readLine (after history) source).expr.evaluate := by
  obtain ⟨functions, hlayers⟩ := layers_readLine h source
  have hfunction {n : String} {body arg : Expr}
      (hmem : .userCall n body arg ∈ (readLine (after history) source).expr.nodes) :
      (n, body) ∈ functions := (hlayers.mem_iff _).2 (mem_bodies_of_readLine hok hmem)
  have hcalls : (readLine (after history) source).expr.callDepth ≤ functions.length :=
    Expr.callDepth_le fun n body arg hmem => hlayers.layered.callDepth_lt (hfunction hmem)
  have hdeep : (readLine (after history) source).expr.evaluationDepth ≤
      maxNesting + (maxNesting - 1) * (readLine (after history) source).expr.callDepth := by
    refine Nat.le_trans (Expr.evaluationDepth_le (k := maxNesting - 1) ?_)
      (Nat.add_le_add_right (depth_readLine hok) _)
    exact fun n body arg hmem => hlayers.layered.evaluationDepth_le (hfunction hmem)
  rw [hlayers.perm.length_eq] at hcalls
  refine ⟨hdeep, hcalls, ?_⟩
  rw [Expr.evaluateWithin_eq, if_pos]
  · rfl
  · exact Nat.le_trans hdeep (Nat.add_le_add_left (Nat.mul_le_mul_left _ hcalls) _)

/-- Two functions and a line, each as deep as can be, where one is called from the other. -/
theorem after_bounds_evaluation_of_signs :
    (∀ op ∈ [.line ("f: " ++ "".pushn '-' 126 ++ "x"),
        .line ("g: " ++ "".pushn '-' 125 ++ "f(x)")], Operation.isDefine op = false) ∧
      (readLine (after [.line ("f: " ++ "".pushn '-' 126 ++ "x"),
        .line ("g: " ++ "".pushn '-' 125 ++ "f(x)")]) ("".pushn '-' 126 ++ "g(3)")).isOk ∧
      (readLine (after [.line ("f: " ++ "".pushn '-' 126 ++ "x"),
        .line ("g: " ++ "".pushn '-' 125 ++ "f(x)")])
        ("".pushn '-' 126 ++ "g(3)")).expr.evaluationDepth ≤ 128 + 127 * 2 := by
  have h : ∀ op ∈ [.line ("f: " ++ "".pushn '-' 126 ++ "x"),
      .line ("g: " ++ "".pushn '-' 125 ++ "f(x)")], Operation.isDefine op = false := by
    simp [Operation.isDefine]
  obtain ⟨hok, hcalls⟩ :
      (readLine (after [.line ("f: " ++ "".pushn '-' 126 ++ "x"),
        .line ("g: " ++ "".pushn '-' 125 ++ "f(x)")]) ("".pushn '-' 126 ++ "g(3)")).isOk ∧
      (readLine (after [.line ("f: " ++ "".pushn '-' 126 ++ "x"),
        .line ("g: " ++ "".pushn '-' 125 ++ "f(x)")])
        ("".pushn '-' 126 ++ "g(3)")).expr.callDepth = 2 := by
    decide +kernel
  obtain ⟨hdepth, -, -⟩ := after_bounds_evaluation h hok
  rw [hcalls] at hdepth
  exact ⟨h, hok, hdepth⟩

/-- A body of many signs that is called under as many is evaluated deeper than the limit. -/
theorem evaluation_exceeds_limit :
    (readLine (after [.line ("f: " ++ "".pushn '-' 70 ++ "x")])
        ("".pushn '-' 70 ++ "f(1)")).isOk ∧
      (readLine (after [.line ("f: " ++ "".pushn '-' 70 ++ "x")])
        ("".pushn '-' 70 ++ "f(1)")).expr.depth = 72 ∧
      (readLine (after [.line ("f: " ++ "".pushn '-' 70 ++ "x")])
        ("".pushn '-' 70 ++ "f(1)")).expr.evaluationDepth = 142 ∧
      ¬(readLine (after [.line ("f: " ++ "".pushn '-' 70 ++ "x")])
        ("".pushn '-' 70 ++ "f(1)")).expr.evaluationDepth ≤ maxNesting := by
  decide +kernel

/-! ## Chains of any length -/

def chainName (k : Nat) : String :=
  String.ofList (List.replicate (k + 1) 'z')

theorem mem_toList_chainName (k : Nat) : 'z' ∈ (chainName k).toList := by
  simp [chainName, List.replicate_succ]

theorem isIdentifier_chainName (k : Nat) : IsIdentifier (chainName k) where
  ne_nil := List.ne_nil_of_mem (mem_toList_chainName k)
  word c hc := by
    rw [chainName, String.toList_ofList] at hc
    rw [List.eq_of_mem_replicate hc]
    decide
  ne_del := by
    intro hdel
    have hmem := mem_toList_chainName k
    rw [hdel] at hmem
    revert hmem
    decide

theorem chainName_inj {k m : Nat} : chainName k = chainName m ↔ k = m := by
  simp [chainName, String.ofList_inj, List.replicate_inj]

theorem contains_empty_chainName (k : Nat) : Environment.empty.contains (chainName k) = false := by
  refine contains_eq_false_iff.2 ⟨List.lookup_eq_none_iff.2 fun e he => ?_, rfl⟩
  have hz : 'z' ∉ e.1.toList := by
    revert e
    decide
  exact bne_iff_ne.2 fun hname => hz (hname ▸ mem_toList_chainName k)

/-- A line that defines the first free name of the chain leaves the others free. -/
theorem readLine_chainName {env : Environment} {k : Nat} {body : String} {p : Phrase} {e : Expr}
    (hspelled : Spelled body.toList p.symbols) (hwell : p.WellFormed)
    (hdepth : p.depth < maxNesting) (hreads : p.Reads true env e env)
    (free : ∀ m, k ≤ m → env.contains (chainName m) = false) :
    ∃ env', readLine env (chainName k ++ ": " ++ body) =
        ⟨.definition (chainName k) e, .empty, env'⟩ ∧
      env'.lookup (chainName k) = some (.defined e) ∧
      ∀ m, k < m → env'.contains (chainName m) = false := by
  have fresh := free k (Nat.le_refl k)
  have bound : env.bind (chainName k) (.defined e) =
      .ok ⟨env.bindings.insert (chainName k) (.defined e)⟩ := bind_eq_ok.2 ⟨fresh, rfl⟩
  refine ⟨_, readLine_definition (isIdentifier_chainName k) hspelled hwell hdepth hreads fresh,
    ?_, fun m hm => ?_⟩
  · simp [lookup, (contains_eq_false_iff.1 fresh).1, get?_of_bind bound, UserBinding.binding]
  · obtain ⟨hbuiltin, hfree⟩ := contains_eq_false_iff.1 (free m (Nat.le_of_lt hm))
    refine contains_eq_false_iff.2 ⟨hbuiltin, ?_⟩
    rw [get?_of_bind bound, if_neg (mt chainName_inj.1 (Nat.ne_of_gt hm)), hfree]

/-- Each function of a chain is defined by a call of the one before, and evaluated deeper. -/
theorem exists_definition_of_depth (k : Nat) :
    ∃ history source e env', (∀ op ∈ history, Operation.isDefine op = false) ∧
      readLine (after history) source = ⟨.definition (chainName k) e, .empty, env'⟩ ∧
      env'.lookup (chainName k) = some (.defined e) ∧ k < e.evaluationDepth ∧
      ∀ m, k < m → env'.contains (chainName m) = false := by
  have hparameter : Spelled parameterName.toList (Phrase.name parameterName).symbols :=
    spelled_word (by decide)
  have hreads (env : Environment) :
      (Phrase.name parameterName).Reads true env (.name parameterName) env :=
    .name (by simp [Phrase.readName])
  -- The names to come stay free, so that there is one for the next function.
  induction k with
  | zero =>
      obtain ⟨env', hline, hlookup, hfree⟩ := readLine_chainName (k := 0) hparameter trivial
        (by decide) (hreads .empty) fun m _ => contains_empty_chainName m
      exact ⟨[], _, _, env', by simp, hline, hlookup, Nat.one_pos, hfree⟩
  | succ k ih =>
      obtain ⟨history, source, e, env', hdefine, hline, hlookup, hdepth, hfree⟩ := ih
      have hafter : after (history ++ [.line source]) = env' := by
        rw [after_append_line, hline]
      have hcallee : Parser.callee? env' (chainName k) = some (.userCall (chainName k) e) := by
        simp [Parser.callee?, hlookup]
      have hcall : (Phrase.call (chainName k) (.name parameterName)).Reads true env'
          (.userCall (chainName k) e (.name parameterName)) env' :=
        .call (Phrase.readCallee_of_callee? hcallee) (hreads env')
      obtain ⟨env'', hline', hlookup', hfree'⟩ := readLine_chainName (k := k + 1)
        (Expr.spelled_call (e := .name parameterName) (isIdentifier_chainName k) hparameter) trivial
        (show 1 + 1 < maxNesting by decide) hcall hfree
      refine ⟨history ++ [.line source], _, _, env'', ?_, hafter ▸ hline', hlookup', ?_, hfree'⟩
      · exact List.forall_mem_append.2 ⟨hdefine, List.forall_mem_singleton.2 rfl⟩
      · exact Nat.succ_lt_succ (Nat.lt_of_lt_of_le hdepth (Nat.le_max_left ..))

/-- However deep, there are lines after which an accepted line is evaluated deeper. -/
theorem exists_line_of_depth (k : Nat) :
    ∃ history source, (∀ op ∈ history, Operation.isDefine op = false) ∧
      (readLine (after history) source).isOk ∧
      k < (readLine (after history) source).expr.evaluationDepth := by
  obtain ⟨history, source, e, env', hdefine, hline, -, hdepth, -⟩ := exists_definition_of_depth k
  refine ⟨history, source, hdefine, ?_⟩
  rw [hline]
  exact ⟨rfl, Nat.lt_succ_of_lt hdepth⟩

end Environment

end Calculator
