import Calculator.Proofs.Expr.Nodes
import Calculator.Proofs.Grammar.Statement

/-!
# Factorials

The parser takes the value of what stands before a factorial sign and goes on
only if it is natural. What is read later neither changes that operand nor what
it is evaluated with, so evaluation takes factorials of the same numbers.
-/

namespace Calculator

/-- A value, and what factorials were taken on the way: each operand with its value. -/
structure Traced where
  value : Binary64
  factorials : List (Expr × Binary64)

namespace Expr

/-- Evaluation that notes the factorials that it takes outside of called bodies. -/
def evaluateTraced : Expr → Binary64 → Traced
  | literal value, _ => ⟨value, []⟩
  | unary .neg operand, x =>
      let inner := operand.evaluateTraced x
      ⟨inner.value.neg, inner.factorials⟩
  | unary .factorial operand, x =>
      let inner := operand.evaluateTraced x
      ⟨inner.value.factorial, inner.factorials ++ [(operand, inner.value)]⟩
  | binary lhs op rhs, x =>
      let left := lhs.evaluateTraced x
      let right := rhs.evaluateTraced x
      ⟨op.apply left.value right.value, left.factorials ++ right.factorials⟩
  | grouping inner, x => inner.evaluateTraced x
  | name _, x => ⟨x, []⟩
  | builtinCall _ f arg, x =>
      let inner := arg.evaluateTraced x
      ⟨f.apply inner.value, inner.factorials⟩
  | userCall _ body arg, x =>
      let inner := arg.evaluateTraced x
      ⟨body.evaluateWith inner.value, inner.factorials⟩
  | assignment _ value, x => value.evaluateTraced x
  | definition _ body, x => body.evaluateTraced x
  | deletion _, _ => ⟨.zero false, []⟩
  | error, _ => ⟨.zero false, []⟩

theorem value_evaluateTraced (e : Expr) (x : Binary64) :
    (e.evaluateTraced x).value = e.evaluateWith x := by
  induction e with
  | unary op operand ih =>
      cases op with
      | neg => rw [evaluateTraced, ih, evaluateWith]; rfl
      | factorial => rw [evaluateTraced, ih, evaluateWith]; rfl
  | binary lhs op rhs ihl ihr => rw [evaluateTraced, ihl, ihr, evaluateWith]
  | grouping inner ih => exact ih
  | builtinCall n f arg ih => rw [evaluateTraced, ih, evaluateWith]
  | userCall n body arg _ ih => rw [evaluateTraced, ih, evaluateWith]
  | assignment n value ih => exact ih
  | definition n body ih => exact ih
  | _ => rfl

/-- A factorial is taken for each factorial of the tree, of the value that its operand has. -/
theorem mem_factorials_iff {e operand : Expr} {x v : Binary64} :
    (operand, v) ∈ (e.evaluateTraced x).factorials ↔
      .unary .factorial operand ∈ e.nodes ∧ v = operand.evaluateWith x := by
  induction e with
  | unary op inner ih =>
      cases op with
      | neg => simpa [evaluateTraced, nodes] using ih
      | factorial =>
          simp only [evaluateTraced, value_evaluateTraced, nodes, List.mem_append, List.mem_cons,
            List.not_mem_nil, or_false, Prod.mk.injEq, unary.injEq, true_and, ih]
          constructor
          · rintro (⟨hmem, hv⟩ | ⟨rfl, hv⟩)
            · exact ⟨.inr hmem, hv⟩
            · exact ⟨.inl rfl, hv⟩
          · rintro ⟨rfl | hmem, hv⟩
            · exact .inr ⟨rfl, hv⟩
            · exact .inl ⟨hmem, hv⟩
  | binary lhs op rhs ihl ihr =>
      simp only [evaluateTraced, nodes, List.mem_append, List.mem_cons, reduceCtorEq, false_or,
        ihl, ihr, or_and_right]
  | grouping inner ih => simpa [evaluateTraced, nodes] using ih
  | builtinCall n f arg ih => simpa [evaluateTraced, nodes] using ih
  | userCall n body arg _ ih => simpa [evaluateTraced, nodes] using ih
  | assignment n value ih => simpa [evaluateTraced, nodes] using ih
  | definition n body ih => simpa [evaluateTraced, nodes] using ih
  | _ => simp [evaluateTraced, nodes]

end Expr

/-- Every factorial of the tree of a phrase has been checked. -/
theorem Phrase.Reads.isNatural {p : Phrase} {inBody : Bool} {env env' : Environment} {e : Expr}
    (h : p.Reads inBody env e env') {operand : Expr}
    (hmem : .unary .factorial operand ∈ e.nodes) : operand.evaluate.isNatural := by
  induction h with
  | number => simp [Expr.nodes] at hmem
  | name hn => rcases tree_of_readName hn with rfl | ⟨value, rfl⟩ <;> simp [Expr.nodes] at hmem
  | factorial h natural ih =>
      rcases List.mem_cons.1 hmem with heq | hmem
      · cases heq
        exact natural
      · exact ih hmem
  | binary hl hr ihl ihr =>
      have hparts := (List.mem_cons.1 hmem).resolve_left (by simp)
      exact (List.mem_append.1 hparts).elim ihl ihr
  | product hl h ihl ih =>
      have hparts := (List.mem_cons.1 hmem).resolve_left (by simp)
      rcases List.mem_append.1 hparts with hleft | hright
      · exact ihl hleft
      · exact ih ((List.mem_cons.1 hright).resolve_left (by simp))
  | call hn h ih =>
      rcases apply_of_readCallee hn with ⟨f, -, rfl⟩ | ⟨body, -, rfl⟩
      all_goals exact ih ((List.mem_cons.1 hmem).resolve_left (by simp))
  | neg h ih => exact ih ((List.mem_cons.1 hmem).resolve_left (by simp))
  | grouping h ih => exact ih ((List.mem_cons.1 hmem).resolve_left (by simp))
  | assignment fresh h hd ih => exact ih ((List.mem_cons.1 hmem).resolve_left (by simp))
  | definition fresh h hd ih => exact ih ((List.mem_cons.1 hmem).resolve_left (by simp))

/--
A line without faults takes no factorial of a number that is not natural. The
operand of every factorial in its tree, bodies of definitions included, has a
natural value. Evaluating the tree takes a factorial for each of them and for
nothing else outside of called bodies, and takes it of that value.
-/
theorem readLine_takes_natural_factorials {env : Environment} {source : String}
    (h : (readLine env source).isOk) :
    (∀ operand, .unary .factorial operand ∈ (readLine env source).expr.nodes →
        operand.evaluate.isNatural) ∧
      ((readLine env source).expr.evaluateTraced (.zero false)).value =
        (readLine env source).expr.evaluate ∧
      ∀ operand v,
        (operand, v) ∈ ((readLine env source).expr.evaluateTraced (.zero false)).factorials ↔
          .unary .factorial operand ∈ (readLine env source).expr.nodes ∧ v = operand.evaluate := by
  obtain ⟨st, -, -, hreads, -, -⟩ := reads_readLine h
  generalize (readLine env source).expr = tree at hreads ⊢
  generalize (readLine env source).environment = env' at hreads
  refine ⟨fun operand hmem => ?_, tree.value_evaluateTraced _, fun operand v =>
    Expr.mem_factorials_iff⟩
  cases hreads with
  | deletion hlookup => simp [Expr.nodes] at hmem
  | phrase hp => exact hp.isNatural hmem

/-- The body of `g` takes a factorial of a number that is not natural, which is no matter here. -/
theorem readLine_takes_natural_factorials_of_chain :
    let reading := readLine (readLine .empty "g: x!").environment
      "g(-1/2) + (y = 3!)! * 2(1)! + (f: (x + 3)!!)"
    reading.isOk ∧
      (∀ operand, .unary .factorial operand ∈ reading.expr.nodes → operand.evaluate.isNatural) ∧
        (reading.expr.evaluateTraced (.zero false)).value = reading.expr.evaluate ∧
        ∀ operand v, (operand, v) ∈ (reading.expr.evaluateTraced (.zero false)).factorials ↔
          .unary .factorial operand ∈ reading.expr.nodes ∧ v = operand.evaluate := by
  have h : (readLine (readLine .empty "g: x!").environment
      "g(-1/2) + (y = 3!)! * 2(1)! + (f: (x + 3)!!)").isOk := by decide +kernel
  exact ⟨h, readLine_takes_natural_factorials h⟩

end Calculator
