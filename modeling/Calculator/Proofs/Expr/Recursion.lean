import Calculator.Proofs.Expr.Nodes
import Calculator.Proofs.Grammar.Depth

/-!
# How deep evaluation goes

Evaluation goes into the parts of a tree, and where a function is called into
its body. How deep it goes is bounded by the depth of the trees and by the
number of bodies that are called from one another.
-/

namespace Calculator

namespace Expr

/-- The greatest number of trees, each inside the one before, a called body inside its call. -/
def evaluationDepth : Expr → Nat
  | unary _ operand => operand.evaluationDepth + 1
  | binary lhs _ rhs => max lhs.evaluationDepth rhs.evaluationDepth + 1
  | grouping inner => inner.evaluationDepth + 1
  | builtinCall _ _ arg => arg.evaluationDepth + 1
  | userCall _ body arg => max body.evaluationDepth arg.evaluationDepth + 1
  | assignment _ value => value.evaluationDepth + 1
  | definition _ body => body.evaluationDepth + 1
  | _ => 1

/-- The greatest number of called bodies, each called from the one before. -/
def callDepth : Expr → Nat
  | unary _ operand => operand.callDepth
  | binary lhs _ rhs => max lhs.callDepth rhs.callDepth
  | grouping inner => inner.callDepth
  | builtinCall _ _ arg => arg.callDepth
  | userCall _ body arg => max (body.callDepth + 1) arg.callDepth
  | assignment _ value => value.callDepth
  | definition _ body => body.callDepth
  | _ => 0

/-! ## A stack of frames -/

/-- The value, if there are so many frames and each tree that evaluation is inside of needs one. -/
def evaluateWithin : Expr → Nat → Binary64 → Option Binary64
  | _, 0, _ => none
  | literal value, _ + 1, _ => some value
  | unary op operand, frames + 1, x => (operand.evaluateWithin frames x).map op.apply
  | binary lhs op rhs, frames + 1, x =>
      (lhs.evaluateWithin frames x).bind fun a =>
        (rhs.evaluateWithin frames x).map fun b => op.apply a b
  | grouping inner, frames + 1, x => inner.evaluateWithin frames x
  | name _, _ + 1, x => some x
  | builtinCall _ f arg, frames + 1, x => (arg.evaluateWithin frames x).map f.apply
  | userCall _ body arg, frames + 1, x =>
      (arg.evaluateWithin frames x).bind fun a => body.evaluateWithin frames a
  | assignment _ value, frames + 1, x => value.evaluateWithin frames x
  | definition _ body, frames + 1, x => body.evaluateWithin frames x
  | deletion _, _ + 1, _ => some (.zero false)
  | error, _ + 1, _ => some (.zero false)

theorem evaluationDepth_pos (e : Expr) : 0 < e.evaluationDepth := by
  cases e <;> exact Nat.succ_pos _

/-- Evaluation needs as many frames as it goes deep, and with them it gives the tree's value. -/
theorem evaluateWithin_eq (e : Expr) (frames : Nat) (x : Binary64) :
    e.evaluateWithin frames x =
      if e.evaluationDepth ≤ frames then some (e.evaluateWith x) else none := by
  induction frames generalizing e x with
  | zero =>
      rw [if_neg (Nat.not_le.2 e.evaluationDepth_pos)]
      cases e <;> rfl
  | succ frames ih =>
      cases e with
      | unary op operand =>
          rw [evaluateWithin, ih]
          by_cases h : operand.evaluationDepth ≤ frames <;> simp [h, evaluationDepth, evaluateWith]
      | binary lhs op rhs =>
          rw [evaluateWithin, ih, ih]
          by_cases hl : lhs.evaluationDepth ≤ frames <;>
            by_cases hr : rhs.evaluationDepth ≤ frames <;>
              simp [hl, hr, evaluationDepth, evaluateWith]
      | grouping inner => rw [evaluateWithin, ih]; simp [evaluationDepth, evaluateWith]
      | builtinCall n f arg =>
          rw [evaluateWithin, ih]
          by_cases h : arg.evaluationDepth ≤ frames <;> simp [h, evaluationDepth, evaluateWith]
      | userCall n body arg =>
          rw [evaluateWithin, ih]
          by_cases ha : arg.evaluationDepth ≤ frames <;>
            by_cases hb : body.evaluationDepth ≤ frames <;>
              simp [ha, hb, ih, evaluationDepth, evaluateWith]
      | assignment n value => rw [evaluateWithin, ih]; simp [evaluationDepth, evaluateWith]
      | definition n body => rw [evaluateWithin, ih]; simp [evaluationDepth, evaluateWith]
      | _ => simp [evaluateWithin, evaluationDepth, evaluateWith]

/-! ## Bounds -/

/-- A body that is called in a tree calls fewer bodies from one another than the tree. -/
theorem callDepth_lt_of_mem {n : String} {body arg e : Expr}
    (h : .userCall n body arg ∈ e.nodes) : body.callDepth < e.callDepth := by
  induction e with
  | unary op operand ih => exact ih (by simpa [nodes] using h)
  | binary lhs op rhs ihl ihr =>
      have hmem : .userCall n body arg ∈ lhs.nodes ∨ .userCall n body arg ∈ rhs.nodes := by
        simpa [nodes] using h
      rw [callDepth]
      rcases hmem with hmem | hmem
      · exact Nat.lt_of_lt_of_le (ihl hmem) (Nat.le_max_left ..)
      · exact Nat.lt_of_lt_of_le (ihr hmem) (Nat.le_max_right ..)
  | grouping inner ih => exact ih (by simpa [nodes] using h)
  | builtinCall m f arg' ih => exact ih (by simpa [nodes] using h)
  | userCall m body' arg' _ ih =>
      rw [callDepth]
      rcases List.mem_cons.1 h with heq | hmem
      · cases heq
        exact Nat.le_max_left ..
      · exact Nat.lt_of_lt_of_le (ih hmem) (Nat.le_max_right ..)
  | assignment m value ih => exact ih (by simpa [nodes] using h)
  | definition m body' ih => exact ih (by simpa [nodes] using h)
  | _ => simp [nodes] at h

theorem callDepth_le {e : Expr} {k : Nat}
    (h : ∀ n body arg, .userCall n body arg ∈ e.nodes → body.callDepth < k) :
    e.callDepth ≤ k := by
  induction e with
  | unary op operand ih => exact ih fun n body arg hmem => h n body arg (.tail _ hmem)
  | binary lhs op rhs ihl ihr =>
      refine Nat.max_le.2 ⟨ihl fun n body arg hmem => ?_, ihr fun n body arg hmem => ?_⟩
      · exact h n body arg (.tail _ (List.mem_append_left _ hmem))
      · exact h n body arg (.tail _ (List.mem_append_right _ hmem))
  | grouping inner ih => exact ih fun n body arg hmem => h n body arg (.tail _ hmem)
  | builtinCall m f arg ih => exact ih fun n body arg hmem => h n body arg (.tail _ hmem)
  | userCall m body arg _ ih =>
      refine Nat.max_le.2 ⟨h m body arg (.head _), ih fun n body arg hmem => ?_⟩
      exact h n body arg (.tail _ hmem)
  | assignment m value ih => exact ih fun n body arg hmem => h n body arg (.tail _ hmem)
  | definition m body ih => exact ih fun n body arg hmem => h n body arg (.tail _ hmem)
  | _ => exact Nat.zero_le k

theorem depth_pos (e : Expr) : 0 < e.depth := by
  cases e <;> exact Nat.succ_pos _

/--
Where evaluation goes no deeper than `k + 1` into a body, and `k` deeper for
each body called from there, it goes `k` deeper than the tree for each call.
-/
theorem evaluationDepth_le {e : Expr} {k : Nat}
    (h : ∀ n body arg, .userCall n body arg ∈ e.nodes →
      body.evaluationDepth ≤ k + 1 + k * body.callDepth) :
    e.evaluationDepth ≤ e.depth + k * e.callDepth := by
  induction e with
  | unary op operand ih =>
      have hoperand := ih fun n body arg hmem => h n body arg (.tail _ hmem)
      simp only [evaluationDepth, depth, callDepth]
      omega
  | binary lhs op rhs ihl ihr =>
      have hl := ihl fun n body arg hmem => h n body arg (.tail _ (List.mem_append_left _ hmem))
      have hr := ihr fun n body arg hmem => h n body arg (.tail _ (List.mem_append_right _ hmem))
      have hlcalls := Nat.mul_le_mul_left k (Nat.le_max_left lhs.callDepth rhs.callDepth)
      have hrcalls := Nat.mul_le_mul_left k (Nat.le_max_right lhs.callDepth rhs.callDepth)
      simp only [evaluationDepth, depth, callDepth]
      omega
  | grouping inner ih =>
      have hinner := ih fun n body arg hmem => h n body arg (.tail _ hmem)
      simp only [evaluationDepth, depth, callDepth]
      omega
  | builtinCall m f arg ih =>
      have harg := ih fun n body arg hmem => h n body arg (.tail _ hmem)
      simp only [evaluationDepth, depth, callDepth]
      omega
  | userCall m body arg _ ih =>
      have hbody := h m body arg (.head _)
      have harg := ih fun n body arg hmem => h n body arg (.tail _ hmem)
      have hbcalls := Nat.mul_le_mul_left k (Nat.le_max_left (body.callDepth + 1) arg.callDepth)
      have hacalls := Nat.mul_le_mul_left k (Nat.le_max_right (body.callDepth + 1) arg.callDepth)
      -- The call is not a leaf, so the tree is at least two deep where the body is entered.
      have hpos := arg.depth_pos
      rw [Nat.mul_succ] at hbcalls
      simp only [evaluationDepth, depth, callDepth]
      omega
  | assignment m value ih =>
      have hvalue := ih fun n body arg hmem => h n body arg (.tail _ hmem)
      simp only [evaluationDepth, depth, callDepth]
      omega
  | definition m body ih =>
      have hbody := ih fun n body arg hmem => h n body arg (.tail _ hmem)
      simp only [evaluationDepth, depth, callDepth]
      omega
  | _ => exact Nat.le_add_right 1 _

end Expr

end Calculator
