import Calculator.Parser.State

/-!
# The nodes of a tree

What a tree is made of, and what its value depends on. The body that a call
carries is no part of the tree.
-/

namespace Calculator

namespace Expr

def nodes : Expr → List Expr
  | literal value => [literal value]
  | unary op operand => unary op operand :: operand.nodes
  | binary lhs op rhs => binary lhs op rhs :: (lhs.nodes ++ rhs.nodes)
  | grouping inner => grouping inner :: inner.nodes
  | name n => [name n]
  | builtinCall n f arg => builtinCall n f arg :: arg.nodes
  | userCall n body arg => userCall n body arg :: arg.nodes
  | assignment n value => assignment n value :: value.nodes
  | definition n body => definition n body :: body.nodes
  | deletion n => [deletion n]
  | error => [error]

/-- The names that stand outside the bodies of definitions. -/
def outerNames : Expr → List String
  | unary _ operand => operand.outerNames
  | binary lhs _ rhs => lhs.outerNames ++ rhs.outerNames
  | grouping inner => inner.outerNames
  | name n => [n]
  | builtinCall _ _ arg => arg.outerNames
  | userCall _ _ arg => arg.outerNames
  | assignment _ value => value.outerNames
  | _ => []

/-- The root declares and deletes nothing, is no fault, and is no name but the parameter's. -/
def IsPure : Expr → Prop
  | name n => n = parameterName
  | assignment _ _ => False
  | definition _ _ => False
  | deletion _ => False
  | error => False
  | _ => True

/--
What the root of a tree is where there are these functions: a name is the
parameter's, a call goes to what its name stands for, and in a body nothing is
declared.
-/
def IsReadAmong (functions : List (String × Expr)) (inBody : Bool) : Expr → Prop
  | name n => n = parameterName
  | builtinCall n f _ => Builtin.ofName? n = some (.function f)
  | userCall n body _ => (n, body) ∈ functions
  | assignment _ _ => inBody = false
  | definition _ _ => inBody = false
  | deletion _ => False
  | error => False
  | _ => True

theorem IsReadAmong.mono {functions functions' : List (String × Expr)} {inBody : Bool} {e : Expr}
    (h : e.IsReadAmong functions inBody) (hsub : functions ⊆ functions') :
    e.IsReadAmong functions' inBody := by
  cases e with
  | userCall n body arg => exact hsub h
  | _ => exact h

theorem IsReadAmong.isPure {functions : List (String × Expr)} {e : Expr}
    (h : e.IsReadAmong functions true) : e.IsPure := by
  cases e with
  | assignment n value => cases h
  | definition n body => cases h
  | name n => exact h
  | deletion n => exact h
  | error => exact h
  | _ => trivial

/-- What may stand in a body may stand anywhere. -/
theorem IsReadAmong.outside {functions : List (String × Expr)} {inBody : Bool} {e : Expr}
    (h : e.IsReadAmong functions inBody) : e.IsReadAmong functions false := by
  cases e with
  | assignment n value => rfl
  | definition n body => rfl
  | _ => exact h

/-- Without definitions and without names outside of them, a tree has one value. -/
theorem evaluateWith_eq_of_closed {e : Expr} (hnames : e.outerNames = [])
    (hdefinition : ∀ n body, .definition n body ∉ e.nodes) (x y : Binary64) :
    e.evaluateWith x = e.evaluateWith y := by
  induction e with
  | literal value => rfl
  | unary op operand ih =>
      rw [evaluateWith, evaluateWith,
        ih hnames fun n body hmem => hdefinition n body (.tail _ hmem)]
  | binary lhs op rhs ihl ihr =>
      obtain ⟨hl, hr⟩ := List.append_eq_nil_iff.1 hnames
      rw [evaluateWith, evaluateWith,
        ihl hl fun n body hmem => hdefinition n body (.tail _ (List.mem_append_left _ hmem)),
        ihr hr fun n body hmem => hdefinition n body (.tail _ (List.mem_append_right _ hmem))]
  | grouping inner ih => exact ih hnames fun n body hmem => hdefinition n body (.tail _ hmem)
  | name n => cases hnames
  | builtinCall n f arg ih =>
      rw [evaluateWith, evaluateWith,
        ih hnames fun n body hmem => hdefinition n body (.tail _ hmem)]
  | userCall n body arg _ ih =>
      rw [evaluateWith, evaluateWith,
        ih hnames fun n body hmem => hdefinition n body (.tail _ hmem)]
  | assignment n value ih => exact ih hnames fun n body hmem => hdefinition n body (.tail _ hmem)
  | definition n body => exact absurd (.head _) (hdefinition n body)
  | deletion n => rfl
  | error => rfl

end Expr

end Calculator
