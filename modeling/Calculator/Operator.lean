import Calculator.Binary64.Elementary

/-!
# Operators
-/

namespace Calculator

inductive UnaryOp where
  | neg
  | factorial
deriving DecidableEq

inductive BinaryOp where
  | add
  | sub
  | mul
  | div
  | rem
  | power
deriving DecidableEq

/-- Operators of a higher priority bind tighter. -/
inductive Priority where
  | addOrSub
  | mulDivMod
  | power
deriving DecidableEq

namespace Priority

def precedence : Priority → Nat
  | addOrSub => 1
  | mulDivMod => 2
  | power => 3

def negationFloor : Nat :=
  4

theorem precedence_lt_negationFloor (p : Priority) : p.precedence < negationFloor := by
  cases p <;> decide

end Priority

namespace UnaryOp

def symbol : UnaryOp → String
  | neg => "-"
  | factorial => "!"

def apply : UnaryOp → Binary64 → Binary64
  | neg => Binary64.neg
  | factorial => Binary64.factorial

end UnaryOp

namespace BinaryOp

def symbol : BinaryOp → String
  | add => "+"
  | sub => "-"
  | mul => "*"
  | div => "/"
  | rem => "%"
  | power => "^"

def priority : BinaryOp → Priority
  | add => .addOrSub
  | sub => .addOrSub
  | mul => .mulDivMod
  | div => .mulDivMod
  | rem => .mulDivMod
  | power => .power

def precedence (op : BinaryOp) : Nat :=
  op.priority.precedence

def apply : BinaryOp → Binary64 → Binary64 → Binary64
  | add => Binary64.add
  | sub => Binary64.sub
  | mul => Binary64.mul
  | div => Binary64.div
  | rem => Binary64.rem
  | power => Binary64.pow

end BinaryOp

end Calculator
