import Calculator.Binary64.Text
import Calculator.Builtin
import Calculator.Operator

/-!
# Expressions

The tree of a line. Variables and constants stand in it as their values, and a
call carries what is called, so a tree has its value without an environment.
-/

namespace Calculator

inductive Expr where
  | literal (value : Binary64)
  | unary (op : UnaryOp) (operand : Expr)
  | binary (lhs : Expr) (op : BinaryOp) (rhs : Expr)
  | grouping (inner : Expr)
  /-- The parameter of a function body, or a name that is about to be called or declared. -/
  | name (name : String)
  | builtinCall (name : String) (function : BuiltinFunction) (arg : Expr)
  | userCall (name : String) (body : Expr) (arg : Expr)
  | assignment (name : String) (value : Expr)
  | definition (name : String) (body : Expr)
  | deletion (name : String)
  /-- The tree of a line that has none. -/
  | error
deriving DecidableEq

namespace Expr

def isError : Expr → Bool
  | error => true
  | _ => false

/-! ## Value -/

/-- The value with every name standing for `x`, except that a called body has its own. -/
def evaluateWith : Expr → Binary64 → Binary64
  | literal value, _ => value
  | unary op operand, x => op.apply (operand.evaluateWith x)
  | binary lhs op rhs, x => op.apply (lhs.evaluateWith x) (rhs.evaluateWith x)
  | grouping inner, x => inner.evaluateWith x
  | name _, x => x
  | builtinCall _ f arg, x => f.apply (arg.evaluateWith x)
  | userCall _ body arg, x => body.evaluateWith (arg.evaluateWith x)
  | assignment _ value, x => value.evaluateWith x
  | definition _ body, x => body.evaluateWith x
  | deletion _, _ => .zero false
  | error, _ => .zero false

def evaluate (t : Expr) : Binary64 :=
  t.evaluateWith (.zero false)

/-! ## Text -/

/--
The tree in the form of a line, with a space on either side of a binary operator
and no parentheses but its own.
-/
def text : Expr → String
  | literal value => value.plainText
  | unary .neg operand => UnaryOp.neg.symbol ++ operand.text
  | unary .factorial operand => operand.text ++ UnaryOp.factorial.symbol
  | binary lhs op rhs => lhs.text ++ " " ++ op.symbol ++ " " ++ rhs.text
  | grouping inner => "(" ++ inner.text ++ ")"
  | name n => n
  | builtinCall n _ arg => n ++ "(" ++ arg.text ++ ")"
  | userCall n _ arg => n ++ "(" ++ arg.text ++ ")"
  | assignment n value => n ++ " = " ++ value.text
  | definition n body => n ++ ": " ++ body.text
  | deletion n => "del " ++ n
  | error => "<error>"

/-! ## Equality -/

/-- Equality up to equality of numbers, so that a literal `nan` makes a tree differ from itself. -/
def equals : Expr → Expr → Bool
  | literal a, literal b => a.equals b
  | unary op a, unary op' b => op == op' && a.equals b
  | binary a op b, binary a' op' b' => a.equals a' && op == op' && b.equals b'
  | grouping a, grouping b => a.equals b
  | name n, name m => n == m
  | builtinCall n f a, builtinCall m g b => n == m && f == g && a.equals b
  | userCall n f a, userCall m g b => n == m && f.equals g && a.equals b
  | assignment n a, assignment m b => n == m && a.equals b
  | definition n a, definition m b => n == m && a.equals b
  | deletion n, deletion m => n == m
  | error, error => true
  | _, _ => false

end Expr

end Calculator
