import Calculator.Expr.Basic
import Calculator.Text.Quoted

/-!
# Outlines

An outline of a tree names every node and every part of a node. It is written
on one line, or with every part on a line of its own.
-/

namespace Calculator

inductive Layout where
  | inline
  | indented
deriving DecidableEq

namespace Layout

def indent (depth : Nat) : String :=
  String.ofList (List.replicate (4 * depth) ' ')

def tuple (layout : Layout) (depth : Nat) (name part : String) : String :=
  match layout with
  | inline => name ++ "(" ++ part ++ ")"
  | indented => name ++ "(\n" ++ indent (depth + 1) ++ part ++ ",\n" ++ indent depth ++ ")"

def record (layout : Layout) (depth : Nat) (name : String) (parts : List (String × String)) :
    String :=
  let labelled := parts.map fun part => part.1 ++ ": " ++ part.2
  match layout with
  | inline => name ++ " \x7b " ++ ", ".intercalate labelled ++ " \x7d"
  | indented =>
      name ++ " \x7b\n" ++ String.join (labelled.map fun s => indent (depth + 1) ++ s ++ ",\n") ++
        indent depth ++ "\x7d"

end Layout

def UnaryOp.label : UnaryOp → String
  | neg => "Neg"
  | factorial => "Factorial"

def BinaryOp.label : BinaryOp → String
  | add => "Add"
  | sub => "Sub"
  | mul => "Mul"
  | div => "Div"
  | rem => "Mod"
  | power => "Power"

def BuiltinFunction.outline (layout : Layout) (depth : Nat) (f : BuiltinFunction) : String :=
  layout.tuple depth "BuiltinFn" (quoted f.name)

/-- The outline of a tree that is a part at some depth of another. -/
def Expr.outline (layout : Layout) (depth : Nat) : Expr → String
  | literal value => layout.tuple depth "Literal" value.pointedText
  | unary op operand =>
      layout.record depth "Unary"
        [("op", op.label), ("operand", operand.outline layout (depth + 1))]
  | binary lhs op rhs =>
      layout.record depth "Binary"
        [ ("lhs", lhs.outline layout (depth + 1)), ("op", op.label),
          ("rhs", rhs.outline layout (depth + 1)) ]
  | grouping inner => layout.tuple depth "Grouping" (inner.outline layout (depth + 1))
  | name n => layout.tuple depth "Name" (quoted n)
  | builtinCall n f arg =>
      layout.record depth "Call"
        [ ("name", quoted n),
          ("callee", layout.tuple (depth + 1) "Builtin" (f.outline layout (depth + 2))),
          ("arg", arg.outline layout (depth + 1)) ]
  | userCall n body arg =>
      layout.record depth "Call"
        [ ("name", quoted n),
          ("callee", layout.tuple (depth + 1) "User" (body.outline layout (depth + 2))),
          ("arg", arg.outline layout (depth + 1)) ]
  | assignment n value =>
      layout.record depth "VarDecl"
        [("name", quoted n), ("value", value.outline layout (depth + 1))]
  | definition n body =>
      layout.record depth "FnDecl" [("name", quoted n), ("body", body.outline layout (depth + 1))]
  | deletion n => layout.tuple depth "Del" (quoted n)
  | error => "Error"

end Calculator
