import Calculator.Binary64.Elementary

/-!
# Builtins

The constants and functions whose names are reserved. Angles are in degrees.
-/

namespace Calculator

inductive BuiltinFunction where
  | cbrt
  | ceil
  | cos
  | floor
  | ln
  | round
  | sin
  | sqrt
  | tan
deriving DecidableEq

namespace BuiltinFunction

def name : BuiltinFunction → String
  | cbrt => "cbrt"
  | ceil => "ceil"
  | cos => "cos"
  | floor => "floor"
  | ln => "ln"
  | round => "round"
  | sin => "sin"
  | sqrt => "sqrt"
  | tan => "tan"

def apply : BuiltinFunction → Binary64 → Binary64
  | cbrt => Binary64.cbrt
  | ceil => Binary64.toIntegral .up
  | cos => fun x => x.toRadians.cos
  | floor => Binary64.toIntegral .down
  | ln => Binary64.ln
  | round => Binary64.toIntegral .halfEven
  | sin => fun x => x.toRadians.sin
  | sqrt => Binary64.sqrt
  | tan => fun x => x.toRadians.tan

def all : List BuiltinFunction :=
  [cbrt, ceil, cos, floor, ln, round, sin, sqrt, tan]

end BuiltinFunction

inductive Builtin where
  | constant (value : Binary64)
  | function (function : BuiltinFunction)
deriving DecidableEq

namespace Builtin

/-- The builtins in the order of their names. -/
def table : List (String × Builtin) :=
  [ ("cbrt", .function .cbrt), ("ceil", .function .ceil), ("cos", .function .cos),
    ("e", .constant .e), ("floor", .function .floor), ("ln", .function .ln),
    ("pi", .constant .pi), ("round", .function .round), ("sin", .function .sin),
    ("sqrt", .function .sqrt), ("tan", .function .tan) ]

def ofName? (name : String) : Option Builtin :=
  table.lookup name

end Builtin

end Calculator
