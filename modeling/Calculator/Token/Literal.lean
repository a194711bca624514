import Calculator.Binary64.Rounding
import Calculator.Diagnostics

/-!
# Number literals

A literal is a mantissa of digits, underscores and points, and after an `e` an
exponent of signs, digits and underscores. A literal with too many points or
signs is read to its end all the same; what is too much is a fault.
-/

namespace Calculator

def isMantissaChar (c : Char) : Bool :=
  c.isDigit || c == '_' || c == '.'

def isExponentChar (c : Char) : Bool :=
  c.isDigit || c == '_'

/-- A literal starts with a digit, or with a point that a digit follows. -/
def startsLiteral (c : Char) (rest : List Char) : Bool :=
  c.isDigit || (c == '.' && (rest.head?.map Char.isDigit).getD false)

/-- The text of a literal, its exponent from the `e` on. -/
structure Literal where
  mantissa : List Char
  exponent : List Char

namespace Literal

def text (l : Literal) : List Char :=
  l.mantissa ++ l.exponent

/-- The longest exponent at the start of a text. -/
def exponentOf : List Char → List Char
  | 'e' :: rest =>
      'e' :: rest.takeWhile (· == '-') ++ (rest.dropWhile (· == '-')).takeWhile isExponentChar
  | _ => []

/-- The longest literal at the start of a text. -/
def ofChars (cs : List Char) : Literal :=
  ⟨cs.takeWhile isMantissaChar, exponentOf (cs.dropWhile isMantissaChar)⟩

def digits (cs : List Char) : List Char :=
  cs.filter Char.isDigit

def significand (l : Literal) : Nat :=
  Nat.ofDigitChars 10 (digits l.mantissa) 0

/-- The number of digits after the first point. -/
def places (l : Literal) : Nat :=
  (digits (l.mantissa.dropWhile (· != '.'))).length

/-- The power of ten. No digits stand for zero, and any sign negates. -/
def power (l : Literal) : Int :=
  let n := Nat.ofDigitChars 10 (digits l.exponent) 0
  if '-' ∈ l.exponent then -(n : Int) else n

def value (l : Literal) : Binary64 :=
  .ofDecimal false l.significand (l.power - l.places)

end Literal

/--
The offsets at which a one-byte character occurs again, in a text of one-byte
characters from an offset on.
-/
def repetitions (c : Char) (offset : Nat) (cs : List Char) : List Nat :=
  ((cs.zipIdx offset).filterMap fun e => if e.1 = c then some e.2 else none).drop 1

/--
The faults of the literal whose text starts at an offset: every point and every
sign after the first.
-/
def literalFaults (offset : Nat) (cs : List Char) : List (Span × Fault) :=
  (repetitions '.' offset cs).map (fun i => (.ofLength i 1, .duplicateDecimalPoint)) ++
    (repetitions '-' offset cs).map (fun i => (.ofLength i 1, .duplicateExponentSign))

end Calculator
