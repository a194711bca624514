/-!
# Decimal numbers

Decimal magnitudes and their two written forms: positional, with as many zeros
as it takes, and scientific, with one digit before the point.
-/

namespace Calculator

/-- The magnitude `digits * 10^exponent`. -/
structure Decimal where
  digits : Nat
  exponent : Int
deriving DecidableEq

namespace Decimal

/-- The number of decimal digits. -/
def length (n : Nat) : Nat :=
  (Nat.toDigits 10 n).length

/-- The place of the leading digit, counted from the units. -/
def lead (d : Decimal) : Int :=
  d.exponent + length d.digits - 1

/-- The same magnitude without zeros at the end of its digits. -/
def trim (d : Decimal) : Decimal :=
  if h : 0 < d.digits ∧ d.digits % 10 = 0 then trim ⟨d.digits / 10, d.exponent + 1⟩ else d
termination_by d.digits
decreasing_by exact Nat.div_lt_self h.1 (by decide)

def positional (d : Decimal) : List Char :=
  let digits := Nat.toDigits 10 d.digits
  let places := (-d.exponent).toNat
  if places = 0 then digits ++ List.replicate d.exponent.toNat '0'
  else
    let padded := List.replicate (places + 1 - digits.length) '0' ++ digits
    padded.take (padded.length - places) ++ '.' :: padded.drop (padded.length - places)

def scientific (d : Decimal) : List Char :=
  let exponent := toString d.lead
  match Nat.toDigits 10 d.digits with
  | [] => []
  | [digit] => digit :: 'e' :: exponent.toList
  | digit :: rest => digit :: '.' :: rest ++ 'e' :: exponent.toList

end Decimal

end Calculator
