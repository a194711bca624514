import Calculator.Binary64.Basic

/-!
# Rounding to the format

Every operation of this library that has a rational result computes it exactly,
as a quotient of whole numbers of units, and rounds once.
-/

namespace Calculator

/-- The direction in which a number between two neighbours is rounded. -/
inductive Rounding where
  | down
  | up
  | halfEven
  | halfAway
deriving DecidableEq

/--
The whole number next to the quotient `n / d` of a magnitude. `down` and `up`
are directions on the number line, so they depend on the sign.
-/
def Rounding.quotient (mode : Rounding) (negative : Bool) (n d : Nat) : Nat :=
  let q := n / d
  let r := n % d
  let away :=
    match mode with
    | .down => negative && r != 0
    | .up => !negative && r != 0
    | .halfEven => d < 2 * r || (2 * r == d && q % 2 == 1)
    | .halfAway => d ≤ 2 * r
  if away then q + 1 else q

/-- The nearest whole number to `n / d`, a half going to the even neighbour. -/
def roundQuotient (n d : Nat) : Nat :=
  Rounding.halfEven.quotient false n d

/--
The greatest `r` below `2^bits` with `r ^ k ≤ n`, found bit by bit from the top;
`found` holds the bits above.
-/
def rootFrom (k n : Nat) : Nat → Nat → Nat
  | 0, found => found
  | bits + 1, found =>
      let trial := found + 2 ^ bits
      rootFrom k n bits (if trial ^ k ≤ n then trial else found)

def wholeRoot (k n : Nat) : Nat :=
  rootFrom k n (n.log2 / k + 1) 0

namespace Binary64

/-- The power of two that `n / d` units are rounded to a multiple of. -/
def gridScale (n d : Nat) : Nat :=
  (n / d).log2 - 52

/--
The number of the format nearest to `n / d` units, a half going to the even
mantissa. A magnitude that rounds past the greatest one is infinite.
-/
def ofUnits (negative : Bool) (n d : Nat) : Binary64 :=
  let scale := gridScale n d
  let mantissa := roundQuotient n (d * 2 ^ scale)
  let parts := if mantissa = 2 ^ 53 then (2 ^ 52, scale + 1) else (mantissa, scale)
  match Magnitude.ofParts? parts.1 parts.2 with
  | some m => .finite negative m
  | none => .infinite negative

def ofNat (n : Nat) : Binary64 :=
  ofUnits false (n * unitsPerOne) 1

/--
The number nearest to `m * 10^e`. The first two cases are far beyond either end
of the format and spare the computation of a huge power.
-/
def ofDecimal (negative : Bool) (m : Nat) (e : Int) : Binary64 :=
  if m = 0 then zero negative
  else if 310 ≤ e then .infinite negative
  else if m.log2 + 1100 < 3 * (-e).toNat then zero negative
  else ofUnits negative (m * unitsPerOne * 10 ^ e.toNat) (10 ^ (-e).toNat)

/--
The number nearest to the `k`-th root of `n` units to the power `k`, whether or
not it is whole.
-/
def ofRoot (negative : Bool) (k n : Nat) : Binary64 :=
  let r := wholeRoot k n
  if r ^ k = n then ofUnits negative r 1 else ofUnits negative (2 * r + 1) 2

end Binary64

end Calculator
