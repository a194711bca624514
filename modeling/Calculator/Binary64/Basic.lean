/-!
# Binary64 numbers

The numbers of the IEEE 754 binary64 format. A finite number is a sign and a
magnitude, and every magnitude is a whole number of units of `2^-1074`, the
least positive number of the format. There is one value for each number, two
zeros, and a single `nan`, so equality of values is equality of numbers.
-/

namespace Calculator

-- A library of algebra has powers of its own, which are not to be taken for these.
attribute [instance (1100), default_instance (10001)] instPowNat

/-- A magnitude of `mantissa * 2^scale` units. `canonical` leaves one pair for each magnitude. -/
structure Magnitude where
  mantissa : Nat
  scale : Nat
  mantissa_lt : mantissa < 2 ^ 53
  scale_le : scale ≤ 2045
  canonical : scale = 0 ∨ 2 ^ 52 ≤ mantissa
deriving DecidableEq

namespace Magnitude

def units (m : Magnitude) : Nat :=
  m.mantissa * 2 ^ m.scale

def zero : Magnitude :=
  ⟨0, 0, by decide, by decide, .inl rfl⟩

/-- The magnitude `mantissa * 2^scale`, if this pair is the one that stands for it. -/
def ofParts? (mantissa scale : Nat) : Option Magnitude :=
  if h : mantissa < 2 ^ 53 ∧ scale ≤ 2045 ∧ (scale = 0 ∨ 2 ^ 52 ≤ mantissa) then
    some ⟨mantissa, scale, h.1, h.2.1, h.2.2⟩
  else
    none

theorem ofParts?_mantissa_scale (m : Magnitude) : ofParts? m.mantissa m.scale = some m := by
  unfold ofParts?
  rw [dif_pos ⟨m.mantissa_lt, m.scale_le, m.canonical⟩]

end Magnitude

inductive Binary64 where
  | nan
  | infinite (negative : Bool)
  | finite (negative : Bool) (magnitude : Magnitude)
deriving DecidableEq

namespace Binary64

def unitsPerOne : Nat :=
  2 ^ 1074

def zero (negative : Bool) : Binary64 :=
  .finite negative .zero

instance : Inhabited Binary64 :=
  ⟨zero false⟩

def neg : Binary64 → Binary64
  | .nan => .nan
  | .infinite s => .infinite !s
  | .finite s m => .finite (!s) m

instance : Neg Binary64 :=
  ⟨neg⟩

/-! ## Order

The order of the extended reals: `nan` is not comparable with anything and the
two zeros are the same number.
-/

def signedUnits (negative : Bool) (m : Magnitude) : Int :=
  if negative then -(m.units : Int) else m.units

def compare? : Binary64 → Binary64 → Option Ordering
  | .nan, _ => none
  | _, .nan => none
  | .infinite s, .infinite t => some (if s = t then .eq else if s then .lt else .gt)
  | .infinite s, .finite _ _ => some (if s then .lt else .gt)
  | .finite _ _, .infinite t => some (if t then .gt else .lt)
  | .finite s m, .finite t n => some (compare (signedUnits s m) (signedUnits t n))

/-- Equality of numbers: `nan` differs from itself and the zeros are equal. -/
def equals (a b : Binary64) : Bool :=
  compare? a b == some .eq

def atLeast (a b : Binary64) : Bool :=
  match compare? a b with
  | some .lt => false
  | some _ => true
  | none => false

/-! ## Interchange format

One sign bit, eleven bits of exponent and fifty-two bits of fraction.
-/

def fractionBits : Nat :=
  2 ^ 52

private def field (negative : Bool) (exponent fraction : Nat) : UInt64 :=
  .ofNat ((if negative then 2 ^ 63 else 0) + exponent * fractionBits + fraction)

/--
The bits of a number. All ones in the exponent and the top bit of the fraction
stand for `nan`.
-/
def toBits : Binary64 → UInt64
  | .nan => field false 2047 (2 ^ 51)
  | .infinite s => field s 2047 0
  | .finite s m =>
      if m.mantissa < fractionBits then field s 0 m.mantissa
      else field s (m.scale + 1) (m.mantissa - fractionBits)

/--
Reads the bits of a number. Every pattern with all ones in the exponent and a
fraction is `nan`.
-/
def ofBits (bits : UInt64) : Binary64 :=
  let n := bits.toNat
  let negative := n / 2 ^ 63 == 1
  let exponent := n / fractionBits % 2048
  let fraction := n % fractionBits
  if exponent = 2047 then
    if fraction = 0 then .infinite negative else .nan
  else
    let parts := if exponent = 0 then (fraction, 0) else (fractionBits + fraction, exponent - 1)
    match Magnitude.ofParts? parts.1 parts.2 with
    | some m => .finite negative m
    | none => .nan

end Binary64

end Calculator
