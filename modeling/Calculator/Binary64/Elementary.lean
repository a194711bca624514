import Calculator.Binary64.Arithmetic
import Calculator.Enclosure

/-!
# Elementary functions

Sine, cosine, tangent, logarithm and power, each the number of the format
nearest to the exact value. Where the exact value is irrational it is enclosed
ever more closely until both bounds round to one number.
-/

namespace Calculator

namespace Binary64

/--
The number nearest to `n * 2^e`. The first two cases are far beyond either end
of the format and spare the computation of a huge power.
-/
def ofDyadic (n : Int) (e : Int) : Binary64 :=
  let shift := e + 1074
  let length := shift + n.natAbs.log2
  if n = 0 then zero false
  else if 2200 < length then .infinite (n < 0)
  else if length < -2 then zero (n < 0)
  else ofUnits (n < 0) (n.natAbs * 2 ^ shift.toNat) (2 ^ (-shift).toNat)

/-- Bounds on a real number in multiples of `2^scale`. -/
structure Scaled where
  bounds : Enclosure
  scale : Int

def precisions : List Nat :=
  [96, 192, 384, 768, 1536]

/--
The number that a real rounds to, given its enclosures to each precision. The
first precision at which both bounds round alike decides, or else the last one.
-/
def settle (enclose : Nat → Scaled) : List Nat → Binary64
  | [] => .nan
  | w :: rest =>
      let real := enclose w
      let low := ofDyadic real.bounds.lo real.scale
      if low = ofDyadic real.bounds.hi real.scale ∨ rest = [] then low else settle enclose rest

/-! ## Trigonometric functions -/

/-- An angle in quarter turns and a rest of at most half a quarter turn. -/
structure Turn where
  quarters : Int
  rest : Enclosure

/-- The angle of `u` units of a radian, its rest to the precision `w`. -/
def Turn.ofUnits (u : Int) (w : Nat) : Turn :=
  let extra := u.natAbs.log2 - 1074 + 16
  let p := w + extra
  let angle := Enclosure.ofQuotient p u unitsPerOne
  let quarter := Enclosure.halfPi p
  let quarters := (2 * angle.lo + quarter.lo) / (2 * quarter.lo)
  ⟨quarters, (angle.sub (quarter.mulInt quarters)).coarsen extra⟩

def Turn.sin (t : Turn) (w : Nat) : Enclosure :=
  match (t.quarters % 4).toNat with
  | 0 => Enclosure.sin w t.rest
  | 1 => Enclosure.cos w t.rest
  | 2 => (Enclosure.sin w t.rest).neg
  | _ => (Enclosure.cos w t.rest).neg

def Turn.cos (t : Turn) (w : Nat) : Enclosure :=
  Turn.sin ⟨t.quarters + 1, t.rest⟩ w

/-- A divisor that may be zero leaves the tangent without bounds at this precision. -/
def Turn.tan (t : Turn) (w : Nat) : Enclosure :=
  ((t.sin w).div? w (t.cos w)).getD ⟨-1, 1⟩

/--
A function of the angle of `u` units, with a bit more for each zero that the
angle has after the point.
-/
def ofTurn (f : Turn → Nat → Enclosure) (u : Int) : Binary64 :=
  let zeros := 1074 - u.natAbs.log2
  settle (fun w => ⟨f (.ofUnits u (w + zeros)) (w + zeros), -(w + zeros : Nat)⟩) precisions

def sin : Binary64 → Binary64
  | .finite s m => if m.units = 0 then .finite s m else ofTurn Turn.sin (signedUnits s m)
  | _ => .nan

def cos : Binary64 → Binary64
  | .finite s m => if m.units = 0 then ofNat 1 else ofTurn Turn.cos (signedUnits s m)
  | _ => .nan

def tan : Binary64 → Binary64
  | .finite s m => if m.units = 0 then .finite s m else ofTurn Turn.tan (signedUnits s m)
  | _ => .nan

def pi : Binary64 :=
  ofBits 0x400921fb54442d18

def e : Binary64 :=
  ofBits 0x4005bf0a8b145769

def radiansPerDegree : Binary64 :=
  ofBits 0x3f91df46a2529d39

def toRadians (a : Binary64) : Binary64 :=
  a * radiansPerDegree

/-! ## Logarithm -/

/--
The natural logarithm of a positive magnitude. A power of two is taken out so
that what is left lies between `2/3` and `4/3`.
-/
def lnBounds (m : Magnitude) (w : Nat) : Enclosure :=
  let bits := m.mantissa.log2
  let place := if 4 * 2 ^ bits < 3 * m.mantissa then bits + 1 else bits
  let power := (place + m.scale : Int) - 1074
  let z := Enclosure.ofQuotient w (m.mantissa - 2 ^ place : Int) (m.mantissa + 2 ^ place)
  ((Enclosure.artanh w z).mulInt 2).add ((Enclosure.ln2 w).mulInt power)

def ln : Binary64 → Binary64
  | .nan => .nan
  | .infinite s => if s then .nan else .infinite false
  | .finite s m =>
      if m.units = 0 then .infinite true
      else if s then .nan
      else if m.units = unitsPerOne then zero false
      else settle (fun w => ⟨lnBounds m w, -(w : Nat)⟩) precisions

/-! ## Power -/

/--
The power of `mantissa * 2^scale`, with an odd mantissa, to `p / 2^q`, as a
mantissa and a scale. Only a power that needs few enough bits to be a number of
the format, or to lie halfway between two, is found.
-/
def exactPower? (mantissa : Nat) (scale p : Int) : Nat → Option (Nat × Int)
  | 0 =>
      if mantissa = 1 then some (1, scale * p)
      else if 0 ≤ p ∧ p ≤ 64 then some (mantissa ^ p.toNat, scale * p)
      else none
  | q + 1 =>
      if p % 2 = 0 then exactPower? mantissa scale (p / 2) q
      else
        let root := wholeRoot 2 mantissa
        if root ^ 2 = mantissa ∧ scale % 2 = 0 then exactPower? root (scale / 2) p q else none

/-- The number of times two divides a number, counted up to a limit. -/
def twos (n : Nat) : Nat → Nat
  | 0 => 0
  | limit + 1 => if n % 2 = 0 then twos (n / 2) limit + 1 else 0

/-- The power of a positive magnitude to `y` units, by `exp (y * ln x)`. -/
def powBounds (m : Magnitude) (y : Int) (w : Nat) : Scaled :=
  let extra := y.natAbs.log2 - 1074 + 32
  let p := w + extra
  let exponent := ((lnBounds m p).mulInt y).divNat unitsPerOne
  let ln2 := Enclosure.ln2 p
  let power := (2 * exponent.lo + ln2.lo) / (2 * ln2.lo)
  let rest := (exponent.sub (ln2.mulInt power)).coarsen extra
  ⟨Enclosure.exp w rest, power - w⟩

/-- The power of a positive magnitude other than `1` to `y` units. -/
def powUnits (m : Magnitude) (y : Int) : Binary64 :=
  let shift := twos m.mantissa 53
  match exactPower? (m.mantissa / 2 ^ shift) (m.scale + shift - 1074) y 1074 with
  | some (mantissa, scale) => ofDyadic mantissa scale
  | none => settle (powBounds m y) precisions

def isWhole (m : Magnitude) : Bool :=
  m.units % unitsPerOne == 0

def isOdd (m : Magnitude) : Bool :=
  isWhole m && m.units / unitsPerOne % 2 == 1

def withSign (negative : Bool) (a : Binary64) : Binary64 :=
  if negative then -a else a

/--
The power `x ^ y`. Powers to zero and powers of one are one, even of `nan`; an
infinite exponent counts as even, and a negative base has whole exponents only.
-/
def pow (x y : Binary64) : Binary64 :=
  if y.equals (zero false) ∨ x = ofNat 1 then ofNat 1
  else
    match x, y with
    | .nan, _ => .nan
    | _, .nan => .nan
    | .infinite _, .infinite t => if t then zero false else .infinite false
    | .infinite s, .finite t n =>
        let negative := s && isOdd n
        if t then zero negative else .infinite negative
    | .finite _ m, .infinite t =>
        if m.units = unitsPerOne then ofNat 1
        else if (m.units < unitsPerOne : Bool) = t then .infinite false
        else zero false
    | .finite s m, .finite t n =>
        let negative := s && isOdd n
        if m.units = 0 then if t then .infinite negative else zero negative
        else if s && !isWhole n then .nan
        else if m.units = unitsPerOne then withSign negative (ofNat 1)
        else withSign negative (powUnits m (signedUnits t n))

end Binary64

end Calculator
