/-!
# Enclosures

An enclosure bounds a real number from both sides by multiples of `2^-w`, for a
precision `w` that all operands of an operation share. Every operation rounds
its lower bound down and its upper bound up, so the result encloses what the
operation gives on the enclosed numbers.
-/

namespace Calculator

structure Enclosure where
  lo : Int
  hi : Int

namespace Enclosure

def floorDiv (a : Int) (d : Nat) : Int :=
  a / d

def ceilDiv (a : Int) (d : Nat) : Int :=
  -(-a / d)

def ofQuotient (w : Nat) (n : Int) (d : Nat) : Enclosure :=
  ⟨floorDiv (n * 2 ^ w) d, ceilDiv (n * 2 ^ w) d⟩

def one (w : Nat) : Enclosure :=
  ⟨2 ^ w, 2 ^ w⟩

def add (a b : Enclosure) : Enclosure :=
  ⟨a.lo + b.lo, a.hi + b.hi⟩

def neg (a : Enclosure) : Enclosure :=
  ⟨-a.hi, -a.lo⟩

def sub (a b : Enclosure) : Enclosure :=
  add a (neg b)

def mulInt (k : Int) (a : Enclosure) : Enclosure :=
  ⟨min (k * a.lo) (k * a.hi), max (k * a.lo) (k * a.hi)⟩

def divNat (a : Enclosure) (d : Nat) : Enclosure :=
  ⟨floorDiv a.lo d, ceilDiv a.hi d⟩

def mul (w : Nat) (a b : Enclosure) : Enclosure :=
  let low := min (min (a.lo * b.lo) (a.lo * b.hi)) (min (a.hi * b.lo) (a.hi * b.hi))
  let high := max (max (a.lo * b.lo) (a.lo * b.hi)) (max (a.hi * b.lo) (a.hi * b.hi))
  divNat ⟨low, high⟩ (2 ^ w)

/-- The quotient by a number that is known to be positive. -/
private def divPositive (w : Nat) (a b : Enclosure) : Enclosure :=
  let low := if a.lo < 0 then b.lo else b.hi
  let high := if a.hi < 0 then b.hi else b.lo
  ⟨floorDiv (a.lo * 2 ^ w) low.toNat, ceilDiv (a.hi * 2 ^ w) high.toNat⟩

/-- The quotient, unless the divisor may be zero. -/
def div? (w : Nat) (a b : Enclosure) : Option Enclosure :=
  if 0 < b.lo then some (divPositive w a b)
  else if b.hi < 0 then some (divPositive w (neg a) (neg b))
  else none

def widen (a : Enclosure) (margin : Nat) : Enclosure :=
  ⟨a.lo - margin, a.hi + margin⟩

/-- The same number to the precision `w - drop`. -/
def coarsen (a : Enclosure) (drop : Nat) : Enclosure :=
  divNat a (2 ^ drop)

/-! ## Series -/

/--
Adds up `term 0 p₀ + term 1 p₁ + …` with `pₙ₊₁ = next n pₙ`, until `pₙ` is at
most one unit. Each series summed here at least halves `pₙ` from there on, and
no term is greater than its `pₙ`, so two units cover what is left out.
-/
def sumFrom (next term : Nat → Enclosure → Enclosure) :
    Nat → Nat → Enclosure → Enclosure → Enclosure
  | 0, _, _, sum => sum
  | fuel + 1, n, p, sum =>
      if -1 ≤ p.lo ∧ p.hi ≤ 1 then sum.widen 2
      else sumFrom next term fuel (n + 1) (next n p) (sum.add (term n p))

/--
The sum to the precision `w`. A first number of at most `1` that halves has
vanished after the fuel.
-/
def sum (w : Nat) (next term : Nat → Enclosure → Enclosure) (first : Enclosure) : Enclosure :=
  sumFrom next term (2 * w + 64) 0 first ⟨0, 0⟩

/-- The inverse tangent of `1 / k`. -/
def arctanInverse (w k : Nat) : Enclosure :=
  sum w (fun _ p => neg (p.divNat (k * k))) (fun n p => p.divNat (2 * n + 1)) (ofQuotient w 1 k)

def halfPi (w : Nat) : Enclosure :=
  sub (mulInt 8 (arctanInverse w 5)) (mulInt 2 (arctanInverse w 239))

/-- The inverse hyperbolic tangent, which is half of `ln ((1 + z) / (1 - z))`. -/
def artanh (w : Nat) (z : Enclosure) : Enclosure :=
  let square := mul w z z
  sum w (fun _ p => mul w p square) (fun n p => p.divNat (2 * n + 1)) z

def ln2 (w : Nat) : Enclosure :=
  mulInt 2 (artanh w (ofQuotient w 1 3))

def sin (w : Nat) (r : Enclosure) : Enclosure :=
  let square := mul w r r
  sum w (fun n p => neg ((mul w p square).divNat ((2 * n + 2) * (2 * n + 3)))) (fun _ p => p) r

def cos (w : Nat) (r : Enclosure) : Enclosure :=
  let square := mul w r r
  sum w (fun n p => neg ((mul w p square).divNat ((2 * n + 1) * (2 * n + 2)))) (fun _ p => p)
    (one w)

def exp (w : Nat) (r : Enclosure) : Enclosure :=
  sum w (fun n p => (mul w p r).divNat (n + 1)) (fun _ p => p) (one w)

end Enclosure

end Calculator
