import Calculator.Binary64.Rounding

/-!
# Arithmetic

Sum, difference, product, quotient and remainder, integral parts and roots: the
exact result, rounded once to the nearest number.
-/

namespace Calculator

namespace Binary64

def ofSignedUnits (negativeZero : Bool) (u : Int) : Binary64 :=
  if u = 0 then zero negativeZero else ofUnits (u < 0) u.natAbs 1

/-- A sum that vanishes is negative only if both terms are. -/
def add : Binary64 → Binary64 → Binary64
  | .nan, _ => .nan
  | _, .nan => .nan
  | .infinite s, .infinite t => if s = t then .infinite s else .nan
  | .infinite s, .finite _ _ => .infinite s
  | .finite _ _, .infinite t => .infinite t
  | .finite s m, .finite t n => ofSignedUnits (s && t) (signedUnits s m + signedUnits t n)

def sub (a b : Binary64) : Binary64 :=
  add a (neg b)

def mul : Binary64 → Binary64 → Binary64
  | .nan, _ => .nan
  | _, .nan => .nan
  | .infinite s, .infinite t => .infinite (s ^^ t)
  | .infinite s, .finite t n => if n.units = 0 then .nan else .infinite (s ^^ t)
  | .finite s m, .infinite t => if m.units = 0 then .nan else .infinite (s ^^ t)
  | .finite s m, .finite t n => ofUnits (s ^^ t) (m.units * n.units) unitsPerOne

def div : Binary64 → Binary64 → Binary64
  | .nan, _ => .nan
  | _, .nan => .nan
  | .infinite _, .infinite _ => .nan
  | .infinite s, .finite t _ => .infinite (s ^^ t)
  | .finite s _, .infinite t => zero (s ^^ t)
  | .finite s m, .finite t n =>
      if n.units = 0 then if m.units = 0 then .nan else .infinite (s ^^ t)
      else ofUnits (s ^^ t) (m.units * unitsPerOne) n.units

/--
What is left of `a` after taking away `b` as often as possible, with the sign of
`a`. It is exact.
-/
def rem : Binary64 → Binary64 → Binary64
  | .nan, _ => .nan
  | _, .nan => .nan
  | .infinite _, _ => .nan
  | .finite s m, .infinite _ => .finite s m
  | .finite s m, .finite _ n =>
      if n.units = 0 then .nan else ofUnits s (m.units % n.units) 1

instance : Add Binary64 := ⟨add⟩
instance : Sub Binary64 := ⟨sub⟩
instance : Mul Binary64 := ⟨mul⟩
instance : Div Binary64 := ⟨div⟩
instance : Mod Binary64 := ⟨rem⟩

/-- The integral number next to a number. It keeps the sign, also that of a zero. -/
def toIntegral (mode : Rounding) : Binary64 → Binary64
  | .finite s m => ofUnits s (mode.quotient s m.units unitsPerOne * unitsPerOne) 1
  | a => a

def isIntegral (a : Binary64) : Bool :=
  equals a (toIntegral .halfAway a)

/-- A zero of either sign, a positive whole number or positive infinity. -/
def isNatural (a : Binary64) : Bool :=
  isIntegral a && atLeast a (zero false)

/-- The square root; of a negative number there is none, but a negative zero is its own root. -/
def sqrt : Binary64 → Binary64
  | .finite s m =>
      if m.units = 0 then .finite s m
      else if s then .nan
      else ofRoot false 2 (m.units * unitsPerOne)
  | .infinite false => .infinite false
  | _ => .nan

def cbrt : Binary64 → Binary64
  | .finite s m => ofRoot s 3 (m.units * unitsPerOne ^ 2)
  | a => a

def maxFactorial : Nat :=
  170

/-- The product `1 * 2 * … * n`, each factor rounded in from the left. -/
def product (n : Nat) : Binary64 :=
  (List.range n).foldl (fun acc k => acc * ofNat (k + 1)) (ofNat 1)

/--
The factorial of the whole part; of anything below `1`, and of `nan`, it is the
empty product.
-/
def factorial : Binary64 → Binary64
  | .finite false m =>
      let n := m.units / unitsPerOne
      if maxFactorial < n then .infinite false else product n
  | .infinite false => .infinite false
  | _ => ofNat 1

end Binary64

end Calculator
