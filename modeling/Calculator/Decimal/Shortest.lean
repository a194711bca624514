import Calculator.Binary64.Rounding
import Calculator.Decimal.Basic

/-!
# Shortest decimals

The decimal with the fewest digits that reads back as a given magnitude, and of
those the nearest.
-/

namespace Calculator

namespace Magnitude

/-- The magnitude over `10^exponent` as a quotient. -/
def quotientBy (m : Magnitude) (exponent : Int) : Nat × Nat :=
  (m.units * 10 ^ (-exponent).toNat, Binary64.unitsPerOne * 10 ^ exponent.toNat)

/--
The place of the leading decimal digit, counted from the units. Scaled up by
`10^350`, a positive magnitude has a whole part whose length tells.
-/
def lead (m : Magnitude) : Int :=
  let scaled := m.quotientBy (-350)
  (Decimal.length (scaled.1 / scaled.2) : Int) - 351

def readsBack (m : Magnitude) (d : Decimal) : Bool :=
  Binary64.ofDecimal false d.digits d.exponent == .finite false m

/--
The multiple of `10^exponent` that reads back. Only the two neighbours of the
magnitude can; the nearer one is preferred, and the upper one halfway.
-/
def onGrid? (m : Magnitude) (exponent : Int) : Option Decimal :=
  let quotient := m.quotientBy exponent
  let below := quotient.1 / quotient.2
  let candidates :=
    if 2 * quotient.1 < (2 * below + 1) * quotient.2 then [below, below + 1]
    else [below + 1, below]
  (candidates.map fun digits => ⟨digits, exponent⟩).find? m.readsBack

/-- The magnitude itself: every unit is a multiple of `10^-1074`. -/
def exactDecimal (m : Magnitude) : Decimal :=
  ⟨m.units * 5 ^ 1074, -1074⟩

/-- The grids are tried from one digit up. -/
def shortest (m : Magnitude) : Decimal :=
  match (List.range 17).findSome? fun more : Nat => m.onGrid? (m.lead - more) with
  | some d => d.trim
  | none => m.exactDecimal.trim

end Magnitude

end Calculator
