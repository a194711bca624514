import Calculator.Decimal.Shortest
import Calculator.Text.Blank

/-!
# Written forms of numbers

Three forms: the digits that read back, the same with a point or an exponent in
every number, and the form in which results are shown.
-/

namespace Calculator

namespace Binary64

def signText (negative : Bool) : List Char :=
  if negative then ['-'] else []

def infinityText (negative : Bool) : List Char :=
  signText negative ++ "inf".toList

/-- The shortest digits that read back, never with an exponent. -/
def plainText : Binary64 → String
  | .nan => "NaN"
  | .infinite s => String.ofList (infinityText s)
  | .finite s m =>
      String.ofList (signText s ++ if m.units = 0 then ['0'] else m.shortest.positional)

/-- The leading places that are written without an exponent. -/
def positionalPlaces (lead : Int) : Bool :=
  -4 ≤ lead && lead < 16

/--
The shortest digits that read back, with a point in every whole number and an
exponent outside the usual range.
-/
def pointedText : Binary64 → String
  | .nan => "NaN"
  | .infinite s => String.ofList (infinityText s)
  | .finite s m =>
      let d := m.shortest
      let digits :=
        if m.units = 0 then "0.0".toList
        else if !positionalPlaces d.lead then d.scientific
        else if 0 ≤ d.exponent then d.positional ++ ".0".toList
        else d.positional
      String.ofList (signText s ++ digits)

def shownPlaces : Nat :=
  15

/--
The whole number of units of the last shown place nearest to a magnitude, a half
going to the even one.
-/
def shownUnits (m : Magnitude) : Nat :=
  roundQuotient (m.units * 10 ^ shownPlaces) unitsPerOne

/-- A number that is rounded to the shown places, with all of them and with its sign. -/
def fixedText (negative : Bool) (m : Magnitude) : String :=
  String.ofList (signText negative ++ Decimal.positional ⟨shownUnits m, -shownPlaces⟩)

/-- A text without zeros at the end of its places, and without a point that is left there. -/
def trimPlaces (text : String) : String :=
  if '.' ∈ text.toList then trimEndWhile (· == '.') (trimEndWhile (· == '0') text) else text

/--
The form in which results are shown: rounded to the shown places, without zeros
at the end and without a sign on zero.
-/
def shownText : Binary64 → String
  | .finite s m =>
      let trimmed := trimPlaces (fixedText s m)
      if trimmed = "-0" then "0" else trimmed
  | a => a.plainText

end Binary64

end Calculator
