import Calculator.Text.Ranges

/-!
# Blank characters

The Unicode property `White_Space`, and what is left out at the end of a text. A
line of blank characters holds nothing to evaluate.
-/

namespace Calculator

def blankRanges : CharRanges :=
  [ (0x85, 0x85), (0xa0, 0xa0), (0x1680, 0x1680), (0x2000, 0x200a), (0x2028, 0x2029),
    (0x202f, 0x202f), (0x205f, 0x205f), (0x3000, 0x3000) ]

def isBlank (c : Char) : Bool :=
  c == ' ' || (9 ≤ c.toNat && c.toNat ≤ 13) || blankRanges.contains c

/-! ## The end of a text -/

def trimEndWhile (p : Char → Bool) (text : String) : String :=
  String.ofList (text.toList.reverse.dropWhile p).reverse

end Calculator
