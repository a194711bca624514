/-!
# Tables of characters

The tables of this library give properties of the Unicode Standard: those of
display width as of version 15.1, all others as of version 17.0.
-/

namespace Calculator

/-- Characters given by the first and the last code point of each run. -/
abbrev CharRanges :=
  List (Nat × Nat)

def CharRanges.contains (ranges : CharRanges) (c : Char) : Bool :=
  ranges.any fun run => run.1 ≤ c.toNat && c.toNat ≤ run.2

/-- The code points below this one are those of ASCII; the tables start here. -/
def asciiEnd : Nat :=
  0x80

end Calculator
