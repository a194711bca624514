import Calculator.Text.Blank
import Calculator.Text.Width
import Calculator.Token.Scan

/-!
# Sources

A source as its lines, and a line as its cells: the characters with the bytes
and the terminal columns that they take.
-/

namespace Calculator

/-- A line of a source with its index and the offset of its first byte. -/
structure SourceLine where
  index : Nat
  offset : Nat
  chars : List Char

/-- A character of a line, with its first byte and the columns it takes. -/
structure Cell where
  byte : Nat
  char : Char
  width : Nat

namespace Cell

def stop (cell : Cell) : Nat :=
  cell.byte + cell.char.utf8Size

def tabWidth : Nat :=
  4

/-- The cells of characters that start at a byte and a column. -/
def listFrom (byte column : Nat) : List Char → List Cell
  | [] => []
  | c :: rest =>
      let width := if c = '\t' then tabWidth - column % tabWidth else displayWidth c
      ⟨byte, c, width⟩ :: listFrom (byte + c.utf8Size) (column + width) rest

end Cell

namespace SourceLine

def listFrom (index offset : Nat) : List (List Char) → List SourceLine
  | [] => []
  | line :: rest =>
      ⟨index, offset, line⟩ :: listFrom (index + 1) (offset + byteLength line + 1) rest

/-- The lines of a source, of which there is at least one. -/
def listOf (source : String) : List SourceLine :=
  listFrom 0 0 (source.toList.splitOn '\n')

/-- The index of the line that holds an offset: the last one that starts no later. -/
def indexAt (lines : List SourceLine) (offset : Nat) : Nat :=
  (lines.filter (·.offset ≤ offset)).length - 1

def number (line : SourceLine) : Nat :=
  line.index + 1

/-- The column of a byte of the line, in characters from one. -/
def column (line : SourceLine) (byte : Nat) : Nat :=
  ((Cell.listFrom 0 0 line.chars).filter (·.byte < byte)).length + 1

def isTrailer (c : Char) : Bool :=
  c == '\n' || c == '\r' || c == '\x00'

def shown (line : SourceLine) : List Char :=
  (line.chars.reverse.dropWhile isTrailer).reverse

/-- The number of bytes before the first character shown that is not blank. -/
def indentation (line : SourceLine) : Nat :=
  byteLength (line.shown.takeWhile isBlank)

def cells (line : SourceLine) : List Cell :=
  Cell.listFrom 0 0 line.shown

end SourceLine

end Calculator
