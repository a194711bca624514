import Calculator.Shell.Ansi
import Calculator.Shell.Arguments
import Calculator.Shell.Rendering
import Calculator.Shell.Typing

/-!
# The command

The program where its output goes to files or to other programs, and its input
comes from there.
-/

namespace Calculator

/-- The writer of a palette, with reports as they are rendered. -/
def Writer.rendering (palette : Palette) : Writer :=
  ⟨palette, Snippet.render palette⟩

namespace ColorChoice

def palette : ColorChoice → Palette
  | auto => .ansi
  | always => .ansi
  | never => .plain

end ColorChoice

namespace Command

def typedLines (input : String) : List String :=
  (inputLines input).map typedLine

end Command

def Surroundings.standard : Surroundings where
  arguments := Invocation.parse
  isTerminal := false
  writer choice := .rendering choice.palette
  entered := Command.typedLines

def Command.run (args : List String) (colorVariable : Option String) (input : String) : Answer :=
  Surroundings.standard.run args colorVariable input

end Calculator
