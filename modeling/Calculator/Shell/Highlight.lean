import Calculator.Shell.Ansi
import Calculator.Token.Scan

/-!
# Highlighting

A line with its tokens in the styles of their categories. Operators and blanks
have none.
-/

namespace Calculator

def Category.style? : Category → Option Style
  | number => some (.ofHue .cyan)
  | identifier => some (.ofHue .yellow)
  | comma => some (.ofHue .white)
  | paren => some { dimmed := true }
  | unknown => some { underline := true, hue := some .red }
  | del => some { bold := true, hue := some .magenta }
  | other => none

namespace Palette

def highlightToken (palette : Palette) (t : Token) : String :=
  match t.kind.category.style? with
  | some style => palette.paint style t.lexeme
  | none => t.lexeme

def highlight (palette : Palette) (line : String) : String :=
  String.join ((tokenize line).map palette.highlightToken)

end Palette

def highlight (line : String) : String :=
  Palette.ansi.highlight line

end Calculator
