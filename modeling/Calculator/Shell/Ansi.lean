import Calculator.Shell.Writer

/-!
# Escape sequences

The palette of a terminal: a style is one sequence for each of its attributes,
after one that ends every style.
-/

namespace Calculator

def attributeCode (code : String) : String :=
  "\x1b[" ++ code ++ "m"

def Hue.code : Hue → String
  | red => "31"
  | green => "32"
  | yellow => "33"
  | blue => "34"
  | magenta => "35"
  | cyan => "36"
  | white => "37"
  | brightRed => "38;5;9"

def Palette.ansi : Palette where
  opening style :=
    attributeCode "0" ++ (if style.bold then attributeCode "1" else "") ++
      (if style.dimmed then attributeCode "2" else "") ++
      (if style.underline then attributeCode "4" else "") ++
      ((style.hue.map fun hue => attributeCode hue.code).getD "")
  reset := attributeCode "0"

end Calculator
