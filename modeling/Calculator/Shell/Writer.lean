import Calculator.Span

/-!
# Writers

What output is written with. A writer has something to put before text in a
style and after it, and a form for reports. Which sequences and which form these
are is its own affair.
-/

namespace Calculator

inductive Hue where
  | red
  | green
  | yellow
  | blue
  | magenta
  | cyan
  | white
  | brightRed
deriving DecidableEq

structure Style where
  bold : Bool := false
  dimmed : Bool := false
  underline : Bool := false
  hue : Option Hue := none
deriving DecidableEq

def Style.ofHue (hue : Hue) : Style :=
  { hue := some hue }

/-- What is put before text in a style, and what after it. -/
structure Palette where
  opening : Style → String
  reset : String

namespace Palette

def plain : Palette :=
  ⟨fun _ => "", ""⟩

def paint (palette : Palette) (style : Style) (text : String) : String :=
  palette.opening style ++ text ++ palette.reset

end Palette

structure Report where
  code : String
  message : String
  label : String
  span : Span

/-- A source and the name under which a report finds it. -/
structure Snippet where
  name : String
  source : String

structure Writer where
  palette : Palette
  report : Snippet → Report → String

end Calculator
