import Calculator.Shell.Source
import Calculator.Shell.Writer

/-!
# Rendering

The form of a report: what is wrong, where it is, and the lines it is in. A
span within a line has carets under it, and a span over several lines is put in
a bracket.
-/

namespace Calculator

/-- The part of a span that lies in one line, in bytes of the line. -/
inductive Mark where
  /-- The whole span. -/
  | within (start stop : Nat)
  /-- The start of a span that goes on. -/
  | opening (start : Nat)
  /-- All of a line between the first and the last one. -/
  | through
  /-- The end of a span. -/
  | closing (stop : Nat)

namespace Mark

def covers (cell : Cell) : Mark → Bool
  | within start stop => max start cell.byte < min stop cell.stop
  | opening start => start ≤ cell.byte
  | through => true
  | closing stop => cell.stop ≤ stop

end Mark

namespace Snippet

/--
The lines that a span touches, each with its part of the span. A part within a
line is at least one byte long.
-/
def markedLines (source : String) (span : Span) : List (SourceLine × Mark) :=
  let lines := SourceLine.listOf source
  let first := SourceLine.indexAt lines span.start
  let last := SourceLine.indexAt lines span.stop
  ((lines.drop first).take (last + 1 - first)).map fun line =>
    let start := span.start - line.offset
    let stop := span.stop - line.offset
    (line,
      if first = last then .within start (max stop (start + 1))
      else if line.index = first then .opening start
      else if line.index = last then .closing stop
      else .through)

/-! ## Painting -/

def blanks (n : Nat) : String :=
  String.ofList (List.replicate n ' ')

/-- Pieces of text in order, those that are marked in a style. -/
def paintMarked (palette : Palette) (style : Style) (inStyle : Bool) :
    List (Bool × String) → String
  | [] => if inStyle then palette.reset else ""
  | (marked, text) :: rest =>
      (if marked && !inStyle then palette.opening style
        else if !marked && inStyle then palette.reset
        else "") ++ text ++ paintMarked palette style marked rest

def markStyle : Style :=
  .ofHue .red

def sourceText (palette : Palette) (mark : Mark) (cells : List Cell) : String :=
  paintMarked palette markStyle false <| cells.map fun cell =>
    (mark.covers cell, if cell.char = '\t' then blanks cell.width else String.singleton cell.char)

def caretText (palette : Palette) (start stop : Nat) (cells : List Cell) : String :=
  paintMarked palette markStyle false <| cells.map fun cell =>
    if (Mark.within start stop).covers cell then
      (true, String.ofList (List.replicate cell.width '^'))
    else (false, if cell.byte < stop then blanks cell.width else "")

/-- A horizontal rule under the bytes before `stop`, with a caret at its end. -/
def ruleText (stop : Nat) (cells : List Cell) : String :=
  let columns := (cells.filter (·.byte < stop)).foldr (fun cell sum => cell.width + sum) 0
  String.ofList (List.replicate columns '─') ++ "^"

/-- A piece of the bracket at the left of a span over several lines. -/
def bracket (palette : Palette) (piece : String) : String :=
  " " ++ palette.paint markStyle piece

def noBracket : String :=
  "  "

/-- What stands before a line. A span that starts the text of a line has its bracket there. -/
def gutter (palette : Palette) (line : SourceLine) : Mark → String
  | .within _ _ => ""
  | .opening start => if start ≤ line.indentation then bracket palette "╭" else noBracket
  | .through => bracket palette "│"
  | .closing _ => bracket palette "│"

/-- What stands under a line, if anything does. There is room for a caret after the line. -/
def underline? (palette : Palette) (label : String) (line : SourceLine) : Mark → Option String
  | .within start stop =>
      let cells := line.cells ++ [⟨byteLength line.shown, '\x00', 1⟩]
      some (" " ++ caretText palette start stop cells ++ " " ++ palette.paint markStyle label)
  | .opening start =>
      if start ≤ line.indentation then none
      else some (bracket palette "╭" ++ palette.paint markStyle (ruleText (start + 1) line.cells))
  | .through => none
  | .closing stop =>
      some (bracket palette "╰" ++
        palette.paint markStyle (ruleText stop line.cells ++ " " ++ label))

/-! ## Layout -/

/-- The border at the left of a snippet, with room for line numbers of some digits. -/
structure Border where
  palette : Palette
  digits : Nat

namespace Border

def paint (b : Border) (text : String) : String :=
  b.palette.paint (.ofHue .blue) text

def row (b : Border) (edge text : String) : String :=
  blanks (b.digits + 1) ++ b.paint edge ++ text ++ "\n"

def numberedRow (b : Border) (number : Nat) (text : String) : String :=
  let digits := toString number
  b.paint (blanks (b.digits - digits.length) ++ digits) ++ " " ++ b.paint "│" ++ text ++ "\n"

def markedRows (b : Border) (label : String) (marked : SourceLine × Mark) : String :=
  let line := marked.1
  let mark := marked.2
  b.numberedRow line.number
      (gutter b.palette line mark ++ " " ++ sourceText b.palette mark line.cells) ++
    ((underline? b.palette label line mark).map (b.row "│")).getD ""

def leading : Nat :=
  4

def trailing : Nat :=
  2

/-- The lines of a span. One line in the middle is shown, and more than one are left out. -/
def allRows (b : Border) (label : String) (lines : List (SourceLine × Mark)) : String :=
  let rows := lines.map (b.markedRows label)
  if rows.length ≤ leading + 1 + trailing then String.join rows
  else
    String.join (rows.take leading) ++ b.row "·" (bracket b.palette "│") ++
      String.join (rows.drop (rows.length - trailing))

end Border

def heading (palette : Palette) (report : Report) : String :=
  palette.opening { bold := true, hue := some .brightRed } ++ "error[" ++ report.code ++ "]" ++
    palette.opening { bold := true } ++ ": " ++ report.message ++ palette.reset ++ "\n"

def position (snippet : Snippet) (line : SourceLine) (start : Nat) : String :=
  " " ++ snippet.name ++ ":" ++ toString line.number ++ ":" ++
    toString (line.column (start - line.offset))

def render (palette : Palette) (snippet : Snippet) (report : Report) : String :=
  let lines := markedLines snippet.source report.span
  match lines with
  | [] => heading palette report ++ "\n"
  | (first, _) :: more =>
      let last := (more.getLast?.map (·.1)).getD first
      let border : Border := ⟨palette, (toString last.number).length⟩
      heading palette report ++
        border.row "┌─" (position snippet first report.span.start) ++
        border.row "│" (if more.isEmpty then "" else noBracket) ++
        border.allRows report.label lines ++ "\n"

end Snippet

end Calculator
