import Calculator.Expr.Outline
import Calculator.Line
import Calculator.Shell.Writer
import Calculator.Text.Blank

/-!
# Sessions

A session runs lines one after another in one environment. A line is a command
or it is evaluated; its value and what is wrong with it are written.
-/

namespace Calculator

/-- What is written to the two output streams. -/
structure Output where
  stdout : String := ""
  stderr : String := ""
deriving DecidableEq

namespace Output

def append (a b : Output) : Output :=
  ⟨a.stdout ++ b.stdout, a.stderr ++ b.stderr⟩

instance : Append Output :=
  ⟨append⟩

def none : Output :=
  {}

end Output

structure Session where
  environment : Environment
  /-- The number of sources that have been given a number. -/
  snippets : Nat

/-- What a line does: whether it succeeds, its output and the session after it. -/
structure Step where
  succeeded : Bool
  output : Output
  session : Session

/-- A line that starts with a point is a command, unless the point starts a number. -/
def isCommand (line : String) : Bool :=
  match line.toList with
  | '.' :: c :: _ => !c.isDigit
  | ['.'] => true
  | _ => false

def trimEnd (line : String) : String :=
  trimEndWhile isBlank line

def isBlankLine (line : String) : Bool :=
  line.toList.all isBlank

/-! ## Fixed texts -/

def greeting (palette : Palette) : String :=
  palette.opening { bold := true } ++ "scicalc REPL v0.1.0\n" ++ palette.reset ++
    "CLI / REPL for the scientific calculator language.\n" ++
    "Use `.help` for help; Ctrl+C or Ctrl+D to exit.\n"

def builtinNames (isConstant : Bool) : String :=
  ", ".intercalate <| Builtin.table.filterMap fun e =>
    match e.2 with
    | .constant _ => if isConstant then some e.1 else Option.none
    | .function _ => if isConstant then Option.none else some e.1

def helpText : String :=
  "Enter an expression to evaluate it, e.g., `2 * sin(30) + 1`.\n" ++
  "\n" ++
  "Syntax:\n" ++
  "  y = 1 + 2      declare a variable\n" ++
  "  f: x^2 + 1     define a function of `x`; call it as `f(3)`\n" ++
  "  del y          delete a variable\n" ++
  "  5!             factorial; `2(3 + 4)` multiplies implicitly\n" ++
  "\n" ++
  "Commands:\n" ++
  "  .help          show this message\n" ++
  "  .dump          list declared variables and functions\n" ++
  "  .clear         remove all variables and functions\n" ++
  "\n" ++
  "Builtin constants: " ++ builtinNames true ++ "\n" ++
  "Builtin functions: " ++ builtinNames false ++ "\n" ++
  "Trigonometric functions take degrees.\n"

namespace Session

def initial : Session :=
  ⟨.empty, 0⟩

def dump (s : Session) (palette : Palette) : String :=
  String.join (s.environment.values.map fun e =>
    e.1 ++ " = " ++ palette.paint (.ofHue .green) e.2.shownText ++ "\n") ++
  String.join (s.environment.bodies.map fun e =>
    e.1 ++ ": " ++ palette.paint (.ofHue .magenta) e.2.text ++ "\n")

def faultReport (entry : Span × Fault) : Report :=
  { code := if entry.2.isLexical then "LEX" else "PARSE"
    message := entry.2.message
    label := "Error occurred here"
    span := entry.1 }

def unknownCommand (line : String) : Report :=
  { code := "CMD"
    message := "Unknown command"
    label := "Use `.help` to find out commands"
    span := .ofLength 0 line.utf8ByteSize }

def snippetName (number : Nat) : String :=
  "Snip #" ++ toString number

/-- A source gets the next number, under which it is reported on. -/
def add (s : Session) (line : String) : Snippet × Session :=
  (⟨snippetName (s.snippets + 1), line⟩, { s with snippets := s.snippets + 1 })

/-- A line that fails has its faults reported, one after another. -/
def failure (s : Session) (writer : Writer) (snippet : Snippet) (reports : List Report) : Step :=
  ⟨false, { stderr := String.join (reports.map (writer.report snippet)) }, s⟩

/-- Reads a line and outputs something about its tree, if there is no fault in it. -/
def read (s : Session) (writer : Writer) (line : String) (form : Expr → String) : Step :=
  let (snippet, added) := s.add line
  let reading := readLine added.environment line
  let after := { added with environment := reading.environment }
  if reading.isOk then ⟨true, { stdout := form reading.expr }, after⟩
  else after.failure writer snippet (reading.diagnostics.entries.map faultReport)

def valueLine (palette : Palette) (t : Expr) : String :=
  palette.paint (.ofHue .magenta) t.evaluate.shownText ++ "\n"

def outlineLines (t : Expr) : String :=
  t.outline .indented 0 ++ "\n"

def runCommand (s : Session) (writer : Writer) (line : String) : Step :=
  match trimEnd line with
  | ".help" => ⟨true, { stderr := helpText }, s⟩
  | ".dump" => ⟨true, { stderr := s.dump writer.palette }, s⟩
  | ".clear" => ⟨true, .none, { s with environment := .empty }⟩
  | _ =>
      let (snippet, added) := s.add line
      added.failure writer snippet [unknownCommand line]

def runLine (s : Session) (writer : Writer) (line : String) : Step :=
  if isCommand line then s.runCommand writer line
  else s.read writer line (valueLine writer.palette)

/-! ## Whole inputs -/

/-- Runs lines up to the first one that fails. Blank lines are skipped. -/
def runUntilFailure (writer : Writer) (s : Session) : List String → Bool × Output
  | [] => (true, .none)
  | line :: rest =>
      if isBlankLine line then runUntilFailure writer s rest
      else
        let step := s.runLine writer line
        if step.succeeded then
          let tail := runUntilFailure writer step.session rest
          (tail.1, step.output ++ tail.2)
        else (false, step.output)

/-- Runs all lines, whether or not they fail. Blank lines are skipped. -/
def runAll (writer : Writer) (s : Session) : List String → Output
  | [] => .none
  | line :: rest =>
      if isBlankLine line then runAll writer s rest
      else
        let step := s.runLine writer line
        step.output ++ runAll writer step.session rest

end Session

end Calculator
