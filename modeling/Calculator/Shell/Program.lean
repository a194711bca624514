import Calculator.Shell.Session

/-!
# The program

What is done with arguments and an input, and the exit code that it comes to.
The surroundings of the program say what the arguments ask for, which lines are
entered by an input that is typed, and how output is written.
-/

namespace Calculator

/-- The colours that are asked for. -/
inductive ColorOption where
  | auto
  | always
  | never
deriving DecidableEq

/-- The colours that a stream is opened with. -/
inductive ColorChoice where
  | auto
  | always
  | never
deriving DecidableEq

def ColorOption.choice (isTerminal : Bool) : ColorOption → ColorChoice
  | auto => if isTerminal then .auto else .never
  | always => .always
  | never => .never

/-- What is to be done with a line, or with the standard input if there is none. -/
inductive Request where
  | tree (line : Option String)
  | evaluate (interactive : Bool) (line : Option String)
deriving DecidableEq

structure Invocation where
  request : Request
  color : ColorOption
deriving DecidableEq

/-- What there is to say about arguments that ask for nothing to be done. -/
structure Notice where
  text : String
  isRefusal : Bool
deriving DecidableEq

structure Surroundings where
  /-- What arguments ask for, if a choice of colour is kept in a variable. -/
  arguments : Option String → List String → Except Notice Invocation
  /-- The standard error is a terminal. -/
  isTerminal : Bool
  writer : ColorChoice → Writer
  /-- The lines that are entered by typing an input. -/
  entered : String → List String

structure Answer where
  code : Nat
  output : Output
deriving DecidableEq

namespace Command

def refusedCode : Nat :=
  1

def failedCode : Nat :=
  2

/--
The lines of an input. A line ends with a line feed, before which a carriage
return is left out.
-/
def inputLines (input : String) : List String :=
  let pieces := input.toList.splitOn '\n'
  let ended := pieces.dropLast.map fun line =>
    if line.getLast? = some '\r' then line.dropLast else line
  let last := (pieces.getLast?.getD [])
  (if last.isEmpty then ended else ended ++ [last]).map String.ofList

/-- An input as one line, without the line ends after it. -/
def inputLine (input : String) : String :=
  trimEndWhile (fun c => c == '\r' || c == '\n') input

def exitCode (succeeded : Bool) : Nat :=
  if succeeded then 0 else failedCode

end Command

namespace Surroundings

open Command

variable (around : Surroundings)

def writerOf (color : ColorOption) : Writer :=
  around.writer (color.choice around.isTerminal)

def perform (request : Request) (writer : Writer) (input : String) : Answer :=
  match request with
  | .tree line =>
      let step := Session.initial.read writer (line.getD (inputLine input)) Session.outlineLines
      ⟨exitCode step.succeeded, step.output⟩
  | .evaluate true _ =>
      ⟨0, { stderr := greeting writer.palette } ++
        Session.runAll writer .initial (around.entered input)⟩
  | .evaluate false (some line) =>
      let step := Session.initial.runLine writer line
      ⟨exitCode step.succeeded, step.output⟩
  | .evaluate false none =>
      let result := Session.runUntilFailure writer .initial (inputLines input)
      ⟨exitCode result.1, result.2⟩

def run (args : List String) (colorVariable : Option String) (input : String) : Answer :=
  match around.arguments colorVariable args with
  | .ok invocation => around.perform invocation.request (around.writerOf invocation.color) input
  | .error notice =>
      if notice.isRefusal then ⟨refusedCode, { stderr := notice.text }⟩
      else ⟨0, { stdout := notice.text }⟩

end Surroundings

end Calculator
