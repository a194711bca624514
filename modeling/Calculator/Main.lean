import Calculator.Shell.Command

/-!
# The program

Reads the arguments and the standard input and writes the output.
-/

namespace Calculator

def write (output : Output) : IO Unit := do
  let stdout ← IO.getStdout
  stdout.putStr output.stdout
  stdout.flush
  let stderr ← IO.getStderr
  stderr.putStr output.stderr
  stderr.flush

/-- The text read so far with all that is still to be read. -/
partial def readAll (input : IO.FS.Stream) (text : String) : IO String := do
  let line ← input.getLine
  if line.isEmpty then return text
  readAll input (text ++ line)

/-- Answers every line as soon as it has been entered. -/
partial def converse (writer : Writer) (session : Session) (input : IO.FS.Stream) : IO Unit := do
  let text ← input.getLine
  if text.isEmpty then return
  let mut current := session
  for line in (Command.typedLines text).filter fun line => !isBlankLine line do
    let step := current.runLine writer line
    write step.output
    current := step.session
  converse writer current input

/-- There is something to be done with what is on the standard input. -/
def Request.readsInput : Request → Bool
  | tree line => line.isNone
  | evaluate _ line => line.isNone

end Calculator

open Calculator

def main (args : List String) : IO UInt32 := do
  let color ← IO.getEnv "COLOR"
  let input ← IO.getStdin
  match Invocation.parse color args with
  | .ok ⟨.evaluate true _, option⟩ =>
      let writer := Surroundings.standard.writerOf option
      write { stderr := greeting writer.palette }
      converse writer .initial input
      return 0
  | .ok ⟨request, _⟩ =>
      let text ← if request.readsInput then readAll input "" else pure ""
      let answer := Command.run args color text
      write answer.output
      return answer.code.toUInt32
  | .error _ =>
      let answer := Command.run args color ""
      write answer.output
      return answer.code.toUInt32
