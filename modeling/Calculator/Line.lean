import Calculator.Parser.Rules
import Calculator.Token.Scan

/-!
# Lines

A line is scanned, parsed in an environment and evaluated. It may change the
environment even if there is a fault in it.
-/

namespace Calculator

/-- What a line is read as. -/
structure Reading where
  expr : Expr
  diagnostics : Diagnostics
  environment : Environment
deriving DecidableEq

namespace Parser

/-- Reads a whole line, at whose end no tokens may be left over. -/
def run {E : Type} [Scope E] (limit : Option Nat) (s : State E) : Expr × State E :=
  match statement limit s with
  | .ok expr t _ =>
      if t.rest.isEmpty then (expr, t) else (.error, t.report t.next.span .leftovers)
  | .abort t => (.error, t)

end Parser

namespace Reading

def isOk (r : Reading) : Bool :=
  r.diagnostics.isEmpty

def value (r : Reading) : Except Diagnostics Binary64 :=
  if r.isOk then .ok r.expr.evaluate else .error r.diagnostics

end Reading

def readTokens (limit : Option Nat) (tokens : List Token) (diagnostics : Diagnostics)
    (env : Environment) : Reading :=
  let final := Parser.run limit (.ofTokens tokens env diagnostics)
  ⟨final.1, final.2.diagnostics, final.2.environment⟩

def readLine (env : Environment) (source : String) : Reading :=
  let tokens := tokenize source
  readTokens (some maxNesting) tokens (lexicalFaults tokens) env

/-- The value of a line, or what is wrong with it, and the environment after it. -/
def evaluateLine (env : Environment) (source : String) :
    Except Diagnostics Binary64 × Environment :=
  let reading := readLine env source
  (reading.value, reading.environment)

end Calculator
