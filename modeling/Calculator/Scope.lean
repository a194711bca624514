import Calculator.Environment

/-!
# Scopes

What a line asks of the variables and functions of a session, however they are
kept. An operation that is refused says why and still says what it leaves.
-/

namespace Calculator

class Scope (E : Type) where
  lookup : E → String → Option Binding
  contains : E → String → Bool
  declare : E → String → Binary64 → Except Fault Unit × E
  define : E → String → Expr → Except Fault Unit × E
  remove : E → String → Except Fault Unit × E

namespace Environment

/-- What a change comes to. One that is refused leaves the environment as it was. -/
def attempt (change : Environment → Except Fault Environment) (env : Environment) :
    Except Fault Unit × Environment :=
  match change env with
  | .ok env' => (.ok (), env')
  | .error fault => (.error fault, env)

instance : Scope Environment where
  lookup := lookup
  contains := contains
  declare env name value := attempt (fun env => env.declare name value) env
  define env name body := attempt (fun env => env.define name body) env
  remove env name := attempt (fun env => (env.remove name).map (·.2)) env

@[simp] theorem scope_lookup (env : Environment) (name : String) :
    Scope.lookup env name = env.lookup name := rfl

@[simp] theorem scope_contains (env : Environment) (name : String) :
    Scope.contains env name = env.contains name := rfl

theorem scope_remove (env : Environment) (name : String) :
    Scope.remove env name = attempt (fun env => (env.remove name).map (·.2)) env := rfl

end Environment

end Calculator
