import Calculator.Diagnostics
import Calculator.Expr.Basic

/-!
# Environments

The variables and functions of a session. A name stands for one thing: what is
builtin is never declared, and what is declared is not declared again.
-/

namespace Calculator

/-- What a session binds a name to. -/
inductive UserBinding where
  | assigned (value : Binary64)
  | defined (body : Expr)
deriving DecidableEq

/-- What a name stands for. -/
inductive Binding where
  | constant (value : Binary64)
  | builtin (function : BuiltinFunction)
  | assigned (value : Binary64)
  | defined (body : Expr)
deriving DecidableEq

def Builtin.binding : Builtin → Binding
  | constant value => .constant value
  | function f => .builtin f

def UserBinding.binding : UserBinding → Binding
  | assigned value => .assigned value
  | defined body => .defined body

structure Environment where
  bindings : Table String UserBinding
deriving DecidableEq

namespace Environment

def empty : Environment :=
  ⟨.empty⟩

instance : Inhabited Environment :=
  ⟨empty⟩

def lookup (env : Environment) (name : String) : Option Binding :=
  match Builtin.ofName? name with
  | some builtin => some builtin.binding
  | none => (env.bindings.get? name).map UserBinding.binding

def contains (env : Environment) (name : String) : Bool :=
  (Builtin.ofName? name).isSome || env.bindings.contains name

def valueOf? (env : Environment) (name : String) : Option Binary64 :=
  match env.bindings.get? name with
  | some (.assigned value) => some value
  | _ => none

def bodyOf? (env : Environment) (name : String) : Option Expr :=
  match env.bindings.get? name with
  | some (.defined body) => some body
  | _ => none

def values (env : Environment) : List (String × Binary64) :=
  env.bindings.entries.filterMap fun e =>
    match e.2 with
    | .assigned value => some (e.1, value)
    | .defined _ => none

def bodies (env : Environment) : List (String × Expr) :=
  env.bindings.entries.filterMap fun e =>
    match e.2 with
    | .assigned _ => none
    | .defined body => some (e.1, body)

def bind (env : Environment) (name : String) (binding : UserBinding) : Except Fault Environment :=
  if env.contains name then .error (.alreadyExists name)
  else .ok ⟨env.bindings.insert name binding⟩

def declare (env : Environment) (name : String) (value : Binary64) : Except Fault Environment :=
  env.bind name (.assigned value)

def define (env : Environment) (name : String) (body : Expr) : Except Fault Environment :=
  env.bind name (.defined body)

/-- Removes a variable and gives its value. -/
def remove (env : Environment) (name : String) : Except Fault (Binary64 × Environment) :=
  match env.lookup name with
  | some (.constant _) => .error .deleteConstant
  | some (.builtin _) => .error .deleteFunction
  | some (.defined _) => .error .deleteFunction
  | some (.assigned value) => .ok (value, ⟨env.bindings.erase name⟩)
  | none => .error (.unknownName name)

end Environment

end Calculator
