import Calculator.Line

/-!
# Workspaces

The variables and the functions of a session in a map of their own each. The
maps do not keep the names apart. That is left to the operations, which look at
both of them first, and which answer and leave a workspace also where they
refuse.
-/

namespace Calculator

structure Workspace where
  values : Table String Binary64
  bodies : Table String Expr
deriving DecidableEq

namespace Workspace

def empty : Workspace :=
  ⟨.empty, .empty⟩

instance : Inhabited Workspace :=
  ⟨empty⟩

/-- What a name stands for: a builtin, or else a variable, or else a function. -/
def lookup (w : Workspace) (name : String) : Option Binding :=
  match Builtin.ofName? name with
  | some builtin => some builtin.binding
  | none =>
      match w.values.get? name with
      | some value => some (.assigned value)
      | none => (w.bodies.get? name).map .defined

def contains (w : Workspace) (name : String) : Bool :=
  (Builtin.ofName? name).isSome || w.values.contains name || w.bodies.contains name

def declare (w : Workspace) (name : String) (value : Binary64) : Except Fault Unit × Workspace :=
  if w.contains name then (.error (.alreadyExists name), w)
  else (.ok (), { w with values := w.values.insert name value })

def define (w : Workspace) (name : String) (body : Expr) : Except Fault Unit × Workspace :=
  if w.contains name then (.error (.alreadyExists name), w)
  else (.ok (), { w with bodies := w.bodies.insert name body })

def remove (w : Workspace) (name : String) : Except Fault Binary64 × Workspace :=
  match w.lookup name with
  | some (.constant _) => (.error .deleteConstant, w)
  | some (.builtin _) => (.error .deleteFunction, w)
  | some (.defined _) => (.error .deleteFunction, w)
  | _ =>
      let (removed, values) := w.values.remove name
      match removed with
      | some value => (.ok value, { w with values := values })
      | none => (.error (.unknownName name), { w with values := values })

def clear (w : Workspace) : Workspace :=
  { w with values := .empty, bodies := .empty }

instance : Scope Workspace where
  lookup := lookup
  contains := contains
  declare := declare
  define := define
  remove w name := ((w.remove name).1.map fun _ => (), (w.remove name).2)

/-- What a line is read as and what is wrong with it, and the workspace after it. -/
def readLine (w : Workspace) (source : String) : (Expr × Diagnostics) × Workspace :=
  let tokens := tokenize source
  let final := Parser.run (some maxNesting) (.ofTokens tokens w (lexicalFaults tokens))
  ((final.1, final.2.diagnostics), final.2.environment)

end Workspace

end Calculator
