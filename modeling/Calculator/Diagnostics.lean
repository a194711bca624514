import Calculator.Span
import Calculator.Table

/-!
# Diagnostics

What can be wrong with a line, and the collection of what is wrong with one,
which keeps the first fault of every span in the order of the spans.
-/

namespace Calculator

inductive Fault where
  | unknownChar (char : Char)
  | duplicateDecimalPoint
  | duplicateExponentSign
  | invalidExpression
  | expectedClosingParen
  | leftovers
  | expectedName
  | unknownName (name : String)
  | unknownFunction (name : String)
  | uncalledFunction (name : String)
  | alreadyExists (name : String)
  | nonNaturalFactorial
  | deleteConstant
  | deleteFunction
  | assignmentTarget
  | definitionTarget
  | assignmentInFunction
  | definitionInFunction
  | misplacedDel
  | tooDeep
deriving DecidableEq

namespace Fault

/-- The fault lies in a token, not in how the tokens are put together. -/
def isLexical : Fault → Bool
  | unknownChar _ => true
  | duplicateDecimalPoint => true
  | duplicateExponentSign => true
  | _ => false

def message : Fault → String
  | unknownChar char => "Unknown character: '" ++ String.singleton char ++ "'."
  | duplicateDecimalPoint => "invalid number literal with multiple decimal points"
  | duplicateExponentSign => "invalid number literal with multiple negatives"
  | invalidExpression => "invalid expression"
  | expectedClosingParen => "expected ')'"
  | leftovers => "unexpected input after the expression"
  | expectedName => "expected a name"
  | unknownName name => "could not find `" ++ name ++ "`"
  | unknownFunction name => "could not find function `" ++ name ++ "`"
  | uncalledFunction name => "`" ++ name ++ "` is a function; you must call it"
  | alreadyExists name => "`" ++ name ++ "` already exists"
  | nonNaturalFactorial => "factorial only applies to natural numbers"
  | deleteConstant => "cannot delete a constant"
  | deleteFunction => "cannot delete a function"
  | assignmentTarget => "variables need a name"
  | definitionTarget => "functions need a name"
  | assignmentInFunction => "variables cannot be assigned in a function body"
  | definitionInFunction => "functions cannot be defined in a function body"
  | misplacedDel => "`del` is only allowed at the start of a line"
  | tooDeep => "expression is nested too deeply"

end Fault

abbrev Diagnostics :=
  Table Span Fault

namespace Diagnostics

/-- Adds a fault, unless there is one with the same span, and says whether it was added. -/
def insert (d : Diagnostics) (span : Span) (fault : Fault) : Bool × Diagnostics :=
  if d.contains span then (false, d) else (true, Table.insert d span fault)

def report (d : Diagnostics) (span : Span) (fault : Fault) : Diagnostics :=
  (d.insert span fault).2

theorem report_eq (d : Diagnostics) (span : Span) (fault : Fault) :
    d.report span fault = if d.contains span then d else Table.insert d span fault := by
  unfold report insert
  split <;> rfl

theorem isEmpty_report (d : Diagnostics) (span : Span) (fault : Fault) :
    (d.report span fault).isEmpty = false := by
  rw [report_eq]
  split
  next hcontains =>
    obtain ⟨entries, h⟩ := d
    cases entries with
    | nil => cases hcontains
    | cons e rest => rfl
  next => exact Table.isEmpty_insert ..

/-- A fault that is reported is found, unless there is one with the same span. -/
theorem get?_report (d : Diagnostics) (span : Span) (fault : Fault) (s : Span) :
    (d.report span fault).get? s = (d.get? s).or (if s = span then some fault else none) := by
  rw [report_eq]
  split
  next hcontains =>
    split
    next hs => rw [hs, Option.or_of_isSome hcontains]
    next => exact Option.or_none.symm
  next hfresh =>
    rw [Table.get?_insert]
    split
    next hs =>
      rw [Table.contains, Option.not_isSome_iff_eq_none] at hfresh
      rw [hs, hfresh, Option.none_or]
    next => exact Option.or_none.symm

theorem mem_of_mem_report {d : Diagnostics} {span : Span} {fault : Fault} {e : Span × Fault}
    (h : e ∈ (d.report span fault).entries) : e = (span, fault) ∨ e ∈ d.entries := by
  rw [report_eq] at h
  split at h
  · exact .inr h
  · exact Table.mem_insertEntry h

def ofFaults (faults : List (Span × Fault)) : Diagnostics :=
  faults.foldl (fun d e => d.report e.1 e.2) .empty

def entryText (entry : Span × Fault) : String :=
  entry.1.text ++ ": " ++ entry.2.message

def text (d : Diagnostics) : String :=
  "; ".intercalate (d.entries.map entryText)

end Diagnostics

end Calculator
