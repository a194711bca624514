import Calculator.Line

/-!
# The parser on positions

The rules of the grammar with a position in a list of tokens in place of the
tokens that are left. Nothing in these rules keeps the position inside of the
list, and nothing keeps them from calling each other again and again: a position
that is outside is an outcome of its own, and a run whose calls are nested
deeper than it may go has none.
-/

namespace Calculator

namespace Parser

@[ext]
structure Cursor where
  position : Nat
  environment : Environment
  diagnostics : Diagnostics
  inBody : Bool
  nesting : Nat

/-- Why a rule gives up. -/
inductive Halt where
  /-- There is a fault in the line. -/
  | abort
  /-- There is no token at the position. -/
  | outside

namespace Cursor

/-- What goes over a list of tokens with a cursor. It has no result if its calls go too deep. -/
abbrev Machine :=
  ReaderT (List Token) (StateT Cursor Option)

/-- What goes over a list of tokens and may give up. -/
abbrev Action :=
  ExceptT Halt Machine

/-! ## Steps -/

def peek : Action Token := do
  (← read)[(← get).position]?.elim (throw .outside) pure

def advance : Action Token := do
  let token ← peek
  if token.kind ≠ .finish then
    modify fun c => { c with position := c.position + 1 }
  pure token

/-- What is done before a run is undone after it, also where the run fails. -/
def bracket {α : Type} (enter leave : Cursor → Cursor) (m : Action α) : Action α :=
  (do
    modify enter
    let result ← (m : Machine (Except Halt α))
    modify leave
    return result : Machine (Except Halt α))

def fail {α : Type} (span : Span) (fault : Fault) : Action α := do
  modify fun c => { c with diagnostics := c.diagnostics.report span fault }
  throw .abort

def nest (limit : Option Nat) (span : Span) (expr : Expr) (depth : Nat) : Action Node :=
  if allowsDepth limit (depth + 1) then pure ⟨expr, span, depth + 1⟩ else fail span .tooDeep

def commit (span : Span) (change : Environment → Except Fault Environment) : Action Unit := do
  let c ← get
  if c.diagnostics.isEmpty then
    match change c.environment with
    | .ok env => set { c with environment := env }
    | .error fault => fail span fault
  else throw .abort

def resolve (token : Token) : Action Node := do
  let next ← peek
  let c ← get
  if next.kind = .equals ∨ next.kind = .colon then pure (.leaf (.name token.lexeme) token.span)
  else if c.inBody ∧ token.lexeme = parameterName then
    pure (.leaf (.name token.lexeme) token.span)
  else
    match c.environment.lookup token.lexeme with
    | none => fail token.span (.unknownName token.lexeme)
    | some binding =>
        if next.kind = .leftParen then pure (.leaf (.name token.lexeme) token.span)
        else
          match binding with
          | .constant value => pure (.leaf (.literal value) token.span)
          | .assigned value => pure (.leaf (.literal value) token.span)
          | .builtin _ => fail token.span (.uncalledFunction token.lexeme)
          | .defined _ => fail token.span (.uncalledFunction token.lexeme)

def declared (left : Node) (inBody target : Fault) : Action String := do
  let sign ← peek
  let c ← get
  if c.inBody then fail sign.span inBody
  else
    match left.expr with
    | .name name =>
        if c.environment.contains name then fail left.span (.alreadyExists name) else pure name
    | _ => fail sign.span target

def closingParen : Action Token := do
  let next ← peek
  if next.kind = .rightParen then advance else fail next.span .expectedClosingParen

def factorial (limit : Option Nat) (left : Node) : Action Node := do
  let sign ← advance
  if left.expr.evaluate.isNatural then
    nest limit (left.span.cover sign.span) (.unary .factorial left.expr) left.depth
  else fail sign.span .nonNaturalFactorial

/-! ## Expressions -/

/-- What the rules call. The next round of a loop is a call, too. -/
structure Calls where
  expr (floor : Nat) : Action Node
  extend (floor : Nat) (left : Node) : Action Node
  chain (floor : Nat) (left : Node) : Action Node

section Rules

variable (limit : Option Nat) (calls : Calls)

def grouping (opening : Token) : Action Node := do
  let inner ← calls.expr 0
  let closing ← closingParen
  nest limit (opening.span.cover closing.span) (.grouping inner.expr) inner.depth

def callOrProduct (left : Node) : Action Node := do
  let opening ← advance
  match left.expr with
  | .name name =>
      match callee? (← get).environment name with
      | none => fail left.span (.unknownFunction name)
      | some call =>
          let arg ← calls.expr 0
          let closing ← closingParen
          nest limit (left.span.cover closing.span) (call arg.expr) arg.depth
  | factor =>
      let group ← grouping limit calls opening
      nest limit (left.span.cover group.span) (.binary factor .mul group.expr)
        (max left.depth group.depth)

def assignment (left : Node) : Action Node := do
  let name ← declared left .assignmentInFunction .assignmentTarget
  let _ ← advance
  let value ← calls.expr 0
  commit left.span fun env => env.declare name value.expr.evaluate
  nest limit (left.span.cover value.span) (.assignment name value.expr) value.depth

def body : Action Node :=
  bracket (fun c => { c with inBody := true }) (fun c => { c with inBody := false }) (calls.expr 0)

def definition (left : Node) : Action Node := do
  let name ← declared left .definitionInFunction .definitionTarget
  let _ ← advance
  let inner ← body calls
  commit left.span fun env => env.define name inner.expr
  nest limit (left.span.cover inner.span) (.definition name inner.expr) inner.depth

def chain (floor : Nat) (left : Node) : Action Node := do
  let next ← peek
  match next.kind.operator? with
  | none => pure left
  | some op =>
      if op.precedence ≤ floor then pure left
      else
        let _ ← advance
        let right ← calls.expr op.precedence
        let node ← nest limit (left.span.cover right.span) (.binary left.expr op right.expr)
          (max left.depth right.depth)
        let folded ← calls.extend op.precedence node
        calls.chain floor folded

def extend (floor : Nat) (left : Node) : Action Node := do
  let next ← peek
  if 0 < next.kind.precedence then chain limit calls floor left
  else
    match next.kind with
    | .leftParen =>
        let node ← callOrProduct limit calls left
        calls.extend floor node
    | .bang =>
        let node ← factorial limit left
        calls.extend floor node
    | .equals =>
        let node ← assignment limit calls left
        calls.extend floor node
    | .colon =>
        let node ← definition limit calls left
        calls.extend floor node
    | _ => pure left

def operand (floor : Nat) : Action Node := do
  let token ← advance
  match token.kind with
  | .number value => calls.extend floor (.leaf (.literal value) token.span)
  | .identifier =>
      let name ← resolve token
      calls.extend floor name
  | .minus =>
      let inner ← calls.expr Priority.negationFloor
      let node ← nest limit (token.span.cover inner.span) (.unary .neg inner.expr) inner.depth
      calls.extend floor node
  | .leftParen =>
      let node ← grouping limit calls token
      calls.extend floor node
  | .del => fail token.span .misplacedDel
  | _ => fail token.span .invalidExpression

def expr (floor : Nat) : Action Node := do
  if allowsDepth limit ((← get).nesting + 1) then
    bracket (fun c => { c with nesting := c.nesting + 1 })
      (fun c => { c with nesting := c.nesting - 1 }) (operand limit calls floor)
  else fail (← peek).span .tooDeep

end Rules

def exhausted {α : Type} : Action α :=
  fun _ _ => none

/-- The rules with calls that are nested less deep than a number. -/
def rules (limit : Option Nat) : Nat → Calls
  | 0 => ⟨fun _ => exhausted, fun _ _ => exhausted, fun _ _ => exhausted⟩
  | bound + 1 =>
      let calls := rules limit bound
      ⟨expr limit calls, extend limit calls, chain limit calls⟩

/-! ## Lines -/

def deletion : Action Expr := do
  let target ← advance
  if target.kind = .identifier then
    commit target.span fun env => (env.remove target.lexeme).map (·.2)
    pure (.deletion target.lexeme)
  else fail target.span .expectedName

def statement (limit : Option Nat) (bound : Nat) : Action Expr := do
  if (← peek).kind = .del then
    let _ ← advance
    deletion
  else
    let node ← (rules limit bound).expr 0
    pure node.expr

def topLevel (limit : Option Nat) (bound : Nat) : Action Expr := do
  let expr ← statement limit bound
  let next ← peek
  if next.kind = .finish then pure expr else fail next.span .leftovers

/-- What a parser goes over: no blanks, and at its end the end of a line. -/
def complete (tokens : List Token) : List Token :=
  let visible := tokens.filter (·.kind != .space)
  match visible.getLast? with
  | none => [.finish 0]
  | some last => if last.kind = .finish then visible else visible ++ [.finish last.span.stop]

/-- The tree of a line, or that there was no token at a position, and where the cursor ends. -/
def parse (limit : Option Nat) (bound : Nat) (tokens : List Token) (d : Diagnostics)
    (env : Environment) : Option (Except Halt Expr × Cursor) :=
  (topLevel limit bound (complete tokens) ⟨0, env, d, false, 0⟩).map fun
    | (.error .abort, c) => (.ok .error, c)
    | ended => ended

end Cursor

end Parser

end Calculator
