import Calculator.Scope
import Calculator.Token.Basic

/-!
# The state of a parser

A parser reads the tokens of a line from left to right and may look at the next
one. It reads and writes the environment as it goes, and it stops at the first
fault that it finds.
-/

namespace Calculator

def parameterName : String :=
  "x"

def maxNesting : Nat :=
  128

/-- A limit on depth allows a depth. No limit allows all. -/
def allowsDepth (limit : Option Nat) (depth : Nat) : Bool :=
  match limit with
  | none => true
  | some most => depth ≤ most

/--
A tree with the span it was read from and its depth, in which a called body
counts for nothing.
-/
structure Node where
  expr : Expr
  span : Span
  depth : Nat
deriving DecidableEq

def Node.leaf (expr : Expr) (span : Span) : Node :=
  ⟨expr, span, 1⟩

namespace Parser

structure State (E : Type) where
  /-- The tokens before the end of the line that are still to be read. -/
  rest : List Token
  /-- The end of the line. -/
  stop : Span
  environment : E
  diagnostics : Diagnostics
  /-- The body of a function is being read. -/
  inBody : Bool
  /-- The number of expressions that are being read, each inside the one before. -/
  nesting : Nat

namespace State

variable {E : Type}

/--
Blanks are left out, and the first end of a line ends the line. A line without
one ends after its last token.
-/
def ofTokens (tokens : List Token) (env : E) (diagnostics : Diagnostics) : State E :=
  let visible := tokens.filter (·.kind != .space)
  let stop :=
    match visible.find? (·.kind == .finish) with
    | some t => t.span
    | none => .empty ((visible.getLast?.map (·.span.stop)).getD 0)
  ⟨visible.takeWhile (·.kind != .finish), stop, env, diagnostics, false, 0⟩

/-- The next token, which is left where it is. -/
def next (s : State E) : Token :=
  s.rest.head?.getD ⟨.finish, s.stop, ""⟩

def report (s : State E) (span : Span) (fault : Fault) : State E :=
  { s with diagnostics := s.diagnostics.report span fault }

end State

/--
What a parser arrives at: a value, with fewer than `bound` tokens still to be
read, or a fault that it has reported.
-/
inductive Outcome (E : Type) (bound : Nat) (α : Type) where
  | ok (value : α) (state : State E) (lt_bound : state.rest.length < bound)
  | abort (state : State E)

namespace Outcome

variable {E α β : Type} {m n : Nat}

def bind (o : Outcome E m α)
    (f : (value : α) → (state : State E) → state.rest.length < m → Outcome E n β) : Outcome E n β :=
  match o with
  | ok value state h => f value state h
  | abort state => abort state

def weaken (h : m ≤ n) : Outcome E m α → Outcome E n α
  | ok value state lt => ok value state (Nat.lt_of_lt_of_le lt h)
  | abort state => abort state

/-- Changes the state by what does not change the tokens. -/
def mapState (f : State E → State E) (h : ∀ s, (f s).rest = s.rest) : Outcome E n α → Outcome E n α
  | ok value state lt => ok value (f state) (h state ▸ lt)
  | abort state => abort (f state)

end Outcome

end Parser

end Calculator
