import Calculator.Parser.State

/-!
# The rules of the grammar

All binary operators associate to the left. A negation, a factorial, a call and
a product without an operator bind tighter than any of them, and an assignment
or a definition reaches as far to the right as it can.
-/

namespace Calculator

namespace Parser

variable {E : Type} [Scope E]

/-! ## Steps -/

def nest (limit : Option Nat) (s : State E) (span : Span) (expr : Expr) (depth : Nat) :
    Outcome E (s.rest.length + 1) Node :=
  if allowsDepth limit (depth + 1) then .ok ⟨expr, span, depth + 1⟩ s (Nat.lt_succ_self _)
  else .abort (s.report span .tooDeep)

/-- Changes the environment, unless a fault has been found in the line. -/
def commit (s : State E) (span : Span) (change : E → Except Fault Unit × E) :
    Outcome E (s.rest.length + 1) Unit :=
  if s.diagnostics.isEmpty then
    match change s.environment with
    | (.ok _, env) => .ok () { s with environment := env } (Nat.lt_succ_self _)
    | (.error fault, env) => .abort (State.report { s with environment := env } span fault)
  else .abort s

/--
A name, once it has been read. A constant or a variable is its value; what is
about to be declared or called stays a name, and so does the parameter.
-/
def resolve (s : State E) (name : String) : Except Fault Expr :=
  let next := s.next.kind
  if next = .equals ∨ next = .colon then .ok (.name name)
  else if s.inBody ∧ name = parameterName then .ok (.name name)
  else
    match Scope.lookup s.environment name with
    | none => .error (.unknownName name)
    | some binding =>
        if next = .leftParen then .ok (.name name)
        else
          match binding with
          | .constant value => .ok (.literal value)
          | .assigned value => .ok (.literal value)
          | .builtin _ => .error (.uncalledFunction name)
          | .defined _ => .error (.uncalledFunction name)

def callee? (env : E) (name : String) : Option (Expr → Expr) :=
  match Scope.lookup env name with
  | some (.builtin f) => some (.builtinCall name f)
  | some (.defined body) => some (.userCall name body)
  | _ => none

/-- The name that a declaration is for, which has to be a name and not to stand for anything yet. -/
def declared (s : State E) (left : Node) (inBody target : Fault) (sign : Span) :
    Except (Span × Fault) String :=
  if s.inBody then .error (sign, inBody)
  else
    match left.expr with
    | .name name =>
        if Scope.contains s.environment name then .error (left.span, .alreadyExists name)
        else .ok name
    | _ => .error (sign, target)

def closingParen (s : State E) : Outcome E s.rest.length Token :=
  match s.rest with
  | [] => .abort (s.report s.stop .expectedClosingParen)
  | token :: rest =>
      if token.kind = .rightParen then .ok token { s with rest := rest } (Nat.lt_succ_self _)
      else .abort (s.report token.span .expectedClosingParen)

/-! ## Expressions -/

mutual

/-- An expression, up to an operator that binds no tighter than `floor`. -/
def expr (limit : Option Nat) (floor : Nat) (s : State E) : Outcome E s.rest.length Node :=
  if allowsDepth limit (s.nesting + 1) then
    (operand limit floor { s with nesting := s.nesting + 1 }).mapState
      (fun t => { t with nesting := t.nesting - 1 }) fun _ => rfl
  else .abort (s.report s.next.span .tooDeep)
termination_by 6 * s.rest.length + 3

def operand (limit : Option Nat) (floor : Nat) (s : State E) : Outcome E s.rest.length Node :=
  match h : s.rest with
  | [] => .abort (s.report s.stop .invalidExpression)
  | token :: rest =>
      match token.kind with
      | .number value =>
          extend limit floor (.leaf (.literal value) token.span) { s with rest := rest }
      | .identifier =>
          match resolve { s with rest := rest } token.lexeme with
          | .ok name => extend limit floor (.leaf name token.span) { s with rest := rest }
          | .error fault => .abort (State.report { s with rest := rest } token.span fault)
      | .minus =>
          (expr limit Priority.negationFloor { s with rest := rest }).bind fun inner t ht =>
            (nest limit t (token.span.cover inner.span) (.unary .neg inner.expr) inner.depth).bind
              fun node u hu => (extend limit floor node u).weaken (by simp at ht ⊢; omega)
      | .leftParen =>
          (grouping limit token.span { s with rest := rest }).bind fun node t ht =>
            (extend limit floor node t).weaken (by simp at ht ⊢; omega)
      | .del => .abort (State.report { s with rest := rest } token.span .misplacedDel)
      | _ => .abort (State.report { s with rest := rest } token.span .invalidExpression)
termination_by 6 * s.rest.length + 2
decreasing_by all_goals (simp_all <;> omega)

def grouping (limit : Option Nat) (opening : Span) (s : State E) : Outcome E s.rest.length Node :=
  (expr limit 0 s).bind fun inner t ht =>
    (closingParen t).bind fun closing u hu =>
      (nest limit u (opening.cover closing.span) (.grouping inner.expr) inner.depth).weaken
        (by omega)
termination_by 6 * s.rest.length + 4

/-- What follows an operand: calls, products, factorials and declarations, and then operators. -/
def extend (limit : Option Nat) (floor : Nat) (left : Node) (s : State E) :
    Outcome E (s.rest.length + 1) Node :=
  match h : s.rest with
  | [] => .ok left s (by simp [h])
  | token :: rest =>
      if token.kind.operator?.isSome then
        (chain limit floor left s).weaken (by simp [h])
      else
        match token.kind with
        | .leftParen =>
            (callOrProduct limit left token.span { s with rest := rest }).bind fun node t ht =>
              (extend limit floor node t).weaken (by simp at ht ⊢; omega)
        | .bang =>
            if left.expr.evaluate.isNatural then
              (nest limit { s with rest := rest } (left.span.cover token.span)
                (.unary .factorial left.expr) left.depth).bind fun node t ht =>
                  (extend limit floor node t).weaken (by simp at ht ⊢; omega)
            else .abort (State.report { s with rest := rest } token.span .nonNaturalFactorial)
        | .equals =>
            match declared s left .assignmentInFunction .assignmentTarget token.span with
            | .error (span, fault) => .abort (s.report span fault)
            | .ok name =>
                (assignment limit name left.span { s with rest := rest }).bind fun node t ht =>
                  (extend limit floor node t).weaken (by simp at ht ⊢; omega)
        | .colon =>
            match declared s left .definitionInFunction .definitionTarget token.span with
            | .error (span, fault) => .abort (s.report span fault)
            | .ok name =>
                (definition limit name left.span { s with rest := rest }).bind fun node t ht =>
                  (extend limit floor node t).weaken (by simp at ht ⊢; omega)
        | _ => .ok left s (by simp [h])
termination_by 6 * s.rest.length + 1
decreasing_by all_goals (simp_all <;> omega)

/-- Operators above `floor` and their right operands, folded from the left. -/
def chain (limit : Option Nat) (floor : Nat) (left : Node) (s : State E) :
    Outcome E (s.rest.length + 1) Node :=
  match h : s.rest with
  | [] => .ok left s (by simp [h])
  | token :: rest =>
      match token.kind.operator? with
      | none => .ok left s (by simp [h])
      | some op =>
          if op.precedence ≤ floor then .ok left s (by simp [h])
          else
            (expr limit op.precedence { s with rest := rest }).bind fun right t ht =>
              (nest limit t (left.span.cover right.span) (.binary left.expr op right.expr)
                (max left.depth right.depth)).bind fun node u hu =>
                  (extend limit op.precedence node u).bind fun folded v hv =>
                    (chain limit floor folded v).weaken (by simp at ht ⊢; omega)
termination_by 6 * s.rest.length
decreasing_by all_goals (simp_all; omega)

/-- What an opening parenthesis after an operand begins: the argument of a name, or a factor. -/
def callOrProduct (limit : Option Nat) (left : Node) (opening : Span) (s : State E) :
    Outcome E (s.rest.length + 1) Node :=
  match left.expr with
  | .name name =>
      match callee? s.environment name with
      | none => .abort (s.report left.span (.unknownFunction name))
      | some call =>
          (expr limit 0 s).bind fun arg t ht =>
            (closingParen t).bind fun closing u hu =>
              (nest limit u (left.span.cover closing.span) (call arg.expr) arg.depth).weaken
                (by omega)
  | factor =>
      (grouping limit opening s).bind fun group t ht =>
        (nest limit t (left.span.cover group.span) (.binary factor .mul group.expr)
          (max left.depth group.depth)).weaken (by omega)
termination_by 6 * s.rest.length + 5

/--
The rest of an assignment after its sign. The variable is declared once its
value has been read.
-/
def assignment (limit : Option Nat) (name : String) (target : Span) (s : State E) :
    Outcome E (s.rest.length + 1) Node :=
  (expr limit 0 s).bind fun value t ht =>
    (commit t target fun env => Scope.declare env name value.expr.evaluate).bind fun _ u hu =>
      (nest limit u (target.cover value.span) (.assignment name value.expr) value.depth).weaken
        (by omega)
termination_by 6 * s.rest.length + 4

def definition (limit : Option Nat) (name : String) (target : Span) (s : State E) :
    Outcome E (s.rest.length + 1) Node :=
  ((expr limit 0 { s with inBody := true }).mapState
      (fun t => { t with inBody := false }) fun _ => rfl).bind fun body t ht =>
    (commit t target fun env => Scope.define env name body.expr).bind fun _ u hu =>
      (nest limit u (target.cover body.span) (.definition name body.expr) body.depth).weaken
        (by simp at ht ⊢; omega)
termination_by 6 * s.rest.length + 4

end

def deletion (s : State E) : Outcome E (s.rest.length + 1) Expr :=
  match h : s.rest with
  | [] => .abort (s.report s.stop .expectedName)
  | token :: rest =>
      if token.kind = .identifier then
        (commit { s with rest := rest } token.span fun env =>
          Scope.remove env token.lexeme).bind fun _ t ht =>
            .ok (.deletion token.lexeme) t (by simp at ht ⊢; omega)
      else .abort (State.report { s with rest := rest } token.span .expectedName)

def statement (limit : Option Nat) (s : State E) : Outcome E (s.rest.length + 1) Expr :=
  if s.next.kind = .del then
    (deletion { s with rest := s.rest.tail }).weaken (by simp)
  else
    (expr limit 0 s).bind fun node t ht => .ok node.expr t (by omega)

end Parser

end Calculator
