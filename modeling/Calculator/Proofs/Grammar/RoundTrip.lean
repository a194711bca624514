import Calculator.Proofs.Grammar.Depth
import Calculator.Proofs.Grammar.Printing

/-!
# Trees that are read back

A tree whose numbers have no sign, and which has the shape that the grammar
gives to its own text, is read back from that text as it is.
-/

namespace Calculator

namespace Expr

def operator? : Expr → Option BinaryOp
  | binary _ op _ => some op
  | _ => none

def isNegation : Expr → Bool
  | unary .neg _ => true
  | _ => false

/--
Numbers without a sign under operations and calls, grouped by priority and to
the left. A negation is of no operation, and a factorial is of neither an
operation nor a negation and has a natural number to be taken of. What is called
is what its name stands for in the environment.
-/
def IsCanonical (env : Environment) : Expr → Prop
  | literal value => ∃ m, value = .finite false m
  | unary .neg operand => operand.operator? = none ∧ operand.IsCanonical env
  | unary .factorial operand =>
      operand.operator? = none ∧ operand.isNegation = false ∧ operand.evaluate.isNatural ∧
        operand.IsCanonical env
  | binary lhs op rhs =>
      (∀ l ∈ lhs.operator?, op.precedence ≤ l.precedence) ∧
        (∀ r ∈ rhs.operator?, op.precedence < r.precedence) ∧
        lhs.IsCanonical env ∧ rhs.IsCanonical env
  | grouping inner => inner.IsCanonical env
  | builtinCall n f arg =>
      IsIdentifier n ∧ env.lookup n = some (.builtin f) ∧ arg.IsCanonical env
  | userCall n body arg =>
      IsIdentifier n ∧ env.lookup n = some (.defined body) ∧ arg.IsCanonical env
  | _ => False

instance decidableIsCanonical (env : Environment) : (e : Expr) → Decidable (e.IsCanonical env)
  | literal .nan => .isFalse fun ⟨_, h⟩ => Binary64.noConfusion h
  | literal (.infinite _) => .isFalse fun ⟨_, h⟩ => Binary64.noConfusion h
  | literal (.finite true _) => .isFalse fun ⟨_, h⟩ => by cases h
  | literal (.finite false m) => .isTrue ⟨m, rfl⟩
  | unary .neg operand =>
      @instDecidableAnd _ _ inferInstance (decidableIsCanonical env operand)
  | unary .factorial operand =>
      @instDecidableAnd _ _ inferInstance <| @instDecidableAnd _ _ inferInstance <|
        @instDecidableAnd _ _ inferInstance (decidableIsCanonical env operand)
  | binary lhs _ rhs =>
      @instDecidableAnd _ _ inferInstance <| @instDecidableAnd _ _ inferInstance <|
        @instDecidableAnd _ _ (decidableIsCanonical env lhs) (decidableIsCanonical env rhs)
  | grouping inner => decidableIsCanonical env inner
  | builtinCall _ _ arg =>
      @instDecidableAnd _ _ inferInstance <|
        @instDecidableAnd _ _ inferInstance (decidableIsCanonical env arg)
  | userCall _ _ arg =>
      @instDecidableAnd _ _ inferInstance <|
        @instDecidableAnd _ _ inferInstance (decidableIsCanonical env arg)
  | name _ => inferInstanceAs (Decidable False)
  | assignment _ _ => inferInstanceAs (Decidable False)
  | definition _ _ => inferInstanceAs (Decidable False)
  | deletion _ => inferInstanceAs (Decidable False)
  | error => inferInstanceAs (Decidable False)

@[simp] theorem operator?_phrase (e : Expr) : e.phrase.operator? = e.operator? := by
  cases e with
  | unary op operand => cases op <;> rfl
  | _ => rfl

theorem le_outer_phrase {e : Expr} {op : BinaryOp}
    (h : ∀ inner ∈ e.operator?, op.precedence ≤ inner.precedence) :
    op.precedence ≤ e.phrase.outer := by
  have hfloor := Nat.le_of_lt op.precedence_lt_negationFloor
  cases e with
  | binary lhs inner rhs => exact h inner rfl
  | unary op operand => cases op <;> exact hfloor
  | _ => exact hfloor

namespace IsCanonical

variable {env : Environment} {e : Expr}

/-- A number without a sign is written without one. -/
theorem signed_eq (h : e.IsCanonical env) : e.signed = e := by
  induction e with
  | literal value =>
      obtain ⟨m, rfl⟩ := h
      rfl
  | unary op operand ih =>
      cases op with
      | neg =>
          have hoperator := h.1
          rw [signed, ih h.2]
          cases operand with
          | binary lhs op rhs => cases hoperator
          | _ => rfl
      | factorial => rw [signed, ih h.2.2.2]
  | binary lhs op rhs ihl ihr => rw [signed, ihl h.2.2.1, ihr h.2.2.2]
  | grouping inner ih => rw [signed, ih h]
  | builtinCall n f arg ih => rw [signed, ih h.2.2]
  | userCall n body arg _ ih => rw [signed, ih h.2.2]
  | _ => exact h.elim

theorem endsBefore_bang (h : e.IsCanonical env) (hoperator : e.operator? = none)
    (hnegation : e.isNegation = false) : e.phrase.EndsBefore .bang := by
  cases e with
  | unary op operand =>
      cases op with
      | neg => cases hnegation
      | factorial => trivial
  | binary lhs op rhs => cases hoperator
  | literal value => trivial
  | grouping inner => trivial
  | builtinCall n f arg => trivial
  | userCall n body arg => trivial
  | _ => exact h.elim

/-- The tree has the shape that the grammar gives to its symbols. -/
theorem wellFormed_phrase (h : e.IsCanonical env) : e.phrase.WellFormed := by
  induction e with
  | literal value => trivial
  | unary op operand ih =>
      cases op with
      | neg =>
          have hoperator : operand.phrase.operator? = none := (operator?_phrase operand).trans h.1
          exact ⟨ih h.2, Phrase.above_of_operator?_eq_none hoperator⟩
      | factorial =>
          obtain ⟨hoperator, hnegation, -, hoperand⟩ := h
          exact ⟨ih hoperand, hoperand.endsBefore_bang hoperator hnegation⟩
  | binary lhs op rhs ihl ihr =>
      obtain ⟨hle, hlt, hl, hr⟩ := h
      have hends : lhs.phrase.EndsBefore op.kind := by
        rw [endsBefore_phrase_iff (ihl hl) op.attaches_kind, op.precedence_kind]
        exact le_outer_phrase hle
      have habove : rhs.phrase.Above op.precedence := by
        rw [Phrase.Above, operator?_phrase]
        exact hlt
      exact ⟨ihl hl, hends, ihr hr, habove⟩
  | grouping inner ih => exact ih h
  | builtinCall n f arg ih => exact ih h.2.2
  | userCall n body arg _ ih => exact ih h.2.2
  | _ => exact h.elim

/-- Nothing in the tree is looked up but what it calls. -/
theorem reads_phrase (h : e.IsCanonical env) : e.phrase.Reads false env e env := by
  induction e with
  | literal value => exact .number
  | unary op operand ih =>
      cases op with
      | neg => exact .neg (ih h.2)
      | factorial => exact .factorial (ih h.2.2.2) h.2.2.1
  | binary lhs op rhs ihl ihr => exact .binary (ihl h.2.2.1) (ihr h.2.2.2)
  | grouping inner ih => exact .grouping (ih h)
  | builtinCall n f arg ih =>
      have hcallee : Parser.callee? env n = some (.builtinCall n f) := by
        simp [Parser.callee?, h.2.1]
      exact .call (Phrase.readCallee_of_callee? hcallee) (ih h.2.2)
  | userCall n body arg _ ih =>
      have hcallee : Parser.callee? env n = some (.userCall n body) := by
        simp [Parser.callee?, h.2.1]
      exact .call (Phrase.readCallee_of_callee? hcallee) (ih h.2.2)
  | _ => exact h.elim

theorem isSpelled (h : e.IsCanonical env) : e.IsSpelled := by
  induction e with
  | literal value =>
      obtain ⟨m, rfl⟩ := h
      exact isSpelled_literal false m
  | unary op operand ih =>
      cases op with
      | neg => exact (ih h.2).neg
      | factorial => exact (ih h.2.2.2).factorial
  | binary lhs op rhs ihl ihr => exact (ihl h.2.2.1).binary (ihr h.2.2.2) op
  | grouping inner ih => exact (ih h).grouping
  | builtinCall n f arg ih => exact spelled_call h.1 (ih h.2.2)
  | userCall n body arg _ ih => exact spelled_call h.1 (ih h.2.2)
  | _ => exact h.elim

end IsCanonical

end Expr

/--
The text of a canonical tree that is no deeper than the limit is read without
faults, as the tree that it is the text of, and the environment is left as it
was.
-/
theorem readLine_text_of_canonical {env : Environment} {e : Expr} (h : e.IsCanonical env)
    (hdepth : e.depth ≤ maxNesting) : readLine env e.text = ⟨e, .empty, env⟩ := by
  obtain ⟨hsymbols, hlexical⟩ := symbolsOf_of_spelled h.isSpelled
  rw [h.signed_eq] at hsymbols
  have hreads := h.reads_phrase
  rw [hreads.depth] at hdepth
  refine readLine_of_phrase (fun r => r = ⟨e, .empty, env⟩) hsymbols h.wellFormed_phrase hdepth
    hlexical ?_
  rw [Phrase.Resolves, Phrase.resolve_of_reads hreads]

theorem readLine_text_of_canonical_call :
    let env := (readLine .empty "f: x / 2").environment
    let half := Expr.binary (.name "x") .div (.literal (.ofNat 2))
    let three := Expr.literal (.ofNat 3)
    let e := Expr.binary (.unary .neg (.userCall "f" half (.unary .factorial three))) .sub
      (.grouping (.builtinCall "sqrt" .sqrt three))
    e.IsCanonical env ∧ e.depth ≤ maxNesting ∧ e.text = "-f(3!) - (sqrt(3))" ∧
      readLine env e.text = ⟨e, .empty, env⟩ := by
  intro env half three e
  have h : e.IsCanonical env := by decide +kernel
  have hdepth : e.depth ≤ maxNesting := by decide +kernel
  exact ⟨h, hdepth, by decide +kernel, readLine_text_of_canonical h hdepth⟩

end Calculator
