import Calculator.Proofs.Binary64.Rounding
import Calculator.Proofs.Grammar.Phrase

/-!
# Trees as they are written

In the text of a tree the sign of a number is a negation, and a negation stands
before the first factor of what it negates. The tree with its signs there has
the same value, and its text is that of a phrase.
-/

namespace Calculator

namespace Expr

def IsPlain : Expr → Prop
  | literal value => ∃ s m, value = .finite s m
  | unary _ operand => operand.IsPlain
  | binary lhs _ rhs => lhs.IsPlain ∧ rhs.IsPlain
  | grouping inner => inner.IsPlain
  | builtinCall _ _ arg => arg.IsPlain
  | userCall _ _ arg => arg.IsPlain
  | assignment _ _ => False
  | definition _ _ => False
  | deletion _ => False
  | _ => True

instance decidableIsPlain : (e : Expr) → Decidable e.IsPlain
  | literal .nan => .isFalse fun ⟨_, _, h⟩ => Binary64.noConfusion h
  | literal (.infinite _) => .isFalse fun ⟨_, _, h⟩ => Binary64.noConfusion h
  | literal (.finite s m) => .isTrue ⟨s, m, rfl⟩
  | unary _ operand => decidableIsPlain operand
  | binary lhs _ rhs => @instDecidableAnd _ _ (decidableIsPlain lhs) (decidableIsPlain rhs)
  | grouping inner => decidableIsPlain inner
  | builtinCall _ _ arg => decidableIsPlain arg
  | userCall _ _ arg => decidableIsPlain arg
  | assignment _ _ => inferInstanceAs (Decidable False)
  | definition _ _ => inferInstanceAs (Decidable False)
  | deletion _ => inferInstanceAs (Decidable False)
  | name _ => inferInstanceAs (Decidable True)
  | error => inferInstanceAs (Decidable True)

/-- The tree with a negation of its first factor. -/
def negated : Expr → Expr
  | binary lhs op rhs => binary lhs.negated op rhs
  | e => unary .neg e

/-- The tree with every sign where it is written. -/
def signed : Expr → Expr
  | literal (.finite true m) => unary .neg (literal (.finite false m))
  | literal value => literal value
  | unary .neg operand => operand.signed.negated
  | unary .factorial operand => unary .factorial operand.signed
  | binary lhs op rhs => binary lhs.signed op rhs.signed
  | grouping inner => grouping inner.signed
  | builtinCall n f arg => builtinCall n f arg.signed
  | userCall n body arg => userCall n body arg.signed
  | e => e

/-- The phrase that is the tree, part by part. What declares or deletes is left as it stands. -/
def phrase : Expr → Phrase
  | literal value => .number value
  | unary .neg operand => .neg operand.phrase
  | unary .factorial operand => .factorial operand.phrase
  | binary lhs op rhs => .binary lhs.phrase op rhs.phrase
  | grouping inner => .grouping inner.phrase
  | builtinCall n _ arg => .call n arg.phrase
  | userCall n _ arg => .call n arg.phrase
  | e => .name e.text

theorem symbols_phrase_negated (e : Expr) :
    e.negated.phrase.symbols = .mark .minus :: e.phrase.symbols := by
  induction e with
  | binary lhs op rhs ihl _ => simp [negated, phrase, Phrase.symbols, ihl]
  | _ => rfl

theorem IsPlain.negated {e : Expr} (h : e.IsPlain) : e.negated.IsPlain := by
  induction e with
  | binary lhs op rhs ihl _ => exact ⟨ihl h.1, h.2⟩
  | _ => exact h

theorem IsPlain.signed {e : Expr} (h : e.IsPlain) : e.signed.IsPlain := by
  induction e with
  | literal value =>
      obtain ⟨s, m, rfl⟩ := h
      cases s with
      | false => exact ⟨false, m, rfl⟩
      | true => exact ⟨false, m, rfl⟩
  | unary op operand ih =>
      cases op with
      | neg => exact (ih h).negated
      | factorial => exact ih h
  | binary lhs op rhs ihl ihr => exact ⟨ihl h.1, ihr h.2⟩
  | grouping inner ih => exact ih h
  | builtinCall n f arg ih => exact ih h
  | userCall n body arg _ ih => exact ih h
  | _ => exact h

/-! ## Value -/

/-- All operators down the left side are products. -/
def IsFactor : Expr → Prop
  | binary lhs op _ => op = .mul ∧ lhs.IsFactor
  | unary .neg operand => operand.IsFactor
  | _ => True

def NegatesFactors : Expr → Prop
  | unary .neg operand => operand.IsFactor ∧ operand.NegatesFactors
  | unary .factorial operand => operand.NegatesFactors
  | binary lhs _ rhs => lhs.NegatesFactors ∧ rhs.NegatesFactors
  | grouping inner => inner.NegatesFactors
  | builtinCall _ _ arg => arg.NegatesFactors
  | userCall _ _ arg => arg.NegatesFactors
  | _ => True

theorem IsFactor.negated {e : Expr} (h : e.IsFactor) : e.negated.IsFactor := by
  induction e with
  | binary lhs op rhs ihl _ => exact ⟨h.1, ihl h.2⟩
  | _ => exact h

theorem IsFactor.signed {e : Expr} (h : e.IsFactor) : e.signed.IsFactor := by
  induction e with
  | literal value =>
      cases value with
      | finite s m => cases s <;> trivial
      | _ => trivial
  | unary op operand ih =>
      cases op with
      | neg => exact (ih h).negated
      | factorial => trivial
  | binary lhs op rhs ihl _ => exact ⟨h.1, ihl h.2⟩
  | _ => trivial

/-- A factor is negated by negating its first factor. -/
theorem evaluateWith_negated {e : Expr} (h : e.IsFactor) (x : Binary64) :
    e.negated.evaluateWith x = (e.evaluateWith x).neg := by
  induction e with
  | binary lhs op rhs ihl _ =>
      obtain ⟨rfl, hl⟩ := h
      simp only [negated, evaluateWith, ihl hl, BinaryOp.apply, Binary64.neg_mul]
  | _ => rfl

theorem evaluateWith_signed {e : Expr} (h : e.NegatesFactors) (x : Binary64) :
    e.signed.evaluateWith x = e.evaluateWith x := by
  induction e with
  | literal value =>
      cases value with
      | finite s m => cases s <;> rfl
      | _ => rfl
  | unary op operand ih =>
      cases op with
      | neg => rw [signed, evaluateWith_negated h.1.signed, ih h.2]; rfl
      | factorial => simp only [signed, evaluateWith, ih h]
  | binary lhs op rhs ihl ihr => simp only [signed, evaluateWith, ihl h.1, ihr h.2]
  | grouping inner ih => exact ih h
  | builtinCall n f arg ih => simp only [signed, evaluateWith, ih h]
  | userCall n body arg _ ih => simp only [signed, evaluateWith, ih h]
  | _ => rfl

/-! ## Grouping -/

/-- The loosest operator that is written outside parentheses binds this tight. -/
def outer : Expr → Nat
  | binary _ op _ => op.precedence
  | unary .neg operand => operand.outer
  | _ => Priority.negationFloor

def isNegative : Expr → Bool
  | literal (.finite s _) => s
  | unary .neg _ => true
  | _ => false

/--
No parentheses are missing in the text: no operand of an operator has a looser
one, or on the right an equally loose one, outside its parentheses, and the
operand of a factorial has neither an operator nor a sign there.
-/
def PrintsGrouped : Expr → Prop
  | unary .neg operand => operand.PrintsGrouped
  | unary .factorial operand =>
      operand.outer = Priority.negationFloor ∧ operand.isNegative = false ∧ operand.PrintsGrouped
  | binary lhs op rhs =>
      op.precedence ≤ lhs.outer ∧ op.precedence < rhs.outer ∧ lhs.PrintsGrouped ∧
        rhs.PrintsGrouped
  | grouping inner => inner.PrintsGrouped
  | builtinCall _ _ arg => arg.PrintsGrouped
  | userCall _ _ arg => arg.PrintsGrouped
  | _ => True

end Expr

def Phrase.outer : Phrase → Nat
  | binary _ op _ => op.precedence
  | _ => Priority.negationFloor

theorem Phrase.above_iff {p : Phrase} {op : BinaryOp} :
    p.Above op.precedence ↔ op.precedence < p.outer := by
  cases p with
  | binary l inner r =>
      refine ⟨fun h => h inner rfl, fun h inner' hinner => ?_⟩
      cases hinner
      exact h
  | _ => exact ⟨fun _ => op.precedence_lt_negationFloor, fun _ => above_of_operator?_eq_none rfl⟩

theorem TokenKind.precedence_lt_negationFloor (k : TokenKind) :
    k.precedence < Priority.negationFloor := by
  cases hop : k.operator? with
  | none => rw [precedence_of_no_operator? hop]; decide
  | some op => rw [precedence_of_operator? hop]; exact op.precedence_lt_negationFloor

namespace Expr

variable {k : TokenKind}

/-- Where nothing goes with it, a tree ends before an operator that binds no tighter. -/
theorem endsBefore_phrase_iff {e : Expr} (h : e.phrase.WellFormed) (hk : k.attaches = false) :
    e.phrase.EndsBefore k ↔ k.precedence ≤ e.phrase.outer := by
  have hfloor := Nat.le_of_lt k.precedence_lt_negationFloor
  induction e with
  | unary op operand ih =>
      cases op with
      | neg =>
          have hnone : operand.phrase.outer = Priority.negationFloor := by
            have hop := Phrase.operator?_eq_none_of_above h.2
            cases hp : operand.phrase with
            | binary l op r => rw [hp] at hop; cases hop
            | _ => rfl
          refine ⟨fun _ => hfloor, fun _ => ⟨hk, (ih h.1).2 ?_⟩⟩
          rw [hnone]
          exact hfloor
      | factorial => exact ⟨fun _ => hfloor, fun _ => trivial⟩
  | binary lhs op rhs _ ihr =>
      obtain ⟨-, -, hr, habove⟩ := h
      refine ⟨fun hends => hends.2.1, fun hle => ⟨hk, hle, (ihr hr).2 ?_⟩⟩
      exact Nat.le_of_lt (Nat.lt_of_le_of_lt hle (Phrase.above_iff.1 habove))
  | literal value => exact ⟨fun _ => hfloor, fun _ => trivial⟩
  | grouping inner _ => exact ⟨fun _ => hfloor, fun _ => trivial⟩
  | builtinCall n f arg _ => exact ⟨fun _ => hfloor, fun _ => trivial⟩
  | userCall n body arg _ _ => exact ⟨fun _ => hfloor, fun _ => trivial⟩
  | _ =>
      refine ⟨fun _ => hfloor, fun _ => ⟨?_, ?_, ?_⟩⟩ <;> rintro rfl <;> cases hk

theorem outer_phrase_negated (e : Expr) : e.negated.phrase.outer = e.phrase.outer := by
  cases e with
  | unary op operand => cases op <;> rfl
  | _ => rfl

theorem outer_phrase_signed (e : Expr) : e.signed.phrase.outer = e.outer := by
  induction e with
  | literal value =>
      cases value with
      | finite s m => cases s <;> rfl
      | _ => rfl
  | unary op operand ih =>
      cases op with
      | neg => exact (outer_phrase_negated operand.signed).trans ih
      | factorial => rfl
  | _ => rfl

theorem endsBefore_phrase_negated (e : Expr) (hk : k.attaches = false) :
    e.negated.phrase.EndsBefore k ↔ e.phrase.EndsBefore k := by
  cases e with
  | binary lhs op rhs => exact Iff.rfl
  | _ => exact ⟨And.right, And.intro hk⟩

theorem wellFormed_phrase_negated (e : Expr) :
    e.negated.phrase.WellFormed ↔ e.phrase.WellFormed := by
  induction e with
  | binary lhs op rhs ihl _ =>
      have hends := endsBefore_phrase_negated lhs op.attaches_kind
      simp only [negated, phrase, Phrase.WellFormed, ihl, hends]
  | unary op operand _ =>
      cases op <;> exact ⟨And.left, fun h => ⟨h, Phrase.above_of_operator?_eq_none rfl⟩⟩
  | _ => exact ⟨And.left, fun h => ⟨h, Phrase.above_of_operator?_eq_none rfl⟩⟩

theorem not_endsBefore_bang_negated (e : Expr) : ¬e.negated.phrase.EndsBefore .bang := by
  cases e <;> exact fun h => absurd h.1 (by decide)

theorem endsBefore_bang_phrase_signed (e : Expr) :
    e.signed.phrase.EndsBefore .bang ↔
      e.outer = Priority.negationFloor ∧ e.isNegative = false := by
  have hname (n : String) : (Phrase.name n).EndsBefore .bang := ⟨by decide, by decide, by decide⟩
  cases e with
  | literal value =>
      cases value with
      | finite s m =>
          cases s with
          | false => exact ⟨fun _ => ⟨rfl, rfl⟩, fun _ => trivial⟩
          | true => exact ⟨fun h => absurd h.1 (by decide), fun h => Bool.noConfusion h.2⟩
      | _ => exact ⟨fun _ => ⟨rfl, rfl⟩, fun _ => trivial⟩
  | unary op operand =>
      cases op with
      | neg =>
          exact ⟨fun h => absurd h (not_endsBefore_bang_negated _),
            fun h => Bool.noConfusion h.2⟩
      | factorial => exact ⟨fun _ => ⟨rfl, rfl⟩, fun _ => trivial⟩
  | binary lhs op rhs =>
      exact ⟨fun h => absurd h.1 (by decide),
        fun h => absurd h.1 (Nat.ne_of_lt op.precedence_lt_negationFloor)⟩
  | grouping inner => exact ⟨fun _ => ⟨rfl, rfl⟩, fun _ => trivial⟩
  | builtinCall n f arg => exact ⟨fun _ => ⟨rfl, rfl⟩, fun _ => trivial⟩
  | userCall n body arg => exact ⟨fun _ => ⟨rfl, rfl⟩, fun _ => trivial⟩
  | _ => exact ⟨fun _ => ⟨rfl, rfl⟩, fun _ => hname _⟩

/-- The text of a tree is the text of a well-formed phrase if no parentheses are missing. -/
theorem wellFormed_phrase_signed (e : Expr) : e.signed.phrase.WellFormed ↔ e.PrintsGrouped := by
  induction e with
  | literal value =>
      cases value with
      | finite s m =>
          cases s with
          | false => exact Iff.rfl
          | true =>
              have habove : Phrase.Above Priority.negationFloor (.number (.finite false m)) :=
                Phrase.above_of_operator?_eq_none rfl
              exact ⟨fun _ => trivial, fun _ => ⟨trivial, habove⟩⟩
      | _ => exact Iff.rfl
  | unary op operand ih =>
      cases op with
      | neg => exact (wellFormed_phrase_negated operand.signed).trans ih
      | factorial =>
          have hbang := endsBefore_bang_phrase_signed operand
          simp only [signed, phrase, Phrase.WellFormed, PrintsGrouped, ih, hbang]
          exact and_rotate
  | binary lhs op rhs ihl ihr =>
      have hends (hl : lhs.PrintsGrouped) :
          lhs.signed.phrase.EndsBefore op.kind ↔ op.precedence ≤ lhs.outer := by
        rw [endsBefore_phrase_iff (ihl.2 hl) op.attaches_kind, op.precedence_kind,
          outer_phrase_signed]
      have habove : rhs.signed.phrase.Above op.precedence ↔ op.precedence < rhs.outer := by
        rw [Phrase.above_iff, outer_phrase_signed]
      simp only [signed, phrase, Phrase.WellFormed, PrintsGrouped, ihl, ihr, habove]
      constructor
      · rintro ⟨hl, hendsl, hr, hlt⟩
        exact ⟨(hends hl).1 hendsl, hlt, hl, hr⟩
      · rintro ⟨hle, hlt, hl, hr⟩
        exact ⟨hl, (hends hl).2 hle, hr, hlt⟩
  | grouping inner ih => exact ih
  | builtinCall n f arg ih => exact ih
  | userCall n body arg _ ih => exact ih
  | _ => exact Iff.rfl

end Expr

end Calculator
