import Calculator.Proofs.Grammar.Statement

/-!
# The shape of a line

Operators are grouped by priority and to the left, only a primary phrase is
multiplied without an operator or has a factorial sign, and declarations reach
as far to the right as they can.
-/

namespace Calculator

namespace Phrase

def isNegation : Phrase → Bool
  | neg _ => true
  | _ => false

def IsPrimary (p : Phrase) : Prop :=
  p.operator? = none ∧ p.isNegation = false

/--
The left side of an operator has no operator of lower priority at its root, and
its right side has none of lower or equal priority.
-/
def Grouped : Phrase → Prop
  | number _ => True
  | name _ => True
  | neg p => p.operator? = none ∧ p.Grouped
  | factorial p => p.IsPrimary ∧ p.Grouped
  | binary l op r =>
      (∀ inner ∈ l.operator?, op.precedence ≤ inner.precedence) ∧
        (∀ inner ∈ r.operator?, op.precedence < inner.precedence) ∧ l.Grouped ∧ r.Grouped
  | product l p => l.IsPrimary ∧ l.Grouped ∧ p.Grouped
  | grouping p => p.Grouped
  | call _ p => p.Grouped
  | assignment _ p => p.Grouped
  | definition _ p => p.Grouped

/-- What comes after every declaration in the phrase closes a parenthesis or ends the line. -/
def DeclarationsReach : Phrase → TokenKind → Prop
  | number _, _ => True
  | name _, _ => True
  | neg p, next => p.DeclarationsReach next
  | factorial p, _ => p.DeclarationsReach .bang
  | binary l op r, next => l.DeclarationsReach op.kind ∧ r.DeclarationsReach next
  | product l p, _ => l.DeclarationsReach .leftParen ∧ p.DeclarationsReach .rightParen
  | grouping p, _ => p.DeclarationsReach .rightParen
  | call _ p, _ => p.DeclarationsReach .rightParen
  | assignment _ p, next =>
      (next = .rightParen ∨ next = .finish) ∧ p.DeclarationsReach next
  | definition _ p, next =>
      (next = .rightParen ∨ next = .finish) ∧ p.DeclarationsReach next

/-- Before what attaches, only a primary phrase ends. -/
theorem isPrimary_of_endsBefore {p : Phrase} {k : TokenKind} (h : p.EndsBefore k)
    (hk : k.attaches) : p.IsPrimary := by
  refine ⟨operator?_eq_none_of_endsBefore h hk, ?_⟩
  cases p with
  | neg p => simp [h.1] at hk
  | _ => rfl

theorem WellFormed.grouped {p : Phrase} (h : p.WellFormed) : p.Grouped := by
  induction p with
  | number _ => trivial
  | name _ => trivial
  | neg p ih => exact ⟨operator?_eq_none_of_above h.2, ih h.1⟩
  | factorial p ih => exact ⟨isPrimary_of_endsBefore h.2 rfl, ih h.1⟩
  | binary l op r ihl ihr =>
      obtain ⟨hl, hends, hr, habove⟩ := h
      refine ⟨fun inner hinner => ?_, habove, ihl hl, ihr hr⟩
      have hle := precedence_le_of_endsBefore hends inner hinner
      rwa [op.precedence_kind] at hle
  | product l p ihl ih =>
      obtain ⟨hl, hends, hp⟩ := h
      exact ⟨isPrimary_of_endsBefore hends rfl, ihl hl, ih hp⟩
  | grouping p ih => exact ih h
  | call _ p ih => exact ih h
  | assignment _ p ih => exact ih h
  | definition _ p ih => exact ih h

/-- The tokens that come after a phrase: what goes with it, operators, and two ends. -/
def Terminates (k : TokenKind) : Prop :=
  k.Closes 0 → k = .rightParen ∨ k = .finish

theorem terminates_of_attaches {k : TokenKind} (h : k.attaches) : Terminates k := by
  intro hclosed
  rw [hclosed.1] at h
  cases h

theorem terminates_operator (op : BinaryOp) : Terminates op.kind := by
  intro hclosed
  have hzero := hclosed.2
  rw [op.precedence_kind] at hzero
  exact absurd op.precedence_pos (Nat.not_lt.2 hzero)

theorem WellFormed.declarationsReach {p : Phrase} {next : TokenKind} (h : p.WellFormed)
    (hends : p.EndsBefore next) (hnext : Terminates next) : p.DeclarationsReach next := by
  have hparen : Terminates .rightParen := fun _ => .inl rfl
  have hclosed : TokenKind.rightParen.Closes 0 := ⟨rfl, Nat.le_refl 0⟩
  induction p generalizing next with
  | number _ => trivial
  | name _ => trivial
  | neg p ih => exact ih h.1 hends.2 hnext
  | factorial p ih => exact ih h.1 h.2 (terminates_of_attaches rfl)
  | binary l op r ihl ihr =>
      obtain ⟨hl, hendsl, hr, -⟩ := h
      exact ⟨ihl hl hendsl (terminates_operator op), ihr hr hends.2.2 hnext⟩
  | product l p ihl ih =>
      obtain ⟨hl, hendsl, hp⟩ := h
      exact ⟨ihl hl hendsl (terminates_of_attaches rfl),
        ih hp (endsBefore_of_closes hclosed) hparen⟩
  | grouping p ih => exact ih h (endsBefore_of_closes hclosed) hparen
  | call _ p ih => exact ih h (endsBefore_of_closes hclosed) hparen
  | assignment _ p ih =>
      obtain ⟨hattach, hzero, hendsp⟩ := hends
      exact ⟨hnext ⟨hattach, Nat.le_of_eq hzero⟩, ih h hendsp hnext⟩
  | definition _ p ih =>
      obtain ⟨hattach, hzero, hendsp⟩ := hends
      exact ⟨hnext ⟨hattach, Nat.le_of_eq hzero⟩, ih h hendsp hnext⟩

end Phrase

namespace Statement

def Grouped : Statement → Prop
  | deletion _ => True
  | phrase p => p.Grouped

def DeclarationsReach : Statement → TokenKind → Prop
  | deletion _, _ => True
  | phrase p, next => p.DeclarationsReach next

theorem WellFormed.grouped {st : Statement} (h : st.WellFormed) : st.Grouped := by
  cases st with
  | deletion n => trivial
  | phrase p => exact Phrase.WellFormed.grouped h

theorem WellFormed.declarationsReach {st : Statement} (h : st.WellFormed) :
    st.DeclarationsReach .finish := by
  cases st with
  | deletion n => trivial
  | phrase p =>
      exact Phrase.WellFormed.declarationsReach h
        (Phrase.endsBefore_of_closes ⟨rfl, Nat.le_refl 0⟩) fun _ => .inr rfl

end Statement

/--
A line without faults follows the grammar. Its visible tokens, none left out and
none moved, are those of a statement whose reading is the tree. The statement
tells which products have no operator and which values stand for names, its
operators are grouped by priority and to the left, and its declarations end only
where a parenthesis or the line does.
-/
theorem readLine_follows_grammar {env : Environment} {source : String}
    (h : (readLine env source).isOk) :
    ∃ st : Statement, st.symbols = symbolsOf source ∧
      st.Reads env (readLine env source).expr (readLine env source).environment ∧
      st.Grouped ∧ st.DeclarationsReach .finish := by
  obtain ⟨st, hsymbols, hwell, hreads, -, -⟩ := reads_readLine h
  exact ⟨st, hsymbols, hreads, hwell.grouped, hwell.declarationsReach⟩

theorem readLine_follows_grammar_of_nested_declarations :
    (readLine .empty "b = -2^2(3) - 8/4/2(c: x!) ").isOk ∧
      ∃ st : Statement, st.symbols = symbolsOf "b = -2^2(3) - 8/4/2(c: x!) " ∧
        st.Reads .empty (readLine .empty "b = -2^2(3) - 8/4/2(c: x!) ").expr
          (readLine .empty "b = -2^2(3) - 8/4/2(c: x!) ").environment ∧
        st.Grouped ∧ st.DeclarationsReach .finish := by
  have h : (readLine .empty "b = -2^2(3) - 8/4/2(c: x!) ").isOk := by decide +kernel
  exact ⟨h, readLine_follows_grammar h⟩

end Calculator
