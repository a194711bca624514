import Calculator.Proofs.Binary64.Shown
import Calculator.Proofs.Binary64.ShownText
import Calculator.Proofs.Grammar.Acceptance

/-!
# Results as lines

A result, as it is shown, is a line of its own: a number, or a number after a
sign. Its value is shown alike.
-/

namespace Calculator

namespace Binary64

section ShownText

variable {s : Bool} {m : Magnitude}

/-- What is shown is read as a number of so many units of the last shown place. -/
theorem IsShown.ofDecimal {q : Nat} {whole fraction : List Char} (h : IsShown q whole fraction) :
    Binary64.ofDecimal false (Nat.ofDigitChars 10 (whole ++ fraction) 0)
      (-(fraction.length : Int)) = .ofDecimal false q (-shownPlaces) := by
  have hplaces := h.length_le
  rw [← h.value, ofDecimal_mul_pow]
  congr 1
  omega

/-- What is shown of a number is a number of so many shown places, after a sign if it has one. -/
theorem spelled_shownText (h : shownUnits m ≠ 0) :
    Spelled (shownText (.finite s m)).toList
      ((if s then [.mark .minus] else []) ++
        [.number (.ofDecimal false (shownUnits m) (-shownPlaces))]) := by
  obtain ⟨whole, fraction, hshown, htext⟩ := exists_isShown s h
  have hmagnitude := spelled_pointed hshown.whole_ne_nil hshown.isDigit
  rw [hshown.ofDecimal] at hmagnitude
  rw [htext]
  exact hmagnitude.signed s

theorem ofDecimal_shown (s : Bool) {q : Nat} (h : q ≠ 0) :
    ofDecimal s q (-shownPlaces) = ofUnits s (q * unitsPerOne) (10 ^ shownPlaces) := by
  have hpower : (-(shownPlaces : Int)).toNat = 0 := rfl
  have hplaces : (- -(shownPlaces : Int)).toNat = shownPlaces := rfl
  rw [ofDecimal_eq_ofUnits s h, hpower, hplaces, Nat.pow_zero, Nat.mul_one]

end ShownText

end Binary64

/-- The value of a line that is a number, after a sign or alone. -/
theorem evaluateLine_of_spelled {source : String} {s : Bool} {m : Magnitude}
    (h : Spelled source.toList
      ((if s then [.mark .minus] else []) ++ [.number (.finite false m)])) (env : Environment) :
    evaluateLine env source = (.ok (.finite s m), env) := by
  obtain ⟨hsymbols, hlexical⟩ := symbolsOf_of_spelled h
  cases s with
  | false =>
      have hread : readLine env source = ⟨.literal (.finite false m), .empty, env⟩ :=
        readLine_of_phrase (p := .number (.finite false m)) (· = _) hsymbols trivial
          (show 1 ≤ maxNesting by decide) hlexical rfl
      rw [evaluateLine, hread]
      rfl
  | true =>
      have hread : readLine env source = ⟨.unary .neg (.literal (.finite false m)), .empty, env⟩ :=
        readLine_of_phrase (p := .neg (.number (.finite false m))) (· = _) hsymbols
          ⟨trivial, Phrase.above_of_operator?_eq_none rfl⟩ (show 2 ≤ maxNesting by decide) hlexical
          rfl
      rw [evaluateLine, hread]
      rfl

/--
A result that is shown can be typed in again. The line has a value, which is
shown as the same text, changes nothing, and from eight on has the very value
that was shown.
-/
theorem evaluateLine_shownText (env : Environment) (s : Bool) (m : Magnitude) :
    ∃ w, evaluateLine env (Binary64.finite s m).shownText = (.ok w, env) ∧
      w.shownText = (Binary64.finite s m).shownText ∧
      ((Binary64.finite false m).atLeast (.ofNat 8) → w = .finite s m) := by
  rw [Binary64.atLeast_eight_iff]
  by_cases hzero : Binary64.shownUnits m = 0
  · rw [Binary64.shownText_of_eq_zero hzero]
    have hspelled : Spelled "0".toList ([] ++ [.number (.finite false .zero)]) := spelled_zero
    have hzero' : Binary64.shownUnits .zero = 0 := by decide +kernel
    refine ⟨_, evaluateLine_of_spelled (s := false) hspelled env,
      Binary64.shownText_of_eq_zero hzero', fun hm => ?_⟩
    exact absurd hm (Nat.not_le.2 (Binary64.lt_eight_of_shownUnits_eq_zero hzero))
  · obtain ⟨w, hw, hshown, hexact⟩ := Binary64.exists_ofUnits_shownUnits false m
    have hspelled := Binary64.spelled_shownText (s := s) hzero
    rw [Binary64.ofDecimal_shown false hzero, hw] at hspelled
    refine ⟨.finite s w, evaluateLine_of_spelled hspelled env, Binary64.shownText_congr hshown,
      fun hm => ?_⟩
    rw [hexact hm]

end Calculator
