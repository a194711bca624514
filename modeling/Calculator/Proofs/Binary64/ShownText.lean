import Calculator.Proofs.Token.Number
import Mathlib.Data.List.DropRight

/-!
# The text of a shown result

From a number with all of its shown places the zeros at the end are left out,
then a point at the end, and then the sign of zero. What is left are the digits
of the same number of units of the last shown place, without superfluous zeros.
-/

namespace Calculator

/-! ## The end of a text -/

theorem toList_trimEndWhile (p : Char → Bool) (text : String) :
    (trimEndWhile p text).toList = text.toList.rdropWhile p :=
  String.toList_ofList

/-- What stops the trimming keeps all that is before it. -/
theorem rdropWhile_append_cons {p : Char → Bool} {c : Char} (hc : p c = false)
    (front back : List Char) :
    (front ++ c :: back).rdropWhile p = front ++ c :: back.rdropWhile p := by
  induction back using List.reverseRecOn with
  | nil => rw [List.rdropWhile_concat_neg _ _ _ (by simp [hc]), List.rdropWhile_nil]
  | append_singleton back d ih =>
      rw [← List.cons_append, ← List.append_assoc, List.rdropWhile_concat,
        List.rdropWhile_concat, ih]
      split <;> simp

theorem rdropWhile_of_digit {text : List Char} {c d : Char} (h : text.getLast? = some d)
    (hd : d.isDigit) (hc : c.isDigit = false) : text.rdropWhile (· == c) = text := by
  rw [List.rdropWhile_eq_self_iff]
  intro hne hlast
  rw [List.getLast?_eq_some_getLast hne, Option.some.injEq] at h
  rw [h, beq_iff_eq] at hlast
  rw [hlast, hc] at hd
  cases hd

section Pointed

variable {whole fraction : List Char}

/-- Where no places are left, the point goes too. -/
theorem rdropWhile_places (hne : whole ≠ []) (hdigit : ∀ c ∈ whole ++ fraction, c.isDigit)
    (front : List Char) :
    ((front ++ whole ++ '.' :: fraction).rdropWhile (· == '0')).rdropWhile (· == '.') =
      front ++ pointed whole (fraction.rdropWhile (· == '0')) := by
  have hplaces : ∀ c ∈ whole ++ fraction.rdropWhile (· == '0'), c.isDigit := by
    intro c hc
    have hsub := (List.rdropWhile_prefix (· == '0') fraction).sublist.append_left whole
    exact hdigit c (hsub.subset hc)
  rw [rdropWhile_append_cons rfl]
  generalize fraction.rdropWhile (· == '0') = places at hplaces
  obtain ⟨d, hlast, hd⟩ := exists_digit_getLast? hne hplaces front
  have hkeep := rdropWhile_of_digit hlast hd (by decide : '.'.isDigit = false)
  by_cases hempty : places = []
  · subst hempty
    rw [List.rdropWhile_concat_pos _ _ _ rfl]
    exact hkeep
  · rw [pointed, if_neg (by rwa [List.isEmpty_iff]), ← List.append_assoc] at hkeep ⊢
    exact hkeep

/-- The zeros that are left out are a power of ten. -/
theorem ofDigitChars_rdropWhile (whole fraction : List Char) :
    Nat.ofDigitChars 10 (whole ++ fraction) 0 =
      Nat.ofDigitChars 10 (whole ++ fraction.rdropWhile (· == '0')) 0 *
        10 ^ (fraction.length - (fraction.rdropWhile (· == '0')).length) := by
  have hsplit : fraction.rdropWhile (· == '0') ++ fraction.rtakeWhile (· == '0') = fraction :=
    List.rdropWhile_append_rtakeWhile
  have hzeros : fraction.rtakeWhile (· == '0') =
      List.replicate (fraction.rtakeWhile (· == '0')).length '0' :=
    List.eq_replicate_of_mem fun c hc =>
      eq_of_beq (List.mem_rtakeWhile_imp (p := (· == '0')) hc)
  have hlength := congrArg List.length hsplit
  rw [List.length_append] at hlength
  rw [← Nat.eq_sub_of_add_eq' hlength]
  conv_lhs => rw [← hsplit, ← List.append_assoc, Nat.ofDigitChars_append, hzeros,
    Nat.ofDigitChars_replicate_zero, Nat.mul_comm]

end Pointed

namespace Binary64

/-- Digits of so many units of the last shown place, without superfluous zeros. -/
structure IsShown (q : Nat) (whole fraction : List Char) : Prop where
  isDigit : ∀ c ∈ whole ++ fraction, c.isDigit
  whole_ne_nil : whole ≠ []
  leading : whole.head? = some '0' → whole = ['0']
  trailing : fraction.getLast? ≠ some '0'
  length_le : fraction.length ≤ shownPlaces
  value : Nat.ofDigitChars 10 (whole ++ fraction) 0 * 10 ^ (shownPlaces - fraction.length) = q

/-- What is left of the text of a number with all of its shown places. -/
theorem exists_isShown_trimPlaces (s : Bool) {q : Nat} (h : q ≠ 0) :
    ∃ whole fraction, IsShown q whole fraction ∧
      (trimPlaces (String.ofList (signText s ++ Decimal.positional ⟨q, -shownPlaces⟩))).toList =
        signText s ++ pointed whole fraction := by
  obtain ⟨whole, fraction, hwritten⟩ := Decimal.exists_isWritten ⟨q, -shownPlaces⟩
  have hlength : fraction.length = shownPlaces := hwritten.length_fraction
  have hkept := List.rdropWhile_prefix (· == '0') fraction
  have hpointed : pointed whole fraction = whole ++ '.' :: fraction := by
    rw [pointed, if_neg]
    rw [List.isEmpty_iff_length_eq_zero, hlength]
    decide
  refine ⟨whole, fraction.rdropWhile (· == '0'), ?shown, ?trimmed⟩
  case shown =>
    refine ⟨fun c hc => ?_, hwritten.whole_ne_nil, hwritten.leading h, fun hzero => ?_, ?_, ?_⟩
    · exact hwritten.isDigit c ((hkept.sublist.append_left whole).subset hc)
    · have hne := List.ne_nil_of_mem (List.mem_of_getLast? hzero)
      rw [List.getLast?_eq_some_getLast hne, Option.some.injEq] at hzero
      exact List.rdropWhile_last_not _ _ hne (beq_iff_eq.2 hzero)
    · rw [← hlength]
      exact hkept.length_le
    · have hvalue := hwritten.value
      rw [ofDigitChars_rdropWhile, hlength] at hvalue
      rw [hvalue]
      exact Nat.mul_one q
  case trimmed =>
    rw [hwritten.text, hpointed, ← List.append_assoc, trimPlaces, if_pos (by simp),
      toList_trimEndWhile, toList_trimEndWhile, String.toList_ofList,
      rdropWhile_places hwritten.whole_ne_nil hwritten.isDigit]

theorem IsShown.ne_minus_zero {q : Nat} {whole fraction : List Char} (h : IsShown q whole fraction)
    (hq : q ≠ 0) (s : Bool) : signText s ++ pointed whole fraction ≠ "-0".toList := by
  intro hzero
  have hsign : Literal.digits (signText s) = [] := by cases s <;> rfl
  have hdigits : Literal.digits (signText s ++ pointed whole fraction) = ['0'] := by
    rw [hzero]
    rfl
  have happend : Literal.digits (signText s) ++ Literal.digits (pointed whole fraction) = ['0'] :=
    (List.filter_append ..).symm.trans hdigits
  rw [hsign, filter_isDigit_pointed h.isDigit, List.nil_append] at happend
  have hvalue := h.value
  rw [happend] at hvalue
  exact hq (hvalue.symm.trans (Nat.zero_mul _))

theorem shownText_of_eq_zero {s : Bool} {m : Magnitude} (h : shownUnits m = 0) :
    shownText (.finite s m) = "0" := by
  rw [shownText, fixedText, h]
  cases s <;> decide

/-- What is not zero is shown as its digits, after its sign. -/
theorem exists_isShown (s : Bool) {m : Magnitude} (h : shownUnits m ≠ 0) :
    ∃ whole fraction, IsShown (shownUnits m) whole fraction ∧
      (shownText (.finite s m)).toList = signText s ++ pointed whole fraction := by
  rw [shownText, fixedText]
  generalize shownUnits m = q at h
  obtain ⟨whole, fraction, hshown, hkept⟩ := exists_isShown_trimPlaces s h
  refine ⟨whole, fraction, hshown, ?_⟩
  rw [← hkept, if_neg]
  rw [← String.toList_inj, hkept]
  exact hshown.ne_minus_zero h s

theorem shownText_congr {s : Bool} {m n : Magnitude} (h : shownUnits m = shownUnits n) :
    shownText (.finite s m) = shownText (.finite s n) := by
  rw [shownText, shownText, fixedText, fixedText, h]

end Binary64

end Calculator
