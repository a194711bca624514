import Calculator.Proofs.Binary64.CorrectRounding
import Calculator.Proofs.Binary64.Numeral
import Calculator.Proofs.Binary64.Shown
import Calculator.Proofs.Binary64.ShownText
import Mathlib.Algebra.Ring.Int.Parity

/-!
# Shown results as numerals

A result is shown as the numeral of the nearest number of so many places, so
what is shown is decided by that number, and decides it.
-/

namespace Calculator

/-! ## Nearest multiples -/

/-- A multiple of a unit is nearest to a number, and even if another one is as near. -/
structure IsNearestMultiple (unit v : ℚ) (k : ℤ) : Prop where
  nearest : ∀ j : ℤ, |v - k * unit| ≤ |v - j * unit|
  even : ∀ j : ℤ, j ≠ k → |v - j * unit| = |v - k * unit| → Even k

namespace IsNearestMultiple

variable {unit v : ℚ} {j k : ℤ}

/-- Two multiples are not both nearer than half a unit. -/
theorem unit_le_add (hunit : 0 < unit) (h : j ≠ k) :
    unit ≤ |v - k * unit| + |v - j * unit| := by
  have hone : (1 : ℚ) ≤ |((j - k : ℤ) : ℚ)| := by
    rw [← Int.cast_abs]
    exact_mod_cast Int.one_le_abs (sub_ne_zero.2 h)
  have hsub : (v - k * unit) - (v - j * unit) = ((j - k : ℤ) : ℚ) * unit := by
    push_cast
    ring
  calc
    unit ≤ |((j - k : ℤ) : ℚ)| * unit := le_mul_of_one_le_left hunit.le hone
    _ = |(v - k * unit) - (v - j * unit)| := by rw [hsub, abs_mul, abs_of_pos hunit]
    _ ≤ |v - k * unit| + |v - j * unit| := abs_sub _ _

/-- What is off by half a unit at most is nearest. -/
theorem of_half (hunit : 0 < unit) (hnear : 2 * |v - k * unit| ≤ unit)
    (heven : 2 * |v - k * unit| = unit → Even k) : IsNearestMultiple unit v k where
  nearest j := by
    by_cases hj : j = k
    · rw [hj]
    · have hfar := unit_le_add (v := v) hunit hj
      linarith
  even j hj htie := by
    have hfar := unit_le_add (v := v) hunit hj
    exact heven (by linarith)

theorem neg (h : IsNearestMultiple unit v k) : IsNearestMultiple unit (-v) (-k) := by
  have hflip (i : ℤ) : |-v - (i : ℚ) * unit| = |v - ((-i : ℤ) : ℚ) * unit| := by
    rw [← abs_neg]
    push_cast
    congr 1
    ring
  constructor
  · intro i
    rw [hflip, hflip, neg_neg]
    exact h.nearest (-i)
  · intro i hi htie
    rw [hflip, hflip, neg_neg] at htie
    exact (h.even (-i) (fun hk => hi (by omega)) htie).neg

theorem signed (s : Bool) (h : IsNearestMultiple unit v k) :
    IsNearestMultiple unit (signedRat s v) (if s then -k else k) := by
  cases s with
  | false => exact h
  | true => exact h.neg

/-- There are no two nearest multiples, since between two even ones there is a nearer one. -/
theorem not_lt (hunit : 0 < unit) (h : IsNearestMultiple unit v k)
    (h' : IsNearestMultiple unit v j) : ¬k < j := by
  intro hlt
  have htie : |v - k * unit| = |v - j * unit| := le_antisymm (h.nearest j) (h'.nearest k)
  obtain ⟨a, rfl⟩ := h.even j (ne_of_gt hlt) htie.symm
  obtain ⟨b, rfl⟩ := h'.even _ (ne_of_lt hlt) htie
  have hab : (a : ℚ) + 1 ≤ b := by exact_mod_cast (by omega : a + 1 ≤ b)
  have hgap : (a + 1) * unit ≤ b * unit := mul_le_mul_of_nonneg_right hab hunit.le
  have hnext := h.nearest (a + a + 1)
  push_cast at htie hnext
  rcases abs_eq_abs.1 htie with heq | heq
  · linarith
  · rw [abs_of_pos (by linarith : 0 < v - (a + a) * unit),
      abs_of_nonneg (by linarith : 0 ≤ v - (a + a + 1) * unit)] at hnext
    linarith

theorem unique (hunit : 0 < unit) (h : IsNearestMultiple unit v k)
    (h' : IsNearestMultiple unit v j) : j = k :=
  le_antisymm (le_of_not_gt (h.not_lt hunit h')) (le_of_not_gt (h'.not_lt hunit h))

end IsNearestMultiple

/-- A quotient is rounded to the nearest whole number, whatever it is a number of. -/
theorem isNearestMultiple_roundQuotient {unit : ℚ} (hunit : 0 < unit) (n : Nat) {d : Nat}
    (hd : 0 < d) : IsNearestMultiple unit (n / d * unit) (roundQuotient n d) := by
  have hd' : (0 : ℚ) < d := Nat.cast_pos.2 hd
  have hdistance : (distance n d (roundQuotient n d) : ℚ) = |(roundQuotient n d * d - n : ℚ)| := by
    rw [distance, Nat.cast_natAbs]
    push_cast
    rfl
  have hsub : n / d * unit - (roundQuotient n d : ℤ) * unit =
      -((roundQuotient n d * d - n) * (unit / d)) := by
    push_cast
    field_simp
    ring
  have habs : 2 * |n / d * unit - (roundQuotient n d : ℤ) * unit| =
      (2 * distance n d (roundQuotient n d) : Nat) * (unit / d) := by
    rw [hsub, abs_neg, abs_mul, abs_of_pos (div_pos hunit hd'), ← hdistance]
    push_cast
    ring
  have hunit' : unit = d * (unit / d) := by field_simp
  refine .of_half hunit ?_ fun hhalf => ?_
  · obtain ⟨hlow, hhigh⟩ := roundQuotient_near n hd
    have hnear : 2 * distance n d (roundQuotient n d) ≤ d := by
      unfold distance
      omega
    rw [habs]
    conv_rhs => rw [hunit']
    exact mul_le_mul_of_nonneg_right (Nat.cast_le.2 hnear) (div_pos hunit hd').le
  · rw [habs] at hhalf
    conv_rhs at hhalf => rw [hunit']
    have hexact := Nat.cast_inj.1 (mul_right_cancel₀ (div_pos hunit hd').ne' hhalf)
    exact (Int.even_coe_nat _).2 (Nat.even_iff.2 (roundQuotient_even_of_half hd hexact))

/-! ## Shown units -/

namespace Binary64

def shownUnit : ℚ :=
  1 / 10 ^ shownPlaces

theorem shownUnit_pos : 0 < shownUnit := by
  unfold shownUnit
  positivity

/-- The whole number of units of the last shown place that a number is shown as. -/
def shownMultiple (s : Bool) (m : Magnitude) : ℤ :=
  if s then -shownUnits m else shownUnits m

/-- A magnitude is shown as the nearest multiple of the last shown place. -/
theorem isNearestMultiple_shownUnits (m : Magnitude) :
    IsNearestMultiple shownUnit m.toRat (shownUnits m) := by
  have hvalue : m.toRat = (m.units * 10 ^ shownPlaces : Nat) / unitsPerOne * shownUnit := by
    rw [Magnitude.toRat, shownUnit]
    generalize (unitsPerOne : ℚ) = u
    push_cast
    field_simp
  rw [hvalue]
  exact isNearestMultiple_roundQuotient shownUnit_pos _ unitsPerOne_pos

theorem isNearestMultiple_shownMultiple (s : Bool) (m : Magnitude) :
    IsNearestMultiple shownUnit (signedRat s m.toRat) (shownMultiple s m) :=
  (isNearestMultiple_shownUnits m).signed s

theorem isNearestMultiple_iff {s : Bool} {m : Magnitude} {k : ℤ} :
    IsNearestMultiple shownUnit (signedRat s m.toRat) k ↔ k = shownMultiple s m := by
  constructor
  · exact (isNearestMultiple_shownMultiple s m).unique shownUnit_pos
  · rintro rfl
    exact isNearestMultiple_shownMultiple s m

/-! ## Numerals -/

theorem signedRat_mul (s : Bool) (q : Nat) (unit : ℚ) :
    signedRat s (q * unit) = ((if s then -q else q : ℤ) : ℚ) * unit := by
  cases s with
  | false => rfl
  | true =>
      simp only [signedRat, if_true]
      push_cast
      ring

/-- The value of what is shown is so many units of the last shown place. -/
theorem IsShown.div_eq {q : Nat} {whole fraction : List Char} (h : IsShown q whole fraction) :
    (Nat.ofDigitChars 10 (whole ++ fraction) 0 : ℚ) / 10 ^ fraction.length = q * shownUnit := by
  have hplaces : (10 : ℚ) ^ shownPlaces =
      10 ^ (shownPlaces - fraction.length) * 10 ^ fraction.length := by
    rw [← pow_add, Nat.sub_add_cancel h.length_le]
  rw [← h.value, shownUnit, mul_one_div, div_eq_div_iff (by positivity) (by positivity)]
  push_cast
  rw [hplaces, mul_assoc]

theorem exists_numeral_of_ne_zero (s : Bool) {m : Magnitude} (h : shownUnits m ≠ 0) :
    ∃ n : Numeral, n.text = (shownText (.finite s m)).toList ∧
      n.value = shownMultiple s m * shownUnit ∧ n.fraction.length ≤ shownPlaces := by
  obtain ⟨whole, fraction, hshown, htext⟩ := exists_isShown s h
  have hvalue : Nat.ofDigitChars 10 (whole ++ fraction) 0 ≠ 0 := by
    intro hzero
    have hunits := hshown.value
    rw [hzero, Nat.zero_mul] at hunits
    exact h hunits.symm
  refine ⟨⟨s, whole, fraction, hshown.isDigit, hshown.whole_ne_nil, hshown.leading,
    hshown.trailing, fun _ => hvalue⟩, htext.symm, ?_, hshown.length_le⟩
  rw [shownMultiple, ← signedRat_mul]
  exact congrArg (signedRat s) hshown.div_eq

/-- What is shown of a number is a numeral, whose value is the nearest multiple of a shown place. -/
theorem exists_numeral (s : Bool) (m : Magnitude) :
    ∃ n : Numeral, n.text = (shownText (.finite s m)).toList ∧
      n.value = shownMultiple s m * shownUnit ∧ n.fraction.length ≤ shownPlaces := by
  by_cases h : shownUnits m = 0
  · have hzero : shownMultiple s m = 0 := by
      rw [shownMultiple, h]
      cases s <;> rfl
    refine ⟨.zero, ?_, ?_, Nat.zero_le _⟩
    · rw [shownText_of_eq_zero h]
      rfl
    · rw [hzero, Int.cast_zero, zero_mul, Numeral.value_zero]
  · exact exists_numeral_of_ne_zero s h

/-- Texts are as different as what is shown. -/
theorem shownText_inj {s t : Bool} {m w : Magnitude} :
    shownText (.finite t w) = shownText (.finite s m) ↔ shownMultiple t w = shownMultiple s m := by
  obtain ⟨n, htext, hvalue, -⟩ := exists_numeral s m
  obtain ⟨n', htext', hvalue', -⟩ := exists_numeral t w
  rw [← String.toList_inj, ← htext, ← htext']
  constructor
  · intro hsame
    rw [Numeral.text_injective hsame, hvalue] at hvalue'
    exact (Int.cast_inj.1 (mul_right_cancel₀ shownUnit_pos.ne' hvalue')).symm
  · intro hsame
    rw [hsame, ← hvalue] at hvalue'
    rw [Numeral.value_injective hvalue']

/--
A number is shown as a numeral. It rounds to one multiple of the last shown
place, the nearest, and of two the even one, and is shown as the only numeral of
that value: with a sign exactly if the value is less than zero, with a point
exactly if it is not whole, and then with so many shown places at most. So two
numbers are shown alike exactly if they round to the same multiple.
-/
theorem shownText_canonical (s : Bool) (m : Magnitude) :
    ∃ (k : ℤ) (n : Numeral),
      (∀ j, IsNearestMultiple shownUnit (signedRat s m.toRat) j ↔ j = k) ∧
      (∀ n' : Numeral, n'.value = k * shownUnit ↔ n' = n) ∧
      n.text = (shownText (.finite s m)).toList ∧
      (n.negative ↔ (k * shownUnit : ℚ) < 0) ∧
      (n.fraction = [] ↔ ∃ i : ℤ, (k * shownUnit : ℚ) = i) ∧
      n.fraction.length ≤ shownPlaces ∧
      Nat.ofDigitChars 10 n.whole 0 = ⌊|(k * shownUnit : ℚ)|⌋ ∧
      shownText (.finite s m) ≠ "-0" ∧
      (shownText (.finite s m)).toList.getLast? ≠ some '.' ∧
      ∀ t w, shownText (.finite t w) = shownText (.finite s m) ↔
        IsNearestMultiple shownUnit (signedRat t w.toRat) k := by
  obtain ⟨n, htext, hvalue, hplaces⟩ := exists_numeral s m
  refine ⟨shownMultiple s m, n, fun j => isNearestMultiple_iff, fun n' => ⟨fun hn' => ?_, ?_⟩,
    htext, ?_, ?_, hplaces, ?_, ?_, ?_, fun t w => ?_⟩
  · exact Numeral.value_injective (hn'.trans hvalue.symm)
  · rintro rfl
    exact hvalue
  · rw [← hvalue, n.value_neg_iff]
  · rw [← hvalue, n.fraction_eq_nil_iff]
  · rw [← hvalue, n.floor_abs_value]
  · intro hzero
    rw [hzero] at htext
    exact n.text_ne_minus_zero htext
  · intro hpoint
    rw [← htext] at hpoint
    exact absurd (n.isDigit_of_getLast? hpoint) (by decide)
  · rw [shownText_inj, isNearestMultiple_iff]
    exact eq_comm

end Binary64

end Calculator
