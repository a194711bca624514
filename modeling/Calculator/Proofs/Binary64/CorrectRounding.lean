import Calculator.Proofs.Binary64.Decimal
import Calculator.Proofs.Binary64.Nearest
import Mathlib.Algebra.Order.Field.Basic
import Mathlib.Algebra.Order.Field.Power
import Mathlib.Data.Rat.Cast.Order
import Mathlib.Tactic.FieldSimp
import Mathlib.Tactic.Linarith
import Mathlib.Tactic.Positivity
import Mathlib.Tactic.Ring

/-!
# Correct rounding

No number of the format is nearer to a decimal than the one it is rounded to. Of
two that are equally near it is the one with the even mantissa, and from halfway
between the greatest number and the next power of two on the result is infinite.
These conditions leave only one number.
-/

namespace Calculator

/-! ## Whole numbers -/

def distance (n d q : Nat) : Nat :=
  ((q * d : Nat) - (n : Int)).natAbs

section Quotients

variable {n d q : Nat}

/-- No whole number of places is nearer than the one that is rounded to. -/
theorem distance_roundQuotient_le (n : Nat) (hd : 0 < d) (q : Nat) :
    distance n d (roundQuotient n d) ≤ distance n d q := by
  obtain ⟨hlow, hhigh⟩ := roundQuotient_near n hd
  generalize roundQuotient n d = r at hlow hhigh ⊢
  unfold distance
  rcases Nat.lt_trichotomy q r with hlt | rfl | hgt
  · have hplace : (q + 1) * d ≤ r * d := Nat.mul_le_mul_right d hlt
    rw [Nat.succ_mul] at hplace
    omega
  · exact Nat.le_refl _
  · have hplace : (r + 1) * d ≤ q * d := Nat.mul_le_mul_right d hgt
    rw [Nat.succ_mul] at hplace
    omega

/-- Halfway between two whole numbers, the even one is rounded to. -/
theorem roundQuotient_even_of_half (hd : 0 < d) (h : 2 * distance n d (roundQuotient n d) = d) :
    roundQuotient n d % 2 = 0 := by
  have hsplit : n / d * d + n % d = n := Nat.div_add_mod' n d
  have hmod : n % d < d := Nat.mod_lt n hd
  unfold distance roundQuotient Rounding.quotient at h
  unfold roundQuotient Rounding.quotient
  dsimp only at h ⊢
  split at h
  next haway =>
    rw [if_pos haway]
    simp only [Bool.or_eq_true, Bool.and_eq_true, decide_eq_true_eq, beq_iff_eq] at haway
    have hnext : (n / d + 1) * d = n / d * d + d := Nat.succ_mul ..
    omega
  next haway =>
    rw [if_neg haway]
    simp only [Bool.or_eq_true, Bool.and_eq_true, decide_eq_true_eq, beq_iff_eq, not_or,
      not_and] at haway
    omega

/-- Of two whole numbers that are equally near, the even one is rounded to. -/
theorem roundQuotient_even_of_tie (hd : 0 < d) (hne : q ≠ roundQuotient n d)
    (htie : distance n d q = distance n d (roundQuotient n d)) : roundQuotient n d % 2 = 0 := by
  apply roundQuotient_even_of_half hd
  obtain ⟨hlow, hhigh⟩ := roundQuotient_near n hd
  generalize roundQuotient n d = r at hlow hhigh htie hne ⊢
  unfold distance at htie ⊢
  rcases Nat.lt_or_gt_of_ne hne with hlt | hgt
  · have hplace : (q + 1) * d ≤ r * d := Nat.mul_le_mul_right d hlt
    rw [Nat.succ_mul] at hplace
    omega
  · have hplace : (r + 1) * d ≤ q * d := Nat.mul_le_mul_right d hgt
    rw [Nat.succ_mul] at hplace
    omega

end Quotients

/-! ## Numbers of the format -/

namespace Magnitude

/-- A magnitude is decided by its units. -/
theorem eq_of_units_eq {m w : Magnitude} (h : m.units = w.units) : m = w := by
  have hm := Binary64.ofUnits_units false m
  rw [h, Binary64.ofUnits_units] at hm
  cases hm
  rfl

/-- Places of a magnitude are places of any lesser width. -/
theorem units_mul_eq (m : Magnitude) (d : Nat) {k : Nat} (h : k ≤ m.scale) :
    ∃ q, m.units * d = q * (d * 2 ^ k) := by
  refine ⟨m.mantissa * 2 ^ (m.scale - k), ?_⟩
  have hpow : 2 ^ m.scale = 2 ^ (m.scale - k) * 2 ^ k := by
    rw [← Nat.pow_add, Nat.sub_add_cancel h]
  rw [units, hpow, ← Nat.mul_assoc, Nat.mul_assoc, Nat.mul_comm _ d]

/-- Magnitudes with narrower places lie below those that use all of theirs. -/
theorem units_lt_of_scale_lt (m : Magnitude) {k : Nat} (h : m.scale < k) :
    m.units < 2 ^ 52 * 2 ^ k := by
  have hpow : 2 ^ (m.scale + 1) ≤ 2 ^ k := Nat.pow_le_pow_right Nat.two_pos h
  have hlt : m.units < 2 ^ 53 * 2 ^ m.scale :=
    Nat.mul_lt_mul_of_pos_right m.mantissa_lt (Nat.two_pow_pos _)
  rw [Nat.pow_succ] at hpow
  omega

/-- The next magnitude is at most any greater one, and one of the two mantissas is odd. -/
theorem exists_next {m w : Magnitude} (h : m.units < w.units) : ∃ n : Magnitude,
    m.units < n.units ∧ n.units ≤ w.units ∧ n.mantissa % 2 ≠ m.mantissa % 2 := by
  have hpos : 0 < 2 ^ m.scale := Nat.two_pow_pos m.scale
  have hscale : m.scale ≤ w.scale := by
    by_contra hless
    have hw := w.units_lt_of_scale_lt (Nat.lt_of_not_le hless)
    have hm : 2 ^ 52 * 2 ^ m.scale ≤ m.units :=
      Nat.mul_le_mul_right _ (m.canonical.resolve_left (by omega))
    omega
  have hnext : (m.mantissa + 1) * 2 ^ m.scale ≤ w.units := by
    obtain ⟨q, hq⟩ := w.units_mul_eq 1 hscale
    rw [Nat.mul_one, Nat.one_mul] at hq
    rw [hq] at h ⊢
    exact Nat.mul_le_mul_right _ (Nat.lt_of_mul_lt_mul_right h)
  have hgreater : m.units < (m.mantissa + 1) * 2 ^ m.scale :=
    Nat.mul_lt_mul_of_pos_right (Nat.lt_succ_self _) hpos
  by_cases hcarry : m.mantissa + 1 = 2 ^ 53
  · have hlast : m.scale < w.scale := by
      have hw : w.units < 2 ^ 53 * 2 ^ w.scale :=
        Nat.mul_lt_mul_of_pos_right w.mantissa_lt (Nat.two_pow_pos _)
      rw [hcarry] at hnext
      have hpow := Nat.lt_of_mul_lt_mul_left (Nat.lt_of_le_of_lt hnext hw)
      exact (Nat.pow_lt_pow_iff_right (by decide)).1 hpow
    have hunits : 2 ^ 52 * 2 ^ (m.scale + 1) = (m.mantissa + 1) * 2 ^ m.scale := by
      have hexponent : 52 + (m.scale + 1) = 53 + m.scale := by omega
      rw [hcarry, ← Nat.pow_add, ← Nat.pow_add, hexponent]
    refine ⟨⟨2 ^ 52, m.scale + 1, by decide, Nat.le_trans hlast w.scale_le, .inr (Nat.le_refl _)⟩,
      ?_, ?_, ?_⟩
    · change m.units < 2 ^ 52 * 2 ^ (m.scale + 1)
      rw [hunits]
      exact hgreater
    · change 2 ^ 52 * 2 ^ (m.scale + 1) ≤ w.units
      rw [hunits]
      exact hnext
    · change 2 ^ 52 % 2 ≠ m.mantissa % 2
      omega
  · refine ⟨⟨m.mantissa + 1, m.scale, Nat.lt_of_le_of_ne m.mantissa_lt hcarry, m.scale_le,
      m.canonical.imp_right Nat.le_succ_of_le⟩, hgreater, hnext, ?_⟩
    change (m.mantissa + 1) % 2 ≠ m.mantissa % 2
    omega

end Magnitude

namespace Binary64

variable {s : Bool} {n d : Nat}

/-- The places that a quotient is rounded to do not reach beyond the format. -/
def FitsFormat (n d : Nat) : Prop :=
  gridScale n d ≤ 2044 ∨
    gridScale n d = 2045 ∧ roundQuotient n (d * 2 ^ gridScale n d) < 2 ^ 53

theorem roundQuotient_gridScale_le (n : Nat) (hd : 0 < d) :
    roundQuotient n (d * 2 ^ gridScale n d) ≤ 2 ^ 53 :=
  roundQuotient_le (Nat.mul_pos hd (Nat.two_pow_pos _)) (Nat.le_of_lt (lt_of_gridScale n hd))

theorem le_roundQuotient_gridScale (n : Nat) (hd : 0 < d) (h : gridScale n d ≠ 0) :
    2 ^ 52 ≤ roundQuotient n (d * 2 ^ gridScale n d) :=
  le_roundQuotient (Nat.mul_pos hd (Nat.two_pow_pos _)) (le_of_gridScale n hd h)

/-- Within the format, rounding is rounding to a whole number of places, and keeps it even. -/
theorem ofUnits_of_fitsFormat (s : Bool) (hd : 0 < d) (h : FitsFormat n d) :
    ∃ m : Magnitude, ofUnits s n d = .finite s m ∧
      m.units = roundQuotient n (d * 2 ^ gridScale n d) * 2 ^ gridScale n d ∧
      (roundQuotient n (d * 2 ^ gridScale n d) % 2 = 0 → m.mantissa % 2 = 0) := by
  have hle := roundQuotient_gridScale_le n hd
  have hge : gridScale n d = 0 ∨ 2 ^ 52 ≤ roundQuotient n (d * 2 ^ gridScale n d) := by
    by_cases hzero : gridScale n d = 0
    · exact .inl hzero
    · exact .inr (le_roundQuotient_gridScale n hd hzero)
  unfold FitsFormat at h
  unfold ofUnits
  dsimp only
  generalize gridScale n d = scale at h hle hge ⊢
  generalize roundQuotient n (d * 2 ^ scale) = mantissa at h hle hge ⊢
  by_cases hcarry : mantissa = 2 ^ 53
  · have hparts := Magnitude.ofParts?_mantissa_scale
      ⟨2 ^ 52, scale + 1, by decide, by omega, .inr (Nat.le_refl _)⟩
    simp only [hcarry, if_true, hparts]
    refine ⟨_, rfl, ?_, fun _ => (by decide : 2 ^ 52 % 2 = 0)⟩
    have hexponent : 52 + (scale + 1) = 53 + scale := by omega
    rw [Magnitude.units, ← Nat.pow_add, ← Nat.pow_add, hexponent]
  · have hparts := Magnitude.ofParts?_mantissa_scale
      ⟨mantissa, scale, Nat.lt_of_le_of_ne hle hcarry, by omega, hge⟩
    simp only [hcarry, if_false, hparts]
    exact ⟨_, rfl, rfl, id⟩

theorem ofUnits_of_not_fitsFormat (s : Bool) (hd : 0 < d) (h : ¬FitsFormat n d) :
    ofUnits s n d = .infinite s := by
  have hle := roundQuotient_gridScale_le n hd
  unfold FitsFormat at h
  unfold ofUnits
  dsimp only
  generalize gridScale n d = scale at h hle ⊢
  generalize roundQuotient n (d * 2 ^ scale) = mantissa at h hle ⊢
  have hnone (mantissa' scale' : Nat) (hscale : 2045 < scale') :
      Magnitude.ofParts? mantissa' scale' = none := by
    unfold Magnitude.ofParts?
    rw [dif_neg]
    omega
  by_cases hcarry : mantissa = 2 ^ 53
  · simp only [hcarry, if_true, hnone (2 ^ 52) (scale + 1) (by omega)]
  · simp only [hcarry, if_false, hnone mantissa scale (by omega)]

theorem mul_two_pow_mono (d : Nat) {j k : Nat} (h : j ≤ k) : d * 2 ^ j ≤ d * 2 ^ k :=
  Nat.mul_le_mul_left d (Nat.pow_le_pow_right Nat.two_pos h)

theorem mul_two_pow_succ (d k : Nat) : d * 2 ^ (k + 1) = 2 * (d * 2 ^ k) := by
  rw [Nat.pow_succ, Nat.mul_comm _ 2, Nat.mul_left_comm]

theorem mul_two_pow_add_two (d k : Nat) : d * 2 ^ (k + 2) = 2 * (2 * (d * 2 ^ k)) := by
  rw [← mul_two_pow_succ, ← mul_two_pow_succ]

/-- The last number of places is even only beyond the format, so that halfway there is too much. -/
theorem roundQuotient_lt_iff {x : Nat} (hx : 0 < x) (hle : roundQuotient n (2 * x) ≤ 2 ^ 53) :
    roundQuotient n (2 * x) < 2 ^ 53 ↔ n < (2 ^ 54 - 1) * x := by
  obtain ⟨hlow, hhigh⟩ := roundQuotient_near n (Nat.mul_pos Nat.two_pos hx)
  have heven := roundQuotient_even_of_half (n := n) (Nat.mul_pos Nat.two_pos hx)
  unfold distance at heven
  generalize roundQuotient n (2 * x) = r at hle hlow hhigh heven ⊢
  have hplaces : r * (2 * x) = 2 * (r * x) := Nat.mul_left_comm ..
  rw [hplaces] at hlow hhigh heven
  constructor
  · intro hlt
    have hmost : r * x ≤ (2 ^ 53 - 1) * x := Nat.mul_le_mul_right x (by omega)
    by_contra hnot
    have hlast : r = 2 ^ 53 - 1 := by
      refine Nat.le_antisymm (by omega) (Nat.le_of_mul_le_mul_right ?_ hx)
      omega
    rw [hlast] at hlow heven
    omega
  · intro hlt
    refine Nat.lt_of_le_of_ne hle ?_
    rintro rfl
    omega

/-- What rounds to a magnitude of the format is less than halfway to the next power of two. -/
theorem fitsFormat_iff (hd : 0 < d) :
    FitsFormat n d ↔ n < (2 ^ 54 - 1) * (d * 2 ^ 2044) := by
  have hle := roundQuotient_gridScale_le n hd
  have hbelow := lt_of_gridScale n hd
  have habove := le_of_gridScale n hd
  have hx : 0 < d * 2 ^ 2044 := Nat.mul_pos hd (Nat.two_pow_pos 2044)
  unfold FitsFormat
  generalize gridScale n d = scale at hle hbelow habove ⊢
  by_cases hless : scale ≤ 2044
  · have hplace := mul_two_pow_mono d hless
    have hsmall : n < (2 ^ 54 - 1) * (d * 2 ^ 2044) := by omega
    exact ⟨fun _ => hsmall, fun _ => .inl hless⟩
  · by_cases hlast : scale = 2044 + 1
    · have hplace : d * 2 ^ scale = 2 * (d * 2 ^ 2044) := by
        rw [hlast]
        exact mul_two_pow_succ d 2044
      rw [hplace] at hle ⊢
      rw [← roundQuotient_lt_iff hx hle]
      omega
    · have hmore : 2044 + 2 ≤ scale := by omega
      have hplace := mul_two_pow_mono d hmore
      have hwide := mul_two_pow_add_two d 2044
      have hleast := habove (by omega)
      omega

/-- No magnitude is nearer than the one that is rounded to, and a tie goes to the even mantissa. -/
theorem distance_ofUnits_le (hd : 0 < d) {m : Magnitude} (h : ofUnits s n d = .finite s m)
    (w : Magnitude) : distance n d m.units ≤ distance n d w.units ∧
      (w ≠ m → distance n d w.units = distance n d m.units → m.mantissa % 2 = 0) := by
  have hfits : FitsFormat n d := by
    by_contra hnot
    rw [ofUnits_of_not_fitsFormat s hd hnot] at h
    cases h
  obtain ⟨m', hm', hunits, heven⟩ := ofUnits_of_fitsFormat s hd hfits
  cases h.symm.trans hm'
  have hpos : 0 < d * 2 ^ gridScale n d := Nat.mul_pos hd (Nat.two_pow_pos _)
  have habove := le_of_gridScale n hd
  have hplaces : m.units * d =
      roundQuotient n (d * 2 ^ gridScale n d) * (d * 2 ^ gridScale n d) := by
    rw [hunits, Nat.mul_assoc, Nat.mul_comm _ d]
  have hdistance : distance n d m.units = distance n (d * 2 ^ gridScale n d)
      (roundQuotient n (d * 2 ^ gridScale n d)) := by
    rw [distance, distance, hplaces]
  by_cases hscale : gridScale n d ≤ w.scale
  · obtain ⟨q, hq⟩ := w.units_mul_eq d hscale
    have hdistance' : distance n d w.units = distance n (d * 2 ^ gridScale n d) q := by
      rw [distance, distance, hq]
    rw [hdistance, hdistance']
    refine ⟨distance_roundQuotient_le n hpos q, fun hne htie => heven ?_⟩
    refine roundQuotient_even_of_tie hpos (fun hsame => hne ?_) htie
    rw [hsame, ← hplaces] at hq
    exact Magnitude.eq_of_units_eq (Nat.eq_of_mul_eq_mul_right hd hq)
  · have hleast := habove (by omega)
    have hnear := distance_roundQuotient_le n hpos (2 ^ 52)
    have hlt : w.units * d < 2 ^ 52 * (d * 2 ^ gridScale n d) := by
      rw [Nat.mul_comm d, ← Nat.mul_assoc]
      exact Nat.mul_lt_mul_of_pos_right (w.units_lt_of_scale_lt (Nat.lt_of_not_le hscale)) hd
    rw [hdistance]
    generalize distance n (d * 2 ^ gridScale n d) _ = x at hnear ⊢
    unfold distance at hnear ⊢
    exact ⟨by omega, fun _ htie => by omega⟩

end Binary64

/-! ## Rational numbers -/

namespace Magnitude

def toRat (m : Magnitude) : ℚ :=
  m.units / Binary64.unitsPerOne

end Magnitude

namespace Binary64

/-- Halfway between the greatest magnitude and the next power of two. -/
def overflow : ℚ :=
  (2 ^ 54 - 1) * 2 ^ 970

/-- The number of the format that a magnitude is rounded to, of those of positive sign. -/
inductive IsNearest (q : ℚ) : Binary64 → Prop
  | finite {m : Magnitude} (below : q < overflow)
      (nearest : ∀ w : Magnitude, |m.toRat - q| ≤ |w.toRat - q|)
      (even : ∀ w : Magnitude, w ≠ m → |w.toRat - q| = |m.toRat - q| → m.mantissa % 2 = 0) :
      IsNearest q (.finite false m)
  | infinite (above : overflow ≤ q) : IsNearest q (.infinite false)

section Rational

variable {n d : Nat}

theorem two_pow_eq_mul {j k l : Nat} (h : j + k = l) : (2 : ℚ) ^ l = 2 ^ j * 2 ^ k := by
  rw [← h, pow_add]

theorem cast_unitsPerOne : (unitsPerOne : ℚ) = 2 ^ 1074 := by
  unfold unitsPerOne
  generalize 1074 = k
  push_cast
  rfl

theorem mul_unitsPerOne_pos (hd : 0 < d) : (0 : ℚ) < d * unitsPerOne :=
  mul_pos (Nat.cast_pos.2 hd) (Nat.cast_pos.2 (Nat.pos_of_ne_zero unitsPerOne_ne_zero))

/-- Distances of numbers are distances of their units. -/
theorem abs_toRat_sub (m : Magnitude) (n : Nat) (hd : 0 < d) :
    |m.toRat - n / (d * unitsPerOne : ℚ)| = distance n d m.units / (d * unitsPerOne) := by
  have hpos := mul_unitsPerOne_pos hd
  have hsub : m.toRat - n / (d * unitsPerOne : ℚ) = (m.units * d - n) / (d * unitsPerOne) := by
    have hd' : (d : ℚ) ≠ 0 := Nat.cast_ne_zero.2 (Nat.ne_of_gt hd)
    have hunits : (unitsPerOne : ℚ) ≠ 0 := Nat.cast_ne_zero.2 unitsPerOne_ne_zero
    rw [Magnitude.toRat]
    field_simp
  rw [hsub, abs_div, abs_of_pos hpos, distance, Nat.cast_natAbs]
  push_cast
  rfl

theorem overflow_mul (d : Nat) :
    overflow * (d * unitsPerOne) = ((2 ^ 54 - 1) * (d * 2 ^ 2044) : Nat) := by
  have hpow : (2 : ℚ) ^ 2044 = 2 ^ 970 * 2 ^ 1074 := two_pow_eq_mul (by decide)
  have hcast : ((2 ^ 2044 : Nat) : ℚ) = 2 ^ 2044 := by
    generalize 2044 = k
    push_cast
    rfl
  rw [overflow, cast_unitsPerOne, Nat.cast_mul, Nat.cast_mul, hcast, hpow]
  generalize (2 : ℚ) ^ 970 = x
  generalize (2 : ℚ) ^ 1074 = y
  push_cast
  ring

theorem lt_overflow_iff (hd : 0 < d) :
    (n / (d * unitsPerOne) : ℚ) < overflow ↔ n < (2 ^ 54 - 1) * (d * 2 ^ 2044) := by
  rw [div_lt_iff₀ (mul_unitsPerOne_pos hd), overflow_mul, Nat.cast_lt]

/-- A quotient of units is rounded correctly. -/
theorem isNearest_ofUnits (n : Nat) (hd : 0 < d) :
    IsNearest (n / (d * unitsPerOne)) (ofUnits false n d) := by
  have hpos := mul_unitsPerOne_pos hd
  by_cases hfits : FitsFormat n d
  · obtain ⟨m, hm, -⟩ := ofUnits_of_fitsFormat false hd hfits
    rw [hm]
    refine .finite ((lt_overflow_iff hd).2 ((fitsFormat_iff hd).1 hfits)) (fun w => ?_)
      fun w hne htie => ?_
    · rw [abs_toRat_sub m n hd, abs_toRat_sub w n hd, div_le_div_iff_of_pos_right hpos,
        Nat.cast_le]
      exact (distance_ofUnits_le hd hm w).1
    · rw [abs_toRat_sub m n hd, abs_toRat_sub w n hd, div_left_inj' hpos.ne', Nat.cast_inj] at htie
      exact (distance_ofUnits_le hd hm w).2 hne htie
  · rw [ofUnits_of_not_fitsFormat false hd hfits]
    exact .infinite (not_lt.1 (mt (lt_overflow_iff hd).1 (mt (fitsFormat_iff hd).2 hfits)))

theorem isNearest_zero : IsNearest 0 (zero false) := by
  have hunits : Magnitude.zero.units = 0 := Nat.zero_mul _
  have hzero : Magnitude.zero.toRat = 0 := by
    rw [Magnitude.toRat, hunits, Nat.cast_zero, zero_div]
  refine .finite (by unfold overflow; positivity) (fun w => ?_) fun _ _ _ => rfl
  rw [hzero, sub_zero, abs_zero]
  exact abs_nonneg _

/-- A decimal is rounded correctly. -/
theorem isNearest_ofDecimal (m : Nat) (e : Int) : IsNearest (m * 10 ^ e) (ofDecimal false m e) := by
  by_cases hm : m = 0
  · rw [hm, ofDecimal_zero, Nat.cast_zero, zero_mul]
    exact isNearest_zero
  · have hunits : (unitsPerOne : ℚ) ≠ 0 := Nat.cast_ne_zero.2 unitsPerOne_ne_zero
    have hquotient : (m * 10 ^ e : ℚ) = (m * unitsPerOne * 10 ^ e.toNat : Nat) /
        ((10 ^ (-e).toNat : Nat) * unitsPerOne) := by
      have hpower : (10 : ℚ) ^ e = 10 ^ e.toNat / 10 ^ (-e).toNat := by
        rw [← zpow_natCast, ← zpow_natCast, ← zpow_sub₀ (by norm_num), Int.toNat_sub_toNat_neg]
      rw [hpower]
      push_cast
      field_simp
    rw [ofDecimal_eq_ofUnits false hm, hquotient]
    exact isNearest_ofUnits _ (ten_pow_pos _)

theorem Magnitude.toRat_lt_iff {m w : Magnitude} : m.toRat < w.toRat ↔ m.units < w.units := by
  have hpos : (0 : ℚ) < unitsPerOne := Nat.cast_pos.2 (Nat.pos_of_ne_zero unitsPerOne_ne_zero)
  rw [Magnitude.toRat, Magnitude.toRat, div_lt_div_iff_of_pos_right hpos, Nat.cast_lt]

/-- There are no two nearest numbers, since one of two neighbours has an odd mantissa. -/
theorem IsNearest.not_units_lt {q : ℚ} {m w : Magnitude} (h : IsNearest q (.finite false m))
    (h' : IsNearest q (.finite false w)) : ¬m.units < w.units := by
  intro hlt
  cases h with
  | finite _ nearest even =>
      cases h' with
      | finite _ nearest' even' =>
          have hne : m ≠ w := by
            rintro rfl
            exact Nat.lt_irrefl _ hlt
          have htie : |m.toRat - q| = |w.toRat - q| := le_antisymm (nearest w) (nearest' m)
          have heven := even w hne.symm htie.symm
          have heven' := even' m hne htie
          obtain ⟨n, hmn, hnw, hodd⟩ := Magnitude.exists_next hlt
          have hnw : n.units < w.units := by
            refine Nat.lt_of_le_of_ne hnw fun hsame => ?_
            rw [Magnitude.eq_of_units_eq hsame] at hodd
            omega
          rw [← Magnitude.toRat_lt_iff] at hlt hmn hnw
          have hhalf : m.toRat - q = -(w.toRat - q) := by
            rcases abs_eq_abs.1 htie with heq | heq
            · linarith
            · exact heq
          have hnear := nearest n
          rw [abs_of_neg (by linarith : m.toRat - q < 0)] at hnear
          rcases le_abs.1 hnear with hle | hle
          · linarith
          · linarith

/-- Correct rounding leaves only one number. -/
theorem IsNearest.unique {q : ℚ} {v w : Binary64} (h : IsNearest q v) (h' : IsNearest q w) :
    v = w := by
  cases h with
  | @finite m below nearest even =>
      cases h' with
      | @finite w below' nearest' even' =>
          have h : IsNearest q (.finite false m) := .finite below nearest even
          have h' : IsNearest q (.finite false w) := .finite below' nearest' even'
          rw [Magnitude.eq_of_units_eq (Nat.le_antisymm (Nat.le_of_not_lt (h'.not_units_lt h))
            (Nat.le_of_not_lt (h.not_units_lt h')))]
      | infinite above => exact absurd below (not_lt.2 above)
  | infinite above =>
      cases h' with
      | finite below _ _ => exact absurd below (not_lt.2 above)
      | infinite _ => rfl

end Rational

end Binary64

end Calculator
