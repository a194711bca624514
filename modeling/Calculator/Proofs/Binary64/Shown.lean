import Calculator.Proofs.Binary64.Decimal
import Calculator.Proofs.Binary64.Nearest

/-!
# Shown results read back

From eight on, the numbers of the format lie so far apart that the shown places
tell them from each other, and a shown result is read back as the number it was.
Below eight they lie so close together that the number that is read back is
shown alike.
-/

namespace Calculator

/-- Eight, from which on a number has fewer places of two than are shown of ten. -/
def Magnitude.eight : Magnitude :=
  ⟨2 ^ 52, 1025, by decide, by decide, .inr (Nat.le_refl _)⟩

namespace Binary64

theorem units_eight : Magnitude.eight.units = 8 * unitsPerOne := by decide +kernel

theorem ofNat_eight : ofNat 8 = .finite false .eight := by
  rw [ofNat, ← units_eight, ofUnits_units]

theorem unitsPerOne_pos : 0 < unitsPerOne :=
  Nat.pos_of_ne_zero unitsPerOne_ne_zero

/-- Below eight, half a place of the format is less than half a shown place. -/
theorem scale_lt_unitsPerOne : 10 ^ shownPlaces * 2 ^ 1024 < unitsPerOne := by decide +kernel

/-- From eight on, half a shown place is less than half a place of the format. -/
theorem unitsPerOne_lt_scale : unitsPerOne < 10 ^ shownPlaces * 2 ^ 1025 := by decide +kernel

variable {m : Magnitude}

theorem atLeast_eight_iff :
    (Binary64.finite false m).atLeast (ofNat 8) ↔ 8 * unitsPerOne ≤ m.units := by
  have hcompare : compare? (.finite false m) (ofNat 8) =
      some (compare (m.units : Int) (8 * unitsPerOne : Nat)) := by
    rw [ofNat_eight, ← units_eight]
    rfl
  rw [atLeast, hcompare]
  cases horder : compare (m.units : Int) (8 * unitsPerOne : Nat) with
  | lt =>
      have hlt := Int.compare_eq_lt.1 horder
      simp only [Bool.false_eq_true, false_iff]
      omega
  | eq =>
      have heq := Int.compare_eq_eq.1 horder
      simp only [true_iff]
      omega
  | gt =>
      have hgt := Int.compare_eq_gt.1 horder
      simp only [true_iff]
      omega

/-- What is shown of a number is off by half a shown place at most. -/
theorem shownUnits_near (m : Magnitude) :
    2 * (m.units * 10 ^ shownPlaces) ≤ 2 * (shownUnits m * unitsPerOne) + unitsPerOne ∧
      2 * (shownUnits m * unitsPerOne) ≤ 2 * (m.units * 10 ^ shownPlaces) + unitsPerOne :=
  roundQuotient_near _ unitsPerOne_pos

theorem shownUnits_eq_of_near {q : Nat}
    (hlow : 2 * (m.units * 10 ^ shownPlaces) < 2 * (q * unitsPerOne) + unitsPerOne)
    (hhigh : 2 * (q * unitsPerOne) < 2 * (m.units * 10 ^ shownPlaces) + unitsPerOne) :
    shownUnits m = q :=
  roundQuotient_eq_of_near hlow hhigh

theorem shownUnits_of_units {k : Nat} (h : m.units = k * unitsPerOne) :
    shownUnits m = k * 10 ^ shownPlaces := by
  rw [shownUnits, h, Nat.mul_right_comm, roundQuotient_mul_self _ unitsPerOne_pos]

/-! ## From eight on -/

theorem scale_of_eight_le (h : 8 * unitsPerOne ≤ m.units) : 1025 ≤ m.scale := by
  have height : 2 ^ 53 * 2 ^ 1024 = 8 * unitsPerOne := by decide +kernel
  refine Nat.le_of_not_lt fun hscale => ?_
  have hpow := Nat.pow_le_pow_right Nat.two_pos (Nat.le_of_lt_succ hscale)
  have hle := Nat.mul_le_mul_left (2 ^ 53) hpow
  have hlt : m.units < 2 ^ 53 * 2 ^ m.scale :=
    Nat.mul_lt_mul_of_pos_right m.mantissa_lt (Nat.two_pow_pos _)
  omega

/-- A whole number is shown as it is. -/
theorem ofUnits_shownUnits_of_units (s : Bool) {k : Nat} (h : m.units = k * unitsPerOne) :
    ofUnits s (shownUnits m * unitsPerOne) (10 ^ shownPlaces) = .finite s m := by
  rw [shownUnits_of_units h, ← ofUnits_units s m]
  apply ofUnits_eq_of_cross s (ten_pow_pos _) Nat.one_pos
  rw [h, Nat.mul_one, Nat.mul_right_comm]

/-- From eight on, no two numbers are shown alike. -/
theorem ofUnits_shownUnits (s : Bool) (h : 8 * unitsPerOne ≤ m.units) :
    ofUnits s (shownUnits m * unitsPerOne) (10 ^ shownPlaces) = .finite s m := by
  have hscale := scale_of_eight_le h
  have hmantissa : 2 ^ 52 ≤ m.mantissa := m.canonical.resolve_left (by omega)
  rcases Nat.eq_or_lt_of_le hmantissa with hleast | hmore
  · have hunits : m.units = 2 ^ (m.scale - 1022) * unitsPerOne := by
      have hexponent : 52 + m.scale = m.scale - 1022 + 1074 := by omega
      rw [Magnitude.units, ← hleast, ← Nat.pow_add, hexponent, Nat.pow_add, unitsPerOne]
    exact ofUnits_shownUnits_of_units s hunits
  · obtain ⟨hlow, hhigh⟩ := shownUnits_near m
    have hpow := Nat.pow_le_pow_right Nat.two_pos hscale
    have hplace : unitsPerOne < 10 ^ shownPlaces * 2 ^ m.scale :=
      Nat.lt_of_lt_of_le unitsPerOne_lt_scale (Nat.mul_le_mul_left _ hpow)
    rw [Nat.mul_comm] at hplace
    exact ofUnits_of_near s (ten_pow_pos _) hmore (by omega) (by omega)

/-! ## Below eight -/

theorem shownUnits_le (h : m.units < 8 * unitsPerOne) : shownUnits m ≤ 8 * 10 ^ shownPlaces := by
  refine roundQuotient_le unitsPerOne_pos ?_
  rw [Nat.mul_right_comm]
  exact Nat.mul_le_mul_right _ (Nat.le_of_lt h)

theorem lt_eight_of_shownUnits_eq_zero (h : shownUnits m = 0) : m.units < 8 * unitsPerOne := by
  have hnear := (shownUnits_near m).1
  have hpos := unitsPerOne_pos
  have hle : m.units ≤ m.units * 10 ^ shownPlaces := Nat.le_mul_of_pos_right _ (ten_pow_pos _)
  rw [h, Nat.zero_mul] at hnear
  omega

/-- What is shown below eight is read back as a number that is shown alike. -/
theorem shownUnits_ofUnits (s : Bool) {q : Nat} (h : q < 8 * 10 ^ shownPlaces) :
    ∃ w, ofUnits s (q * unitsPerOne) (10 ^ shownPlaces) = .finite s w ∧ shownUnits w = q := by
  have hlt : q * unitsPerOne < 2 ^ (53 + 1024) * 10 ^ shownPlaces :=
    calc
      q * unitsPerOne < 8 * 10 ^ shownPlaces * unitsPerOne :=
        Nat.mul_lt_mul_of_pos_right h unitsPerOne_pos
      _ = 2 ^ (53 + 1024) * 10 ^ shownPlaces := by decide +kernel
  have hscale : gridScale (q * unitsPerOne) (10 ^ shownPlaces) ≤ 1024 :=
    gridScale_le (ten_pow_pos _) hlt
  obtain ⟨w, hw, hunits⟩ := ofUnits_finite (n := q * unitsPerOne) s (ten_pow_pos shownPlaces)
    (by omega)
  refine ⟨w, hw, ?_⟩
  generalize gridScale (q * unitsPerOne) (10 ^ shownPlaces) = scale at hscale hunits
  have hplace : 10 ^ shownPlaces * 2 ^ scale < unitsPerOne :=
    Nat.lt_of_le_of_lt (Nat.mul_le_mul_left _ (Nat.pow_le_pow_right (by decide) hscale))
      scale_lt_unitsPerOne
  obtain ⟨hlow, hhigh⟩ := roundQuotient_near (q * unitsPerOne)
    (Nat.mul_pos (ten_pow_pos shownPlaces) (Nat.two_pow_pos scale))
  have hread : w.units * 10 ^ shownPlaces = roundQuotient (q * unitsPerOne)
      (10 ^ shownPlaces * 2 ^ scale) * (10 ^ shownPlaces * 2 ^ scale) := by
    rw [hunits, Nat.mul_assoc, Nat.mul_comm (2 ^ scale)]
  exact shownUnits_eq_of_near (by omega) (by omega)

/-! ## Both -/

/--
The digits that are shown of a number are read as a number that is shown alike,
and from eight on as the number itself.
-/
theorem exists_ofUnits_shownUnits (s : Bool) (m : Magnitude) :
    ∃ w, ofUnits s (shownUnits m * unitsPerOne) (10 ^ shownPlaces) = .finite s w ∧
      shownUnits w = shownUnits m ∧ (8 * unitsPerOne ≤ m.units → w = m) := by
  by_cases h : 8 * unitsPerOne ≤ m.units
  · exact ⟨m, ofUnits_shownUnits s h, rfl, fun _ => rfl⟩
  · rcases Nat.eq_or_lt_of_le (shownUnits_le (Nat.lt_of_not_le h)) with height | hless
    · have hshown : shownUnits .eight = shownUnits m := by
        rw [shownUnits_of_units units_eight, height]
      refine ⟨.eight, ?_, hshown, fun hle => absurd hle h⟩
      rw [← hshown]
      exact ofUnits_shownUnits_of_units s units_eight
    · obtain ⟨w, hw, hshown⟩ := shownUnits_ofUnits s hless
      exact ⟨w, hw, hshown, fun hle => absurd hle h⟩

end Binary64

end Calculator
