import Calculator.Binary64.Text
import Calculator.Proofs.Binary64.Rounding

/-!
# Decimals read back

The number that a decimal is rounded to depends on its value alone, and the
shortest digits of a magnitude are rounded to the magnitude.
-/

namespace Calculator

namespace Decimal

/-- The zeros that are left out of the digits stand in the exponent. -/
theorem exists_digits_eq_trim_mul (d : Decimal) :
    ∃ k : Nat, d.digits = d.trim.digits * 10 ^ k ∧ d.trim.exponent = d.exponent + k := by
  fun_induction trim d with
  | case1 d h ih =>
      obtain ⟨k, hdigits, hexponent⟩ := ih
      dsimp only at hdigits hexponent
      refine ⟨k + 1, ?_, ?_⟩
      · rw [Nat.pow_succ, ← Nat.mul_assoc, ← hdigits]
        omega
      · omega
  | case2 d h => exact ⟨0, (Nat.mul_one _).symm, (Int.add_zero _).symm⟩

end Decimal

namespace Binary64

theorem ten_pow_pos (k : Nat) : 0 < 10 ^ k :=
  Nat.pow_pos (by decide)

theorem unitsPerOne_ne_zero : unitsPerOne ≠ 0 := by decide +kernel

theorem two_pow_le_units : 2 ^ 2098 ≤ unitsPerOne * 10 ^ 310 := by decide +kernel

theorem mul_ten_pow_le {m u j k : Nat} (hm : m ≠ 0) (hk : j ≤ k) :
    u * 10 ^ j ≤ m * u * 10 ^ k :=
  Nat.mul_le_mul (Nat.le_mul_of_pos_left u (Nat.pos_of_ne_zero hm))
    (Nat.pow_le_pow_right (by decide) hk)

theorem two_pow_le_mul_units {m k : Nat} (hm : m ≠ 0) (hk : 310 ≤ k) :
    2 ^ 2098 ≤ m * unitsPerOne * 10 ^ k := by
  have hle := mul_ten_pow_le (u := unitsPerOne) hm hk
  exact Nat.le_trans two_pow_le_units hle

theorem double_lt_ten_pow {m j k : Nat} (h : m.log2 + j + 2 ≤ 3 * k) :
    2 * (m * 2 ^ j) < 10 ^ k := by
  have hm : m < 2 ^ (m.log2 + 1) := Nat.lt_log2_self
  calc
    2 * (m * 2 ^ j) = m * 2 ^ (j + 1) := by rw [Nat.pow_succ, Nat.mul_left_comm, Nat.mul_comm 2]
    _ < 2 ^ (m.log2 + 1) * 2 ^ (j + 1) := Nat.mul_lt_mul_of_pos_right hm (Nat.two_pow_pos _)
    _ = 2 ^ (m.log2 + 1 + (j + 1)) := (Nat.pow_add ..).symm
    _ ≤ 2 ^ (3 * k) := Nat.pow_le_pow_right (by decide) (by omega)
    _ = 8 ^ k := by rw [Nat.pow_mul]
    _ ≤ 10 ^ k := Nat.pow_le_pow_left (by decide) k

theorem double_units_lt {m k : Nat} (h : m.log2 + 1100 < 3 * k) :
    2 * (m * unitsPerOne) < 10 ^ k := by
  unfold unitsPerOne
  exact double_lt_ten_pow (j := 1074) (by omega)

/-- Beyond the format at either end, rounding needs no quotient but comes to the same. -/
theorem ofDecimal_eq_ofUnits (s : Bool) {m : Nat} (hm : m ≠ 0) (e : Int) :
    ofDecimal s m e = ofUnits s (m * unitsPerOne * 10 ^ e.toNat) (10 ^ (-e).toNat) := by
  unfold ofDecimal
  rw [if_neg hm]
  split
  next hlarge =>
    have hdenominator : (-e).toNat = 0 := by omega
    have hlarge : 310 ≤ e.toNat := by omega
    have hle := two_pow_le_mul_units hm hlarge
    have hne : m * unitsPerOne * 10 ^ e.toNat ≠ 0 :=
      Nat.mul_ne_zero (Nat.mul_ne_zero hm unitsPerOne_ne_zero) (Nat.ne_of_gt (ten_pow_pos _))
    rw [hdenominator, Nat.pow_zero]
    refine (ofUnits_of_log2_ge s ?_).symm
    rw [Nat.div_one, Nat.le_log2 hne]
    exact hle
  next =>
    split
    next hsmall =>
      have hnumerator : e.toNat = 0 := by omega
      rw [hnumerator, Nat.pow_zero, Nat.mul_one]
      exact (ofUnits_of_lt s (double_units_lt hsmall)).symm
    next => rfl

theorem ofDecimal_zero (s : Bool) (e : Int) : ofDecimal s 0 e = zero s :=
  if_pos rfl

theorem ten_pow_cross (m u k : Nat) (e : Int) :
    m * 10 ^ k * u * 10 ^ e.toNat * 10 ^ (-(e + k)).toNat =
      m * u * 10 ^ (e + k).toNat * 10 ^ (-e).toNat := by
  have hexponents : k + (e.toNat + (-(e + k)).toNat) = (e + k).toNat + (-e).toNat := by omega
  rw [Nat.mul_right_comm m, Nat.mul_assoc, Nat.mul_assoc, Nat.mul_assoc, ← Nat.pow_add,
    ← Nat.pow_add, hexponents, Nat.pow_add]
  simp only [Nat.mul_assoc]

/-- Zeros at the end of the digits can stand in the exponent. -/
theorem ofDecimal_mul_pow (s : Bool) (m k : Nat) (e : Int) :
    ofDecimal s (m * 10 ^ k) e = ofDecimal s m (e + k) := by
  by_cases hm : m = 0
  · rw [hm, Nat.zero_mul, ofDecimal_zero, ofDecimal_zero]
  · have hm' : m * 10 ^ k ≠ 0 :=
      Nat.ne_of_gt (Nat.mul_pos (Nat.pos_of_ne_zero hm) (ten_pow_pos k))
    rw [ofDecimal_eq_ofUnits s hm', ofDecimal_eq_ofUnits s hm]
    exact ofUnits_eq_of_cross s (ten_pow_pos _) (ten_pow_pos _) (ten_pow_cross m unitsPerOne k e)

theorem ofDecimal_trim (s : Bool) (d : Decimal) :
    ofDecimal s d.trim.digits d.trim.exponent = ofDecimal s d.digits d.exponent := by
  obtain ⟨k, hdigits, hexponent⟩ := d.exists_digits_eq_trim_mul
  rw [hdigits, ofDecimal_mul_pow, hexponent]

theorem ofUnits_mul_five_pow (s : Bool) (n k : Nat) :
    ofUnits s (n * 5 ^ k * 2 ^ k) (10 ^ k) = ofUnits s n 1 := by
  apply ofUnits_eq_of_cross s (ten_pow_pos k) (by decide)
  rw [Nat.mul_one, Nat.mul_assoc, ← Nat.mul_pow]

/-- Every unit is a decimal, so the digits of a magnitude never have to be cut off. -/
theorem ofDecimal_exactDecimal (m : Magnitude) :
    ofDecimal false m.exactDecimal.digits m.exactDecimal.exponent = .finite false m := by
  by_cases hunits : m.units = 0
  · have hdigits (k : Nat) : m.units * 5 ^ k = 0 := by rw [hunits, Nat.zero_mul]
    rw [Magnitude.exactDecimal, hdigits 1074, ofDecimal_zero,
      Magnitude.eq_zero_of_units_eq_zero hunits]
    rfl
  · have hdigits (k : Nat) : m.units * 5 ^ k ≠ 0 :=
      Nat.mul_ne_zero hunits (Nat.ne_of_gt (Nat.pow_pos (by decide)))
    have hnumerator : (-1074 : Int).toNat = 0 := rfl
    have hdenominator : (- -1074 : Int).toNat = 1074 := rfl
    have hread := ofDecimal_eq_ofUnits false (hdigits 1074) (-1074)
    rw [hnumerator, hdenominator, Nat.pow_zero, Nat.mul_one] at hread
    unfold unitsPerOne at hread
    exact (hread.trans (ofUnits_mul_five_pow false m.units 1074)).trans (ofUnits_units false m)

theorem ofDecimal_of_onGrid? {m : Magnitude} {e : Int} {d : Decimal} (h : m.onGrid? e = some d) :
    ofDecimal false d.digits d.exponent = .finite false m := by
  unfold Magnitude.onGrid? at h
  have hreads : m.readsBack d := List.find?_some h
  unfold Magnitude.readsBack at hreads
  rwa [beq_iff_eq] at hreads

/-- The shortest digits of a magnitude read back. -/
theorem ofDecimal_shortest (m : Magnitude) :
    ofDecimal false m.shortest.digits m.shortest.exponent = .finite false m := by
  have hgrid (d : Decimal)
      (hd : (List.range 17).findSome? (fun more : Nat => m.onGrid? (m.lead - more)) = some d) :
      ofDecimal false d.digits d.exponent = .finite false m := by
    obtain ⟨more, -, hmore⟩ := List.exists_of_findSome?_eq_some hd
    exact ofDecimal_of_onGrid? hmore
  generalize hs : m.shortest = s
  -- Unfolding under the argument would have the kernel search for the digits.
  generalize hf : Magnitude.shortest = f at hs
  delta Magnitude.shortest at hf
  subst hf
  dsimp only at hs
  generalize (List.range 17).findSome? (fun more : Nat => m.onGrid? (m.lead - more)) = found
    at hs hgrid
  cases found with
  | some d =>
      have hs : d.trim = s := hs
      rw [← hs, ofDecimal_trim, hgrid d rfl]
  | none =>
      have hs : m.exactDecimal.trim = s := hs
      rw [← hs, ofDecimal_trim, ofDecimal_exactDecimal]

end Binary64

end Calculator
