import Calculator.Binary64.Arithmetic

/-!
# Laws of rounding

Rounding depends on the number alone, not on the quotient that stands for it,
keeps the numbers of the format and commutes with negation.
-/

namespace Calculator

theorem roundQuotient_mul_mul (n d : Nat) {c : Nat} (hc : 0 < c) :
    roundQuotient (n * c) (d * c) = roundQuotient n d := by
  have hdouble : 2 * (n % d * c) = 2 * (n % d) * c := (Nat.mul_assoc ..).symm
  have hlt : (d * c < 2 * (n % d) * c) = (d < 2 * (n % d)) := by
    rw [Nat.mul_lt_mul_right hc]
  have heq : (2 * (n % d) * c == d * c) = (2 * (n % d) == d) := by
    rw [Bool.eq_iff_iff, beq_iff_eq, beq_iff_eq, Nat.mul_right_cancel_iff hc]
  simp only [roundQuotient, Rounding.quotient, Nat.mul_div_mul_right n d hc,
    Nat.mul_mod_mul_right, hdouble, hlt, heq]

theorem roundQuotient_mul_self (q : Nat) {d : Nat} (hd : 0 < d) : roundQuotient (q * d) d = q := by
  have hne : (0 == d) = false := by
    rw [beq_eq_false_iff_ne]
    exact Nat.ne_of_lt hd
  simp [roundQuotient, Rounding.quotient, Nat.mul_div_cancel q hd, hne]

theorem roundQuotient_of_lt {n d : Nat} (h : 2 * n < d) : roundQuotient n d = 0 := by
  have hlt : n < d := by omega
  have hne : (2 * n == d) = false := by
    rw [beq_eq_false_iff_ne]
    omega
  simp [roundQuotient, Rounding.quotient, Nat.div_eq_of_lt hlt, Nat.mod_eq_of_lt hlt, hne]
  omega

namespace Magnitude

theorem eq_zero_of_units_eq_zero {m : Magnitude} (h : m.units = 0) : m = .zero := by
  obtain ⟨mantissa, scale, hlt, hle, hcanonical⟩ := m
  have hmantissa : mantissa = 0 := by
    rcases Nat.mul_eq_zero.1 h with hzero | hzero
    · exact hzero
    · exact absurd hzero (Nat.ne_of_gt (Nat.two_pow_pos scale))
  subst hmantissa
  have hscale : scale = 0 := hcanonical.resolve_right (by decide)
  subst hscale
  rfl

end Magnitude

namespace Binary64

theorem neg_ofUnits (s : Bool) (n d : Nat) : neg (ofUnits s n d) = ofUnits (!s) n d := by
  unfold ofUnits
  dsimp only
  split <;> rfl

theorem ofUnits_mul_mul (s : Bool) (n d : Nat) {c : Nat} (hc : 0 < c) :
    ofUnits s (n * c) (d * c) = ofUnits s n d := by
  have hscale : gridScale (n * c) (d * c) = gridScale n d := by
    rw [gridScale, Nat.mul_div_mul_right n d hc, gridScale]
  have hround (k : Nat) : roundQuotient (n * c) (d * c * k) = roundQuotient n (d * k) := by
    rw [Nat.mul_right_comm, roundQuotient_mul_mul _ _ hc]
  unfold ofUnits
  simp only [hscale, hround]

/-- Equal quotients are rounded alike. -/
theorem ofUnits_eq_of_cross (s : Bool) {n d n' d' : Nat} (hd : 0 < d) (hd' : 0 < d')
    (h : n * d' = n' * d) : ofUnits s n d = ofUnits s n' d' :=
  calc
    ofUnits s n d = ofUnits s (n * d') (d * d') := (ofUnits_mul_mul s n d hd').symm
    _ = ofUnits s (n' * d) (d' * d) := by rw [h, Nat.mul_comm d d']
    _ = ofUnits s n' d' := ofUnits_mul_mul s n' d' hd

/-- A number of the format is its own nearest. -/
theorem ofUnits_units (s : Bool) (m : Magnitude) : ofUnits s m.units 1 = .finite s m := by
  have hscale : gridScale m.units 1 = m.scale := by
    rw [gridScale, Nat.div_one]
    rcases m.canonical with hzero | hge
    · have hunits : m.units = m.mantissa := by
        rw [Magnitude.units, hzero, Nat.pow_zero, Nat.mul_one]
      have hlt : m.mantissa.log2 < 53 ∨ m.mantissa = 0 := by
        by_cases hm : m.mantissa = 0
        · exact .inr hm
        · exact .inl ((Nat.log2_lt hm).2 m.mantissa_lt)
      rw [hunits, hzero]
      rcases hlt with hlt | hm
      · omega
      · rw [hm]
        rfl
    · have hpos : 0 < 2 ^ m.scale := Nat.two_pow_pos m.scale
      have hne : m.units ≠ 0 := by
        have hmantissa : 0 < m.mantissa := Nat.lt_of_lt_of_le (by decide) hge
        exact Nat.ne_of_gt (Nat.mul_pos hmantissa hpos)
      have hlow : 52 + m.scale ≤ m.units.log2 := by
        rw [Nat.le_log2 hne, Nat.pow_add]
        exact Nat.mul_le_mul_right _ hge
      have hhigh : m.units.log2 < 53 + m.scale := by
        rw [Nat.log2_lt hne, Nat.pow_add]
        exact Nat.mul_lt_mul_of_pos_right m.mantissa_lt hpos
      omega
  have hround : roundQuotient m.units (1 * 2 ^ m.scale) = m.mantissa := by
    rw [Nat.one_mul]
    exact roundQuotient_mul_self _ (Nat.two_pow_pos m.scale)
  unfold ofUnits
  simp only [hscale, hround, Nat.ne_of_lt m.mantissa_lt, if_false, m.ofParts?_mantissa_scale]

theorem ofUnits_of_log2_ge (s : Bool) {n d : Nat} (h : 2098 ≤ (n / d).log2) :
    ofUnits s n d = .infinite s := by
  have hscale : 2046 ≤ gridScale n d := by
    unfold gridScale
    omega
  have hparts (mantissa scale : Nat) (hle : 2046 ≤ scale) :
      Magnitude.ofParts? mantissa scale = none := by
    unfold Magnitude.ofParts?
    rw [dif_neg]
    omega
  unfold ofUnits
  dsimp only
  rw [hparts]
  split
  · exact Nat.le_succ_of_le hscale
  · exact hscale

theorem ofUnits_of_lt (s : Bool) {n d : Nat} (h : 2 * n < d) : ofUnits s n d = zero s := by
  have hscale : gridScale n d = 0 := by
    rw [gridScale, Nat.div_eq_of_lt (by omega)]
    rfl
  unfold ofUnits
  simp only [hscale, Nat.pow_zero, Nat.mul_one, roundQuotient_of_lt h]
  rfl

/-- Changing the sign of a factor changes the sign of the product. -/
theorem neg_mul (a b : Binary64) : mul (neg a) b = neg (mul a b) := by
  cases a with
  | nan => cases b <;> rfl
  | infinite s =>
      cases b with
      | nan => rfl
      | infinite t => simp [mul, neg]
      | finite t n =>
          simp only [mul, neg]
          split <;> simp
  | finite s m =>
      cases b with
      | nan => rfl
      | infinite t =>
          simp only [mul, neg]
          split <;> simp
      | finite t n =>
          have hsign : (!(s ^^ t)) = ((!s) ^^ t) := (Bool.not_xor s t).symm
          change ofUnits ((!s) ^^ t) _ _ = neg (ofUnits (s ^^ t) _ _)
          rw [neg_ofUnits, hsign]

end Binary64

end Calculator
