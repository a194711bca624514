import Calculator.Proofs.Binary64.Rounding

/-!
# Nearest numbers

What is rounded is off by at most half a place, and whatever is off by less is
what is rounded to. Both hold of whole numbers and, between two powers of two,
of the numbers of the format.
-/

namespace Calculator

/-! ## Whole numbers -/

section Quotients

variable {n d q : Nat}

/-- A quotient is rounded by half a unit at most. -/
theorem roundQuotient_near (n : Nat) (hd : 0 < d) :
    2 * n ≤ 2 * (roundQuotient n d * d) + d ∧ 2 * (roundQuotient n d * d) ≤ 2 * n + d := by
  have hsplit : n / d * d + n % d = n := Nat.div_add_mod' n d
  have hmod : n % d < d := Nat.mod_lt n hd
  unfold roundQuotient Rounding.quotient
  dsimp only
  split
  next haway =>
    have hhalf : d ≤ 2 * (n % d) := by
      simp only [Bool.or_eq_true, Bool.and_eq_true, decide_eq_true_eq, beq_iff_eq] at haway
      omega
    rw [Nat.add_mul, Nat.one_mul]
    omega
  next haway =>
    have hhalf : 2 * (n % d) ≤ d := by
      simp only [Bool.or_eq_true, decide_eq_true_eq, not_or] at haway
      omega
    omega

/-- What is off by less than half a unit is what the quotient is rounded to. -/
theorem roundQuotient_eq_of_near (hlow : 2 * n < 2 * (q * d) + d)
    (hhigh : 2 * (q * d) < 2 * n + d) :
    roundQuotient n d = q := by
  have hd : 0 < d := by omega
  obtain ⟨hnear, hnear'⟩ := roundQuotient_near n hd
  have hle : roundQuotient n d < q + 1 := by
    refine Nat.lt_of_mul_lt_mul_right (a := d) ?_
    rw [Nat.succ_mul]
    omega
  have hge : q < roundQuotient n d + 1 := by
    refine Nat.lt_of_mul_lt_mul_right (a := d) ?_
    rw [Nat.succ_mul]
    omega
  omega

theorem le_roundQuotient (hd : 0 < d) (h : q * d ≤ n) : q ≤ roundQuotient n d := by
  have hnear := (roundQuotient_near n hd).1
  refine Nat.le_of_lt_succ (Nat.lt_of_mul_lt_mul_right (a := d) ?_)
  rw [Nat.succ_mul]
  omega

theorem roundQuotient_le (hd : 0 < d) (h : n ≤ q * d) : roundQuotient n d ≤ q := by
  have hnear := (roundQuotient_near n hd).2
  refine Nat.le_of_lt_succ (Nat.lt_of_mul_lt_mul_right (a := d) ?_)
  rw [Nat.succ_mul]
  omega

end Quotients

/-! ## Numbers of the format -/

namespace Binary64

variable {s : Bool} {n d k : Nat}

theorem gridScale_le (hd : 0 < d) (h : n < 2 ^ (53 + k) * d) : gridScale n d ≤ k := by
  have hlt : n / d < 2 ^ (53 + k) := (Nat.div_lt_iff_lt_mul hd).2 h
  unfold gridScale
  by_cases hzero : n / d = 0
  · simp [hzero]
  · have hlog := (Nat.log2_lt hzero).2 hlt
    omega

theorem le_gridScale (hd : 0 < d) (h : 2 ^ (52 + k) * d ≤ n) : k ≤ gridScale n d := by
  have hle : 2 ^ (52 + k) ≤ n / d := (Nat.le_div_iff_mul_le hd).2 h
  have hne : n / d ≠ 0 := Nat.ne_of_gt (Nat.lt_of_lt_of_le (Nat.two_pow_pos _) hle)
  have hlog := (Nat.le_log2 hne).2 hle
  unfold gridScale
  omega

/-- The quotient lies below the power of two that its places end at. -/
theorem lt_of_gridScale (n : Nat) (hd : 0 < d) : n < 2 ^ 53 * (d * 2 ^ gridScale n d) := by
  have hlog : n / d < 2 ^ ((n / d).log2 + 1) := Nat.lt_log2_self
  have hle : 2 ^ ((n / d).log2 + 1) ≤ 2 ^ (53 + gridScale n d) :=
    Nat.pow_le_pow_right (by decide) (by unfold gridScale; omega)
  have hlt := (Nat.div_lt_iff_lt_mul hd).1 (Nat.lt_of_lt_of_le hlog hle)
  rwa [Nat.pow_add, Nat.mul_assoc, Nat.mul_comm _ d] at hlt

/-- Where places are lost, all the places that are kept are used. -/
theorem le_of_gridScale (n : Nat) (hd : 0 < d) (h : gridScale n d ≠ 0) :
    2 ^ 52 * (d * 2 ^ gridScale n d) ≤ n := by
  have hscale : gridScale n d = (n / d).log2 - 52 := rfl
  have hne : n / d ≠ 0 := by
    intro hzero
    rw [hscale, hzero] at h
    exact h rfl
  have hlog : 2 ^ (n / d).log2 ≤ n / d := Nat.log2_self_le hne
  have hexponent : (n / d).log2 = 52 + gridScale n d := by omega
  rw [hexponent] at hlog
  have hle := (Nat.le_div_iff_mul_le hd).1 hlog
  rwa [Nat.pow_add, Nat.mul_assoc, Nat.mul_comm _ d] at hle

/-- Within the format, rounding is rounding to a whole number of places. -/
theorem ofUnits_finite (s : Bool) (hd : 0 < d) (h : gridScale n d ≤ 2044) :
    ∃ m : Magnitude, ofUnits s n d = .finite s m ∧
      m.units = roundQuotient n (d * 2 ^ gridScale n d) * 2 ^ gridScale n d := by
  have hpos : 0 < d * 2 ^ gridScale n d := Nat.mul_pos hd (Nat.two_pow_pos _)
  have hle : roundQuotient n (d * 2 ^ gridScale n d) ≤ 2 ^ 53 :=
    roundQuotient_le hpos (Nat.le_of_lt (lt_of_gridScale n hd))
  have hge : gridScale n d = 0 ∨ 2 ^ 52 ≤ roundQuotient n (d * 2 ^ gridScale n d) := by
    by_cases hzero : gridScale n d = 0
    · exact .inl hzero
    · exact .inr (le_roundQuotient hpos (le_of_gridScale n hd hzero))
  unfold ofUnits
  dsimp only
  generalize gridScale n d = scale at h hle hge ⊢
  generalize roundQuotient n (d * 2 ^ scale) = mantissa at hle hge ⊢
  by_cases hcarry : mantissa = 2 ^ 53
  · have hparts := Magnitude.ofParts?_mantissa_scale
      ⟨2 ^ 52, scale + 1, by decide, Nat.succ_le_succ h, .inr (Nat.le_refl _)⟩
    simp only [hcarry, if_true, hparts]
    refine ⟨_, rfl, ?_⟩
    have hexponent : 52 + (scale + 1) = 53 + scale := by omega
    rw [Magnitude.units, ← Nat.pow_add, ← Nat.pow_add, hexponent]
  · have hparts := Magnitude.ofParts?_mantissa_scale
      ⟨mantissa, scale, Nat.lt_of_le_of_ne hle hcarry, Nat.le_succ_of_le h, hge⟩
    simp only [hcarry, if_false, hparts]
    exact ⟨_, rfl, rfl⟩

/--
A quotient is rounded to a number of the format if it is off by less than half a
place. At the least mantissa the places below are half as wide.
-/
theorem ofUnits_of_near (s : Bool) {m : Magnitude} (hd : 0 < d) (hm : 2 ^ 52 < m.mantissa)
    (hlow : 2 * n < 2 * (m.units * d) + 2 ^ m.scale * d)
    (hhigh : 2 * (m.units * d) < 2 * n + 2 ^ m.scale * d) : ofUnits s n d = .finite s m := by
  have hunits : m.units * d = m.mantissa * (d * 2 ^ m.scale) := by
    rw [Magnitude.units, Nat.mul_assoc, Nat.mul_comm _ d]
  have hpow (j : Nat) : 2 ^ (j + m.scale) * d = 2 ^ j * (d * 2 ^ m.scale) := by
    rw [Nat.pow_add, Nat.mul_assoc, Nat.mul_comm _ d]
  rw [hunits, Nat.mul_comm _ d] at hlow hhigh
  have hleast : (2 ^ 52 + 1) * (d * 2 ^ m.scale) ≤ m.mantissa * (d * 2 ^ m.scale) :=
    Nat.mul_le_mul_right _ hm
  have hmost : (m.mantissa + 1) * (d * 2 ^ m.scale) ≤ 2 ^ 53 * (d * 2 ^ m.scale) :=
    Nat.mul_le_mul_right _ m.mantissa_lt
  rw [Nat.succ_mul] at hleast hmost
  have hscale : gridScale n d = m.scale := by
    refine Nat.le_antisymm (gridScale_le hd ?_) (le_gridScale hd ?_)
    · rw [hpow]
      omega
    · rw [hpow]
      omega
  have hround : roundQuotient n (d * 2 ^ m.scale) = m.mantissa :=
    roundQuotient_eq_of_near hlow hhigh
  unfold ofUnits
  simp only [hscale, hround, Nat.ne_of_lt m.mantissa_lt, if_false, m.ofParts?_mantissa_scale]

end Binary64

end Calculator
