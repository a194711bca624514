import Calculator.Proofs.Token.Number
import Mathlib.Algebra.Order.Field.Basic
import Mathlib.Algebra.Order.Floor.Ring
import Mathlib.Data.Rat.Floor
import Mathlib.Tactic.FieldSimp
import Mathlib.Tactic.Linarith
import Mathlib.Tactic.Positivity
import Mathlib.Tactic.Ring

/-!
# Numerals

A numeral is a decimal without superfluous zeros, and has a sign only if it is
negative. No two numerals have the same value, and no two the same text.
-/

namespace Calculator

/-! ## Digits -/

section Digits

variable {c d : Char} {cs ds : List Char}

theorem digit_lt_ten (h : c.isDigit) : c.toNat - '0'.toNat < 10 := by
  simp only [Char.isDigit, Bool.and_eq_true, decide_eq_true_eq] at h
  have hle : c.toNat ≤ 57 := h.2
  have hzero : '0'.toNat = 48 := rfl
  omega

theorem digit_inj (hc : c.isDigit) (hd : d.isDigit)
    (h : c.toNat - '0'.toNat = d.toNat - '0'.toNat) : c = d := by
  simp only [Char.isDigit, Bool.and_eq_true, decide_eq_true_eq] at hc hd
  have hc' : 48 ≤ c.toNat := hc.1
  have hd' : 48 ≤ d.toNat := hd.1
  have hzero : '0'.toNat = 48 := rfl
  exact Char.toNat_inj.1 (by omega)

theorem ofDigitChars_append (cs ds : List Char) : Nat.ofDigitChars 10 (cs ++ ds) 0 =
    Nat.ofDigitChars 10 cs 0 * 10 ^ ds.length + Nat.ofDigitChars 10 ds 0 := by
  have hinit (n : Nat) :
      Nat.ofDigitChars 10 ds n = n * 10 ^ ds.length + Nat.ofDigitChars 10 ds 0 := by
    induction ds generalizing n with
    | nil => simp
    | cons d ds ih =>
        rw [Nat.ofDigitChars_cons, ih, Nat.ofDigitChars_cons, ih (10 * 0 + _), List.length_cons]
        ring
  rw [Nat.ofDigitChars_append, hinit]

theorem ofDigitChars_cons_eq (c : Char) (cs : List Char) : Nat.ofDigitChars 10 (c :: cs) 0 =
    (c.toNat - '0'.toNat) * 10 ^ cs.length + Nat.ofDigitChars 10 cs 0 := by
  rw [← List.singleton_append, ofDigitChars_append, Nat.ofDigitChars_cons, Nat.ofDigitChars_nil]
  simp

theorem ofDigitChars_lt (h : ∀ c ∈ cs, c.isDigit) :
    Nat.ofDigitChars 10 cs 0 < 10 ^ cs.length := by
  induction cs with
  | nil => simp
  | cons c cs ih =>
      obtain ⟨hc, hcs⟩ := List.forall_mem_cons.1 h
      have hdigit := digit_lt_ten hc
      have hrest := ih hcs
      rw [ofDigitChars_cons_eq, List.length_cons, Nat.pow_succ]
      calc (c.toNat - '0'.toNat) * 10 ^ cs.length + Nat.ofDigitChars 10 cs 0
          < (c.toNat - '0'.toNat) * 10 ^ cs.length + 10 ^ cs.length := by omega
        _ = (c.toNat - '0'.toNat + 1) * 10 ^ cs.length := by ring
        _ ≤ 10 * 10 ^ cs.length := Nat.mul_le_mul_right _ hdigit
        _ = 10 ^ cs.length * 10 := Nat.mul_comm ..

/-- What lies above a place and what lies below it are told apart. -/
theorem split_inj {a b x y p : Nat} (hx : x < p) (hy : y < p) (h : a * p + x = b * p + y) :
    a = b ∧ x = y := by
  have hp : 0 < p := Nat.zero_lt_of_lt hx
  have hsplit : x + p * a = a * p + x := by ring
  have hsplit' : y + p * b = a * p + x := by rw [h]; ring
  obtain ⟨ha, hx⟩ := (Nat.div_mod_unique hp).2 ⟨hsplit, hx⟩
  obtain ⟨hb, hy⟩ := (Nat.div_mod_unique hp).2 ⟨hsplit', hy⟩
  exact ⟨ha.symm.trans hb, hx.symm.trans hy⟩

/-- As many digits with the same value are the same digits. -/
theorem digits_inj (hcs : ∀ c ∈ cs, c.isDigit) (hds : ∀ c ∈ ds, c.isDigit)
    (hlength : cs.length = ds.length)
    (hvalue : Nat.ofDigitChars 10 cs 0 = Nat.ofDigitChars 10 ds 0) : cs = ds := by
  induction cs generalizing ds with
  | nil => exact (List.length_eq_zero_iff.1 hlength.symm).symm
  | cons c cs ih =>
      obtain ⟨d, ds, rfl⟩ := List.exists_cons_of_length_eq_add_one hlength.symm
      obtain ⟨hc, hcs⟩ := List.forall_mem_cons.1 hcs
      obtain ⟨hd, hds⟩ := List.forall_mem_cons.1 hds
      have hlength : cs.length = ds.length := Nat.succ.inj hlength
      have hrest := ofDigitChars_lt hcs
      have hrest' := ofDigitChars_lt hds
      rw [ofDigitChars_cons_eq, ofDigitChars_cons_eq, ← hlength] at hvalue
      rw [← hlength] at hrest'
      obtain ⟨hfirst, hlater⟩ := split_inj hrest hrest' hvalue
      rw [digit_inj hc hd hfirst, ih hcs hds hlength hlater]

theorem pow_le_ofDigitChars (hc : c.isDigit) (h : c ≠ '0') (cs : List Char) :
    10 ^ cs.length ≤ Nat.ofDigitChars 10 (c :: cs) 0 := by
  have hpos : 0 < c.toNat - '0'.toNat :=
    Nat.pos_of_ne_zero fun hzero => h (digit_inj hc (by decide) hzero)
  rw [ofDigitChars_cons_eq]
  exact Nat.le_add_right_of_le (Nat.le_mul_of_pos_left _ hpos)

/-- A value is not smaller than its first place, unless zeros come first. -/
theorem length_le_of_ofDigitChars_eq (hcs : ∀ c ∈ cs, c.isDigit) (hds : ∀ c ∈ ds, c.isDigit)
    (hne : cs ≠ []) (hleading : ds.head? = some '0' → ds = ['0'])
    (hvalue : Nat.ofDigitChars 10 cs 0 = Nat.ofDigitChars 10 ds 0) : ds.length ≤ cs.length := by
  have hpos := List.length_pos_iff.2 hne
  cases ds with
  | nil => exact Nat.zero_le _
  | cons d ds =>
      by_cases hd : d = '0'
      · rw [hleading (congrArg some hd)]
        exact hpos
      · have hlow := pow_le_ofDigitChars (hds d List.mem_cons_self) hd ds
        have hhigh := ofDigitChars_lt hcs
        rw [hvalue] at hhigh
        exact (Nat.pow_lt_pow_iff_right (by decide)).1 (Nat.lt_of_le_of_lt hlow hhigh)

theorem ofDigitChars_concat_mod (hd : d.isDigit) (cs : List Char) :
    Nat.ofDigitChars 10 (cs ++ [d]) 0 % 10 = d.toNat - '0'.toNat := by
  have hdigit := digit_lt_ten hd
  rw [ofDigitChars_append, ofDigitChars_cons_eq, Nat.ofDigitChars_nil]
  simp only [List.length_singleton, List.length_nil]
  omega

theorem mod_ten_ne_zero (hds : ∀ c ∈ ds, c.isDigit) (hne : ds ≠ [])
    (htrailing : ds.getLast? ≠ some '0') (cs : List Char) :
    Nat.ofDigitChars 10 (cs ++ ds) 0 % 10 ≠ 0 := by
  rcases ds.eq_nil_or_concat' with rfl | ⟨front, d, rfl⟩
  · exact absurd rfl hne
  · have hd : d.isDigit := hds d (by simp)
    rw [← List.append_assoc, ofDigitChars_concat_mod hd]
    intro hzero
    rw [List.getLast?_concat] at htrailing
    exact htrailing (congrArg some (digit_inj hd (by decide) hzero))

end Digits

/-! ## Numerals -/

def signedRat (negative : Bool) (q : ℚ) : ℚ :=
  if negative then -q else q

/--
A decimal without a zero before its whole digits or after its fractional ones,
and with a sign only if it is less than zero.
-/
@[ext] structure Numeral where
  negative : Bool
  whole : List Char
  fraction : List Char
  isDigit : ∀ c ∈ whole ++ fraction, c.isDigit
  whole_ne_nil : whole ≠ []
  leading : whole.head? = some '0' → whole = ['0']
  trailing : fraction.getLast? ≠ some '0'
  signed : negative → Nat.ofDigitChars 10 (whole ++ fraction) 0 ≠ 0

namespace Numeral

def text (n : Numeral) : List Char :=
  Binary64.signText n.negative ++ pointed n.whole n.fraction

def digits (n : Numeral) : Nat :=
  Nat.ofDigitChars 10 (n.whole ++ n.fraction) 0

def value (n : Numeral) : ℚ :=
  signedRat n.negative (n.digits / 10 ^ n.fraction.length)

theorem isDigit_zero : ∀ c ∈ ['0'] ++ [], c.isDigit :=
  List.forall_mem_singleton.2 rfl

def zero : Numeral where
  negative := false
  whole := ['0']
  fraction := []
  isDigit := isDigit_zero
  whole_ne_nil := List.cons_ne_nil _ _
  leading _ := rfl
  trailing := by simp
  signed h := by cases h

theorem value_zero : zero.value = 0 := by
  have hdigits : zero.digits = 0 := by decide
  rw [value, hdigits, Nat.cast_zero, zero_div]
  rfl

variable {n n' : Numeral}

theorem isDigit_whole (n : Numeral) : ∀ c ∈ n.whole, c.isDigit :=
  fun c hc => n.isDigit c (List.mem_append_left _ hc)

theorem isDigit_fraction (n : Numeral) : ∀ c ∈ n.fraction, c.isDigit :=
  fun c hc => n.isDigit c (List.mem_append_right _ hc)

theorem digits_eq (n : Numeral) : n.digits =
    Nat.ofDigitChars 10 n.whole 0 * 10 ^ n.fraction.length + Nat.ofDigitChars 10 n.fraction 0 :=
  ofDigitChars_append ..

theorem abs_value (n : Numeral) : |n.value| = n.digits / 10 ^ n.fraction.length := by
  have hnonneg : (0 : ℚ) ≤ n.digits / 10 ^ n.fraction.length := by positivity
  unfold value signedRat
  split
  · rw [abs_neg, abs_of_nonneg hnonneg]
  · exact abs_of_nonneg hnonneg

theorem value_neg_iff (n : Numeral) : n.value < 0 ↔ n.negative := by
  unfold value signedRat
  split
  next hnegative =>
    have hpos : 0 < n.digits := Nat.pos_of_ne_zero (n.signed hnegative)
    have hvalue : (0 : ℚ) < n.digits / 10 ^ n.fraction.length := by positivity
    exact iff_of_true (neg_neg_of_pos hvalue) hnegative
  next hpositive =>
    have hnonneg : (0 : ℚ) ≤ n.digits / 10 ^ n.fraction.length := by positivity
    exact iff_of_false (not_lt.2 hnonneg) hpositive

/-! ### Values -/

theorem mul_ten_pow_inj {a b j k : Nat} (h : (a / 10 ^ j : ℚ) = b / 10 ^ k) :
    a * 10 ^ k = b * 10 ^ j := by
  have hj : (10 : ℚ) ^ j ≠ 0 := by positivity
  have hk : (10 : ℚ) ^ k ≠ 0 := by positivity
  rw [div_eq_div_iff hj hk] at h
  exact_mod_cast h

/-- The last place of a numeral cannot be left out. -/
theorem length_fraction_le {m k : Nat} (h : n.digits * 10 ^ k = m * 10 ^ n.fraction.length) :
    n.fraction.length ≤ k := by
  by_contra hless
  obtain ⟨more, hmore⟩ := Nat.exists_eq_add_of_lt (Nat.lt_of_not_le hless)
  have hne : n.fraction ≠ [] := by
    intro hnil
    rw [hnil] at hmore
    simp at hmore
  have hdigits : n.digits = m * 10 ^ more * 10 := by
    refine Nat.eq_of_mul_eq_mul_right (Nat.pow_pos (by decide) : 0 < 10 ^ k) ?_
    rw [h, hmore]
    ring
  have hlast : n.digits % 10 ≠ 0 := mod_ten_ne_zero n.isDigit_fraction hne n.trailing n.whole
  omega

/-- No two numerals have the same value. -/
theorem value_injective (h : n.value = n'.value) : n = n' := by
  have hnegative : n.negative = n'.negative := by
    rw [Bool.eq_iff_iff, ← n.value_neg_iff, ← n'.value_neg_iff, h]
  have habs := congrArg abs h
  rw [abs_value, abs_value] at habs
  have hcross := mul_ten_pow_inj habs
  have hlength : n.fraction.length = n'.fraction.length :=
    Nat.le_antisymm (length_fraction_le hcross) (length_fraction_le hcross.symm)
  have hdigits : n.digits = n'.digits := by
    rw [hlength] at hcross
    exact Nat.eq_of_mul_eq_mul_right (Nat.pow_pos (by decide)) hcross
  rw [digits_eq, digits_eq, ← hlength] at hdigits
  have hlt := ofDigitChars_lt n.isDigit_fraction
  have hlt' := ofDigitChars_lt n'.isDigit_fraction
  rw [← hlength] at hlt'
  obtain ⟨hwhole, hfraction⟩ := split_inj hlt hlt' hdigits
  have hlengthWhole : n.whole.length = n'.whole.length := Nat.le_antisymm
    (length_le_of_ofDigitChars_eq n'.isDigit_whole n.isDigit_whole n'.whole_ne_nil n.leading
      hwhole.symm)
    (length_le_of_ofDigitChars_eq n.isDigit_whole n'.isDigit_whole n.whole_ne_nil n'.leading
      hwhole)
  exact Numeral.ext hnegative (digits_inj n.isDigit_whole n'.isDigit_whole hlengthWhole hwhole)
    (digits_inj n.isDigit_fraction n'.isDigit_fraction hlength hfraction)

/-- A numeral has a point exactly if it is not whole. -/
theorem fraction_eq_nil_iff (n : Numeral) : n.fraction = [] ↔ ∃ k : ℤ, n.value = k := by
  constructor
  · intro hnil
    refine ⟨if n.negative then -n.digits else n.digits, ?_⟩
    unfold value signedRat
    rw [hnil]
    split <;> simp
  · rintro ⟨k, hk⟩
    have habs := congrArg abs hk
    have hwhole : |(k : ℚ)| = (k.natAbs / 10 ^ 0 : ℚ) := by
      rw [pow_zero, div_one, Nat.cast_natAbs, Int.cast_abs]
    rw [abs_value, hwhole] at habs
    exact List.length_eq_zero_iff.1 (Nat.le_zero.1 (length_fraction_le (mul_ten_pow_inj habs)))

/-- The whole digits are the whole part. -/
theorem floor_abs_value (n : Numeral) : ⌊|n.value|⌋ = Nat.ofDigitChars 10 n.whole 0 := by
  have hlt := ofDigitChars_lt n.isDigit_fraction
  have hpos : (0 : ℚ) < 10 ^ n.fraction.length := by positivity
  have hlt : (Nat.ofDigitChars 10 n.fraction 0 : ℚ) < 10 ^ n.fraction.length := by
    exact_mod_cast hlt
  rw [abs_value, digits_eq, Int.floor_eq_iff, le_div_iff₀ hpos, div_lt_iff₀ hpos]
  push_cast
  constructor
  · have hnonneg : (0 : ℚ) ≤ Nat.ofDigitChars 10 n.fraction 0 := Nat.cast_nonneg _
    linarith
  · linarith

/-! ### Texts -/

theorem minus_not_mem_pointed (n : Numeral) : '-' ∉ pointed n.whole n.fraction :=
  fun hmem => absurd (isMantissaChar_of_mem_pointed n.isDigit hmem) (by decide)

theorem pointed_inj {whole fraction whole' fraction' : List Char}
    (h : ∀ c ∈ whole ++ fraction, c.isDigit) (h' : ∀ c ∈ whole' ++ fraction', c.isDigit)
    (htext : pointed whole fraction = pointed whole' fraction') :
    whole = whole' ∧ fraction = fraction' := by
  have hdigits := filter_isDigit_pointed h
  have hplaces := places_pointed h
  rw [htext, filter_isDigit_pointed h'] at hdigits
  rw [htext, places_pointed h'] at hplaces
  exact List.append_inj' hdigits.symm hplaces.symm

/-- No two numerals have the same text. -/
theorem text_injective (h : n.text = n'.text) : n = n' := by
  have hminus (m m' : Numeral) (hm : m.negative = true) (hm' : m'.negative = false) :
      m.text ≠ m'.text := by
    intro htext
    have hmem : '-' ∈ m'.text := by
      rw [← htext, text, hm]
      exact List.mem_cons_self
    rw [text, hm'] at hmem
    exact m'.minus_not_mem_pointed hmem
  have hnegative : n.negative = n'.negative := by
    cases hn : n.negative <;> cases hn' : n'.negative
    · rfl
    · exact absurd h.symm (hminus n' n hn' hn)
    · exact absurd h (hminus n n' hn hn')
    · rfl
  rw [text, text, hnegative, List.append_cancel_left_eq] at h
  obtain ⟨hwhole, hfraction⟩ := pointed_inj n.isDigit n'.isDigit h
  exact Numeral.ext hnegative hwhole hfraction

/-- Zero has no sign. -/
theorem text_ne_minus_zero (n : Numeral) : n.text ≠ "-0".toList := by
  intro htext
  cases hn : n.negative with
  | false =>
      have hmem : '-' ∈ n.text := by
        rw [htext]
        exact List.mem_cons_self
      rw [text, hn] at hmem
      exact n.minus_not_mem_pointed hmem
  | true =>
      rw [text, hn] at htext
      have hzero : pointed n.whole n.fraction = pointed ['0'] [] := (List.cons.inj htext).2
      obtain ⟨hwhole, hfraction⟩ := pointed_inj n.isDigit isDigit_zero hzero
      have hsigned := n.signed hn
      rw [hwhole, hfraction] at hsigned
      exact hsigned (by decide)

/-- The last character is a digit. -/
theorem isDigit_of_getLast? {c : Char} (h : n.text.getLast? = some c) : c.isDigit := by
  obtain ⟨d, hd, hdigit⟩ :=
    exists_digit_getLast? n.whole_ne_nil n.isDigit (Binary64.signText n.negative)
  rw [text, hd, Option.some.injEq] at h
  rwa [← h]

end Numeral

end Calculator
