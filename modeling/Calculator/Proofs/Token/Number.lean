import Calculator.Proofs.Binary64.Decimal
import Calculator.Proofs.Token.Spelling
import Mathlib.Data.List.Basic

/-!
# Numbers as literals

The positional form of a decimal is one literal, whose value is the number that
the decimal is rounded to.
-/

namespace Calculator

theorem punctuation?_of_isMantissaChar {c : Char} (h : isMantissaChar c) :
    punctuation? c = none := by
  unfold punctuation?
  split <;> first | rfl | exact absurd h (by decide)

/-- A literal is scanned up to what can neither be a digit of it nor begin its exponent. -/
theorem lexemes_literal {c : Char} {tail rest : List Char} (hc : c.isDigit)
    (hliteral : ∀ d ∈ c :: tail, isMantissaChar d) (hmantissa : StopsAt isMantissaChar rest)
    (hexponent : StopsAt (· == 'e') rest) :
    lexemes (c :: tail ++ rest) =
      ⟨.number (Literal.mk (c :: tail) []).value, c :: tail⟩ :: lexemes rest := by
  have htake : (c :: tail ++ rest).takeWhile isMantissaChar = c :: tail :=
    takeWhile_append_of_stopsAt hliteral hmantissa
  have hdrop : (c :: tail ++ rest).dropWhile isMantissaChar = rest := by
    rw [List.dropWhile_append_of_pos hliteral]
    cases rest with
    | nil => rfl
    | cons d rest => simp [hmantissa d rfl]
  have hnone : Literal.exponentOf rest = [] := by
    unfold Literal.exponentOf
    split
    next => exact absurd (hexponent 'e' rfl) (by decide)
    next => rfl
  have hread : Literal.ofChars (c :: tail ++ rest) = ⟨c :: tail, []⟩ := by
    rw [Literal.ofChars, htake, hdrop, hnone]
  have hpunctuation : punctuation? c = none :=
    punctuation?_of_isMantissaChar (hliteral c List.mem_cons_self)
  have hfirst : firstToken c (tail ++ rest) =
      (.number (Literal.mk (c :: tail) []).value, tail) := by
    rw [List.cons_append] at hread
    simp [firstToken, hpunctuation, startsLiteral, hc, hread, Literal.text]
  rw [List.cons_append, lexemes, hfirst]
  simp

/-! ## Digits with a point -/

def pointed (whole fraction : List Char) : List Char :=
  if fraction.isEmpty then whole else whole ++ '.' :: fraction

section Pointed

variable {whole fraction : List Char}

theorem filter_isDigit_pointed (h : ∀ c ∈ whole ++ fraction, c.isDigit) :
    Literal.digits (pointed whole fraction) = whole ++ fraction := by
  have hall : (whole ++ fraction).filter Char.isDigit = whole ++ fraction :=
    List.filter_eq_self.2 h
  rw [List.filter_append] at hall
  unfold pointed Literal.digits
  split
  next hempty =>
    rw [List.isEmpty_iff.1 hempty, List.append_nil] at h ⊢
    exact List.filter_eq_self.2 h
  next => rw [List.filter_append, List.filter_cons_of_neg (by decide), hall]

theorem places_pointed (h : ∀ c ∈ whole ++ fraction, c.isDigit) :
    (Literal.mk (pointed whole fraction) []).places = fraction.length := by
  have hwhole (c : Char) (hc : c ∈ whole) : (c != '.') = true := by
    have hdigit := h c (List.mem_append_left _ hc)
    rw [bne_iff_ne]
    rintro rfl
    exact absurd hdigit (by decide)
  have hfraction : fraction.filter Char.isDigit = fraction :=
    List.filter_eq_self.2 fun c hc => h c (List.mem_append_right _ hc)
  unfold pointed Literal.places Literal.digits
  dsimp only
  split
  next hempty =>
    have hdrop : (whole ++ []).dropWhile (· != '.') = ([] : List Char).dropWhile (· != '.') :=
      List.dropWhile_append_of_pos hwhole
    rw [List.append_nil] at hdrop
    rw [hdrop, List.isEmpty_iff.1 hempty]
    rfl
  next =>
    have hdrop : ('.' :: fraction).dropWhile (· != '.') = '.' :: fraction := by simp
    rw [List.dropWhile_append_of_pos hwhole, hdrop, List.filter_cons_of_neg (by decide), hfraction]

theorem value_pointed (h : ∀ c ∈ whole ++ fraction, c.isDigit) :
    (Literal.mk (pointed whole fraction) []).value =
      .ofDecimal false (Nat.ofDigitChars 10 (whole ++ fraction) 0) (-(fraction.length : Int)) := by
  have hpower : (Literal.mk (pointed whole fraction) []).power = 0 := by
    simp [Literal.power, Literal.digits]
  rw [Literal.value, Literal.significand, filter_isDigit_pointed h, places_pointed h, hpower,
    Int.zero_sub]

theorem isMantissaChar_of_mem_pointed (h : ∀ c ∈ whole ++ fraction, c.isDigit) {c : Char}
    (hc : c ∈ pointed whole fraction) : isMantissaChar c := by
  have hmem : c ∈ whole ++ fraction ∨ c = '.' := by
    unfold pointed at hc
    split at hc
    · exact .inl (List.mem_append_left _ hc)
    · rcases List.mem_append.1 hc with hc | hc
      · exact .inl (List.mem_append_left _ hc)
      · exact (List.mem_cons.1 hc).symm.imp_left (List.mem_append_right _)
  rcases hmem with hmem | rfl
  · simp [isMantissaChar, h c hmem]
  · rfl

theorem count_pointed_le (h : ∀ c ∈ whole ++ fraction, c.isDigit) {c : Char}
    (hc : c.isDigit = false) : (pointed whole fraction).count c ≤ 1 := by
  have hnot : (whole ++ fraction).count c = 0 := by
    rw [List.count_eq_zero]
    intro hmem
    rw [h c hmem] at hc
    cases hc
  rw [List.count_append] at hnot
  unfold pointed
  split
  · omega
  · rw [List.count_append, List.count_cons]
    split <;> omega

/-- The last character is a digit, also where the point has no digits after it. -/
theorem exists_digit_getLast? (hne : whole ≠ []) (h : ∀ c ∈ whole ++ fraction, c.isDigit)
    (front : List Char) :
    ∃ d, (front ++ pointed whole fraction).getLast? = some d ∧ d.isDigit := by
  obtain ⟨d, hd⟩ := Option.isSome_iff_exists.1
    (List.getLast?_isSome.2 (List.append_ne_nil_of_left_ne_nil hne fraction))
  refine ⟨d, ?_, h d (List.mem_of_getLast? hd)⟩
  unfold pointed
  split
  next hempty =>
    rw [List.isEmpty_iff.1 hempty, List.append_nil] at hd
    rw [List.getLast?_append_of_ne_nil _ hne, hd]
  next hsome =>
    have hfraction : fraction ≠ [] := fun hnil => hsome (List.isEmpty_iff.2 hnil)
    rw [List.getLast?_append_of_ne_nil _ hfraction] at hd
    rw [List.getLast?_append_of_ne_nil _ (by simp),
      List.getLast?_append_of_ne_nil _ (List.cons_ne_nil _ _),
      List.getLast?_cons_of_ne_nil hfraction, hd]

/-- Digits with a point are one literal. -/
theorem spelled_pointed (hne : whole ≠ []) (hall : ∀ c ∈ whole ++ fraction, c.isDigit) :
    Spelled (pointed whole fraction) [.number (.ofDecimal false
      (Nat.ofDigitChars 10 (whole ++ fraction) 0) (-(fraction.length : Int)))] := by
  obtain ⟨c, tail, hcons⟩ : ∃ c tail, pointed whole fraction = c :: tail := by
    apply List.exists_cons_of_ne_nil
    unfold pointed
    split <;> simp [hne]
  have hc : c.isDigit := by
    obtain ⟨d, whole, rfl⟩ := List.exists_cons_of_ne_nil hne
    have hhead : d = c := by
      unfold pointed at hcons
      split at hcons <;> exact (List.cons.inj hcons).1
    exact hhead ▸ hall d List.mem_cons_self
  rw [← value_pointed hall]
  refine spelled_lexeme (l := ⟨.number _, pointed whole fraction⟩) (by simp)
    ⟨count_pointed_le hall (by decide), count_pointed_le hall (by decide)⟩ fun rest hrest => ?_
  have hmantissa : ∀ d ∈ c :: tail, isMantissaChar d := by
    rw [← hcons]
    exact fun d hd => isMantissaChar_of_mem_pointed hall hd
  rw [hcons, lexemes_literal hc hmantissa (hrest.stopsAt fun d => punctuation?_of_isMantissaChar)
    (hrest.stopsAt fun d hd => by rw [eq_of_beq hd]; rfl)]

end Pointed

/-! ## Positional form -/

section Digits

variable {n : Nat}

theorem digitChar_ne_zero (hn : n < 10) (h : n ≠ 0) : n.digitChar ≠ '0' := by
  intro hzero
  have hcode := Nat.toNat_digitChar_of_lt_ten hn
  rw [hzero] at hcode
  have : '0'.toNat = 48 := rfl
  omega

theorem head?_toDigits (h : n ≠ 0) : (Nat.toDigits 10 n).head? ≠ some '0' := by
  induction n using Nat.strongRecOn with
  | ind n ih =>
      by_cases hn : n < 10
      · rw [Nat.toDigits_of_lt_base hn, List.head?_cons]
        exact fun hzero => digitChar_ne_zero hn h (Option.some.inj hzero)
      · rw [Nat.toDigits_of_base_le (by decide) (Nat.le_of_not_lt hn),
          List.head?_append_of_ne_nil _ Nat.toDigits_ne_nil]
        exact ih (n / 10) (by omega) (by omega)

end Digits

namespace Decimal

/-- The digits of a decimal before and after the point. -/
structure IsWritten (d : Decimal) (whole fraction : List Char) : Prop where
  text : d.positional = pointed whole fraction
  whole_ne_nil : whole ≠ []
  isDigit : ∀ c ∈ whole ++ fraction, c.isDigit
  length_fraction : fraction.length = (-d.exponent).toNat
  value : Nat.ofDigitChars 10 (whole ++ fraction) 0 = d.digits * 10 ^ d.exponent.toNat
  leading : d.digits ≠ 0 → whole.head? = some '0' → whole = ['0']

theorem isDigit_of_mem_replicate {k : Nat} {c : Char} (h : c ∈ List.replicate k '0') :
    c.isDigit := by
  rw [(List.mem_replicate.1 h).2]
  rfl

theorem isDigit_of_mem_toDigits {n : Nat} {c : Char} (h : c ∈ Nat.toDigits 10 n) : c.isDigit :=
  Nat.isDigit_of_mem_toDigits (by decide) (by decide) h

theorem isWritten_of_whole {d : Decimal} (h : (-d.exponent).toNat = 0) :
    d.IsWritten (Nat.toDigits 10 d.digits ++ List.replicate d.exponent.toNat '0') [] where
  text := by
    unfold positional
    exact if_pos h
  whole_ne_nil := by simp
  isDigit c hc := by
    rw [List.append_nil, List.mem_append] at hc
    exact hc.elim isDigit_of_mem_toDigits isDigit_of_mem_replicate
  length_fraction := h.symm
  value := by
    rw [List.append_nil, Nat.ofDigitChars_append, Nat.ofDigitChars_ten_toDigits,
      Nat.ofDigitChars_replicate_zero, Nat.mul_comm]
  leading hd hzero := by
    rw [List.head?_append_of_ne_nil _ Nat.toDigits_ne_nil] at hzero
    exact absurd hzero (head?_toDigits hd)

/-- The digits of a decimal, after so many zeros that one digit is left before the point. -/
def padded (d : Decimal) : List Char :=
  List.replicate ((-d.exponent).toNat + 1 - (Nat.toDigits 10 d.digits).length) '0' ++
    Nat.toDigits 10 d.digits

theorem isWritten_of_fraction {d : Decimal} (h : (-d.exponent).toNat ≠ 0) :
    d.IsWritten (d.padded.take (d.padded.length - (-d.exponent).toNat))
      (d.padded.drop (d.padded.length - (-d.exponent).toNat)) := by
  have hlength : (-d.exponent).toNat < d.padded.length := by
    rw [padded, List.length_append, List.length_replicate]
    omega
  have hfraction : (d.padded.drop (d.padded.length - (-d.exponent).toNat)).length =
      (-d.exponent).toNat := by
    rw [List.length_drop]
    omega
  refine ⟨?_, ?_, ?_, hfraction, ?_, ?_⟩
  · rw [pointed, if_neg]
    · unfold positional
      exact if_neg h
    · rw [List.isEmpty_iff, ← List.length_eq_zero_iff, hfraction]
      exact h
  · rw [← List.length_pos_iff, List.length_take]
    omega
  · intro c hc
    rw [List.take_append_drop, padded, List.mem_append] at hc
    exact hc.elim isDigit_of_mem_replicate isDigit_of_mem_toDigits
  · have hexponent : d.exponent.toNat = 0 := by omega
    rw [List.take_append_drop, padded, Nat.ofDigitChars_append, Nat.ofDigitChars_replicate_zero,
      Nat.mul_zero, Nat.ofDigitChars_ten_toDigits, hexponent, Nat.pow_zero, Nat.mul_one]
  · intro hd hzero
    by_cases hshort : (Nat.toDigits 10 d.digits).length ≤ (-d.exponent).toNat
    · have hone : (d.padded.take (d.padded.length - (-d.exponent).toNat)).length = 1 := by
        rw [List.length_take, padded, List.length_append, List.length_replicate]
        omega
      obtain ⟨c, hc⟩ := List.length_eq_one_iff.1 hone
      rw [hc] at hzero ⊢
      rw [Option.some.inj hzero]
    · have hnone : (-d.exponent).toNat + 1 - (Nat.toDigits 10 d.digits).length = 0 := by omega
      rw [List.head?_take, if_neg (by omega), padded, hnone] at hzero
      exact absurd hzero (head?_toDigits hd)

theorem exists_isWritten (d : Decimal) : ∃ whole fraction, d.IsWritten whole fraction := by
  by_cases h : (-d.exponent).toNat = 0
  · exact ⟨_, _, isWritten_of_whole h⟩
  · exact ⟨_, _, isWritten_of_fraction h⟩

namespace IsWritten

variable {d : Decimal} {whole fraction : List Char}

theorem ofDecimal (h : d.IsWritten whole fraction) :
    Binary64.ofDecimal false (Nat.ofDigitChars 10 (whole ++ fraction) 0)
      (-(fraction.length : Int)) = .ofDecimal false d.digits d.exponent := by
  rw [h.value, h.length_fraction, Binary64.ofDecimal_mul_pow]
  congr 1
  omega

end IsWritten

theorem spelled_positional (d : Decimal) :
    Spelled d.positional [.number (.ofDecimal false d.digits d.exponent)] := by
  obtain ⟨whole, fraction, hwritten⟩ := d.exists_isWritten
  rw [hwritten.text, ← hwritten.ofDecimal]
  exact spelled_pointed hwritten.whole_ne_nil hwritten.isDigit

end Decimal

theorem spelled_zero : Spelled ['0'] [.number (.zero false)] := by
  have hspelled := Decimal.spelled_positional ⟨0, 0⟩
  rwa [Binary64.ofDecimal_zero] at hspelled

/-- A number after the sign that it has, if it is negative. -/
theorem Spelled.signed {text : List Char} {value : Binary64} (h : Spelled text [.number value])
    (s : Bool) : Spelled (Binary64.signText s ++ text)
      ((if s then [.mark .minus] else []) ++ [.number value]) := by
  cases s with
  | false => exact h
  | true => exact h.sign rfl (by decide)

/-- The text of a finite number is a number, after a sign if it has one. -/
theorem spelled_plainText (s : Bool) (m : Magnitude) :
    Spelled (Binary64.plainText (.finite s m)).toList
      ((if s then [.mark .minus] else []) ++ [.number (.finite false m)]) := by
  have hmagnitude : Spelled (if m.units = 0 then ['0'] else m.shortest.positional)
      [.number (.finite false m)] := by
    split
    next hzero =>
      rw [Magnitude.eq_zero_of_units_eq_zero hzero]
      exact spelled_zero
    next =>
      have hspelled := m.shortest.spelled_positional
      rwa [Binary64.ofDecimal_shortest] at hspelled
  rw [Binary64.plainText, String.toList_ofList]
  exact hmagnitude.signed s

end Calculator
