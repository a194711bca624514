import Calculator.Proofs.Binary64.CorrectRounding
import Calculator.Proofs.Token.Transcription

/-!
# The value of a literal

What is passed on of a literal is a decimal in the plain syntax, and the decimal
is the number that the literal denotes, however malformed the literal is. So any
reader of decimals that rounds correctly reads the number that the token has.
-/

namespace Calculator

/-! ## Decimals in the plain syntax -/

namespace Decimal

def toRat (d : Decimal) : ℚ :=
  d.digits * 10 ^ d.exponent

def readDigits? (cs : List Char) : Option Nat :=
  if cs ≠ [] ∧ cs.all Char.isDigit then some (Nat.ofDigitChars 10 cs 0) else none

def readSigned? : List Char → Option Int
  | '-' :: ds => (readDigits? ds).map fun n => -Int.ofNat n
  | '+' :: ds => (readDigits? ds).map Int.ofNat
  | ds => (readDigits? ds).map Int.ofNat

/-- An exponent, which stands after an `e`. Nothing at all stands for zero. -/
def readExponent? : List Char → Option Int
  | [] => some 0
  | mark :: cs => if mark = 'e' ∨ mark = 'E' then readSigned? cs else none

/-- The digits after a point, if one comes first, and what comes after them. -/
def splitFraction : List Char → List Char × List Char
  | '.' :: cs => (cs.takeWhile Char.isDigit, cs.dropWhile Char.isDigit)
  | cs => ([], cs)

/-- A decimal: digits, with a point or without, at least one, and an exponent or none. -/
def read? (cs : List Char) : Option Decimal :=
  let whole := cs.takeWhile Char.isDigit
  let (fraction, later) := splitFraction (cs.dropWhile Char.isDigit)
  if whole ++ fraction = [] then none
  else
    (readExponent? later).map fun e =>
      ⟨Nat.ofDigitChars 10 (whole ++ fraction) 0, e - fraction.length⟩

section Read

variable {whole fraction later : List Char}

theorem readDigits?_of_isDigit {ds : List Char} (hne : ds ≠ []) (h : ∀ c ∈ ds, c.isDigit) :
    readDigits? ds = some (Nat.ofDigitChars 10 ds 0) :=
  if_pos ⟨hne, List.all_eq_true.2 h⟩

theorem readSigned?_sign {ds : List Char} (hne : ds ≠ []) (h : ∀ c ∈ ds, c.isDigit) :
    readSigned? ('-' :: ds) = some (-(Nat.ofDigitChars 10 ds 0 : Int)) := by
  rw [readSigned?, readDigits?_of_isDigit hne h]
  rfl

theorem readSigned?_digits {ds : List Char} (hne : ds ≠ []) (h : ∀ c ∈ ds, c.isDigit) :
    readSigned? ds = some (Nat.ofDigitChars 10 ds 0 : Int) := by
  unfold readSigned?
  split
  next ds => exact absurd (h '-' List.mem_cons_self) (by decide)
  next ds => exact absurd (h '+' List.mem_cons_self) (by decide)
  next =>
    rw [readDigits?_of_isDigit hne h]
    rfl

theorem read?_whole (hne : whole ≠ []) (hwhole : ∀ c ∈ whole, c.isDigit)
    (hstop : StopsAt Char.isDigit later) (hpoint : StopsAt (· == '.') later) :
    read? (whole ++ later) =
      (readExponent? later).map fun e => ⟨Nat.ofDigitChars 10 whole 0, e⟩ := by
  obtain ⟨htake, hdrop⟩ := span_append hwhole hstop
  have hfraction : splitFraction later = ([], later) := by
    unfold splitFraction
    split
    next => exact absurd (hpoint '.' rfl) (by decide)
    next => rfl
  unfold read?
  rw [htake, hdrop, hfraction]
  simp [hne]

theorem read?_pointed (hne : whole ++ fraction ≠ []) (hwhole : ∀ c ∈ whole, c.isDigit)
    (hfraction : ∀ c ∈ fraction, c.isDigit) (hstop : StopsAt Char.isDigit later) :
    read? (whole ++ '.' :: (fraction ++ later)) =
      (readExponent? later).map fun e =>
        ⟨Nat.ofDigitChars 10 (whole ++ fraction) 0, e - fraction.length⟩ := by
  have hpoint : StopsAt Char.isDigit ('.' :: (fraction ++ later)) := by
    rintro c ⟨⟩
    rfl
  obtain ⟨htake, hdrop⟩ := span_append hwhole hpoint
  obtain ⟨htake', hdrop'⟩ := span_append hfraction hstop
  have hsplit : splitFraction ('.' :: (fraction ++ later)) = (fraction, later) := by
    rw [splitFraction, htake', hdrop']
  unfold read?
  rw [htake, hdrop, hsplit]
  exact if_neg hne

end Read

end Decimal

/-! ## What a literal denotes -/

namespace Literal

theorem isDigit_of_mem_digits {c : Char} {cs : List Char} (h : c ∈ digits cs) : c.isDigit :=
  (List.mem_filter.1 h).2

theorem digits_append (cs ds : List Char) : digits (cs ++ ds) = digits cs ++ digits ds :=
  List.filter_append ..

/-- The number that the digits of a text stand for, the point at the first of its points. -/
def mantissaValue (cs : List Char) : ℚ :=
  let fraction := digits (cs.dropWhile (· != '.'))
  Nat.ofDigitChars 10 (digits (cs.takeWhile (· != '.'))) 0 +
    Nat.ofDigitChars 10 fraction 0 / 10 ^ fraction.length

/-- The number that the digits of a text stand for, negated if there is a sign in it. -/
def exponentValue (cs : List Char) : Int :=
  if '-' ∈ cs then -(Nat.ofDigitChars 10 (digits cs) 0 : Int) else Nat.ofDigitChars 10 (digits cs) 0

/-- What the text of a literal denotes: its mantissa is before its `e`, its exponent after it. -/
def denoted (cs : List Char) : ℚ :=
  mantissaValue (cs.takeWhile (· != 'e')) * 10 ^ exponentValue (cs.dropWhile (· != 'e'))

def toDecimal (l : Literal) : Decimal :=
  ⟨l.significand, l.power - l.places⟩

theorem readExponent?_plainExponent (l : Literal) :
    Decimal.readExponent? (plainExponent l.exponent) = some l.power := by
  have hdigits : ∀ c ∈ digits l.exponent, c.isDigit := fun c => isDigit_of_mem_digits
  unfold plainExponent power
  split
  next hnone =>
    rw [hnone]
    split <;> rfl
  next hsome =>
    by_cases hsign : '-' ∈ l.exponent
    · rw [if_pos hsign, if_pos hsign]
      exact Decimal.readSigned?_sign hsome hdigits
    · rw [if_neg hsign, if_neg hsign]
      exact Decimal.readSigned?_digits hsome hdigits

theorem stopsAt_plainExponent {p : Char → Bool} (h : p 'e' = false) (cs : List Char) :
    StopsAt p (plainExponent cs) := by
  unfold plainExponent
  split
  · rintro c ⟨⟩
  · rintro c ⟨⟩
    exact h

/-- What is passed on of a literal is read as its decimal. -/
theorem read?_plain {l : Literal} (h : l.IsRead) : Decimal.read? l.plain = some l.toDecimal := by
  have hdigits (cs : List Char) : ∀ c ∈ digits cs, c.isDigit := fun c => isDigit_of_mem_digits
  have hexponent := l.readExponent?_plainExponent
  have hstop := stopsAt_plainExponent (p := Char.isDigit) rfl l.exponent
  have hpoint := stopsAt_plainExponent (p := (· == '.')) rfl l.exponent
  unfold plain
  by_cases hmem : '.' ∈ l.mantissa
  · obtain ⟨front, back, hsplit, hfront⟩ := List.eq_append_cons_of_mem hmem
    have hplaces : l.places = (digits back).length := by
      rw [places, hsplit, (span_point hfront back).2, digits_cons_of_not rfl]
    have hwhole : ∀ c ∈ (if (digits front).isEmpty then ['0'] else digits front), c.isDigit := by
      split
      · simp
      · exact hdigits front
    have hsignificand : Nat.ofDigitChars 10
        ((if (digits front).isEmpty then ['0'] else digits front) ++ digits back) 0 =
          l.significand := by
      rw [significand, hsplit, digits_append, digits_cons_of_not rfl, Nat.ofDigitChars_append,
        Nat.ofDigitChars_append]
      split
      next hempty =>
        rw [List.isEmpty_iff.1 hempty]
        rfl
      next => rfl
    rw [hsplit, plainMantissa_append hfront, List.append_assoc, List.cons_append,
      Decimal.read?_pointed _ hwhole (hdigits back) hstop, hexponent, hsignificand, ← hplaces]
    · rfl
    · split <;> simp_all
  · rw [plainMantissa_of_not_mem hmem, Decimal.read?_whole h.digits_ne_nil (hdigits _) hstop hpoint,
      hexponent]
    have hplaces : l.places = 0 := by
      rw [places, (span_of_not_mem hmem).2]
      rfl
    simp [toDecimal, significand, hplaces]

theorem mantissaValue_eq (l : Literal) :
    mantissaValue l.mantissa = l.significand / 10 ^ l.places := by
  have hsplit : digits l.mantissa = digits (l.mantissa.takeWhile (· != '.')) ++
      digits (l.mantissa.dropWhile (· != '.')) := by
    rw [← digits_append, List.takeWhile_append_dropWhile]
  rw [significand, hsplit, Nat.ofDigitChars_append, Nat.ofDigitChars_eq_ofDigitChars_zero,
    mantissaValue, places]
  generalize (digits (l.mantissa.dropWhile (· != '.'))) = fraction
  generalize Nat.ofDigitChars 10 (digits (l.mantissa.takeWhile (· != '.'))) 0 = whole
  have hpow : (10 : ℚ) ^ fraction.length ≠ 0 := by positivity
  push_cast
  field_simp

/-- The parts of a literal are what is before its `e` and from it on. -/
theorem span_text {l : Literal} (h : l.IsRead) :
    l.text.takeWhile (· != 'e') = l.mantissa ∧ l.text.dropWhile (· != 'e') = l.exponent := by
  have hmantissa : 'e' ∉ l.mantissa := fun hmem => absurd (h.mantissa 'e' hmem) (by decide)
  have hexponent : StopsAt (· != 'e') l.exponent := by
    rcases h.exponent with hnone | ⟨signs, tail, hsome, -⟩
    · rw [hnone]
      rintro c ⟨⟩
    · rw [hsome]
      rintro c ⟨⟩
      rfl
  exact span_append (bne_of_not_mem hmantissa) hexponent

/-- The decimal of a literal is what its text denotes. -/
theorem toRat_toDecimal {l : Literal} (h : l.IsRead) : l.toDecimal.toRat = denoted l.text := by
  obtain ⟨hmantissa, hexponent⟩ := span_text h
  have hpower : exponentValue l.exponent = l.power := by rfl
  rw [denoted, hmantissa, hexponent, mantissaValue_eq, hpower, Decimal.toRat, toDecimal,
    zpow_sub₀ (by norm_num), zpow_natCast]
  ring

end Literal

/-! ## Reading numbers -/

namespace Binary64

def ReadsCorrectly (read : List Char → Option Binary64) : Prop :=
  ∀ text d, Decimal.read? text = some d → ∃ v, read text = some v ∧ IsNearest d.toRat v

def read? (text : List Char) : Option Binary64 :=
  (Decimal.read? text).map fun d => .ofDecimal false d.digits d.exponent

theorem readsCorrectly_read? : ReadsCorrectly read? := by
  intro text d hd
  exact ⟨.ofDecimal false d.digits d.exponent, by rw [read?, hd]; rfl,
    isNearest_ofDecimal d.digits d.exponent⟩

theorem IsNearest.positive {q : ℚ} {v : Binary64} (h : IsNearest q v) :
    v = .infinite false ∨ ∃ m, v = .finite false m := by
  cases h with
  | @finite m _ _ _ => exact .inr ⟨m, rfl⟩
  | infinite _ => exact .inl rfl

end Binary64

def Token.numeral (t : Token) : List Char :=
  (Transcription.ofText t.span.start t.lexeme.toList).text

/--
A number is the value of its text. What is passed on of the text is always a
decimal, and exactly the one that the text denotes, so a reader that rounds
correctly never fails on it. The token has the number that it reads, which is
the only one nearest to what the text denotes, and neither negative nor `nan`.
-/
theorem tokenize_reads_numbers {read : List Char → Option Binary64}
    (hread : Binary64.ReadsCorrectly read) {source : String} {t : Token} {value : Binary64}
    (ht : t ∈ tokenize source) (hkind : t.kind = .number value) :
    (∃ d, Decimal.read? t.numeral = some d ∧ d.toRat = Literal.denoted t.lexeme.toList) ∧
      read t.numeral = some value ∧
      (∀ v, Binary64.IsNearest (Literal.denoted t.lexeme.toList) v ↔ v = value) ∧
      (value = .infinite false ∨ ∃ m, value = .finite false m) := by
  obtain ⟨hliteral, htext, hvalue⟩ := isRead_of_mem_tokenize ht hkind
  generalize Literal.ofChars t.lexeme.toList = l at hvalue hliteral htext
  have hnumeral : Decimal.read? t.numeral = some l.toDecimal := by
    rw [Token.numeral, ← htext, (Transcription.ofText_text hliteral _).1]
    exact Literal.read?_plain hliteral
  have hdenoted : l.toDecimal.toRat = Literal.denoted t.lexeme.toList := by
    rw [Literal.toRat_toDecimal hliteral, htext]
  have hnearest : Binary64.IsNearest (Literal.denoted t.lexeme.toList) value := by
    rw [← hdenoted, ← hvalue]
    exact Binary64.isNearest_ofDecimal _ _
  obtain ⟨v, hv, hnear⟩ := hread _ _ hnumeral
  rw [hdenoted] at hnear
  refine ⟨⟨_, hnumeral, hdenoted⟩, ?_, fun v => ⟨fun h => h.unique hnearest, ?_⟩, hnearest.positive⟩
  · rw [hv, hnear.unique hnearest]
  · rintro rfl
    exact hnearest

theorem tokenize_reads_numbers_of_malformed_literal :
    ∃ t ∈ tokenize "2 * .5_0.0_1e--_2", t.lexeme = ".5_0.0_1e--_2" ∧
      t.numeral = "0.5001e-2".toList ∧
      (∃ d, Decimal.read? t.numeral = some d ∧ d.toRat = Literal.denoted t.lexeme.toList) ∧
      Binary64.read? t.numeral = some (.ofDecimal false 5001 (-6)) ∧
      (∀ v, Binary64.IsNearest (Literal.denoted t.lexeme.toList) v ↔
        v = .ofDecimal false 5001 (-6)) := by
  have hmem : Token.mk (.number (.ofDecimal false 5001 (-6))) (.ofLength 4 13) ".5_0.0_1e--_2" ∈
      tokenize "2 * .5_0.0_1e--_2" := by decide +kernel
  obtain ⟨hdecimal, hread, hnearest, -⟩ :=
    tokenize_reads_numbers Binary64.readsCorrectly_read? hmem rfl
  exact ⟨_, hmem, rfl, by decide +kernel, hdecimal, hread, hnearest⟩

end Calculator
