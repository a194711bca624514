import Calculator.Proofs.Parser.Location

/-!
# Literals in one pass

A literal can be gone through character by character. What is passed on is a
decimal in the plain syntax, with at most one point and one sign, and each point
and each sign that is left out is a fault at its place. What is passed on and
what is at fault can also be read off the literal as a whole.
-/

namespace Calculator

/-! ## Where a character occurs -/

/-- The offsets at which a one-byte character occurs, in a text from an offset on. -/
def occurrences (c : Char) (offset : Nat) (cs : List Char) : List Nat :=
  (cs.zipIdx offset).filterMap fun e => if e.1 = c then some e.2 else none

section Occurrences

variable {c d : Char} {cs : List Char}

theorem repetitions_eq_drop (c : Char) (offset : Nat) (cs : List Char) :
    repetitions c offset cs = (occurrences c offset cs).drop 1 := rfl

theorem occurrences_cons_self (c : Char) (offset : Nat) (cs : List Char) :
    occurrences c offset (c :: cs) = offset :: occurrences c (offset + 1) cs := by
  simp [occurrences]

theorem occurrences_cons_of_ne (h : d ≠ c) (offset : Nat) (cs : List Char) :
    occurrences c offset (d :: cs) = occurrences c (offset + 1) cs := by
  simp [occurrences, h]

theorem occurrences_append (c : Char) (offset : Nat) (cs ds : List Char) :
    occurrences c offset (cs ++ ds) =
      occurrences c offset cs ++ occurrences c (offset + cs.length) ds := by
  rw [occurrences, List.zipIdx_append, List.filterMap_append, Nat.add_comm]
  rfl

theorem occurrences_of_not_mem (h : c ∉ cs) (offset : Nat) : occurrences c offset cs = [] := by
  induction cs generalizing offset with
  | nil => rfl
  | cons d cs ih =>
      obtain ⟨hd, hcs⟩ := not_or.1 (mt List.mem_cons.2 h)
      rw [occurrences_cons_of_ne (Ne.symm hd), ih hcs]

end Occurrences

def pointFaults (offsets : List Nat) : List (Span × Fault) :=
  offsets.map fun i => (.ofLength i 1, .duplicateDecimalPoint)

def signFaults (offsets : List Nat) : List (Span × Fault) :=
  offsets.map fun i => (.ofLength i 1, .duplicateExponentSign)

theorem literalFaults_eq (offset : Nat) (cs : List Char) :
    literalFaults offset cs =
      pointFaults (repetitions '.' offset cs) ++ signFaults (repetitions '-' offset cs) := rfl

/-! ## The parts of a literal -/

theorem bne_of_not_mem {c : Char} {cs : List Char} (h : c ∉ cs) : ∀ d ∈ cs, (d != c) = true := by
  intro d hd
  rw [bne_iff_ne]
  rintro rfl
  exact h hd

theorem span_append {p : Char → Bool} {front later : List Char} (h : ∀ c ∈ front, p c)
    (hstop : StopsAt p later) :
    (front ++ later).takeWhile p = front ∧ (front ++ later).dropWhile p = later := by
  refine ⟨takeWhile_append_of_stopsAt h hstop, ?_⟩
  rw [List.dropWhile_append_of_pos h]
  cases later with
  | nil => rfl
  | cons c later => simp [hstop c rfl]

namespace Literal

/-- The text of a literal is one: digits and points, and then at most one exponent. -/
structure IsRead (l : Literal) : Prop where
  mantissa : ∀ c ∈ l.mantissa, isMantissaChar c
  digits_ne_nil : digits l.mantissa ≠ []
  exponent : l.exponent = [] ∨ ∃ signs tail, l.exponent = 'e' :: signs ++ tail ∧
    (∀ c ∈ signs, c = '-') ∧ ∀ c ∈ tail, isExponentChar c

theorem digits_cons_of_isDigit {c : Char} (h : c.isDigit) (cs : List Char) :
    digits (c :: cs) = c :: digits cs :=
  List.filter_cons_of_pos h

theorem digits_cons_of_not {c : Char} (h : c.isDigit = false) (cs : List Char) :
    digits (c :: cs) = digits cs :=
  List.filter_cons_of_neg (by rw [h]; decide)

theorem isRead_ofChars {c : Char} {rest : List Char} (h : startsLiteral c rest) :
    (ofChars (c :: rest)).IsRead where
  mantissa _ hd := List.mem_takeWhile_imp hd
  digits_ne_nil := by
    have hdigit : ∃ d ∈ (c :: rest).takeWhile isMantissaChar, d.isDigit := by
      rcases startsLiteral_iff.1 h with hc | ⟨rfl, d, hd, hdigit⟩
      · exact ⟨c, by simp [isMantissaChar_of_isDigit hc], hc⟩
      · cases rest with
        | nil => cases hd
        | cons e rest =>
            cases hd
            refine ⟨d, ?_, hdigit⟩
            rw [List.takeWhile_cons_of_pos rfl,
              List.takeWhile_cons_of_pos (isMantissaChar_of_isDigit hdigit)]
            simp
    obtain ⟨d, hd, hdigit⟩ := hdigit
    exact List.ne_nil_of_mem (List.mem_filter.2 ⟨hd, hdigit⟩)
  exponent := by
    rcases exponentOf_cases ((c :: rest).dropWhile isMantissaChar) with ⟨tail, htail⟩ | hnone
    · refine .inr ⟨tail.takeWhile (· == '-'), (tail.dropWhile (· == '-')).takeWhile isExponentChar,
        ?_, fun d hd => ?_, fun d hd => ?_⟩
      · rw [ofChars, htail]
        rfl
      · simpa using List.mem_takeWhile_imp hd
      · exact List.mem_takeWhile_imp hd
    · exact .inl hnone

theorem IsRead.not_mem_mantissa {l : Literal} (h : l.IsRead) : '-' ∉ l.mantissa :=
  fun hmem => absurd (h.mantissa '-' hmem) (by decide)

theorem IsRead.not_mem_exponent {l : Literal} (h : l.IsRead) : '.' ∉ l.exponent := by
  rcases h.exponent with hnone | ⟨signs, tail, hexponent, hsigns, htail⟩
  · rw [hnone]
    exact List.not_mem_nil
  · intro hmem
    rw [hexponent, List.mem_append, List.mem_cons] at hmem
    rcases hmem with (hmem | hmem) | hmem
    · exact absurd hmem (by decide)
    · exact absurd (hsigns '.' hmem) (by decide)
    · exact absurd (htail '.' hmem) (by decide)

/-- Points are in the mantissa, and signs in the exponent. -/
theorem IsRead.literalFaults_text {l : Literal} (h : l.IsRead) (offset : Nat) :
    literalFaults offset l.text =
      pointFaults (repetitions '.' offset l.mantissa) ++
        signFaults (repetitions '-' (offset + l.mantissa.length) l.exponent) := by
  rw [literalFaults_eq, text, repetitions_eq_drop, repetitions_eq_drop, occurrences_append,
    occurrences_append, occurrences_of_not_mem h.not_mem_exponent,
    occurrences_of_not_mem h.not_mem_mantissa, List.append_nil, List.nil_append]
  rfl

/-- The mantissa in the plain syntax, in which no number starts with a point. -/
def plainMantissa (cs : List Char) : List Char :=
  let whole := digits (cs.takeWhile (· != '.'))
  match cs.dropWhile (· != '.') with
  | [] => whole
  | _ :: fraction => (if whole.isEmpty then ['0'] else whole) ++ '.' :: digits fraction

def plainExponent (cs : List Char) : List Char :=
  if digits cs = [] then [] else 'e' :: (if '-' ∈ cs then ['-'] else []) ++ digits cs

theorem span_point {front : List Char} (h : '.' ∉ front) (back : List Char) :
    (front ++ '.' :: back).takeWhile (· != '.') = front ∧
      (front ++ '.' :: back).dropWhile (· != '.') = '.' :: back := by
  refine span_append (bne_of_not_mem h) ?_
  rintro c ⟨⟩
  rfl

theorem span_of_not_mem {cs : List Char} (h : '.' ∉ cs) :
    cs.takeWhile (· != '.') = cs ∧ cs.dropWhile (· != '.') = [] :=
  ⟨List.takeWhile_eq_self_iff.2 (bne_of_not_mem h), List.dropWhile_eq_nil_iff.2 (bne_of_not_mem h)⟩

theorem plainMantissa_append {front : List Char} (h : '.' ∉ front) (back : List Char) :
    plainMantissa (front ++ '.' :: back) =
      (if (digits front).isEmpty then ['0'] else digits front) ++ '.' :: digits back := by
  rw [plainMantissa, (span_point h back).1, (span_point h back).2]

theorem plainMantissa_of_not_mem {cs : List Char} (h : '.' ∉ cs) :
    plainMantissa cs = digits cs := by
  rw [plainMantissa, (span_of_not_mem h).1, (span_of_not_mem h).2]

theorem digits_exponent {signs : List Char} (h : ∀ c ∈ signs, c = '-') (tail : List Char) :
    digits ('e' :: signs ++ tail) = digits tail := by
  have hsigns : digits signs = [] := by
    refine List.filter_eq_nil_iff.2 fun c hc => ?_
    rw [h c hc]
    decide
  rw [List.cons_append, digits_cons_of_not rfl]
  exact (List.filter_append ..).trans (by rw [← digits, hsigns, List.nil_append]; rfl)

def plain (l : Literal) : List Char :=
  plainMantissa l.mantissa ++ plainExponent l.exponent

end Literal

theorem isMantissaChar_of_isExponentChar {c : Char} (h : isExponentChar c) : isMantissaChar c :=
  Bool.or_eq_true_iff.2 (.inl h)

/-- The text of a number is that of the literal at its start, which is all of it. -/
theorem isRead_of_mem_lexemes {cs : List Char} {l : Lexeme} {value : Binary64} (h : l ∈ lexemes cs)
    (hl : l.kind = .number value) :
    (Literal.ofChars l.chars).IsRead ∧ (Literal.ofChars l.chars).text = l.chars := by
  obtain ⟨c, tail, hchars, hfirst⟩ := firstToken_of_chars h
  have hnumber : (firstToken c tail).1 = .number value := by rw [hfirst, hl]
  obtain ⟨hstarts, hliteral⟩ := firstToken_of_number hnumber
  obtain ⟨front, hfront, -⟩ := text_of_startsLiteral hstarts
  rw [hliteral, hfront] at hfirst
  have htail : front = tail := congrArg Prod.snd hfirst
  rw [hchars]
  exact ⟨Literal.isRead_ofChars hstarts, by rw [hfront, htail]⟩

section Numbers

variable {source : String} {t : Token} {value : Binary64}

theorem isRead_of_mem_place (h : t ∈ place 0 (lexemes source.toList))
    (hkind : t.kind = .number value) :
    (Literal.ofChars t.lexeme.toList).IsRead ∧
      (Literal.ofChars t.lexeme.toList).text = t.lexeme.toList ∧
      (Literal.ofChars t.lexeme.toList).value = value := by
  have hpiece := piece_mem_of_mem_place h
  obtain ⟨hread, htext⟩ := isRead_of_mem_lexemes hpiece hkind
  exact ⟨hread, htext, value_of_mem_lexemes hpiece hkind⟩

theorem mem_place_of_mem_tokenize (h : t ∈ tokenize source) (hkind : t.kind ≠ .finish) :
    t ∈ place 0 (lexemes source.toList) := by
  rw [tokenize_eq, List.mem_append, List.mem_singleton] at h
  refine h.resolve_right ?_
  rintro rfl
  exact hkind rfl

theorem isRead_of_mem_tokenize (h : t ∈ tokenize source) (hkind : t.kind = .number value) :
    (Literal.ofChars t.lexeme.toList).IsRead ∧
      (Literal.ofChars t.lexeme.toList).text = t.lexeme.toList ∧
      (Literal.ofChars t.lexeme.toList).value = value :=
  isRead_of_mem_place (mem_place_of_mem_tokenize h (by simp [hkind])) hkind

end Numbers

/-! ## One pass -/

/-- What is known of a literal after some of its characters. -/
structure Transcription where
  /-- What is passed on. -/
  text : List Char
  offset : Nat
  /-- There was a point. -/
  pointed : Bool
  /-- There was an `e`. -/
  inExponent : Bool
  /-- There was a sign. -/
  negative : Bool
  /-- There was a digit in the exponent. -/
  hasPower : Bool
  faults : List (Span × Fault)

namespace Transcription

def start (offset : Nat) : Transcription :=
  ⟨[], offset, false, false, false, false, []⟩

/-- What stands before the next digit: the exponent begins with its first one. -/
def marker (t : Transcription) : List Char :=
  if t.inExponent && !t.hasPower then 'e' :: (if t.negative then ['-'] else []) else []

def step (t : Transcription) (c : Char) : Transcription :=
  let next := { t with offset := t.offset + c.utf8Size }
  let span := Span.ofLength t.offset c.utf8Size
  match c with
  | '_' => next
  | '.' =>
      if t.pointed then { next with faults := t.faults ++ [(span, .duplicateDecimalPoint)] }
      else
        { next with
          text := (if t.text.isEmpty then ['0'] else t.text) ++ ['.']
          pointed := true }
  | 'e' => { next with inExponent := true }
  | '-' =>
      if t.negative then { next with faults := t.faults ++ [(span, .duplicateExponentSign)] }
      else { next with negative := true }
  | digit =>
      { next with
        text := t.text ++ t.marker ++ [digit]
        hasPower := t.hasPower || t.inExponent }

def ofText (offset : Nat) (cs : List Char) : Transcription :=
  cs.foldl step (start offset)

section Steps

variable {t : Transcription} {c : Char}

theorem step_underscore (t : Transcription) :
    t.step '_' = { t with offset := t.offset + 1 } := rfl

theorem step_point (h : t.pointed) : t.step '.' =
    { t with offset := t.offset + 1, faults := t.faults ++ pointFaults [t.offset] } := by
  unfold step
  simp only [h, if_true]
  rfl

theorem step_first_point (h : t.pointed = false) : t.step '.' =
    { t with
      text := (if t.text.isEmpty then ['0'] else t.text) ++ ['.']
      offset := t.offset + 1
      pointed := true } := by
  unfold step
  simp only [h, Bool.false_eq_true, if_false]
  rfl

theorem step_exponent (t : Transcription) :
    t.step 'e' = { t with offset := t.offset + 1, inExponent := true } := rfl

theorem step_first_sign (h : t.negative = false) : t.step '-' =
    { t with offset := t.offset + 1, negative := true } := by
  unfold step
  simp only [h, Bool.false_eq_true, if_false]
  rfl

theorem step_sign (h : t.negative) : t.step '-' =
    { t with offset := t.offset + 1, faults := t.faults ++ signFaults [t.offset] } := by
  unfold step
  simp only [h, if_true]
  rfl

theorem step_digit (hc : c.isDigit) : t.step c =
    { t with
      text := t.text ++ t.marker ++ [c]
      offset := t.offset + 1
      hasPower := t.hasPower || t.inExponent } := by
  have hsize := utf8Size_of_isDigit hc
  unfold step
  split
  · cases hc
  · cases hc
  · cases hc
  · cases hc
  · rw [hsize]

theorem marker_of_settled (h : t.inExponent = t.hasPower) : t.marker = [] := by
  rw [marker, h, Bool.and_not_self, if_neg Bool.false_ne_true]

end Steps

/-! ## Runs of characters -/

section Runs

variable {t : Transcription} {cs : List Char}

/-- Digits are passed on and points are faults, where a point has been and no exponent begins. -/
theorem foldl_mantissa (t : Transcription) (hcs : ∀ c ∈ cs, isMantissaChar c)
    (hpoint : t.pointed ∨ '.' ∉ cs) (hsettled : t.inExponent = t.hasPower) :
    cs.foldl step t =
      { t with
        text := t.text ++ Literal.digits cs
        offset := t.offset + cs.length
        faults := t.faults ++ pointFaults (occurrences '.' t.offset cs) } := by
  induction cs generalizing t with
  | nil => simp [Literal.digits, occurrences, pointFaults]
  | cons c cs ih =>
      have hc := hcs c List.mem_cons_self
      have hrest : ∀ d ∈ cs, isMantissaChar d := fun d hd => hcs d (List.mem_cons_of_mem c hd)
      have hlater : t.pointed ∨ '.' ∉ cs := hpoint.imp_right (mt (List.mem_cons_of_mem c))
      simp only [isMantissaChar, Bool.or_eq_true, beq_iff_eq] at hc
      rw [List.foldl_cons]
      rcases hc with (hdigit | rfl) | rfl
      · have hne : c ≠ '.' := by
          rintro rfl
          cases hdigit
        have hstep : t.step c = { t with text := t.text ++ [c], offset := t.offset + 1 } := by
          rw [step_digit hdigit, marker_of_settled hsettled, hsettled, Bool.or_self,
            List.append_nil, ← hsettled]
        rw [hstep,
          ih { t with text := t.text ++ [c], offset := t.offset + 1 } hrest hlater hsettled,
          occurrences_cons_of_ne hne, Literal.digits_cons_of_isDigit hdigit]
        simp [Nat.add_assoc, Nat.add_comm 1]
      · rw [ih (t.step '_') hrest hlater hsettled, step_underscore,
          occurrences_cons_of_ne (by decide), Literal.digits_cons_of_not rfl]
        simp [Nat.add_assoc, Nat.add_comm 1]
      · have hpointed : t.pointed := hpoint.resolve_right (not_not_intro List.mem_cons_self)
        have hstep := step_point hpointed
        rw [ih (t.step '.') hrest (.inl (by rw [hstep]; exact hpointed))
          (by rw [hstep]; exact hsettled), hstep, occurrences_cons_self,
          Literal.digits_cons_of_not rfl]
        simp [pointFaults, Nat.add_assoc, Nat.add_comm 1]

/-- Signs after a sign are faults. -/
theorem foldl_signs (t : Transcription) (hcs : ∀ c ∈ cs, c = '-') (hnegative : t.negative) :
    cs.foldl step t =
      { t with
        offset := t.offset + cs.length
        faults := t.faults ++ signFaults (occurrences '-' t.offset cs) } := by
  induction cs generalizing t with
  | nil => simp [occurrences, signFaults]
  | cons c cs ih =>
      have hrest : ∀ d ∈ cs, d = '-' := fun d hd => hcs d (List.mem_cons_of_mem c hd)
      have hstep := step_sign hnegative
      rw [hcs c List.mem_cons_self, List.foldl_cons,
        ih (t.step '-') hrest (by rw [hstep]; exact hnegative), hstep, occurrences_cons_self]
      simp [signFaults, Nat.add_assoc, Nat.add_comm 1]

/-- The first digit of an exponent begins it. -/
theorem foldl_exponent (t : Transcription) (hcs : ∀ c ∈ cs, isExponentChar c)
    (hexponent : t.inExponent) (hfirst : t.hasPower = false) :
    cs.foldl step t =
      { t with
        text := t.text ++ (if Literal.digits cs = [] then [] else t.marker ++ Literal.digits cs)
        offset := t.offset + cs.length
        hasPower := !(Literal.digits cs).isEmpty } := by
  induction cs generalizing t with
  | nil => simp [Literal.digits, ← hfirst]
  | cons c cs ih =>
      have hc := hcs c List.mem_cons_self
      have hrest : ∀ d ∈ cs, isExponentChar d := fun d hd => hcs d (List.mem_cons_of_mem c hd)
      simp only [isExponentChar, Bool.or_eq_true, beq_iff_eq] at hc
      rw [List.foldl_cons]
      rcases hc with hdigit | rfl
      · have hstep := step_digit (t := t) hdigit
        have hpoint : '.' ∉ cs := fun hmem => absurd (hrest '.' hmem) (by decide)
        have hmantissa : ∀ d ∈ cs, isMantissaChar d := fun d hd =>
          isMantissaChar_of_isExponentChar (hrest d hd)
        rw [foldl_mantissa (t.step c) hmantissa (.inr hpoint) (by rw [hstep]; simp [hexponent]),
          hstep, occurrences_of_not_mem hpoint, Literal.digits_cons_of_isDigit hdigit]
        simp [hexponent, pointFaults, Nat.add_assoc, Nat.add_comm 1]
      · rw [ih (t.step '_') hrest hexponent hfirst, step_underscore, Literal.digits_cons_of_not rfl]
        simp [marker, Nat.add_assoc, Nat.add_comm 1]

/-- What is known of a literal after its mantissa. -/
theorem ofText_mantissa (offset : Nat) (hcs : ∀ c ∈ cs, isMantissaChar c) :
    ofText offset cs =
      ⟨Literal.plainMantissa cs, offset + cs.length, decide ('.' ∈ cs), false, false, false,
        pointFaults (repetitions '.' offset cs)⟩ := by
  unfold ofText
  by_cases hpoint : '.' ∈ cs
  · obtain ⟨front, back, rfl, hfront⟩ := List.eq_append_cons_of_mem hpoint
    have hwhole := foldl_mantissa (start offset) (fun c hc => hcs c (List.mem_append_left _ hc))
      (.inr hfront) rfl
    have hfraction : ∀ c ∈ back, isMantissaChar c :=
      fun c hc => hcs c (List.mem_append_right _ (List.mem_cons_of_mem _ hc))
    rw [List.foldl_append, hwhole, List.foldl_cons, step_first_point rfl,
      foldl_mantissa _ hfraction (.inl rfl) rfl, Literal.plainMantissa_append hfront,
      repetitions_eq_drop, occurrences_append, occurrences_of_not_mem hfront, occurrences_cons_self]
    simp [start, pointFaults, occurrences_of_not_mem hfront, Nat.add_assoc, Nat.add_comm 1]
  · rw [foldl_mantissa (start offset) hcs (.inr hpoint) rfl,
      Literal.plainMantissa_of_not_mem hpoint, repetitions_eq_drop]
    simp [start, pointFaults, occurrences_of_not_mem hpoint, hpoint]

/-- What an exponent adds to a literal. -/
theorem foldl_exponentOf (t : Transcription) {signs tail : List Char}
    (hsigns : ∀ c ∈ signs, c = '-') (htail : ∀ c ∈ tail, isExponentChar c)
    (hnegative : t.negative = false) (hpower : t.hasPower = false) :
    (('e' :: signs ++ tail).foldl step t).text =
        t.text ++ Literal.plainExponent ('e' :: signs ++ tail) ∧
      (('e' :: signs ++ tail).foldl step t).faults =
        t.faults ++ signFaults (repetitions '-' t.offset ('e' :: signs ++ tail)) := by
  have hsign : '-' ∉ tail := fun hmem => absurd (htail '-' hmem) (by decide)
  rw [Literal.plainExponent, Literal.digits_exponent hsigns, repetitions_eq_drop, List.cons_append,
    occurrences_cons_of_ne (by decide), occurrences_append, occurrences_of_not_mem hsign,
    List.append_nil, List.foldl_cons, List.foldl_append]
  cases signs with
  | nil =>
      rw [List.foldl_nil, foldl_exponent (t.step 'e') htail rfl hpower]
      simp [marker, step_exponent, hpower, hnegative, hsign, occurrences, signFaults]
  | cons c signs =>
      have hrest : ∀ d ∈ signs, d = '-' := fun d hd => hsigns d (List.mem_cons_of_mem c hd)
      have hstep : (t.step 'e').step '-' =
          { t with offset := t.offset + 2, inExponent := true, negative := true } :=
        step_first_sign hnegative
      rw [hsigns c List.mem_cons_self, List.foldl_cons, hstep, foldl_signs _ hrest rfl,
        foldl_exponent _ htail rfl (by exact hpower), occurrences_cons_self]
      simp [marker, hpower, signFaults]

/-- One pass over a literal passes it on in the plain syntax, and finds all its faults in order. -/
theorem ofText_text {l : Literal} (h : l.IsRead) (offset : Nat) :
    (ofText offset l.text).text = l.plain ∧
      (ofText offset l.text).faults = literalFaults offset l.text := by
  have hpass : ofText offset l.text = l.exponent.foldl step (ofText offset l.mantissa) :=
    List.foldl_append
  rw [hpass, ofText_mantissa offset h.mantissa, Literal.plain, h.literalFaults_text]
  rcases h.exponent with hnone | ⟨signs, tail, hexponent, hsigns, htail⟩
  · rw [hnone]
    simp [Literal.plainExponent, Literal.digits, repetitions, signFaults]
  · rw [hexponent]
    exact foldl_exponentOf _ hsigns htail rfl rfl

end Runs

end Transcription

end Calculator
