import Calculator.Proofs.Token.Spelling

/-!
# The longest match

A token reaches to the first character that cannot go on with it. Of what comes
after a token only the first character matters, and a separator goes on with no
token. So the text of a token is scanned as that token in front of whatever
starts as the rest of the line does, or with a separator.
-/

namespace Calculator

def isSeparator (c : Char) : Bool :=
  c == ' ' || c == '\t' || c == '\r' || c == '\n'

theorem punctuation?_eq_space_iff {c : Char} : punctuation? c = some .space ↔ isSeparator c := by
  constructor
  · intro h
    unfold punctuation? at h
    split at h <;> first | rfl | cases h
  · intro h
    simp only [isSeparator, Bool.or_eq_true, beq_iff_eq] at h
    rcases h with ((rfl | rfl) | rfl) | rfl <;> rfl

def AvoidsSeparators (p : Char → Bool) : Prop :=
  ∀ c, isSeparator c → p c = false

instance (p : Char → Bool) : Decidable (AvoidsSeparators p) :=
  decidable_of_iff ([' ', '\t', '\r', '\n'].all fun c => !p c) <| by
    simp [AvoidsSeparators, isSeparator, or_imp, forall_and, and_assoc]

/-! ## What comes after a token -/

/-- A text starts as another does, or with a separator, or it is at its end. -/
def ResumesAs (text later : List Char) : Prop :=
  text.head? = later.head? ∨ ∀ c ∈ text.head?, isSeparator c

theorem resumesAs_nil (later : List Char) : ResumesAs [] later :=
  .inr fun _ hc => by cases hc

theorem ResumesAs.append {text later : List Char} (h : ResumesAs text later) (front : List Char) :
    ResumesAs (front ++ text) (front ++ later) := by
  cases front with
  | nil => exact h
  | cons c front => exact .inl rfl

theorem ResumesAs.stopsAt {p : Char → Bool} {text later : List Char} (h : ResumesAs text later)
    (hp : AvoidsSeparators p) (hstop : StopsAt p later) : StopsAt p text := by
  intro c hc
  rcases h with hhead | hseparator
  · exact hstop c (hhead ▸ hc)
  · exact hp c (hseparator c hc)

/-- What is read from the start of a text is read again wherever it is followed alike. -/
structure ReadsAhead (read : List Char → List Char) : Prop where
  starts (cs : List Char) : read cs <+: cs
  again {front later text : List Char} (h : read (front ++ later) = front)
    (resumes : ResumesAs text later) : read (front ++ text) = front

theorem stopsAt_of_takeWhile {p : Char → Bool} {front later : List Char}
    (h : (front ++ later).takeWhile p = front) : (∀ c ∈ front, p c) ∧ StopsAt p later := by
  have hall : ∀ c ∈ front, p c := by
    intro c hc
    rw [← h] at hc
    exact List.all_eq_true.1 List.all_takeWhile c hc
  have hnone : later.takeWhile p = [] := by
    rwa [List.takeWhile_append_of_pos hall, List.append_right_eq_self] at h
  refine ⟨hall, fun c hc => ?_⟩
  cases later with
  | nil => cases hc
  | cons d later =>
      cases hc
      rw [Bool.eq_false_iff]
      intro hpc
      rw [List.takeWhile_cons_of_pos hpc] at hnone
      cases hnone

theorem readsAhead_takeWhile {p : Char → Bool} (hp : AvoidsSeparators p) :
    ReadsAhead (List.takeWhile p) where
  starts _ := List.takeWhile_prefix p
  again h hresumes := by
    obtain ⟨hall, hstop⟩ := stopsAt_of_takeWhile h
    exact takeWhile_append_of_stopsAt hall (hresumes.stopsAt hp hstop)

def readBoth (read next : List Char → List Char) (cs : List Char) : List Char :=
  read cs ++ next (cs.drop (read cs).length)

theorem ReadsAhead.both {read next : List Char → List Char} (h : ReadsAhead read)
    (h' : ReadsAhead next) : ReadsAhead (readBoth read next) where
  starts cs := by
    obtain ⟨later, hlater⟩ := h.starts cs
    have hdrop : cs.drop (read cs).length = later :=
      (congrArg (List.drop _) hlater.symm).trans List.drop_left
    have hboth : read cs ++ next later <+: read cs ++ later :=
      (List.prefix_append_right_inj _).2 (h'.starts later)
    rw [hlater] at hboth
    rwa [readBoth, hdrop]
  again {front later text} hread hresumes := by
    unfold readBoth at hread ⊢
    generalize hfirst : read (front ++ later) = first at hread
    generalize hsecond : next ((front ++ later).drop first.length) = second at hread
    subst hread
    rw [List.append_assoc] at hfirst hsecond
    rw [List.drop_left] at hsecond
    have hread : read (first ++ (second ++ text)) = first :=
      h.again hfirst (hresumes.append second)
    have hnext : next (second ++ text) = second := h'.again hsecond hresumes
    rw [List.append_assoc, hread, List.drop_left, hnext]

theorem readBoth_takeWhile (p : Char → Bool) (next : List Char → List Char) (cs : List Char) :
    readBoth (List.takeWhile p) next cs = cs.takeWhile p ++ next (cs.dropWhile p) := by
  have hsplit : cs.takeWhile p ++ cs.dropWhile p = cs := List.takeWhile_append_dropWhile
  have hdrop : cs.drop (cs.takeWhile p).length = cs.dropWhile p :=
    (congrArg (List.drop _) hsplit.symm).trans List.drop_left
  rw [readBoth, hdrop]

/-! ## Literals -/

namespace Literal

/-- What of an exponent comes after its `e`. -/
def readExponent : List Char → List Char :=
  readBoth (List.takeWhile (· == '-')) (List.takeWhile isExponentChar)

theorem readsAhead_readExponent : ReadsAhead readExponent :=
  (readsAhead_takeWhile (by decide)).both (readsAhead_takeWhile (by decide))

theorem exponentOf_cons (cs : List Char) : exponentOf ('e' :: cs) = 'e' :: readExponent cs := by
  rw [readExponent, readBoth_takeWhile]
  rfl

theorem exponentOf_eq_nil_iff {cs : List Char} : exponentOf cs = [] ↔ StopsAt (· == 'e') cs := by
  constructor
  · intro h c hc
    cases cs with
    | nil => cases hc
    | cons d cs =>
        cases hc
        rw [beq_eq_false_iff_ne]
        rintro rfl
        rw [exponentOf_cons] at h
        cases h
  · intro h
    unfold exponentOf
    split
    next => exact absurd (h 'e' rfl) (by decide)
    next => rfl

/-- An exponent is read, or none is there. -/
theorem exponentOf_cases (cs : List Char) :
    (∃ tail, cs = 'e' :: tail) ∨ exponentOf cs = [] := by
  cases cs with
  | nil => exact .inr rfl
  | cons c tail =>
      by_cases hc : c = 'e'
      · exact .inl ⟨tail, by rw [hc]⟩
      · refine .inr (exponentOf_eq_nil_iff.2 fun d hd => ?_)
        cases hd
        simpa using hc

theorem readsAhead_exponentOf : ReadsAhead exponentOf where
  starts cs := by
    rcases exponentOf_cases cs with ⟨tail, rfl⟩ | hnone
    · rw [exponentOf_cons, List.prefix_cons_inj]
      exact readsAhead_readExponent.starts tail
    · rw [hnone]
      exact List.nil_prefix
  again {front later text} h hresumes := by
    cases front with
    | nil =>
        have hstop : StopsAt (· == 'e') later := exponentOf_eq_nil_iff.1 h
        exact exponentOf_eq_nil_iff.2 (hresumes.stopsAt (by decide) hstop)
    | cons c front =>
        rw [List.cons_append] at h ⊢
        rcases exponentOf_cases (c :: (front ++ later)) with ⟨tail, htail⟩ | hnone
        · obtain ⟨rfl, -⟩ := List.cons.inj htail
          rw [exponentOf_cons] at h ⊢
          rw [readsAhead_readExponent.again (List.tail_eq_of_cons_eq h) hresumes]
        · rw [hnone] at h
          cases h

theorem stopsAt_exponentOf (cs : List Char) : StopsAt isMantissaChar (exponentOf cs) := by
  rcases exponentOf_cases cs with ⟨tail, rfl⟩ | hnone
  · rw [exponentOf_cons]
    rintro c ⟨⟩
    rfl
  · rw [hnone]
    rintro c ⟨⟩

theorem readsAhead_text : ReadsAhead fun cs => (ofChars cs).text := by
  have hboth : ReadsAhead (readBoth (List.takeWhile isMantissaChar) exponentOf) :=
    (readsAhead_takeWhile (by decide)).both readsAhead_exponentOf
  have htext : (fun cs => (ofChars cs).text) =
      readBoth (List.takeWhile isMantissaChar) exponentOf := by
    funext cs
    rw [readBoth_takeWhile]
    rfl
  exact htext ▸ hboth

/-- The text of a literal decides where its exponent begins. -/
theorem ofChars_congr {cs ds : List Char} (h : (ofChars cs).text = (ofChars ds).text) :
    ofChars cs = ofChars ds := by
  have hmantissa (cs : List Char) :
      (ofChars cs).text.takeWhile isMantissaChar = (ofChars cs).mantissa :=
    takeWhile_append_of_stopsAt (List.all_eq_true.1 List.all_takeWhile) (stopsAt_exponentOf _)
  have hsame : (ofChars cs).mantissa = (ofChars ds).mantissa := by
    rw [← hmantissa cs, h, hmantissa ds]
  have hsame' : (ofChars cs).exponent = (ofChars ds).exponent := by
    unfold text at h
    rw [hsame] at h
    exact List.append_cancel_left h
  generalize ofChars cs = l at hsame hsame'
  generalize ofChars ds = l' at hsame hsame'
  cases l
  cases l'
  cases hsame
  cases hsame'
  rfl

end Literal

/-! ## Tokens -/

theorem startsLiteral_of_resumes {c : Char} {text later : List Char} (h : ResumesAs text later)
    (hnot : startsLiteral c later = false) : startsLiteral c text = false := by
  rcases h with hhead | hseparator
  · rwa [startsLiteral, hhead]
  · have havoids : AvoidsSeparators Char.isDigit := by decide
    have hc : c.isDigit = false := (Bool.or_eq_false_iff.1 hnot).1
    cases hnext : text.head? with
    | none => simp [startsLiteral, hc, hnext]
    | some d => simp [startsLiteral, hc, hnext, havoids d (hseparator d hnext)]

theorem startsLiteral_iff {c : Char} {rest : List Char} :
    startsLiteral c rest ↔ c.isDigit ∨ c = '.' ∧ ∃ d ∈ rest.head?, d.isDigit := by
  cases hhead : rest.head? <;> simp [startsLiteral, hhead]

theorem startsLiteral_append {c : Char} {tail : List Char} (h : startsLiteral c tail)
    (text : List Char) : startsLiteral c (tail ++ text) := by
  rw [startsLiteral_iff] at h ⊢
  refine h.imp_right fun ⟨hc, d, hd, hdigit⟩ => ⟨hc, d, ?_, hdigit⟩
  cases tail with
  | nil => cases hd
  | cons e tail => exact hd

theorem isMantissaChar_of_isDigit {c : Char} (h : c.isDigit) : isMantissaChar c := by
  simp [isMantissaChar, h]

/-- A literal has its first character, and its first digit if it starts with a point. -/
theorem text_of_startsLiteral {c : Char} {rest : List Char} (h : startsLiteral c rest) :
    ∃ tail, (Literal.ofChars (c :: rest)).text = c :: tail ∧ startsLiteral c tail := by
  rcases startsLiteral_iff.1 h with hdigit | ⟨rfl, d, hd, hdigit⟩
  · have htake : (c :: rest).takeWhile isMantissaChar = c :: rest.takeWhile isMantissaChar :=
      List.takeWhile_cons_of_pos (isMantissaChar_of_isDigit hdigit)
    refine ⟨_, by rw [Literal.text, Literal.ofChars, htake, List.cons_append], ?_⟩
    exact startsLiteral_iff.2 (.inl hdigit)
  · cases rest with
    | nil => cases hd
    | cons e rest =>
        cases hd
        have htake : ('.' :: d :: rest).takeWhile isMantissaChar =
            '.' :: d :: rest.takeWhile isMantissaChar := by
          rw [List.takeWhile_cons_of_pos rfl,
            List.takeWhile_cons_of_pos (isMantissaChar_of_isDigit hdigit)]
        refine ⟨_, by rw [Literal.text, Literal.ofChars, htake, List.cons_append], ?_⟩
        exact startsLiteral_iff.2 (.inr ⟨rfl, d, rfl, hdigit⟩)

theorem firstToken_starts (c : Char) (rest : List Char) : (firstToken c rest).2 <+: rest := by
  rcases firstToken_cases c rest with ⟨kind, -, hsign⟩ | ⟨hstarts, hliteral⟩ | ⟨-, hword⟩ | hunknown
  · rw [hsign]
    exact List.nil_prefix
  · have htext : (Literal.ofChars (c :: rest)).text <+: c :: rest :=
      Literal.readsAhead_text.starts (c :: rest)
    obtain ⟨tail, htail, -⟩ := text_of_startsLiteral hstarts
    rw [htail, List.prefix_cons_inj] at htext
    rwa [hliteral, htail]
  · rw [hword]
    exact List.takeWhile_prefix _
  · rw [hunknown]
    exact List.nil_prefix

/-- A token is scanned from its own text again. -/
theorem firstToken_append {c : Char} {tail later text : List Char}
    (h : (firstToken c (tail ++ later)).2 = tail) (hresumes : ResumesAs text later) :
    firstToken c (tail ++ text) = firstToken c (tail ++ later) := by
  unfold firstToken at h ⊢
  split
  next => rfl
  next hpunctuation =>
    rw [hpunctuation] at h
    dsimp only at h
    by_cases hliteral : startsLiteral c (tail ++ later)
    · obtain ⟨front, hfront, hstarts⟩ := text_of_startsLiteral hliteral
      rw [if_pos hliteral] at h
      dsimp only at h
      rw [hfront, List.tail_cons] at h
      subst h
      have hread : (Literal.ofChars (c :: front ++ later)).text = c :: front := hfront
      have hagain : (Literal.ofChars (c :: front ++ text)).text = c :: front :=
        Literal.readsAhead_text.again hread hresumes
      rw [List.cons_append] at hagain
      rw [if_pos hliteral, if_pos (startsLiteral_append hstarts text),
        Literal.ofChars_congr (hagain.trans hfront.symm)]
    · have hnot : startsLiteral c (tail ++ text) = false :=
        startsLiteral_of_resumes (hresumes.append tail) (Bool.eq_false_iff.2 hliteral)
      rw [if_neg hliteral] at h ⊢
      rw [hnot, if_neg Bool.false_ne_true]
      split
      next hword =>
        rw [if_pos hword] at h
        have hagain : (tail ++ text).takeWhile isWordChar = tail :=
          (readsAhead_takeWhile (by decide)).again h hresumes
        have hread : (tail ++ later).takeWhile isWordChar = tail := h
        rw [hagain, hread]
      next => rfl

/-- A lexeme is what is scanned from its own characters. -/
theorem firstToken_of_chars {cs : List Char} {l : Lexeme} (h : l ∈ lexemes cs) :
    ∃ c tail, l.chars = c :: tail ∧ firstToken c tail = (l.kind, tail) := by
  obtain ⟨c, rest, rfl⟩ := firstToken_of_mem_lexemes h
  obtain ⟨later, hlater⟩ := firstToken_starts c rest
  generalize htail : (firstToken c rest).2 = tail at hlater
  subst hlater
  have hagain : firstToken c (tail ++ []) = firstToken c (tail ++ later) :=
    firstToken_append htail (resumesAs_nil later)
  rw [List.append_nil] at hagain
  exact ⟨c, tail, rfl, hagain.trans (Prod.ext rfl htail)⟩

/-- The first lexeme of a text is scanned wherever what comes after it starts alike. -/
theorem lexemes_cons {cs : List Char} {l : Lexeme} {ls : List Lexeme} (h : lexemes cs = l :: ls) :
    ∃ later, cs = l.chars ++ later ∧ lexemes later = ls ∧
      ∀ text, ResumesAs text later → lexemes (l.chars ++ text) = l :: lexemes text := by
  cases cs with
  | nil =>
      rw [lexemes] at h
      cases h
  | cons c rest =>
      obtain ⟨later, hlater⟩ := firstToken_starts c rest
      generalize htail : (firstToken c rest).2 = tail at hlater
      subst hlater
      rw [lexemes, htail, List.drop_left] at h
      obtain ⟨rfl, rfl⟩ := List.cons.inj h
      refine ⟨later, rfl, rfl, fun text hresumes => ?_⟩
      have hagain := firstToken_append htail hresumes
      rw [List.cons_append, lexemes, hagain, htail, List.drop_left]

end Calculator
