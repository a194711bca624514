import Calculator.Proofs.Token.Lexemes

/-!
# Spellings

What is scanned from a text that is put together: a sign is a token of its own,
and a word reaches to the first character that belongs to no word.
-/

namespace Calculator

def StopsAt (p : Char → Bool) (cs : List Char) : Prop :=
  ∀ c ∈ cs.head?, p c = false

theorem takeWhile_append_of_stopsAt {p : Char → Bool} {front rest : List Char}
    (h : ∀ c ∈ front, p c) (hstop : StopsAt p rest) : (front ++ rest).takeWhile p = front := by
  rw [List.takeWhile_append_of_pos h]
  cases rest with
  | nil => simp
  | cons c rest => simp [hstop c rfl]

theorem lexemes_punctuation {c : Char} {k : TokenKind} (h : punctuation? c = some k)
    (rest : List Char) : lexemes (c :: rest) = ⟨k, [c]⟩ :: lexemes rest := by
  rw [lexemes, firstToken, h]
  rfl

theorem punctuation?_plain {c : Char} {k : TokenKind} (h : punctuation? c = some k) :
    (Lexeme.mk k [c]).symbol = .mark k ∧ (Lexeme.mk k [c]).IsFaultless := by
  unfold punctuation? at h
  split at h <;> cases h <;> exact ⟨rfl, trivial⟩

/-! ## Words -/

theorem punctuation?_of_isWordChar {c : Char} (h : isWordChar c) : punctuation? c = none := by
  unfold punctuation?
  split <;> first | rfl | exact absurd h (by decide)

theorem isWordChar_of_isDigit {c : Char} (h : c.isDigit) : isWordChar c = false := by
  obtain ⟨hlow, hhigh⟩ := Char.isDigit_iff_toNat.1 h
  have hlow : 48 ≤ c.toNat := hlow
  have hhigh : c.toNat ≤ 57 := hhigh
  have hascii : c.toNat < asciiEnd := by
    unfold asciiEnd
    omega
  have hunderscore : c ≠ '_' := by
    rintro rfl
    exact absurd h (by decide)
  have halpha : c.isAlpha = false := by
    cases halpha : c.isAlpha with
    | false => rfl
    | true =>
        rcases Bool.or_eq_true_iff.1 halpha with hupper | hlower
        · have hle : 65 ≤ c.toNat := UInt32.le_iff_toNat_le.1 (of_decide_eq_true hupper).1
          omega
        · have hle : 97 ≤ c.toNat :=
            UInt32.le_iff_toNat_le.1 (of_decide_eq_true (Bool.and_eq_true_iff.1 hlower).1)
          omega
  simp [isWordChar, isAlphabetic, hascii, halpha, hunderscore]

theorem startsLiteral_of_isWordChar {c : Char} (h : isWordChar c) (rest : List Char) :
    startsLiteral c rest = false := by
  unfold startsLiteral
  have hdigit : c.isDigit = false := by
    cases hd : c.isDigit with
    | false => rfl
    | true =>
        rw [isWordChar_of_isDigit hd] at h
        cases h
  have hpoint : c ≠ '.' := by
    rintro rfl
    exact absurd h (by decide)
  simp [hdigit, hpoint]

/-- A word is scanned up to where it ends. -/
theorem lexemes_word {word rest : List Char} (hne : word ≠ []) (hword : ∀ c ∈ word, isWordChar c)
    (hstop : StopsAt isWordChar rest) :
    lexemes (word ++ rest) = ⟨wordKind (String.ofList word), word⟩ :: lexemes rest := by
  obtain ⟨c, tail, rfl⟩ := List.exists_cons_of_ne_nil hne
  have hc := hword c List.mem_cons_self
  have htail : (tail ++ rest).takeWhile isWordChar = tail :=
    takeWhile_append_of_stopsAt (fun d hd => hword d (List.mem_cons_of_mem c hd)) hstop
  have hfirst : firstToken c (tail ++ rest) = (wordKind (String.ofList (c :: tail)), tail) := by
    rw [firstToken, punctuation?_of_isWordChar hc, startsLiteral_of_isWordChar hc, hc, htail]
    rfl
  rw [List.cons_append, lexemes, hfirst]
  simp

/-- One word that is not `del`. -/
structure IsIdentifier (f : String) : Prop where
  ne_nil : f.toList ≠ []
  word : ∀ c ∈ f.toList, isWordChar c
  ne_del : f ≠ "del"

instance (f : String) : Decidable (IsIdentifier f) :=
  decidable_of_iff (f.toList ≠ [] ∧ f.toList.all isWordChar ∧ f ≠ "del")
    ⟨fun h => ⟨h.1, List.all_eq_true.1 h.2.1, h.2.2⟩,
      fun h => ⟨h.ne_nil, List.all_eq_true.2 h.word, h.ne_del⟩⟩

theorem isIdentifier_of_firstToken {c : Char} {rest : List Char}
    (h : (firstToken c rest).1 = .identifier) :
    IsIdentifier (String.ofList (c :: (firstToken c rest).2)) := by
  rcases firstToken_cases c rest with
    ⟨kind, hkind, hsign⟩ | ⟨-, hliteral⟩ | ⟨hletter, hword⟩ | hunknown
  · rw [hsign] at h
    dsimp only at h
    subst h
    unfold punctuation? at hkind
    split at hkind <;> cases hkind
  · rw [hliteral] at h
    cases h
  · rw [hword] at h ⊢
    dsimp only at h ⊢
    refine ⟨by simp, fun d hd => ?_, fun hdel => ?_⟩
    · rw [String.toList_ofList, List.mem_cons] at hd
      rcases hd with rfl | hd
      · exact hletter
      · exact List.all_eq_true.1 List.all_takeWhile d hd
    · rw [wordKind, if_pos hdel] at h
      cases h
  · rw [hunknown] at h
    cases h

theorem isIdentifier_of_mem_lexemes {cs : List Char} {l : Lexeme} (h : l ∈ lexemes cs)
    (hl : l.kind = .identifier) : IsIdentifier (String.ofList l.chars) := by
  obtain ⟨c, rest, rfl⟩ := firstToken_of_mem_lexemes h
  exact isIdentifier_of_firstToken hl

/-- The names in a line are words. -/
theorem isIdentifier_of_mem_symbolsOf {source : String} {n : String}
    (h : .name n ∈ symbolsOf source) : IsIdentifier n := by
  rw [symbolsOf_eq, List.mem_map] at h
  obtain ⟨l, hl, hsymbol⟩ := h
  have hmem := (List.mem_filter.1 hl).1
  unfold Lexeme.symbol at hsymbol
  split at hsymbol
  · cases hsymbol
  next hk =>
    cases hsymbol
    exact isIdentifier_of_mem_lexemes hmem hk
  · cases hsymbol

/-! ## Texts of signs, words and numbers -/

/-- Nothing comes next, or a sign does, so that no token goes on from before. -/
def Boundary (rest : List Char) : Prop :=
  StopsAt (fun c => (punctuation? c).isNone) rest

theorem boundary_nil : Boundary [] := by
  rintro c ⟨⟩

theorem boundary_cons {c : Char} {k : TokenKind} (h : punctuation? c = some k) (rest : List Char) :
    Boundary (c :: rest) := by
  rintro d ⟨⟩
  simp [h]

theorem Boundary.append {text rest : List Char} (ht : Boundary text) (hr : Boundary rest) :
    Boundary (text ++ rest) := by
  cases text with
  | nil => exact hr
  | cons c text =>
      rintro d ⟨⟩
      exact ht c rfl

/-- Where a sign comes next, nothing comes next that is no sign. -/
theorem Boundary.stopsAt {p : Char → Bool} {rest : List Char} (h : Boundary rest)
    (hp : ∀ c, p c → punctuation? c = none) : StopsAt p rest := by
  intro c hc
  have hsign := h c hc
  cases hpc : p c with
  | false => rfl
  | true => simp [hp c hpc] at hsign

/-- Before a boundary the text is scanned as the symbols, blanks left out, and without faults. -/
def Spelled (text : List Char) (symbols : List Symbol) : Prop :=
  ∀ rest, Boundary rest → ∃ ls, lexemes (text ++ rest) = ls ++ lexemes rest ∧
    (ls.filter (·.kind != .space)).map Lexeme.symbol = symbols ∧ ∀ l ∈ ls, l.IsFaultless

theorem spelled_nil : Spelled [] [] :=
  fun _ _ => ⟨[], rfl, rfl, by simp⟩

section Spelled

variable {text text' : List Char} {xs ys : List Symbol}

theorem Spelled.append (h : Spelled text xs) (h' : Spelled text' ys) (hb : Boundary text') :
    Spelled (text ++ text') (xs ++ ys) := by
  intro rest hrest
  obtain ⟨ls, hls, hxs, hfaultless⟩ := h (text' ++ rest) (hb.append hrest)
  obtain ⟨ls', hls', hys, hfaultless'⟩ := h' rest hrest
  refine ⟨ls ++ ls', ?_, ?_, ?_⟩
  · rw [List.append_assoc, hls, hls', List.append_assoc]
  · rw [List.filter_append, List.map_append, hxs, hys]
  · intro l hl
    rcases List.mem_append.1 hl with hl | hl
    · exact hfaultless l hl
    · exact hfaultless' l hl

theorem spelled_lexeme {l : Lexeme} (hl : l.kind ≠ .space) (hfaultless : l.IsFaultless)
    (h : ∀ rest, Boundary rest → lexemes (text ++ rest) = l :: lexemes rest) :
    Spelled text [l.symbol] :=
  fun rest hrest => ⟨[l], h rest hrest, by simp [hl], by simpa using hfaultless⟩

theorem Spelled.blank (h : Spelled text xs) : Spelled (' ' :: text) xs := by
  intro rest hrest
  obtain ⟨ls, hls, hxs, hfaultless⟩ := h rest hrest
  refine ⟨⟨.space, [' ']⟩ :: ls, ?_, hxs, ?_⟩
  · rw [List.cons_append, lexemes_punctuation rfl, hls]
    rfl
  · rintro l (_ | ⟨_, hl⟩)
    · trivial
    · exact hfaultless l hl

theorem Spelled.sign {c : Char} {k : TokenKind} (h : Spelled text xs)
    (hc : punctuation? c = some k) (hk : k ≠ .space) :
    Spelled (c :: text) (.mark k :: xs) := by
  intro rest hrest
  obtain ⟨ls, hls, hxs, hfaultless⟩ := h rest hrest
  have hplain := punctuation?_plain hc
  refine ⟨⟨k, [c]⟩ :: ls, ?_, ?_, ?_⟩
  · rw [List.cons_append, lexemes_punctuation hc, hls]
    rfl
  · rw [List.filter_cons_of_pos (by simpa using hk), List.map_cons, hxs, hplain.1]
  · rintro l (_ | ⟨_, hl⟩)
    · exact hplain.2
    · exact hfaultless l hl

theorem spelled_word {n : String} (h : IsIdentifier n) : Spelled n.toList [.name n] := by
  have hkind : wordKind (String.ofList n.toList) = .identifier := by
    simp [wordKind, h.ne_del]
  have hspelled : Spelled n.toList [(Lexeme.mk .identifier n.toList).symbol] :=
    spelled_lexeme (by simp) trivial fun rest hrest => by
      rw [lexemes_word h.ne_nil h.word (hrest.stopsAt fun c => punctuation?_of_isWordChar), hkind]
  simpa [Lexeme.symbol] using hspelled

/-- A spelled line is given to a parser as its symbols. -/
theorem symbolsOf_of_spelled {source : String} (h : Spelled source.toList xs) :
    symbolsOf source = xs ∧ lexicalFaults (tokenize source) = .empty := by
  obtain ⟨ls, hls, hxs, hfaultless⟩ := h [] boundary_nil
  have hnil : lexemes [] = [] := by rw [lexemes]
  rw [List.append_nil, hnil, List.append_nil] at hls
  rw [symbolsOf_eq, lexicalFaults_eq_empty_iff, hls]
  exact ⟨hxs, hfaultless⟩

end Spelled

end Calculator
