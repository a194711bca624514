import Calculator.Proofs.Token.Transcription
import Mathlib.Data.List.Nodup
import Mathlib.Data.List.Pairwise

/-!
# The faults of the tokens of a line

What is wrong with the tokens of a line, taken by itself, is a character that
starts no token and each point and each sign of a literal after its first. No
two of these are at one place, so all of them are reported, in the order in
which scanning comes upon them.
-/

namespace Calculator

/-! ## Repeated characters -/

section Repetitions

variable {c : Char} {offset i : Nat} {cs : List Char}

/-- A part before a character starts as the text does, or it is empty. -/
theorem exists_split_cons {d : Char} {p : List Char → Prop} :
    (∃ front back, d :: cs = front ++ c :: back ∧ p front) ↔
      (d = c ∧ p []) ∨ ∃ front back, cs = front ++ c :: back ∧ p (d :: front) := by
  constructor
  · rintro ⟨front, back, htext, hp⟩
    cases front with
    | nil => exact .inl ⟨(List.cons.inj htext).1, hp⟩
    | cons e front =>
        obtain ⟨rfl, hrest⟩ := List.cons.inj htext
        exact .inr ⟨front, back, hrest, hp⟩
  · rintro (⟨rfl, hp⟩ | ⟨front, back, rfl, hp⟩)
    · exact ⟨[], cs, rfl, hp⟩
    · exact ⟨d :: front, back, rfl, hp⟩

theorem mem_occurrences_iff : i ∈ occurrences c offset cs ↔
    ∃ front back, cs = front ++ c :: back ∧ i = offset + front.length := by
  induction cs generalizing offset with
  | nil => simp [occurrences]
  | cons d cs ih =>
      rw [exists_split_cons]
      by_cases hd : d = c
      · rw [hd, occurrences_cons_self, List.mem_cons, ih]
        simp [Nat.add_assoc, Nat.add_comm 1]
      · rw [occurrences_cons_of_ne hd, ih]
        simp [hd, Nat.add_assoc, Nat.add_comm 1]

theorem mem_repetitions_iff : i ∈ repetitions c offset cs ↔
    ∃ front back, cs = front ++ c :: back ∧ c ∈ front ∧ i = offset + front.length := by
  induction cs generalizing offset with
  | nil => simp [repetitions]
  | cons d cs ih =>
      rw [exists_split_cons, repetitions_eq_drop]
      by_cases hd : d = c
      · rw [hd, occurrences_cons_self, List.drop_one, List.tail_cons, mem_occurrences_iff]
        simp [Nat.add_assoc, Nat.add_comm 1]
      · rw [occurrences_cons_of_ne hd, ← repetitions_eq_drop, ih]
        simp [hd, Ne.symm hd, Nat.add_assoc, Nat.add_comm 1]

theorem pairwise_occurrences (c : Char) (offset : Nat) (cs : List Char) :
    (occurrences c offset cs).Pairwise (· < ·) := by
  induction cs generalizing offset with
  | nil => exact .nil
  | cons d cs ih =>
      by_cases hd : d = c
      · rw [hd, occurrences_cons_self]
        refine .cons (fun i hi => ?_) (ih _)
        obtain ⟨front, -, -, rfl⟩ := mem_occurrences_iff.1 hi
        omega
      · rw [occurrences_cons_of_ne hd]
        exact ih _

theorem pairwise_repetitions (c : Char) (offset : Nat) (cs : List Char) :
    (repetitions c offset cs).Pairwise (· < ·) :=
  (pairwise_occurrences c offset cs).drop

end Repetitions

/-! ## Faults of one token -/

/-- What is wrong with a token by itself, and where. -/
inductive Token.HasFault (t : Token) : Span → Fault → Prop
  | unknownChar {c : Char} (kind : t.kind = .unknown) (text : t.lexeme.toList = [c]) :
      HasFault t t.span (.unknownChar c)
  | point {value : Binary64} {front back : List Char} (kind : t.kind = .number value)
      (text : t.lexeme.toList = front ++ '.' :: back) (again : '.' ∈ front) :
      HasFault t (.ofLength (t.span.start + byteLength front) 1) .duplicateDecimalPoint
  | sign {value : Binary64} {front back : List Char} (kind : t.kind = .number value)
      (text : t.lexeme.toList = front ++ '-' :: back) (again : '-' ∈ front) :
      HasFault t (.ofLength (t.span.start + byteLength front) 1) .duplicateExponentSign

def FoundBefore (e e' : Span × Fault) : Prop :=
  e.1.start < e'.1.start

theorem compare_of_foundBefore {e e' : Span × Fault} (h : FoundBefore e e') :
    compare e.1 e'.1 = .lt :=
  Span.compare_eq_lt_iff.2 (.inl h)

section Tokens

variable {source : String} {t : Token}

theorem Token.HasFault.kind_eq {span : Span} {fault : Fault} (h : t.HasFault span fault) :
    t.kind = .unknown ∨ ∃ value, t.kind = .number value := by
  cases h with
  | unknownChar kind _ => exact .inl kind
  | point kind _ _ => exact .inr ⟨_, kind⟩
  | sign kind _ _ => exact .inr ⟨_, kind⟩

theorem byteLength_of_append (h : ∀ c ∈ t.lexeme.toList, c.utf8Size = 1) {front back : List Char}
    (htext : t.lexeme.toList = front ++ back) : byteLength front = front.length :=
  byteLength_of_utf8Size fun c hc => h c (by rw [htext]; exact List.mem_append_left _ hc)

theorem mem_literalFaults_iff {value : Binary64} (hkind : t.kind = .number value)
    (hbytes : ∀ c ∈ t.lexeme.toList, c.utf8Size = 1) {span : Span} {fault : Fault} :
    (span, fault) ∈ literalFaults t.span.start t.lexeme.toList ↔ t.HasFault span fault := by
  rw [literalFaults_eq, List.mem_append]
  constructor
  · rintro (h | h)
    all_goals
      obtain ⟨i, hi, heq⟩ := List.mem_map.1 h
      obtain ⟨front, back, htext, hagain, rfl⟩ := mem_repetitions_iff.1 hi
      cases heq
      rw [← byteLength_of_append hbytes htext]
    · exact .point hkind htext hagain
    · exact .sign hkind htext hagain
  · intro h
    cases h with
    | unknownChar kind _ => cases hkind.symm.trans kind
    | point _ text again =>
        refine .inl (List.mem_map.2 ⟨_, mem_repetitions_iff.2 ⟨_, _, text, again, rfl⟩, ?_⟩)
        rw [byteLength_of_append hbytes text]
    | sign _ text again =>
        refine .inr (List.mem_map.2 ⟨_, mem_repetitions_iff.2 ⟨_, _, text, again, rfl⟩, ?_⟩)
        rw [byteLength_of_append hbytes text]

theorem exists_char_of_unknown (h : t ∈ place 0 (lexemes source.toList))
    (hkind : t.kind = .unknown) : ∃ c, t.lexeme.toList = [c] := by
  have hlength : t.lexeme.toList.length = 1 :=
    length_chars_of_mem_lexemes (piece_mem_of_mem_place h) (.inr hkind)
  exact List.length_eq_one_iff.1 hlength

theorem mem_faults_iff_of_place (h : t ∈ place 0 (lexemes source.toList)) {span : Span}
    {fault : Fault} : (span, fault) ∈ t.faults ↔ t.HasFault span fault := by
  have hpiece := piece_mem_of_mem_place h
  cases hkind : t.kind with
  | number value =>
      have hbytes : ∀ c ∈ t.lexeme.toList, c.utf8Size = 1 := fun c =>
        utf8Size_of_mem_number hpiece hkind
      rw [Token.faults, hkind]
      exact mem_literalFaults_iff hkind hbytes
  | unknown =>
      obtain ⟨c, htext⟩ := exists_char_of_unknown h hkind
      rw [Token.faults, hkind, htext]
      constructor
      · intro he
        cases List.mem_singleton.1 he
        exact .unknownChar hkind htext
      · intro he
        cases he with
        | unknownChar _ text =>
            rw [htext] at text
            cases text
            exact List.mem_singleton_self _
        | point kind _ _ => cases hkind.symm.trans kind
        | sign kind _ _ => cases hkind.symm.trans kind
  | _ =>
      rw [Token.faults, hkind]
      refine ⟨fun he => absurd he List.not_mem_nil, fun he => ?_⟩
      rcases he.kind_eq with hunknown | ⟨value, hnumber⟩
      · cases hkind.symm.trans hunknown
      · cases hkind.symm.trans hnumber

theorem Token.HasFault.mem_place {span : Span} {fault : Fault} (h : t.HasFault span fault)
    (ht : t ∈ tokenize source) : t ∈ place 0 (lexemes source.toList) := by
  apply mem_place_of_mem_tokenize ht
  rcases h.kind_eq with hkind | ⟨value, hkind⟩ <;> simp [hkind]

/-- The faults that are found in a token are the faults that it has. -/
theorem mem_faults_iff (h : t ∈ tokenize source) {span : Span} {fault : Fault} :
    (span, fault) ∈ t.faults ↔ t.HasFault span fault := by
  by_cases hfinish : t.kind = .finish
  · have hnone : t.faults = [] := by rw [Token.faults, hfinish]
    rw [hnone]
    refine ⟨fun he => absurd he List.not_mem_nil, fun he => ?_⟩
    exact absurd hfinish (kind_ne_finish_of_mem_place (he.mem_place h))
  · exact mem_faults_iff_of_place (mem_place_of_mem_tokenize h hfinish)

/-- The faults of a token start in it. -/
theorem Token.HasFault.starts_in {span : Span} {fault : Fault} (h : t.HasFault span fault)
    (ht : t ∈ place 0 (lexemes source.toList)) :
    t.span.start ≤ span.start ∧ span.start < t.span.stop := by
  have hstop := (span_of_mem_place ht).2.1
  cases h with
  | unknownChar _ text =>
      have hpos := byteLength_pos (chars_ne_nil_of_mem_lexemes (piece_mem_of_mem_place ht))
      change 0 < byteLength t.lexeme.toList at hpos
      omega
  | point _ text _ =>
      rw [text, byteLength_append, byteLength_cons] at hstop
      have hsize := ('.').utf8Size_pos
      simp only [Span.ofLength]
      omega
  | sign _ text _ =>
      rw [text, byteLength_append, byteLength_cons] at hstop
      have hsize := ('-').utf8Size_pos
      simp only [Span.ofLength]
      omega

/-- The faults of a token are found one after another. -/
theorem pairwise_faults (h : t ∈ place 0 (lexemes source.toList)) :
    t.faults.Pairwise FoundBefore := by
  unfold Token.faults
  split
  next value hkind =>
    obtain ⟨hread, htext, -⟩ := isRead_of_mem_place h hkind
    have hmap {fault : Fault} (c : Char) (offset : Nat) (cs : List Char) :
        ((repetitions c offset cs).map fun i => (Span.ofLength i 1, fault)).Pairwise
          FoundBefore :=
      List.pairwise_map.2 (pairwise_repetitions c offset cs)
    rw [← htext, hread.literalFaults_text]
    refine List.pairwise_append.2 ⟨hmap .., hmap .., fun e he e' he' => ?_⟩
    obtain ⟨i, hi, rfl⟩ := List.mem_map.1 he
    obtain ⟨j, hj, rfl⟩ := List.mem_map.1 he'
    obtain ⟨front, back, hmantissa, -, rfl⟩ := mem_repetitions_iff.1 hi
    obtain ⟨front', -, -, -, rfl⟩ := mem_repetitions_iff.1 hj
    have hlength := congrArg List.length hmantissa
    rw [List.length_append, List.length_cons] at hlength
    change t.span.start + front.length < t.span.start + _ + front'.length
    omega
  next =>
    cases t.lexeme.toList with
    | nil => exact .nil
    | cons c cs => exact List.pairwise_singleton _ _
  next => exact .nil

/-- The faults of all tokens of a line are found one after another. -/
theorem pairwise_flatMap_faults (source : String) :
    ((tokenize source).flatMap Token.faults).Pairwise FoundBefore := by
  have hnone : (Token.finish source.utf8ByteSize).faults = [] := rfl
  rw [tokenize_eq, List.flatMap_append, List.flatMap_singleton, hnone, List.append_nil,
    List.pairwise_flatMap]
  refine ⟨fun t ht => pairwise_faults ht, (pairwise_place 0 _).imp_of_mem ?_⟩
  intro t u ht hu hbefore e he e' he'
  have hin := ((mem_faults_iff_of_place ht).1 he).starts_in ht
  have hin' := ((mem_faults_iff_of_place hu).1 he').starts_in hu
  change e.1.start < e'.1.start
  omega

/-- No two tokens have faults at one place. -/
theorem Token.HasFault.eq_of_same {u : Token} {span : Span} {fault fault' : Fault}
    (h : t.HasFault span fault) (h' : u.HasFault span fault') (ht : t ∈ tokenize source)
    (hu : u ∈ tokenize source) : t = u := by
  have hplace := h.mem_place ht
  have hplace' := h'.mem_place hu
  have hin := h.starts_in hplace
  have hin' := h'.starts_in hplace'
  have hsymm : Std.Symm fun t u : Token =>
      t.span.stop ≤ u.span.start ∨ u.span.stop ≤ t.span.start :=
    ⟨fun _ _ => Or.symm⟩
  have hapart : (place 0 (lexemes source.toList)).Pairwise fun t u =>
      t.span.stop ≤ u.span.start ∨ u.span.stop ≤ t.span.start :=
    (pairwise_place 0 _).imp Or.inl
  by_contra hne
  have hne := hapart.forall hplace hplace' hne
  omega

end Tokens

/--
The faults of the tokens of a line are reported exactly. They are the characters
that start no token, which are tokens of their own, and every point and every
sign of a number after its first, each at its own bytes and all at different
places, so that the diagnostics leave out none of them; and one pass over a
number finds the faults of that number.
-/
theorem lexicalFaults_exact (source : String) :
    (lexicalFaults (tokenize source)).entries = (tokenize source).flatMap Token.faults ∧
      (((tokenize source).flatMap Token.faults).map Prod.fst).Nodup ∧
      (∀ span fault, (span, fault) ∈ (lexicalFaults (tokenize source)).entries ↔
        ∃ t ∈ tokenize source, t.HasFault span fault) ∧
      (∀ t ∈ tokenize source, t.kind = .unknown → ∃ c, t.lexeme.toList = [c]) ∧
      (∀ t ∈ tokenize source, ∀ u ∈ tokenize source, ∀ span fault fault',
        t.HasFault span fault → u.HasFault span fault' → t = u ∧ fault = fault') ∧
      ∀ t ∈ tokenize source, ∀ value, t.kind = .number value →
        (Transcription.ofText t.span.start t.lexeme.toList).faults = t.faults := by
  have hpairwise := pairwise_flatMap_faults source
  have hentries : (lexicalFaults (tokenize source)).entries =
      (tokenize source).flatMap Token.faults :=
    Diagnostics.entries_ofFaults (hpairwise.imp compare_of_foundBefore)
  have hdistinct : (((tokenize source).flatMap Token.faults).map Prod.fst).Nodup := by
    refine List.pairwise_map.2 (hpairwise.imp ?_)
    intro e e' hbefore heq
    rw [FoundBefore, heq] at hbefore
    exact Nat.lt_irrefl _ hbefore
  refine ⟨hentries, hdistinct, fun span fault => ?_, fun t ht hkind => ?_, ?_, ?_⟩
  · rw [hentries, List.mem_flatMap]
    exact exists_congr fun t => and_congr_right fun ht => mem_faults_iff ht
  · exact exists_char_of_unknown (mem_place_of_mem_tokenize ht (by simp [hkind])) hkind
  · intro t ht u hu span fault fault' h h'
    have hmem := List.mem_flatMap.2 ⟨t, ht, (mem_faults_iff ht).2 h⟩
    have hmem' := List.mem_flatMap.2 ⟨u, hu, (mem_faults_iff hu).2 h'⟩
    have hsame := List.inj_on_of_nodup_map hdistinct hmem hmem' rfl
    exact ⟨h.eq_of_same h' ht hu, congrArg Prod.snd hsame⟩
  · intro t ht value hkind
    obtain ⟨hread, htext, -⟩ := isRead_of_mem_tokenize ht hkind
    have hpass := (Transcription.ofText_text hread t.span.start).2
    rw [htext] at hpass
    rw [Token.faults, hkind]
    exact hpass

example : (lexicalFaults (tokenize "1..2. $ 3e--4")).entries =
    [(.ofLength 2 1, .duplicateDecimalPoint), (.ofLength 4 1, .duplicateDecimalPoint),
      (.ofLength 6 1, .unknownChar '$'), (.ofLength 11 1, .duplicateExponentSign)] := by
  decide +kernel

end Calculator
