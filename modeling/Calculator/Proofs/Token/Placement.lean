import Calculator.Proofs.Token.LongestMatch
import Mathlib.Data.List.Chain
import Mathlib.Data.String.Basic

/-!
# Where the tokens of a line are

The tokens of a line lie one after another and leave out nothing of it: the span
of each is where its text is.
-/

namespace Calculator

/-! ## Bytes -/

theorem length_le_byteLength (cs : List Char) : cs.length ≤ byteLength cs := by
  induction cs with
  | nil => exact Nat.le_refl 0
  | cons c cs ih =>
      have hc := c.utf8Size_pos
      rw [List.length_cons, byteLength_cons]
      omega

theorem byteLength_pos {cs : List Char} (h : cs ≠ []) : 0 < byteLength cs := by
  have hlength := length_le_byteLength cs
  have hpos := List.length_pos_iff.2 h
  omega

theorem byteLength_eq (cs : List Char) : byteLength cs = String.utf8Len cs := by
  induction cs with
  | nil => rfl
  | cons c cs ih => rw [byteLength_cons, String.utf8Len_cons, ih, Nat.add_comm]

theorem byteLength_toList (source : String) : byteLength source.toList = source.utf8ByteSize := by
  rw [byteLength_eq, String.utf8Len_toList]

/-- The part of a text that a span covers, if it starts and stops between characters. -/
def Span.slice? (s : Span) (source : String) : Option String :=
  let start : String.Pos.Raw := ⟨s.start⟩
  let stop : String.Pos.Raw := ⟨s.stop⟩
  if start.isValid source && stop.isValid source then some (start.extract source stop) else none

theorem isValid_byteLength (front back : List Char) :
    String.Pos.Raw.isValid (String.ofList (front ++ back)) ⟨byteLength front⟩ := by
  rw [String.Pos.Raw.isValid_eq_true_iff, String.Pos.Raw.isValid_iff_exists_append]
  refine ⟨String.ofList front, String.ofList back, String.ofList_append, ?_⟩
  have hfront := byteLength_toList (String.ofList front)
  rw [String.toList_ofList] at hfront
  rw [hfront]
  rfl

theorem slice?_ofLength (front text back : List Char) :
    (Span.ofLength (byteLength front) (byteLength text)).slice?
      (String.ofList (front ++ text ++ back)) = some (String.ofList text) := by
  have hstart : String.Pos.Raw.isValid (String.ofList (front ++ text ++ back))
      ⟨byteLength front⟩ := by
    rw [List.append_assoc]
    exact isValid_byteLength ..
  have hstop : String.Pos.Raw.isValid (String.ofList (front ++ text ++ back))
      ⟨byteLength front + byteLength text⟩ := by
    rw [← byteLength_append]
    exact isValid_byteLength ..
  have hextract := String.extract_of_valid front text back
  rw [← byteLength_eq, ← byteLength_eq] at hextract
  simp only [Span.slice?, Span.ofLength, hstart, hstop, hextract, Bool.and_self, if_true]

/-! ## Lexemes -/

theorem flatMap_lexemes (cs : List Char) : (lexemes cs).flatMap Lexeme.chars = cs := by
  generalize hls : lexemes cs = ls
  induction ls generalizing cs with
  | nil =>
      cases cs with
      | nil => rfl
      | cons c rest =>
          rw [lexemes] at hls
          cases hls
  | cons l ls ih =>
      obtain ⟨later, rfl, hlater, -⟩ := lexemes_cons hls
      rw [List.flatMap_cons, ih later hlater]

theorem firstToken_single {c : Char} {rest : List Char}
    (h : (firstToken c rest).1 = .space ∨ (firstToken c rest).1 = .unknown) :
    (firstToken c rest).2 = [] := by
  rcases firstToken_cases c rest with ⟨kind, -, hsign⟩ | ⟨-, hliteral⟩ | ⟨-, hword⟩ | hunknown
  · rw [hsign]
  · rw [hliteral] at h
    simp at h
  · rw [hword] at h
    rcases wordKind_cases (String.ofList (c :: rest.takeWhile isWordChar)) with hkind | hkind
    all_goals
      rw [hkind] at h
      simp at h
  · rw [hunknown]

/-- Only a literal is a number. -/
theorem firstToken_of_number {c : Char} {rest : List Char} {value : Binary64}
    (h : (firstToken c rest).1 = .number value) :
    startsLiteral c rest ∧ firstToken c rest =
      (.number (Literal.ofChars (c :: rest)).value, (Literal.ofChars (c :: rest)).text.tail) := by
  rcases firstToken_cases c rest with ⟨kind, hkind, hsign⟩ | hliteral | ⟨-, hword⟩ | hunknown
  · rw [hsign] at h
    subst h
    unfold punctuation? at hkind
    split at hkind <;> cases hkind
  · exact hliteral
  · rw [hword] at h
    rcases wordKind_cases (String.ofList (c :: rest.takeWhile isWordChar)) with hkind | hkind
    all_goals
      rw [hkind] at h
      cases h
  · rw [hunknown] at h
    cases h

theorem number_firstToken {c : Char} {rest : List Char} {value : Binary64}
    (h : (firstToken c rest).1 = .number value) : (Literal.ofChars (c :: rest)).value = value := by
  rw [(firstToken_of_number h).2] at h
  cases h
  rfl

section Scanned

variable {cs : List Char} {l : Lexeme}

theorem chars_ne_nil_of_mem_lexemes (h : l ∈ lexemes cs) : l.chars ≠ [] := by
  obtain ⟨c, rest, rfl⟩ := firstToken_of_mem_lexemes h
  exact List.cons_ne_nil c _

theorem length_chars_of_mem_lexemes (h : l ∈ lexemes cs)
    (hl : l.kind = .space ∨ l.kind = .unknown) : l.chars.length = 1 := by
  obtain ⟨c, rest, rfl⟩ := firstToken_of_mem_lexemes h
  have hsingle : (firstToken c rest).2 = [] := firstToken_single hl
  rw [List.length_cons, hsingle]
  rfl

/-- The number that a token stands for is the value of its text. -/
theorem value_of_mem_lexemes {value : Binary64} (h : l ∈ lexemes cs)
    (hl : l.kind = .number value) : (Literal.ofChars l.chars).value = value := by
  obtain ⟨c, tail, hchars, hfirst⟩ := firstToken_of_chars h
  rw [hchars]
  exact number_firstToken (by rw [hfirst, hl])

end Scanned

/-! ## Tokens -/

theorem tokenize_eq (source : String) :
    tokenize source = place 0 (lexemes source.toList) ++ [.finish source.utf8ByteSize] := by
  rw [tokenize, scan_eq_place, place_append, flatMap_lexemes, Nat.zero_add, byteLength_toList]
  rfl

theorem join_place (offset : Nat) (ls : List Lexeme) :
    String.join ((place offset ls).map Token.lexeme) =
      String.ofList (ls.flatMap Lexeme.chars) := by
  induction ls generalizing offset with
  | nil => rfl
  | cons l ls ih =>
      rw [place, List.map_cons, String.join_cons, ih, List.flatMap_cons, String.ofList_append]

/-- Each token is a part of the text, and its span is where that part is. -/
theorem split_of_mem_place {front : List Char} {ls : List Lexeme} {t : Token}
    (h : t ∈ place (byteLength front) ls) :
    ∃ before later, front ++ ls.flatMap Lexeme.chars = before ++ t.lexeme.toList ++ later ∧
      t.span = .ofLength (byteLength before) (byteLength t.lexeme.toList) := by
  induction ls generalizing front with
  | nil => cases h
  | cons l ls ih =>
      rw [List.flatMap_cons, ← List.append_assoc]
      rcases List.mem_cons.1 h with rfl | h
      · rw [String.toList_ofList]
        exact ⟨front, _, rfl, rfl⟩
      · rw [← byteLength_append] at h
        exact ih h

theorem slice?_of_mem_place {front : List Char} {ls : List Lexeme} {t : Token}
    (h : t ∈ place (byteLength front) ls) :
    t.span.slice? (String.ofList (front ++ ls.flatMap Lexeme.chars)) = some t.lexeme := by
  obtain ⟨before, later, htext, hspan⟩ := split_of_mem_place h
  rw [htext, hspan, slice?_ofLength, String.ofList_toList]

def Token.Precedes (t u : Token) : Prop :=
  t.span.stop = u.span.start

theorem isChain_place {before : Token} {offset : Nat} (h : before.span.stop = offset)
    (ls : List Lexeme) : (before :: place offset ls).IsChain Token.Precedes := by
  induction ls generalizing before offset with
  | nil => exact List.isChain_singleton before
  | cons l ls ih => exact List.isChain_cons_cons.2 ⟨h, ih rfl⟩

/-! ## Lines -/

section Tokens

variable {source : String} {t : Token}

theorem slice?_of_mem_tokenize (h : t ∈ tokenize source) :
    t.span.slice? source = some t.lexeme := by
  have hsource : (lexemes source.toList ++ [Lexeme.finish]).flatMap Lexeme.chars =
      source.toList := by
    rw [List.flatMap_append, flatMap_lexemes]
    exact List.append_nil _
  rw [tokenize, scan_eq_place, ← byteLength_nil] at h
  have hslice := slice?_of_mem_place h
  rwa [hsource, List.nil_append, String.ofList_toList] at hslice

theorem literal?_of_mem_tokenize (h : t ∈ tokenize source) :
    t.literal? = if t.kind.category = .number then
      some (Literal.ofChars t.lexeme.toList).value else none := by
  rw [tokenize_eq, List.mem_append, List.mem_singleton] at h
  rcases h with h | rfl
  · have hpiece : t.piece ∈ lexemes source.toList := piece_mem_of_mem_place h
    unfold Token.literal?
    split
    next value hk =>
      have hvalue : (Literal.ofChars t.lexeme.toList).value = value :=
        value_of_mem_lexemes hpiece hk
      rw [hk, hvalue]
      rfl
    next hnot =>
      rw [if_neg]
      intro hcategory
      cases hk : t.kind with
      | number value => exact hnot value hk
      | _ =>
          rw [hk] at hcategory
          cases hcategory
  · rfl

end Tokens

/--
Scanning loses nothing and puts every token where it is. The end of the line is
at its last byte and nowhere else; the other tokens are not empty, are together
the line, lie one after another from its first byte on, and each is the part of
the line that its span covers. A literal is on a token exactly if that is a
number, and is the value of its text. A blank is one character, and so is what
starts no token.
-/
theorem tokenize_lossless (source : String) :
    ∃ tokens, tokenize source = tokens ++ [.finish source.utf8ByteSize] ∧
      (∀ t ∈ tokens, t.kind ≠ .finish ∧ t.lexeme ≠ "" ∧
        (t.kind = .space ∨ t.kind = .unknown → t.lexeme.length = 1)) ∧
      String.join (tokens.map Token.lexeme) = source ∧
      (∀ t ∈ (tokenize source).head?, t.span.start = 0) ∧
      (tokenize source).IsChain Token.Precedes ∧
      ∀ t ∈ tokenize source, t.span.slice? source = some t.lexeme ∧
        t.literal? = if t.kind.category = .number then
          some (Literal.ofChars t.lexeme.toList).value else none := by
  have hpiece : ∀ t ∈ place 0 (lexemes source.toList), t.piece ∈ lexemes source.toList :=
    fun t ht => piece_mem_of_mem_place ht
  have hchain : (Token.finish 0 :: tokenize source).IsChain Token.Precedes := by
    rw [tokenize, scan_eq_place]
    exact isChain_place rfl _
  refine ⟨place 0 (lexemes source.toList), tokenize_eq source, fun t ht => ⟨?_, ?_, ?_⟩, ?_, ?_,
    hchain.tail, fun t ht => ⟨slice?_of_mem_tokenize ht, literal?_of_mem_tokenize ht⟩⟩
  · exact kind_ne_finish_of_mem_place ht
  · intro hempty
    exact chars_ne_nil_of_mem_lexemes (hpiece t ht) (String.toList_eq_nil_iff.2 hempty)
  · exact length_chars_of_mem_lexemes (hpiece t ht)
  · rw [join_place, flatMap_lexemes, String.ofList_toList]
  · intro t ht
    generalize tokenize source = tokens at hchain ht
    cases tokens with
    | nil => cases ht
    | cons u tokens =>
        cases ht
        exact (List.isChain_cons_cons.1 hchain).1.symm

end Calculator
