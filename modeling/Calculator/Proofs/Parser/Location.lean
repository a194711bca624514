import Calculator.Proofs.Parser.Alignment
import Calculator.Proofs.Parser.Diagnosis
import Mathlib.Data.List.TakeWhile

/-!
# Where faults are reported

Every fault is reported at a part of its line that starts and stops between two
characters. What the parser reports is at whole tokens: spans of tokens are put
together, and no span is ever cut.
-/

namespace Calculator

namespace Span

def between? (start stop : Nat) : Option Span :=
  if h : start ≤ stop then some ⟨start, stop, h⟩ else none

theorem between?_eq (s : Span) : between? s.start s.stop = some s :=
  dif_pos s.start_le_stop

/-- The span is a part of the text, between two of the places before and after its characters. -/
structure LiesIn (source : String) (s : Span) : Prop where
  start_le_stop : s.start ≤ s.stop
  stop_le : s.stop ≤ source.utf8ByteSize
  isValid_start : String.Pos.Raw.isValid source ⟨s.start⟩
  isValid_stop : String.Pos.Raw.isValid source ⟨s.stop⟩

variable {source : String} {s t : Span} {tokens : List Token}

theorem liesIn_of_isValid (hstart : String.Pos.Raw.isValid source ⟨s.start⟩)
    (hstop : String.Pos.Raw.isValid source ⟨s.stop⟩) : s.LiesIn source :=
  ⟨s.start_le_stop, (String.Pos.Raw.isValid_eq_true_iff.1 hstop).le_utf8ByteSize, hstart, hstop⟩

theorem liesIn_of_slice? {text : String} (h : s.slice? source = some text) : s.LiesIn source := by
  unfold slice? at h
  dsimp only at h
  split at h
  next hvalid =>
    rw [Bool.and_eq_true] at hvalid
    exact liesIn_of_isValid hvalid.1 hvalid.2
  next => cases h

/-- The span starts where some token starts, and stops where some token stops. -/
structure OfTokens (tokens : List Token) (s : Span) : Prop where
  starts : ∃ t ∈ tokens, s.start = t.span.start
  stops : ∃ t ∈ tokens, s.stop = t.span.stop

theorem ofTokens_of_mem {t : Token} (h : t ∈ tokens) : t.span.OfTokens tokens :=
  ⟨⟨t, h, rfl⟩, ⟨t, h, rfl⟩⟩

theorem OfTokens.cover (hs : s.OfTokens tokens) (ht : t.OfTokens tokens) :
    (s.cover t).OfTokens tokens where
  starts := by
    obtain ⟨u, hu, hustart⟩ := hs.starts
    obtain ⟨v, hv, hvstart⟩ := ht.starts
    rcases min_choice s.start t.start with hmin | hmin
    · exact ⟨u, hu, hmin.trans hustart⟩
    · exact ⟨v, hv, hmin.trans hvstart⟩
  stops := by
    obtain ⟨u, hu, hustop⟩ := hs.stops
    obtain ⟨v, hv, hvstop⟩ := ht.stops
    rcases max_choice s.stop t.stop with hmax | hmax
    · exact ⟨u, hu, hmax.trans hustop⟩
    · exact ⟨v, hv, hmax.trans hvstop⟩

theorem OfTokens.liesIn (h : s.OfTokens (tokenize source)) : s.LiesIn source := by
  obtain ⟨⟨t, ht, hstart⟩, ⟨u, hu, hstop⟩⟩ := h
  have hfirst : t.span.LiesIn source := liesIn_of_slice? (slice?_of_mem_tokenize ht)
  have hlast : u.span.LiesIn source := liesIn_of_slice? (slice?_of_mem_tokenize hu)
  exact liesIn_of_isValid (hstart ▸ hfirst.isValid_start) (hstop ▸ hlast.isValid_stop)

end Span

/-! ## Faults of tokens -/

theorem utf8Size_of_isDigit {c : Char} (h : c.isDigit) : c.utf8Size = 1 := by
  simp only [Char.isDigit, Bool.and_eq_true, decide_eq_true_eq] at h
  have hbound : c.val ≤ 127 := UInt32.le_trans h.2 (by decide)
  exact Char.utf8Size_eq_one_iff.2 hbound

theorem utf8Size_of_mem_exponentOf {c : Char} {cs : List Char} (h : c ∈ Literal.exponentOf cs) :
    c.utf8Size = 1 := by
  rcases Literal.exponentOf_cases cs with ⟨tail, rfl⟩ | hnone
  · rw [Literal.exponentOf, List.cons_append, List.mem_cons, List.mem_append] at h
    rcases h with rfl | h | h
    · rfl
    · have hsign := List.mem_takeWhile_imp h
      rw [beq_iff_eq.1 hsign]
      rfl
    · have hexponent := List.mem_takeWhile_imp h
      rcases Bool.or_eq_true_iff.1 hexponent with hdigit | hunderscore
      · exact utf8Size_of_isDigit hdigit
      · rw [beq_iff_eq.1 hunderscore]
        rfl
  · rw [hnone] at h
    cases h

/-- A literal has no characters of more than one byte. -/
theorem utf8Size_of_mem_literal {c : Char} {cs : List Char} (h : c ∈ (Literal.ofChars cs).text) :
    c.utf8Size = 1 := by
  rcases List.mem_append.1 h with h | h
  · have hmantissa := List.mem_takeWhile_imp h
    simp only [isMantissaChar, Bool.or_eq_true, beq_iff_eq] at hmantissa
    rcases hmantissa with (hdigit | rfl) | rfl
    · exact utf8Size_of_isDigit hdigit
    · rfl
    · rfl
  · exact utf8Size_of_mem_exponentOf h

theorem utf8Size_of_mem_number {cs : List Char} {l : Lexeme} {value : Binary64} {c : Char}
    (h : l ∈ lexemes cs) (hl : l.kind = .number value) (hc : c ∈ l.chars) : c.utf8Size = 1 := by
  obtain ⟨d, rest, rfl⟩ := firstToken_of_mem_lexemes h
  obtain ⟨hstarts, hliteral⟩ := firstToken_of_number hl
  obtain ⟨tail, htext, -⟩ := text_of_startsLiteral hstarts
  rw [hliteral, htext, List.tail_cons, ← htext] at hc
  exact utf8Size_of_mem_literal hc

theorem byteLength_of_utf8Size {cs : List Char} (h : ∀ c ∈ cs, c.utf8Size = 1) :
    byteLength cs = cs.length := by
  induction cs with
  | nil => rfl
  | cons c cs ih =>
      rw [byteLength_cons, h c List.mem_cons_self,
        ih fun d hd => h d (List.mem_cons_of_mem c hd), List.length_cons, Nat.add_comm]

/-- In a text of one-byte characters, every offset is between two characters. -/
theorem liesIn_of_utf8Size {front text later : List Char} (h : ∀ c ∈ text, c.utf8Size = 1) {i : Nat}
    (hi : i < text.length) :
    (Span.ofLength (byteLength front + i) 1).LiesIn (String.ofList (front ++ text ++ later)) := by
  have hvalid {k : Nat} (hk : k ≤ text.length) : String.Pos.Raw.isValid
      (String.ofList (front ++ text ++ later)) ⟨byteLength front + k⟩ := by
    have hlength : byteLength (text.take k) = k := by
      rw [byteLength_of_utf8Size fun c hc => h c (List.mem_of_mem_take hc), List.length_take,
        Nat.min_eq_left hk]
    have hsplit : front ++ text ++ later = (front ++ text.take k) ++ (text.drop k ++ later) := by
      rw [List.append_assoc, List.append_assoc, ← List.append_assoc (text.take k),
        List.take_append_drop]
    have hfront := isValid_byteLength (front ++ text.take k) (text.drop k ++ later)
    rwa [byteLength_append, hlength, ← hsplit] at hfront
  exact Span.liesIn_of_isValid (hvalid hi.le) (hvalid hi)

section Lines

variable {source : String} {t : Token} {e : Span × Fault}

/-- The faults of a token lie in it. -/
theorem liesIn_of_mem_faults (ht : t ∈ tokenize source) (he : e ∈ t.faults) :
    e.1.LiesIn source := by
  unfold Token.faults at he
  split at he
  next value hk =>
    have hplace : t ∈ place (byteLength []) (lexemes source.toList) := by
      rw [tokenize_eq, List.mem_append, List.mem_singleton] at ht
      rcases ht with ht | rfl
      · exact ht
      · cases hk
    obtain ⟨front, later, hsource, hspan⟩ := split_of_mem_place hplace
    rw [List.nil_append, flatMap_lexemes] at hsource
    have hbytes : ∀ c ∈ t.lexeme.toList, c.utf8Size = 1 := fun c =>
      utf8Size_of_mem_number (piece_mem_of_mem_place hplace) hk
    have hrepeated {c : Char} {fault : Fault} (he : e ∈ (repetitions c t.span.start
        t.lexeme.toList).map fun i => (.ofLength i 1, fault)) : e.1.LiesIn source := by
      rw [repetitions_eq_map, List.map_map, hspan] at he
      obtain ⟨i, hi, rfl⟩ := List.mem_map.1 he
      have hinside : (Span.ofLength (byteLength front + i) 1).LiesIn
          (String.ofList (front ++ t.lexeme.toList ++ later)) :=
        liesIn_of_utf8Size hbytes (lt_length_of_mem_repetitions hi)
      rwa [← hsource, String.ofList_toList] at hinside
    rcases List.mem_append.1 he with he | he
    · exact hrepeated he
    · exact hrepeated he
  next =>
    obtain ⟨c, -, rfl⟩ := List.mem_map.1 he
    exact Span.liesIn_of_slice? (slice?_of_mem_tokenize ht)
  next => cases he

theorem liesIn_of_mem_lexicalFaults (h : e ∈ (lexicalFaults (tokenize source)).entries) :
    e.1.LiesIn source := by
  obtain ⟨t, ht, he⟩ := List.mem_flatMap.1 (Diagnostics.mem_of_mem_ofFaults h)
  exact liesIn_of_mem_faults ht he

end Lines

/-! ## Faults of the parser -/

/--
The parser at one line, set against itself: trees have spans of tokens, and so do
faults, unless they were there before.
-/
def Span.located (source : String) : Parser.Correspondence Environment Environment where
  toCounterparts := .same Environment
  spans s s' := s' = s ∧ s.OfTokens (tokenize source)
  places s s' := s' = s ∧
    (s.OfTokens (tokenize source) ∨ ∃ fault, (s, fault) ∈ (lexicalFaults (tokenize source)).entries)
  cover hs ht := ⟨by rw [hs.1, ht.1], hs.2.cover ht.2⟩
  place h := ⟨h.1, .inl h.2⟩
  compare_eq hs ht := by rw [hs.1, ht.1]

section Lines

variable {env : Environment} {source : String} {e : Span × Fault}

theorem mem_tokenize_of_mem_visibleTokens {t : Token} (h : t ∈ visibleTokens source) :
    t ∈ tokenize source := by
  rw [tokenize_eq]
  exact List.mem_append_left _ (mem_place_of_mem_visibleTokens h)

theorem states_located (source : String) (env : Environment) :
    (Span.located source).States
      (.ofTokens (tokenize source) env (lexicalFaults (tokenize source)))
      (.ofTokens (tokenize source) env (lexicalFaults (tokenize source))) := by
  have hstop : Token.finish source.utf8ByteSize ∈ tokenize source := by
    rw [tokenize_eq]
    exact List.mem_append_right _ List.mem_cons_self
  rw [ofTokens_tokenize]
  exact {
    environment := rfl
    diagnostics := List.forall₂_same.2 fun e he => ⟨⟨rfl, .inr ⟨e.2, he⟩⟩, rfl⟩
    rest := List.forall₂_same.2 fun t ht =>
      ⟨rfl, rfl, ⟨rfl, Span.ofTokens_of_mem (mem_tokenize_of_mem_visibleTokens ht)⟩,
        fun _ => trivial⟩
    stop := ⟨rfl, .inl (Span.ofTokens_of_mem hstop)⟩
    inBody := rfl
    nesting := rfl }

/-- A fault is at whole tokens, or where there was a fault in a token. -/
theorem place_of_mem_diagnostics (h : e ∈ (readLine env source).diagnostics.entries) :
    e.1.OfTokens (tokenize source) ∨
      ∃ fault, (e.1, fault) ∈ (lexicalFaults (tokenize source)).entries := by
  have hends := (Parser.Correspondence.run_corresponds (some maxNesting)
    (states_located source env)).2
  exact (List.forall₂_same.1 hends.diagnostics e h).1.2

/-- Of two faults at one place the parser's is not reported, as it comes later. -/
theorem ofTokens_of_grammatical (h : e ∈ (readLine env source).diagnostics.entries)
    (hgrammatical : e.2.isLexical = false) : e.1.OfTokens (tokenize source) := by
  rcases place_of_mem_diagnostics h with htokens | ⟨fault, hfault⟩
  · exact htokens
  · have hkept : (e.1, fault) ∈ (readLine env source).diagnostics.entries := by
      rw [← lexical_readLine env] at hfault
      exact (List.mem_filter.1 hfault).1
    have hsame : e.2 = fault := Option.some.inj
      ((Table.get?_eq_some_iff.2 h).symm.trans (Table.get?_eq_some_iff.2 hkept))
    have hlexical := isLexical_lexicalFaults _ _ hfault
    rw [← hsame, hgrammatical] at hlexical
    cases hlexical

end Lines

/--
Every fault is reported at a part of the line, from one place between characters
to another. A fault that lies in no token is at whole tokens: it starts where a
token starts and stops where a token stops. However spans come about, none stops
before it starts.
-/
theorem readLine_locates_faults (env : Environment) (source : String) :
    (∀ e ∈ (readLine env source).diagnostics.entries, e.1.LiesIn source ∧
      (e.2.isLexical = false → e.1.OfTokens (tokenize source))) ∧
      (∀ offset, Span.between? offset offset = some (.empty offset)) ∧
      (∀ start length, Span.between? start (start + length) = some (.ofLength start length)) ∧
      ∀ s t : Span, Span.between? (min s.start t.start) (max s.stop t.stop) = some (s.cover t) := by
  refine ⟨fun e he => ⟨?_, ofTokens_of_grammatical he⟩, fun offset => ?_, fun start length => ?_,
    fun s t => ?_⟩
  · rcases place_of_mem_diagnostics he with htokens | ⟨fault, hfault⟩
    · exact htokens.liesIn
    · exact liesIn_of_mem_lexicalFaults (e := (e.1, fault)) hfault
  · exact (Span.empty offset).between?_eq
  · exact (Span.ofLength start length).between?_eq
  · exact (s.cover t).between?_eq

/-- A name that is not bound, of one character of two bytes, and a sign too many after it. -/
example : (readLine .empty "2 * λ + 1e--5").diagnostics.entries =
    [(.ofLength 4 2, .unknownName "λ"), (.ofLength 12 1, .duplicateExponentSign)] := by
  decide +kernel

end Calculator
