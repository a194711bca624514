import Calculator.Proofs.Parser.Correspondence
import Calculator.Proofs.Token.Respacing

/-!
# Lines with other blanks

A line with other blanks has the same tokens at other places. What is read and
reported depends on the order of these places only, and that is the same: a span
of the one line is matched by the span of the other that starts and stops at the
same bytes of the same tokens.
-/

namespace Calculator

/-! ## Bytes that match -/

/-- Pairs of tokens, in their order in two lines, and where the two lines stop. -/
structure Alignment where
  pairs : List (Token × Token)
  stop : Nat
  stop' : Nat
  apart : pairs.Pairwise fun p q =>
    p.1.span.stop ≤ q.1.span.start ∧ p.2.span.stop ≤ q.2.span.start
  before_stop : ∀ p ∈ pairs, p.1.span.stop ≤ stop ∧ p.2.span.stop ≤ stop'

namespace Alignment

variable {A : Alignment} {a a' b b' : Nat}

/-- Bytes that are as far from the starts of two tokens of a pair. -/
structure PairMatches (p : Token × Token) (a a' : Nat) : Prop where
  first : ∃ k, a = p.1.span.start + k ∧ a' = p.2.span.start + k
  inside : a < p.1.span.stop
  inside' : a' < p.2.span.stop

def Matches (A : Alignment) (a a' : Nat) : Prop :=
  ∃ p ∈ A.pairs, PairMatches p a a'

theorem Matches.lt_stop (h : A.Matches a a') : a < A.stop ∧ a' < A.stop' := by
  obtain ⟨p, hp, hmatches⟩ := h
  have hstop := A.before_stop p hp
  exact ⟨Nat.lt_of_lt_of_le hmatches.inside hstop.1, Nat.lt_of_lt_of_le hmatches.inside' hstop.2⟩

/-- Bytes that match are in the same order. -/
theorem Matches.lt_iff (h : A.Matches a a') (h' : A.Matches b b') :
    (a < b ↔ a' < b') ∧ (b < a ↔ b' < a') := by
  obtain ⟨p, hp, ⟨k, ha, ha'⟩, hin, hin'⟩ := h
  obtain ⟨q, hq, ⟨m, hb, hb'⟩, hinb, hinb'⟩ := h'
  obtain ⟨i, hi, rfl⟩ := List.mem_iff_getElem.1 hp
  obtain ⟨j, hj, rfl⟩ := List.mem_iff_getElem.1 hq
  have hapart := List.pairwise_iff_getElem.1 A.apart
  -- Within one pair the distances from the starts decide, else the order of the pairs does.
  rcases Nat.lt_trichotomy i j with hij | rfl | hji
  · have hbefore := hapart i j hi hj hij
    omega
  · omega
  · have hbefore := hapart j i hj hi hji
    omega

theorem Matches.compare_eq (h : A.Matches a a') (h' : A.Matches b b') :
    compare a b = compare a' b' := by
  obtain ⟨hlt, hgt⟩ := h.lt_iff h'
  rw [Nat.compare_eq_ite_lt, Nat.compare_eq_ite_lt]
  simp only [hlt, hgt]

theorem Matches.min (h : A.Matches a a') (h' : A.Matches b b') :
    A.Matches (min a b) (min a' b') := by
  obtain ⟨-, hgt⟩ := h.lt_iff h'
  by_cases hle : b < a
  · rwa [Nat.min_eq_right hle.le, Nat.min_eq_right (hgt.1 hle).le]
  · have hle' : ¬b' < a' := fun hlt => hle (hgt.2 hlt)
    rwa [Nat.min_eq_left (Nat.le_of_not_lt hle), Nat.min_eq_left (Nat.le_of_not_lt hle')]

theorem Matches.max (h : A.Matches a a') (h' : A.Matches b b') :
    A.Matches (max a b) (max a' b') := by
  obtain ⟨hlt, -⟩ := h.lt_iff h'
  by_cases hle : a < b
  · rwa [Nat.max_eq_right hle.le, Nat.max_eq_right (hlt.1 hle).le]
  · have hle' : ¬a' < b' := fun hlt' => hle (hlt.2 hlt')
    rwa [Nat.max_eq_left (Nat.le_of_not_lt hle), Nat.max_eq_left (Nat.le_of_not_lt hle')]

/-! ## Spans that match -/

variable {s s' t t' : Span}

/-- Spans whose first bytes match and whose last bytes match. -/
structure Spans (A : Alignment) (s s' : Span) : Prop where
  first : A.Matches s.start s'.start
  last : A.Matches (s.stop - 1) (s'.stop - 1)
  nonempty : s.start < s.stop
  nonempty' : s'.start < s'.stop

theorem Spans.cover (h : A.Spans s s') (h' : A.Spans t t') :
    A.Spans (s.cover t) (s'.cover t') where
  first := h.first.min h'.first
  last := by
    have hlast := h.last.max h'.last
    rwa [Nat.sub_max_sub_right, Nat.sub_max_sub_right] at hlast
  nonempty :=
    Nat.lt_of_le_of_lt (Nat.min_le_left ..) (Nat.lt_of_lt_of_le h.nonempty (Nat.le_max_left ..))
  nonempty' :=
    Nat.lt_of_le_of_lt (Nat.min_le_left ..) (Nat.lt_of_lt_of_le h.nonempty' (Nat.le_max_left ..))

theorem compare_eq_lt (h : s.start < t.start) : compare s t = .lt :=
  Span.compare_eq_lt_iff.2 (.inl h)

theorem compare_eq_gt (h : t.start < s.start) : compare s t = .gt :=
  Std.OrientedCmp.gt_of_lt (compare_eq_lt h)

theorem Spans.compare_stop (h : A.Spans s s') (h' : A.Spans t t') :
    compare s.stop t.stop = compare s'.stop t'.stop := by
  have hlast := h.last.compare_eq h'.last
  have hs := h.nonempty
  have hs' := h.nonempty'
  have ht := h'.nonempty
  have ht' := h'.nonempty'
  have hpred {a b : Nat} (ha : 0 < a) (hb : 0 < b) : compare (a - 1) (b - 1) = compare a b := by
    obtain ⟨a, rfl⟩ := Nat.exists_eq_add_of_lt ha
    obtain ⟨b, rfl⟩ := Nat.exists_eq_add_of_lt hb
    simp [Nat.compare_eq_ite_lt]
  rwa [hpred (by omega) (by omega), hpred (by omega) (by omega)] at hlast

/-- The places at which faults are reported: spans in the lines, and where the lines stop. -/
inductive Places (A : Alignment) : Span → Span → Prop
  | within {s s' : Span} (h : A.Spans s s') : A.Places s s'
  | finish : A.Places (.empty A.stop) (.empty A.stop')

theorem Places.compare_eq (h : A.Places s s') (h' : A.Places t t') :
    compare s t = compare s' t' := by
  cases h with
  | within hs =>
      cases h' with
      | within ht =>
          rw [Span.compare_eq_then, Span.compare_eq_then, hs.first.compare_eq ht.first,
            hs.compare_stop ht]
      | finish =>
          obtain ⟨hlt, hlt'⟩ := hs.first.lt_stop
          rw [compare_eq_lt hlt, compare_eq_lt hlt']
  | finish =>
      cases h' with
      | within ht =>
          obtain ⟨hlt, hlt'⟩ := ht.first.lt_stop
          rw [compare_eq_gt hlt, compare_eq_gt hlt']
      | finish =>
          have hself (s : Span) : compare s s = .eq := Std.ReflCmp.compare_self
          rw [hself, hself]

def correspondence (A : Alignment) : Parser.Correspondence Environment Environment where
  toCounterparts := .same Environment
  spans := A.Spans
  places := A.Places
  cover := Spans.cover
  place := .within
  compare_eq := Places.compare_eq

end Alignment

/-! ## Tokens that match -/

def visibleTokens (source : String) : List Token :=
  (place 0 (lexemes source.toList)).filter (·.kind != .space)

theorem piece_visibleTokens (source : String) :
    (visibleTokens source).map Token.piece = visibleLexemes source.toList := by
  have hpieces := map_piece_place 0 (lexemes source.toList)
  rw [visibleLexemes, ← hpieces, List.filter_map]
  rfl

/-- A token covers the bytes of its text. -/
theorem span_of_mem_place {offset : Nat} {ls : List Lexeme} {t : Token} (h : t ∈ place offset ls) :
    offset ≤ t.span.start ∧ t.span.stop = t.span.start + byteLength t.lexeme.toList ∧
      t.span.stop ≤ offset + byteLength (ls.flatMap Lexeme.chars) := by
  induction ls generalizing offset with
  | nil => cases h
  | cons l ls ih =>
      rw [List.flatMap_cons, byteLength_append]
      rcases List.mem_cons.1 h with rfl | h
      · refine ⟨Nat.le_refl _, ?_, Nat.add_le_add_left (Nat.le_add_right ..) _⟩
        rw [String.toList_ofList]
        rfl
      · have hspan := ih h
        omega

theorem pairwise_place (offset : Nat) (ls : List Lexeme) :
    (place offset ls).Pairwise fun t u => t.span.stop ≤ u.span.start := by
  induction ls generalizing offset with
  | nil => exact .nil
  | cons l ls ih => exact .cons (fun u hu => (span_of_mem_place hu).1) (ih _)

/-! ## Faults of tokens -/

theorem repetitions_eq_map (c : Char) (offset : Nat) (cs : List Char) :
    repetitions c offset cs = (repetitions c 0 cs).map (offset + ·) := by
  unfold repetitions
  rw [List.zipIdx_eq_map_add, List.filterMap_map, List.map_drop, List.map_filterMap]
  congr 2
  funext e
  by_cases he : e.1 = c <;> simp [he]

theorem lt_length_of_mem_repetitions {c : Char} {cs : List Char} {i : Nat}
    (h : i ∈ repetitions c 0 cs) : i < cs.length := by
  obtain ⟨e, he, hi⟩ := List.mem_filterMap.1 (List.mem_of_mem_drop h)
  split at hi
  next =>
    cases hi
    simpa using (List.mem_zipIdx he).2.1
  next => cases hi

section Lines

variable {source target : String}

theorem mem_place_of_mem_visibleTokens {t : Token} (h : t ∈ visibleTokens source) :
    t ∈ place 0 (lexemes source.toList) :=
  (List.mem_filter.1 h).1

/-- The tokens of two lines from their starts on, as many as both have. -/
def alignmentOf (source target : String) : Alignment where
  pairs := (visibleTokens source).zip (visibleTokens target)
  stop := source.utf8ByteSize
  stop' := target.utf8ByteSize
  apart := by
    have hsource : (visibleTokens source).Pairwise fun t u => t.span.stop ≤ u.span.start :=
      (pairwise_place 0 _).filter _
    have htarget : (visibleTokens target).Pairwise fun t u => t.span.stop ≤ u.span.start :=
      (pairwise_place 0 _).filter _
    rw [List.pairwise_iff_getElem] at hsource htarget ⊢
    intro i j hi hj hij
    rw [List.getElem_zip, List.getElem_zip]
    exact ⟨hsource i j _ _ hij, htarget i j _ _ hij⟩
  before_stop := by
    have hstop {line : String} {t : Token} (ht : t ∈ visibleTokens line) :
        t.span.stop ≤ line.utf8ByteSize := by
      have hspan := (span_of_mem_place (mem_place_of_mem_visibleTokens ht)).2.2
      rwa [flatMap_lexemes, byteLength_toList, Nat.zero_add] at hspan
    intro p hp
    obtain ⟨ht, ht'⟩ := List.of_mem_zip hp
    exact ⟨hstop ht, hstop ht'⟩

/-- A part of a token matches the same part of the other token of its pair. -/
theorem spans_ofLength {t t' : Token} (hmem : (t, t') ∈ (alignmentOf source target).pairs)
    (hpiece : t.piece = t'.piece) {i length : Nat} (hlength : 0 < length)
    (hinside : i + length ≤ byteLength t.lexeme.toList) :
    (alignmentOf source target).Spans (.ofLength (t.span.start + i) length)
      (.ofLength (t'.span.start + i) length) := by
  obtain ⟨ht, ht'⟩ := List.of_mem_zip hmem
  have hstop := (span_of_mem_place (mem_place_of_mem_visibleTokens ht)).2.1
  have hstop' := (span_of_mem_place (mem_place_of_mem_visibleTokens ht')).2.1
  have hchars : t.lexeme.toList = t'.lexeme.toList := congrArg Lexeme.chars hpiece
  rw [← hchars] at hstop'
  have hbyte {k : Nat} (hk : k < byteLength t.lexeme.toList) :
      (alignmentOf source target).Matches (t.span.start + k) (t'.span.start + k) :=
    ⟨(t, t'), hmem, ⟨k, rfl, rfl⟩, by dsimp only; omega, by dsimp only; omega⟩
  refine ⟨hbyte (by omega), ?_, by simpa [Span.ofLength], by simpa [Span.ofLength]⟩
  have hlast : t.span.start + (i + length - 1) = t.span.start + i + length - 1 := by omega
  have hlast' : t'.span.start + (i + length - 1) = t'.span.start + i + length - 1 := by omega
  have hmatches := hbyte (k := i + length - 1) (by omega)
  rwa [hlast, hlast'] at hmatches

theorem eq_ofLength {s : Span} {length : Nat} (h : s.stop = s.start + length) :
    s = .ofLength s.start length := by
  obtain ⟨start, stop, hle⟩ := s
  dsimp only at h
  subst h
  rfl

section Pairs

variable {t t' : Token} (hmem : (t, t') ∈ (alignmentOf source target).pairs)
  (hpiece : t.piece = t'.piece)

include hmem hpiece

theorem spans_of_pair : (alignmentOf source target).Spans t.span t'.span := by
  obtain ⟨ht, ht'⟩ := List.of_mem_zip hmem
  have hplace := mem_place_of_mem_visibleTokens ht
  have hchars : t.lexeme.toList = t'.lexeme.toList := congrArg Lexeme.chars hpiece
  have hspan := eq_ofLength (span_of_mem_place hplace).2.1
  have hspan' := eq_ofLength (span_of_mem_place (mem_place_of_mem_visibleTokens ht')).2.1
  have hpos : 0 < byteLength t.lexeme.toList :=
    byteLength_pos (chars_ne_nil_of_mem_lexemes (piece_mem_of_mem_place hplace))
  have hwhole := spans_ofLength hmem hpiece hpos (Nat.le_of_eq (Nat.zero_add _))
  rwa [Nat.add_zero, Nat.add_zero, ← hspan, hchars, ← hspan'] at hwhole

theorem tokens_of_pair : (alignmentOf source target).correspondence.Tokens t t' where
  kind := congrArg Lexeme.kind hpiece
  lexeme := String.toList_injective (congrArg Lexeme.chars hpiece)
  span := spans_of_pair hmem hpiece
  named _ := trivial

/-- The faults of a token are at the same bytes of it in both lines. -/
theorem faults_of_pair :
    Table.Corresponds (alignmentOf source target).Places t.faults t'.faults := by
  have hkind : t.kind = t'.kind := congrArg Lexeme.kind hpiece
  have hchars : t.lexeme.toList = t'.lexeme.toList := congrArg Lexeme.chars hpiece
  have hrepeated (c : Char) (fault : Fault) :
      Table.Corresponds (alignmentOf source target).Places
        ((repetitions c t.span.start t.lexeme.toList).map fun i => (.ofLength i 1, fault))
        ((repetitions c t'.span.start t.lexeme.toList).map fun i => (.ofLength i 1, fault)) := by
    rw [repetitions_eq_map c t.span.start, repetitions_eq_map c t'.span.start, List.map_map,
      List.map_map]
    refine Table.corresponds_map fun i hi => ?_
    have hinside : i + 1 ≤ byteLength t.lexeme.toList :=
      Nat.lt_of_lt_of_le (lt_length_of_mem_repetitions hi) (length_le_byteLength _)
    exact ⟨.within (spans_ofLength hmem hpiece Nat.one_pos hinside), rfl⟩
  unfold Token.faults
  rw [← hkind, ← hchars]
  split
  next => exact List.rel_append (hrepeated '.' _) (hrepeated '-' _)
  next =>
    exact Table.corresponds_map fun c _ => ⟨.within (spans_of_pair hmem hpiece), rfl⟩
  next => exact .nil

end Pairs

end Lines

/-! ## Lines -/

section Lines

variable {source target : String}

theorem filter_tokenize (source : String) :
    (tokenize source).filter (·.kind != .space) =
      visibleTokens source ++ [.finish source.utf8ByteSize] := by
  rw [tokenize_eq, List.filter_append]
  rfl

theorem ofTokens_tokenize (source : String) (env : Environment) (d : Diagnostics) :
    Parser.State.ofTokens (tokenize source) env d =
      ⟨visibleTokens source, .empty source.utf8ByteSize, env, d, false, 0⟩ := by
  rw [tokenize_eq, ofTokens_append_finish fun t ht => kind_ne_finish_of_mem_place ht]
  rfl

theorem lexicalFaults_tokenize (source : String) :
    lexicalFaults (tokenize source) = .ofFaults ((visibleTokens source).flatMap Token.faults) := by
  have hblank (tokens : List Token) :
      (tokens.filter (·.kind != .space)).flatMap Token.faults = tokens.flatMap Token.faults := by
    induction tokens with
    | nil => rfl
    | cons t tokens ih =>
        by_cases ht : t.kind = .space
        · have hnone : t.faults = [] := by rw [Token.faults, ht]
          rw [List.filter_cons_of_neg (by simpa using ht), ih, List.flatMap_cons, hnone,
            List.nil_append]
        · rw [List.filter_cons_of_pos (by simpa using ht), List.flatMap_cons, ih, List.flatMap_cons]
  rw [lexicalFaults, ← hblank, filter_tokenize, List.flatMap_append]
  exact congrArg Diagnostics.ofFaults (List.append_nil _)

/-- Lines from which the same is scanned consist of pairs of the same tokens. -/
theorem pairs_of_visibleLexemes
    (h : visibleLexemes source.toList = visibleLexemes target.toList) :
    List.Forall₂ (fun t t' => (t, t') ∈ (alignmentOf source target).pairs ∧ t.piece = t'.piece)
      (visibleTokens source) (visibleTokens target) := by
  have hpieces : List.Forall₂ (fun t t' => t.piece = t'.piece) (visibleTokens source)
      (visibleTokens target) := by
    rw [← List.forall₂_map_right_iff (R := fun t l => Token.piece t = l),
      ← List.forall₂_map_left_iff, piece_visibleTokens, piece_visibleTokens, h]
    exact List.forall₂_same.2 fun _ _ => rfl
  rw [List.forall₂_iff_zip] at hpieces ⊢
  exact ⟨hpieces.1, fun hmem => ⟨hmem, hpieces.2 hmem⟩⟩

theorem states_alignment (h : visibleLexemes source.toList = visibleLexemes target.toList)
    (env : Environment) :
    (alignmentOf source target).correspondence.States
      (.ofTokens (tokenize source) env (lexicalFaults (tokenize source)))
      (.ofTokens (tokenize target) env (lexicalFaults (tokenize target))) := by
  have hpairs := pairs_of_visibleLexemes h
  rw [ofTokens_tokenize, ofTokens_tokenize]
  exact {
    environment := rfl
    diagnostics := by
      rw [lexicalFaults_tokenize, lexicalFaults_tokenize]
      refine Parser.Correspondence.corresponds_ofFaults ?_
      exact List.rel_flatMap hpairs fun t t' ht => faults_of_pair ht.1 ht.2
    rest := hpairs.imp fun t t' ht => tokens_of_pair ht.1 ht.2
    stop := .finish
    inBody := rfl
    nesting := rfl }

theorem visibleLexemes_of_respaced (h : Respaced (tokenize source) target.toList) :
    visibleLexemes source.toList = visibleLexemes target.toList :=
  (h.scanned (map_piece_tokenize source)).2.symm

theorem piece_filter_tokenize (source : String) :
    ((tokenize source).filter (·.kind != .space)).map Token.piece =
      visibleLexemes source.toList ++ [.finish] := by
  rw [filter_tokenize, List.map_append, piece_visibleTokens]
  rfl

def Token.content (t : Token) : TokenKind × String × Option Binary64 :=
  (t.kind, t.lexeme, t.literal?)

theorem content_of_visibleLexemes
    (h : visibleLexemes source.toList = visibleLexemes target.toList) :
    ((tokenize source).filter (·.kind != .space)).map Token.content =
      ((tokenize target).filter (·.kind != .space)).map Token.content := by
  have hcontent : Token.content = (fun l : Lexeme =>
      (l.kind, String.ofList l.chars, Token.literal? ⟨l.kind, .empty 0, ""⟩)) ∘ Token.piece := by
    funext t
    simp [Token.content, Token.piece, Token.literal?]
  rw [hcontent, ← List.map_map, ← List.map_map, piece_filter_tokenize, piece_filter_tokenize, h]

end Lines

/--
Blanks only keep tokens apart. A line with other blanks between its tokens has
the same tokens with the same texts and numbers, is read as the same tree,
leaves the same environment and has the same faults in the same order.
-/
theorem readLine_respaced (env : Environment) (source target : String)
    (h : Respaced (tokenize source) target.toList) :
    ((tokenize source).filter (·.kind != .space)).map Token.content =
        ((tokenize target).filter (·.kind != .space)).map Token.content ∧
      (readLine env source).expr = (readLine env target).expr ∧
      (readLine env source).environment = (readLine env target).environment ∧
      (readLine env source).diagnostics.entries.map Prod.snd =
        (readLine env target).diagnostics.entries.map Prod.snd := by
  have hvisible := visibleLexemes_of_respaced h
  have hstates := states_alignment hvisible env
  obtain ⟨hexpr, hends⟩ := Parser.Correspondence.run_corresponds (some maxNesting) hstates
  exact ⟨content_of_visibleLexemes hvisible, hexpr, hends.environment,
    Table.map_snd_of_corresponds hends.diagnostics⟩

/-- A sign after an exponent, a point before a digit and a character of no token, spaced out. -/
theorem readLine_respaced_of_dangling_exponent :
    Respaced (tokenize "1e-.5$  2") " 1e- .5\t$\n2".toList ∧
      (readLine .empty "1e-.5$  2").diagnostics.entries.map Prod.snd =
        (readLine .empty " 1e- .5\t$\n2").diagnostics.entries.map Prod.snd := by
  have htokens : tokenize "1e-.5$  2" =
      [⟨.number (Literal.mk ['1'] ['e', '-']).value, .ofLength 0 3, "1e-"⟩,
        ⟨.number (Literal.mk ['.', '5'] []).value, .ofLength 3 2, ".5"⟩,
        ⟨.unknown, .ofLength 5 1, "$"⟩, ⟨.space, .ofLength 6 1, " "⟩,
        ⟨.space, .ofLength 7 1, " "⟩, ⟨.number (Literal.mk ['2'] []).value, .ofLength 8 1, "2"⟩,
        .finish 9] := by decide +kernel
  have htext : " 1e- .5\t$\n2".toList = [' '] ++ ("1e-".toList ++ ([' '] ++ (".5".toList ++
      (['\t'] ++ ("$".toList ++ (['\n'] ++ ([] ++ ("2".toList ++ [])))))))) := by decide
  have hrespaced : Respaced (tokenize "1e-.5$  2") " 1e- .5\t$\n2".toList := by
    rw [htokens, htext]
    refine .token rfl (by decide) (.token rfl (by decide) (.token rfl (by decide) ?_))
    refine @Respaced.blanks [_, _] _ _ _ (by simp) (by simp) (by decide) ?_
    exact .token rfl (by decide) (.finish rfl (by decide))
  obtain ⟨-, -, -, hfaults⟩ := readLine_respaced .empty "1e-.5$  2" " 1e- .5\t$\n2" hrespaced
  exact ⟨hrespaced, hfaults⟩

end Calculator
