import Calculator.Line
import Calculator.Proofs.Diagnostics.Insertion
import Calculator.Proofs.Parser.Calculus

/-!
# Lexemes

The tokens of a line without their places: kinds and characters, which do not
depend on where in a line a text stands. Blanks and the end of the line are not
visible to a parser; all other tokens of a line are.
-/

namespace Calculator

structure Lexeme where
  kind : TokenKind
  chars : List Char
deriving DecidableEq

def Token.piece (t : Token) : Lexeme :=
  ⟨t.kind, t.lexeme.toList⟩

def Lexeme.symbol (l : Lexeme) : Symbol :=
  match l.kind with
  | .number value => .number value
  | .identifier => .name (String.ofList l.chars)
  | kind => .mark kind

theorem Token.symbol_piece (t : Token) : t.piece.symbol = t.symbol := by
  obtain ⟨kind, span, lexeme⟩ := t
  cases kind with
  | identifier => simp [Token.piece, Lexeme.symbol, Token.symbol]
  | _ => rfl

def lexemes : List Char → List Lexeme
  | [] => []
  | c :: rest =>
      let first := firstToken c rest
      ⟨first.1, c :: first.2⟩ :: lexemes (rest.drop first.2.length)
termination_by cs => cs.length
decreasing_by simp only [List.length_drop, List.length_cons]; omega

def TokenKind.isVisible (k : TokenKind) : Bool :=
  k != .space && k != .finish

def symbolsOf (source : String) : List Symbol :=
  ((tokenize source).filter (·.kind.isVisible)).map Token.symbol

/-! ## First tokens -/

theorem punctuation?_ne_finish {c : Char} {k : TokenKind} (h : punctuation? c = some k) :
    k ≠ .finish := by
  unfold punctuation? at h
  split at h <;> cases h <;> decide

theorem wordKind_cases (word : String) : wordKind word = .del ∨ wordKind word = .identifier := by
  unfold wordKind
  split
  · exact .inl rfl
  · exact .inr rfl

/-- A first token is a sign, a literal, a word or a character that starts none of these. -/
theorem firstToken_cases (c : Char) (rest : List Char) :
    (∃ kind, punctuation? c = some kind ∧ firstToken c rest = (kind, [])) ∨
      (startsLiteral c rest ∧ firstToken c rest =
        (.number (Literal.ofChars (c :: rest)).value, (Literal.ofChars (c :: rest)).text.tail)) ∨
      (isWordChar c ∧ firstToken c rest =
        (wordKind (String.ofList (c :: rest.takeWhile isWordChar)), rest.takeWhile isWordChar)) ∨
      firstToken c rest = (.unknown, []) := by
  unfold firstToken
  split
  next kind hkind => exact .inl ⟨kind, hkind, rfl⟩
  next =>
    split
    next hliteral => exact .inr (.inl ⟨hliteral, rfl⟩)
    next =>
      split
      next hword => exact .inr (.inr (.inl ⟨hword, rfl⟩))
      next => exact .inr (.inr (.inr rfl))

theorem firstToken_ne_finish (c : Char) (rest : List Char) : (firstToken c rest).1 ≠ .finish := by
  rcases firstToken_cases c rest with ⟨kind, hkind, hsign⟩ | ⟨-, hliteral⟩ | ⟨-, hword⟩ | hunknown
  · rw [hsign]
    exact punctuation?_ne_finish hkind
  · simp [hliteral]
  · rcases wordKind_cases (String.ofList (c :: rest.takeWhile isWordChar)) with hkind | hkind
    all_goals
      rw [hword, hkind]
      simp
  · simp [hunknown]

theorem firstToken_of_mem_lexemes {cs : List Char} {l : Lexeme} (h : l ∈ lexemes cs) :
    ∃ c rest, l = ⟨(firstToken c rest).1, c :: (firstToken c rest).2⟩ := by
  fun_induction lexemes cs with
  | case1 => cases h
  | case2 c rest first ih =>
      rcases List.mem_cons.1 h with rfl | h
      · exact ⟨c, rest, rfl⟩
      · exact ih h

theorem kind_ne_finish_of_mem_lexemes {cs : List Char} {l : Lexeme} (h : l ∈ lexemes cs) :
    l.kind ≠ .finish := by
  obtain ⟨c, rest, rfl⟩ := firstToken_of_mem_lexemes h
  exact firstToken_ne_finish c rest

/-! ## Places -/

@[simp] theorem byteLength_nil : byteLength [] = 0 := rfl

@[simp] theorem byteLength_cons (c : Char) (cs : List Char) :
    byteLength (c :: cs) = c.utf8Size + byteLength cs := rfl

@[simp] theorem byteLength_append (cs ds : List Char) :
    byteLength (cs ++ ds) = byteLength cs + byteLength ds := by
  induction cs with
  | nil => simp
  | cons c cs ih => simp [ih, Nat.add_assoc]

def Lexeme.finish : Lexeme :=
  ⟨.finish, []⟩

/-- The tokens of a text that starts at an offset, from their lexemes. -/
def place (offset : Nat) : List Lexeme → List Token
  | [] => []
  | l :: ls =>
      ⟨l.kind, .ofLength offset (byteLength l.chars), String.ofList l.chars⟩ ::
        place (offset + byteLength l.chars) ls

theorem place_append (offset : Nat) (ls ls' : List Lexeme) :
    place offset (ls ++ ls') =
      place offset ls ++ place (offset + byteLength (ls.flatMap Lexeme.chars)) ls' := by
  induction ls generalizing offset with
  | nil => rfl
  | cons l ls ih =>
      rw [List.cons_append, place, ih, List.flatMap_cons, byteLength_append, Nat.add_assoc]
      rfl

theorem map_piece_place (offset : Nat) (ls : List Lexeme) :
    (place offset ls).map Token.piece = ls := by
  induction ls generalizing offset with
  | nil => rfl
  | cons l ls ih =>
      have hpiece : Token.piece ⟨l.kind, .ofLength offset (byteLength l.chars),
          String.ofList l.chars⟩ = l := by
        rw [Token.piece, String.toList_ofList]
      rw [place, List.map_cons, ih, hpiece]

theorem piece_mem_of_mem_place {offset : Nat} {ls : List Lexeme} {t : Token}
    (h : t ∈ place offset ls) : t.piece ∈ ls := by
  have hpiece := List.mem_map_of_mem (f := Token.piece) h
  rwa [map_piece_place] at hpiece

/-- Scanning places the lexemes of a text and then the end of the line. -/
theorem scan_eq_place (offset : Nat) (cs : List Char) :
    scan offset cs = place offset (lexemes cs ++ [.finish]) := by
  fun_induction scan offset cs with
  | case1 offset =>
      rw [lexemes]
      rfl
  | case2 offset c rest first lexeme ih =>
      rw [ih, lexemes]
      rfl

theorem exists_tokenize_eq (source : String) :
    ∃ stop, tokenize source = place 0 (lexemes source.toList) ++ [.finish stop] := by
  rw [tokenize, scan_eq_place, place_append]
  exact ⟨_, rfl⟩

theorem map_piece_tokenize (source : String) :
    (tokenize source).map Token.piece = lexemes source.toList ++ [.finish] := by
  rw [tokenize, scan_eq_place, map_piece_place]

theorem kind_ne_finish_of_mem_place {source : String} {t : Token}
    (h : t ∈ place 0 (lexemes source.toList)) : t.kind ≠ .finish :=
  kind_ne_finish_of_mem_lexemes (piece_mem_of_mem_place h)

/-! ## What is given to a parser -/

/-- A parser is given the tokens before the end that are no blanks, and where the line ends. -/
theorem ofTokens_append_finish {tokens : List Token} (h : ∀ t ∈ tokens, t.kind ≠ .finish)
    (stop : Nat) (env : Environment) (d : Diagnostics) :
    Parser.State.ofTokens (tokens ++ [.finish stop]) env d =
      ⟨tokens.filter (·.kind != .space), .empty stop, env, d, false, 0⟩ := by
  have hkinds : ∀ t ∈ tokens.filter (·.kind != .space), t.kind ≠ .finish :=
    fun t ht => h t (List.mem_filter.1 ht).1
  have hfilter : (tokens ++ [Token.finish stop]).filter (·.kind != .space) =
      tokens.filter (·.kind != .space) ++ [Token.finish stop] := by
    rw [List.filter_append]
    rfl
  have htake : (tokens.filter (·.kind != .space) ++ [Token.finish stop]).takeWhile
      (·.kind != .finish) = tokens.filter (·.kind != .space) := by
    rw [List.takeWhile_append_of_pos fun t ht => by simpa using hkinds t ht]
    simp [Token.finish]
  have hfind : (tokens.filter (·.kind != .space) ++ [Token.finish stop]).find?
      (·.kind == .finish) = some (.finish stop) := by
    have hnone : (tokens.filter (·.kind != .space)).find? (·.kind == .finish) = none :=
      List.find?_eq_none.2 fun t ht => by simpa using hkinds t ht
    rw [List.find?_append, hnone]
    rfl
  unfold Parser.State.ofTokens
  rw [hfilter]
  dsimp only
  rw [htake, hfind]
  rfl

/-- The parser is given the visible tokens of the line. -/
theorem symbols_ofTokens (source : String) (env : Environment) (d : Diagnostics) :
    (Parser.State.ofTokens (tokenize source) env d).symbols = symbolsOf source := by
  obtain ⟨stop, htokens⟩ := exists_tokenize_eq source
  have hkinds (t : Token) (ht : t ∈ place 0 (lexemes source.toList)) : t.kind ≠ .finish :=
    kind_ne_finish_of_mem_place ht
  have hvisible : (tokenize source).filter (·.kind.isVisible) =
      (place 0 (lexemes source.toList)).filter (·.kind != .space) := by
    have hfinish : [Token.finish stop].filter (·.kind.isVisible) = [] := rfl
    rw [htokens, List.filter_append, hfinish, List.append_nil]
    refine List.filter_congr fun t ht => ?_
    simp [TokenKind.isVisible, hkinds t ht]
  rw [symbolsOf, hvisible, htokens, ofTokens_append_finish hkinds]
  rfl

/-- The lexemes of a line decide what a parser is given. -/
theorem symbolsOf_eq (source : String) :
    symbolsOf source =
      ((lexemes source.toList).filter (·.kind != .space)).map Lexeme.symbol := by
  have hpieces : ((tokenize source).filter (·.kind.isVisible)).map Token.piece =
      (lexemes source.toList ++ [Lexeme.finish]).filter (·.kind.isVisible) := by
    rw [← map_piece_tokenize, List.filter_map]
    rfl
  have hfinish : [Lexeme.finish].filter (·.kind.isVisible) = [] := rfl
  have hvisible : (lexemes source.toList).filter (·.kind.isVisible) =
      (lexemes source.toList).filter (·.kind != .space) :=
    List.filter_congr fun l hl => by
      simp [TokenKind.isVisible, kind_ne_finish_of_mem_lexemes hl]
  rw [List.filter_append, hfinish, List.append_nil, hvisible] at hpieces
  rw [symbolsOf, ← hpieces, List.map_map]
  exact List.map_congr_left fun t _ => t.symbol_piece.symm

/-! ## Faults -/

/-- A literal has at most one point and one sign, and every character belongs to some token. -/
def Lexeme.IsFaultless (l : Lexeme) : Prop :=
  match l.kind with
  | .number _ => l.chars.count '.' ≤ 1 ∧ l.chars.count '-' ≤ 1
  | .unknown => l.chars = []
  | _ => True

theorem length_repetitions (c : Char) (offset : Nat) (cs : List Char) :
    (repetitions c offset cs).length = cs.count c - 1 := by
  unfold repetitions
  rw [List.length_drop]
  congr 1
  induction cs generalizing offset with
  | nil => rfl
  | cons d cs ih =>
      rw [List.zipIdx_cons, List.filterMap_cons, List.count_cons]
      by_cases hd : d = c
      · simp [hd, ih]
      · simp [hd, ih]

theorem repetitions_eq_nil_iff {c : Char} {offset : Nat} {cs : List Char} :
    repetitions c offset cs = [] ↔ cs.count c ≤ 1 := by
  rw [← List.length_eq_zero_iff, length_repetitions]
  omega

theorem literalFaults_eq_nil_iff {offset : Nat} {cs : List Char} :
    literalFaults offset cs = [] ↔ cs.count '.' ≤ 1 ∧ cs.count '-' ≤ 1 := by
  simp [literalFaults, repetitions_eq_nil_iff]

theorem Token.faults_eq_nil_iff {t : Token} : t.faults = [] ↔ t.piece.IsFaultless := by
  obtain ⟨kind, span, lexeme⟩ := t
  cases kind with
  | number value => exact literalFaults_eq_nil_iff
  | unknown => simp [Token.faults, Token.piece, Lexeme.IsFaultless]
  | _ => simp [Token.faults, Token.piece, Lexeme.IsFaultless]

/-- Whether the tokens of a line have faults does not depend on their places. -/
theorem lexicalFaults_eq_empty_iff {source : String} :
    lexicalFaults (tokenize source) = .empty ↔ ∀ l ∈ lexemes source.toList, l.IsFaultless := by
  have hpieces : (∀ l ∈ lexemes source.toList ++ [.finish], l.IsFaultless) ↔
      ∀ t ∈ tokenize source, t.faults = [] := by
    rw [← map_piece_tokenize, List.forall_mem_map]
    simp only [Token.faults_eq_nil_iff]
  have hfinish : ∀ l ∈ [Lexeme.finish], l.IsFaultless := by
    intro l hl
    rw [List.mem_singleton.1 hl]
    trivial
  rw [lexicalFaults, Diagnostics.ofFaults_eq_empty_iff, List.flatMap_eq_nil_iff, ← hpieces,
    List.forall_mem_append]
  exact and_iff_left hfinish

end Calculator
