import Calculator.Proofs.Token.Transcription
import Calculator.Shell.Highlight

/-!
# Highlighted lines

Highlighting adds escape sequences to a line and changes nothing else. On a
terminal every character is seen in the style of its token, and no style goes on
after its token. Which sequences there are for a style is left to the palette,
and what they do to the terminal.
-/

namespace Calculator

/-! ## Texts without sequences -/

/--
A text without its escape sequences. One starts with an escape character and
ends with the next `m`.
-/
def withoutSequences : List Char → List Char
  | [] => []
  | c :: rest =>
      if c = '\x1b' ∧ 'm' ∈ rest then withoutSequences (rest.dropWhile (· != 'm')).tail
      else c :: withoutSequences rest
termination_by cs => cs.length
decreasing_by
  · have hdrop := (List.dropWhile_suffix (· != 'm') (l := rest)).length_le
    simp only [List.length_tail, List.length_cons]
    omega
  · exact Nat.lt_succ_self _

@[simp] theorem withoutSequences_nil : withoutSequences [] = [] := by
  rw [withoutSequences]

theorem withoutSequences_append {cs : List Char} (h : '\x1b' ∉ cs) (later : List Char) :
    withoutSequences (cs ++ later) = cs ++ withoutSequences later := by
  induction cs with
  | nil => rfl
  | cons c cs ih =>
      obtain ⟨hc, hcs⟩ := List.ne_and_not_mem_of_not_mem_cons h
      rw [List.cons_append, withoutSequences, if_neg fun hstart => hc hstart.1.symm, ih hcs]
      rfl

theorem withoutSequences_escaped {cs : List Char} (h : 'm' ∉ cs) (later : List Char) :
    withoutSequences ('\x1b' :: cs ++ 'm' :: later) = withoutSequences later := by
  have hend : 'm' ∈ cs ++ 'm' :: later := List.mem_append_right _ List.mem_cons_self
  rw [List.cons_append, withoutSequences, if_pos ⟨rfl, hend⟩,
    List.dropWhile_append_of_pos (bne_of_not_mem h)]
  rfl

/-! ## Control sequences -/

/--
Control sequences and nothing else. Each is an escape character, a body and an
`m`, and no body has a character that would end it or start another sequence.
-/
structure IsSequences (text : String) (bodies : List (List Char)) : Prop where
  text_eq : text.toList = bodies.flatMap fun body => '\x1b' :: body ++ ['m']
  closed : ∀ body ∈ bodies, 'm' ∉ body ∧ '\x1b' ∉ body

theorem withoutSequences_sequences {bodies : List (List Char)}
    (h : ∀ body ∈ bodies, 'm' ∉ body ∧ '\x1b' ∉ body) (later : List Char) :
    withoutSequences ((bodies.flatMap fun body => '\x1b' :: body ++ ['m']) ++ later) =
      withoutSequences later := by
  induction bodies with
  | nil => rfl
  | cons body bodies ih =>
      obtain ⟨hbody, hbodies⟩ := List.forall_mem_cons.1 h
      rw [List.flatMap_cons, List.append_assoc, List.append_assoc]
      exact (withoutSequences_escaped hbody.1 _).trans (ih hbodies)

theorem IsSequences.withoutSequences {text : String} {bodies : List (List Char)}
    (h : IsSequences text bodies) (later : List Char) :
    withoutSequences (text.toList ++ later) = Calculator.withoutSequences later := by
  rw [h.text_eq]
  exact withoutSequences_sequences h.closed later

namespace Palette

/-- All that is put before and after text are control sequences. -/
structure Escapes (palette : Palette) : Prop where
  opening : ∀ style, ∃ bodies, IsSequences (palette.opening style) bodies
  reset : ∃ bodies, IsSequences palette.reset bodies

/-- The sequences give a terminal a style, whatever style it had. -/
def Sets (apply : Style → List Char → Style) (text : String) (style : Style) : Prop :=
  ∃ bodies, bodies ≠ [] ∧ IsSequences text bodies ∧ ∀ before, bodies.foldl apply before = style

/--
A terminal, on which a sequence turns one style into another, takes what is put
before text in a style for this style, and what is put after it for none.
-/
structure IsShownBy (palette : Palette) (apply : Style → List Char → Style) : Prop where
  opening : ∀ style, Sets apply (palette.opening style) style
  reset : Sets apply palette.reset {}

theorem IsShownBy.escapes {palette : Palette} {apply : Style → List Char → Style}
    (h : palette.IsShownBy apply) : palette.Escapes where
  opening style := (h.opening style).imp fun _ hbodies => hbodies.2.1
  reset := h.reset.imp fun _ hbodies => hbodies.2.1

end Palette

/-! ## Terminals -/

/-- A terminal, with the characters that it shows and the style of each. -/
structure Terminal where
  style : Style
  /-- The characters of an unfinished sequence after its escape. -/
  pending : Option (List Char)
  shown : List (Char × Style)

namespace Terminal

section Write

variable (apply : Style → List Char → Style)

/-- An escape starts a sequence anew, also within one that is unfinished. -/
def put (t : Terminal) (c : Char) : Terminal :=
  if c = '\x1b' then { t with pending := some [] }
  else
    match t.pending with
    | none => { t with shown := t.shown ++ [(c, t.style)] }
    | some cs =>
        if c = 'm' then { t with style := apply t.style cs, pending := none }
        else { t with pending := some (cs ++ [c]) }

def write (t : Terminal) (text : List Char) : Terminal :=
  text.foldl (put apply) t

variable {apply}

theorem write_append (t : Terminal) (cs ds : List Char) :
    t.write apply (cs ++ ds) = (t.write apply cs).write apply ds :=
  List.foldl_append

theorem write_body {body : List Char} (h : 'm' ∉ body ∧ '\x1b' ∉ body) (style : Style)
    (cs : List Char) (shown : List (Char × Style)) :
    write apply ⟨style, some cs, shown⟩ body = ⟨style, some (cs ++ body), shown⟩ := by
  induction body generalizing cs with
  | nil => rw [List.append_nil]; rfl
  | cons c body ih =>
      obtain ⟨hm, hmrest⟩ := List.ne_and_not_mem_of_not_mem_cons h.1
      obtain ⟨hescape, hrest⟩ := List.ne_and_not_mem_of_not_mem_cons h.2
      have hput : put apply ⟨style, some cs, shown⟩ c = ⟨style, some (cs ++ [c]), shown⟩ :=
        (if_neg hescape.symm).trans (if_neg hm.symm)
      rw [← List.singleton_append, ← List.append_assoc, write_append]
      exact (congrArg (write apply · body) hput).trans (ih ⟨hmrest, hrest⟩ _)

theorem write_sequence {body : List Char} (h : 'm' ∉ body ∧ '\x1b' ∉ body) (t : Terminal) :
    t.write apply ('\x1b' :: body ++ ['m']) =
      { t with style := apply t.style body, pending := none } := by
  have hopened : put apply t '\x1b' = ⟨t.style, some [], t.shown⟩ := rfl
  rw [write_append]
  exact congrArg (put apply · 'm') ((congrArg (write apply · body) hopened).trans
    (write_body h t.style [] t.shown))

theorem write_sequences {bodies : List (List Char)}
    (h : ∀ body ∈ bodies, 'm' ∉ body ∧ '\x1b' ∉ body) (hne : bodies ≠ []) (t : Terminal) :
    t.write apply (bodies.flatMap fun body => '\x1b' :: body ++ ['m']) =
      { t with style := bodies.foldl apply t.style, pending := none } := by
  induction bodies generalizing t with
  | nil => exact absurd rfl hne
  | cons body bodies ih =>
      obtain ⟨hbody, hbodies⟩ := List.forall_mem_cons.1 h
      rw [List.flatMap_cons, write_append, write_sequence hbody, List.foldl_cons]
      by_cases hlast : bodies = []
      · rw [hlast]
        rfl
      · rw [ih hbodies hlast]

theorem write_sets {text : String} {style : Style} (h : Palette.Sets apply text style)
    (t : Terminal) : t.write apply text.toList = { t with style := style, pending := none } := by
  obtain ⟨bodies, hne, htext, hstyle⟩ := h
  rw [htext.text_eq, write_sequences htext.closed hne, hstyle]

theorem write_plain {cs : List Char} (h : '\x1b' ∉ cs) (style : Style)
    (shown : List (Char × Style)) :
    write apply ⟨style, none, shown⟩ cs = ⟨style, none, shown ++ cs.map fun c => (c, style)⟩ := by
  induction cs generalizing shown with
  | nil => rw [List.map_nil, List.append_nil]; rfl
  | cons c cs ih =>
      obtain ⟨hc, hcs⟩ := List.ne_and_not_mem_of_not_mem_cons h
      have hput : put apply ⟨style, none, shown⟩ c = ⟨style, none, shown ++ [(c, style)]⟩ :=
        if_neg hc.symm
      rw [← List.singleton_append, write_append, List.map_append, ← List.append_assoc]
      exact (congrArg (write apply · cs) hput).trans (ih hcs _)

end Write

end Terminal

/-! ## Tokens -/

theorem Literal.IsRead.escape_not_mem {l : Literal} (h : l.IsRead) : '\x1b' ∉ l.text := by
  intro hmem
  rcases List.mem_append.1 hmem with hmem | hmem
  · exact absurd (h.mantissa _ hmem) (by decide)
  · rcases h.exponent with hnone | ⟨signs, tail, hexponent, hsigns, htail⟩
    · rw [hnone] at hmem
      cases hmem
    · rw [hexponent, List.mem_append, List.mem_cons] at hmem
      rcases hmem with (hmem | hmem) | hmem
      · exact absurd hmem (by decide)
      · exact absurd (hsigns _ hmem) (by decide)
      · exact absurd (htail _ hmem) (by decide)

/-- No token but that of an unknown character has an escape character. -/
theorem escape_of_mem_lexemes {cs : List Char} {l : Lexeme} (h : l ∈ lexemes cs) :
    '\x1b' ∉ l.chars ∨ l = ⟨.unknown, ['\x1b']⟩ := by
  obtain ⟨c, rest, rfl⟩ := firstToken_of_mem_lexemes h
  rcases firstToken_cases c rest with ⟨kind, hkind, hsign⟩ | ⟨hstarts, hliteral⟩ |
    ⟨hc, hword⟩ | hunknown
  · rw [hsign]
    refine .inl fun hmem => ?_
    rw [← List.mem_singleton.1 hmem] at hkind
    cases hkind
  · obtain ⟨tail, htext, -⟩ := text_of_startsLiteral hstarts
    have hescape := (Literal.isRead_ofChars hstarts).escape_not_mem
    rw [htext] at hescape
    rw [hliteral, htext]
    exact .inl hescape
  · rw [hword]
    refine .inl fun hmem => ?_
    have hescape : isWordChar '\x1b' := by
      rcases List.mem_cons.1 hmem with rfl | htail
      · exact hc
      · exact List.mem_takeWhile_imp htail
    exact absurd hescape (by decide +kernel)
  · rw [hunknown]
    by_cases hc : c = '\x1b'
    · exact .inr (by rw [hc])
    · exact .inl fun hmem => hc (List.mem_singleton.1 hmem).symm

namespace Token

def style (t : Token) : Style :=
  t.kind.category.style?.getD {}

/-- The characters of a token on a terminal, which shows no escape characters. -/
def displayed (t : Token) : List (Char × Style) :=
  (t.lexeme.toList.filter (· != '\x1b')).map fun c => (c, t.style)

theorem displayed_of_escape_not_mem {t : Token} (h : '\x1b' ∉ t.lexeme.toList) :
    t.displayed = t.lexeme.toList.map fun c => (c, t.style) := by
  rw [displayed, List.filter_eq_self.2 (bne_of_not_mem h)]

/-- An escape character in a token is all of it, and is unknown. -/
def IsolatesEscape (t : Token) : Prop :=
  '\x1b' ∉ t.lexeme.toList ∨ t.kind = .unknown ∧ t.lexeme.toList = ['\x1b']

theorem isolatesEscape_of_mem {line : String} {t : Token} (h : t ∈ tokenize line) :
    t.IsolatesEscape := by
  rw [tokenize_eq, List.mem_append, List.mem_singleton] at h
  rcases h with h | rfl
  · rcases escape_of_mem_lexemes (piece_mem_of_mem_place h) with hnone | halone
    · exact .inl hnone
    · exact .inr ⟨congrArg Lexeme.kind halone, congrArg Lexeme.chars halone⟩
  · exact .inl List.not_mem_nil

/-- A token that has no style has no escape character. -/
theorem escape_not_mem_of_none {t : Token} (ht : t.IsolatesEscape)
    (h : t.kind.category.style? = none) : '\x1b' ∉ t.lexeme.toList := by
  rcases ht with hnone | ⟨hunknown, -⟩
  · exact hnone
  · rw [hunknown] at h
    cases h

end Token

namespace Palette

/--
What stands for a token in a highlighted line: its text, or its text between what
is put before a style and what is put after every style.
-/
inductive HighlightedAs (palette : Palette) (t : Token) : String → Prop
  | bare (hcategory : t.kind.category = .other) : palette.HighlightedAs t t.lexeme
  | enclosed {style : Style} (hcategory : t.kind.category ≠ .other)
      (hstyle : t.kind.category.style? = some style) :
      palette.HighlightedAs t (palette.opening style ++ t.lexeme ++ palette.reset)

variable {palette : Palette} {t : Token} {style : Style}

theorem highlightToken_of_none (h : t.kind.category.style? = none) :
    palette.highlightToken t = t.lexeme := by
  rw [highlightToken, h]

theorem highlightToken_of_some (h : t.kind.category.style? = some style) :
    palette.highlightToken t = palette.opening style ++ t.lexeme ++ palette.reset := by
  rw [highlightToken, h]
  rfl

theorem highlightedAs_highlightToken (palette : Palette) (t : Token) :
    palette.HighlightedAs t (palette.highlightToken t) := by
  cases hstyle : t.kind.category.style? with
  | none =>
      have hcategory : t.kind.category = .other := by
        generalize t.kind.category = category at hstyle ⊢
        cases category <;> first | rfl | cases hstyle
      rw [highlightToken_of_none hstyle]
      exact .bare hcategory
  | some style =>
      have hcategory : t.kind.category ≠ .other := by
        intro hother
        rw [hother] at hstyle
        cases hstyle
      rw [highlightToken_of_some hstyle]
      exact .enclosed hcategory hstyle

theorem withoutSequences_highlightToken (h : palette.Escapes) (ht : '\x1b' ∉ t.lexeme.toList)
    (later : List Char) :
    withoutSequences ((palette.highlightToken t).toList ++ later) =
      t.lexeme.toList ++ withoutSequences later := by
  cases hstyle : t.kind.category.style? with
  | none =>
      rw [highlightToken_of_none hstyle]
      exact withoutSequences_append ht later
  | some style =>
      obtain ⟨bodies, hopening⟩ := h.opening style
      obtain ⟨ending, hreset⟩ := h.reset
      rw [highlightToken_of_some hstyle, String.toList_append, String.toList_append,
        List.append_assoc, List.append_assoc, hopening.withoutSequences,
        withoutSequences_append ht, hreset.withoutSequences]

theorem write_highlightToken {apply : Style → List Char → Style} (h : palette.IsShownBy apply)
    (ht : t.IsolatesEscape) (shown : List (Char × Style)) :
    Terminal.write apply ⟨{}, none, shown⟩ (palette.highlightToken t).toList =
      ⟨{}, none, shown ++ t.displayed⟩ := by
  cases hstyle : t.kind.category.style? with
  | none =>
      have hnone := Token.escape_not_mem_of_none ht hstyle
      have hplain : t.style = {} := by
        rw [Token.style, hstyle]
        rfl
      rw [highlightToken_of_none hstyle, Terminal.write_plain hnone,
        Token.displayed_of_escape_not_mem hnone, hplain]
  | some style =>
      have hset : t.style = style := by
        rw [Token.style, hstyle]
        rfl
      rw [highlightToken_of_some hstyle, String.toList_append, String.toList_append,
        Terminal.write_append, Terminal.write_append, Terminal.write_sets (h.opening style),
        Terminal.write_sets h.reset]
      rcases ht with hnone | ⟨-, halone⟩
      · rw [Terminal.write_plain hnone, Token.displayed_of_escape_not_mem hnone, hset]
      · rw [Token.displayed, halone]
        exact congrArg (Terminal.mk _ none) (List.append_nil shown).symm

/-! ## Lines -/

section Lines

variable {tokens : List Token}

theorem withoutSequences_highlights (h : palette.Escapes)
    (htokens : ∀ t ∈ tokens, '\x1b' ∉ t.lexeme.toList) :
    withoutSequences (String.join (tokens.map palette.highlightToken)).toList =
      tokens.flatMap fun t => t.lexeme.toList := by
  induction tokens with
  | nil => exact withoutSequences_nil
  | cons t tokens ih =>
      obtain ⟨ht, htokens⟩ := List.forall_mem_cons.1 htokens
      rw [List.map_cons, String.join_cons, String.toList_append,
        withoutSequences_highlightToken h ht, ih htokens, List.flatMap_cons]

theorem write_highlights {apply : Style → List Char → Style} (h : palette.IsShownBy apply)
    (htokens : ∀ t ∈ tokens, t.IsolatesEscape) (shown : List (Char × Style)) :
    Terminal.write apply ⟨{}, none, shown⟩
        (String.join (tokens.map palette.highlightToken)).toList =
      ⟨{}, none, shown ++ tokens.flatMap Token.displayed⟩ := by
  induction tokens generalizing shown with
  | nil => exact congrArg (Terminal.mk _ none) (List.append_nil shown).symm
  | cons t tokens ih =>
      obtain ⟨ht, htokens⟩ := List.forall_mem_cons.1 htokens
      rw [List.map_cons, String.join_cons, String.toList_append, Terminal.write_append,
        write_highlightToken h ht, ih htokens, List.flatMap_cons, List.append_assoc]

end Lines

theorem flatMap_toList_tokenize (line : String) :
    ((tokenize line).flatMap fun t => t.lexeme.toList) = line.toList := by
  have hpieces : ((tokenize line).map Token.piece).flatMap Lexeme.chars = line.toList := by
    rw [map_piece_tokenize, List.flatMap_append, flatMap_lexemes]
    exact List.append_nil _
  rwa [List.flatMap_map] at hpieces

/--
In any palette of control sequences, a line without escape characters is what
the highlighted line is without its sequences. Any line is highlighted token by
token, and after any number of its tokens a terminal has shown the characters of
each in its own style, and has no style that goes on.
-/
theorem highlight_alters_nothing {palette : Palette} (h : palette.Escapes) (line : String) :
    ('\x1b' ∉ line.toList →
        withoutSequences (palette.highlight line).toList = line.toList) ∧
      ∃ pieces, palette.highlight line = String.join pieces ∧
        List.Forall₂ palette.HighlightedAs (tokenize line) pieces ∧
        ∀ apply, palette.IsShownBy apply → ∀ n,
          Terminal.write apply ⟨{}, none, []⟩ (String.join (pieces.take n)).toList =
            ⟨{}, none, ((tokenize line).take n).flatMap Token.displayed⟩ := by
  refine ⟨fun hnone => ?_, (tokenize line).map palette.highlightToken, rfl, ?_,
    fun apply hshown n => ?_⟩
  · have htokens : ∀ t ∈ tokenize line, '\x1b' ∉ t.lexeme.toList := by
      intro t ht hmem
      rw [← flatMap_toList_tokenize] at hnone
      exact hnone (List.mem_flatMap.2 ⟨t, ht, hmem⟩)
    rw [highlight, withoutSequences_highlights h htokens, flatMap_toList_tokenize]
  · rw [List.forall₂_map_right_iff, List.forall₂_same]
    exact fun t _ => palette.highlightedAs_highlightToken t
  · rw [← List.map_take]
    exact write_highlights hshown
      (fun t ht => Token.isolatesEscape_of_mem (List.mem_of_mem_take ht)) []

end Palette

/-! ## Attributes -/

/-- What one sequence sets. -/
inductive Attribute where
  | plain
  | bold
  | dimmed
  | underline
  | hue (hue : Hue)
deriving DecidableEq

namespace Attribute

def code : Attribute → String
  | plain => "0"
  | bold => "1"
  | dimmed => "2"
  | underline => "4"
  | hue h => h.code

def body (a : Attribute) : List Char :=
  '[' :: a.code.toList

def all : List Attribute :=
  [.plain, .bold, .dimmed, .underline, .hue .red, .hue .green, .hue .yellow, .hue .blue,
    .hue .magenta, .hue .cyan, .hue .white, .hue .brightRed]

theorem closed_body (a : Attribute) : 'm' ∉ a.body ∧ '\x1b' ∉ a.body := by
  cases a with
  | hue h => cases h <;> decide
  | _ => decide

theorem isSequences (as : List Attribute) :
    IsSequences (String.join (as.map fun a => attributeCode a.code)) (as.map body) where
  text_eq := by
    induction as with
    | nil => rfl
    | cons a as ih =>
        rw [List.map_cons, String.join_cons, String.toList_append, ih, List.map_cons,
          List.flatMap_cons, attributeCode, String.toList_append, String.toList_append]
        rfl
  closed body hbody := by
    obtain ⟨a, -, rfl⟩ := List.mem_map.1 hbody
    exact a.closed_body

end Attribute

namespace Style

def set (style : Style) : Attribute → Style
  | .plain => {}
  | .bold => { style with bold := true }
  | .dimmed => { style with dimmed := true }
  | .underline => { style with underline := true }
  | .hue h => { style with hue := some h }

/-- The style after a sequence. One that sets no attribute has no effect. -/
def setBody (style : Style) (body : List Char) : Style :=
  match Attribute.all.find? fun a => a.body == body with
  | some a => style.set a
  | none => style

theorem setBody_body (style : Style) (a : Attribute) : style.setBody a.body = style.set a := by
  cases a with
  | hue h => cases h <;> rfl
  | _ => rfl

def attributes (style : Style) : List Attribute :=
  .plain :: (if style.bold then [.bold] else []) ++ (if style.dimmed then [.dimmed] else []) ++
    (if style.underline then [.underline] else []) ++ (style.hue.map Attribute.hue).toList

theorem foldl_setBody_attributes (style before : Style) :
    (style.attributes.map Attribute.body).foldl setBody before = style := by
  simp only [List.foldl_map, setBody_body]
  obtain ⟨bold, dimmed, underline, hue⟩ := style
  cases bold <;> cases dimmed <;> cases underline <;> cases hue <;> rfl

end Style

namespace Palette

theorem opening_ansi (style : Style) :
    ansi.opening style = String.join (style.attributes.map fun a => attributeCode a.code) := by
  obtain ⟨bold, dimmed, underline, hue⟩ := style
  cases bold <;> cases dimmed <;> cases underline <;> cases hue <;>
    simp [ansi, Style.attributes, Attribute.code, String.join_cons, String.append_assoc]

theorem reset_ansi : ansi.reset = ansi.opening {} := by
  simp [ansi]

theorem sets_ansi (style : Style) : Sets Style.setBody (ansi.opening style) style := by
  refine ⟨style.attributes.map Attribute.body, List.cons_ne_nil _ _, ?_,
    style.foldl_setBody_attributes⟩
  rw [opening_ansi]
  exact Attribute.isSequences style.attributes

theorem isShownBy_ansi : ansi.IsShownBy Style.setBody where
  opening := sets_ansi
  reset := by
    rw [reset_ansi]
    exact sets_ansi {}

theorem escapes_ansi : ansi.Escapes :=
  isShownBy_ansi.escapes

theorem highlight_alters_nothing_of_brackets :
    ansi.Escapes ∧ '\x1b' ∉ "del m[0] € 2".toList ∧
      withoutSequences (ansi.highlight "del m[0] € 2").toList = "del m[0] € 2".toList ∧
      ∃ pieces, ansi.highlight "del m[0] € 2" = String.join pieces ∧
        ∀ n, Terminal.write Style.setBody ⟨{}, none, []⟩ (String.join (pieces.take n)).toList =
          ⟨{}, none, ((tokenize "del m[0] € 2").take n).flatMap Token.displayed⟩ := by
  have hnone : '\x1b' ∉ "del m[0] € 2".toList := by decide
  obtain ⟨htext, pieces, hpieces, -, hterminal⟩ :=
    highlight_alters_nothing escapes_ansi "del m[0] € 2"
  exact ⟨escapes_ansi, hnone, htext hnone, pieces, hpieces, hterminal _ isShownBy_ansi⟩

end Palette

end Calculator
