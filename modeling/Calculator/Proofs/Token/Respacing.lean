import Calculator.Proofs.Token.Placement

/-!
# Blanks between tokens

Blanks only keep tokens apart. Where a line has blanks others may stand, and
more or fewer of them as long as there is one; and blanks may be put before,
after and between tokens. All other tokens of the line stay the tokens they are.
-/

namespace Calculator

def IsGap (gap : List Char) : Prop :=
  ∀ c ∈ gap, isSeparator c

instance (gap : List Char) : Decidable (IsGap gap) :=
  decidable_of_iff (gap.all isSeparator) List.all_eq_true

/--
The texts of the same tokens with other blanks: any before each token and before
the end, and at least one where there are some.
-/
inductive Respaced : List Token → List Char → Prop
  | finish {t : Token} {gap : List Char} (finishes : t.kind = .finish) (separates : IsGap gap) :
      Respaced [t] gap
  | token {t : Token} {tokens : List Token} {gap text : List Char} (visible : t.kind.isVisible)
      (separates : IsGap gap) (rest : Respaced tokens text) :
      Respaced (t :: tokens) (gap ++ (t.lexeme.toList ++ text))
  | blanks {run tokens : List Token} {gap text : List Char} (blank : ∀ t ∈ run, t.kind = .space)
      (nonempty : gap ≠ []) (separates : IsGap gap) (rest : Respaced tokens text) :
      Respaced (run ++ tokens) (gap ++ text)

def visibleLexemes (cs : List Char) : List Lexeme :=
  (lexemes cs).filter (·.kind != .space)

theorem visibleLexemes_gap {gap : List Char} (h : IsGap gap) (text : List Char) :
    visibleLexemes (gap ++ text) = visibleLexemes text := by
  induction gap with
  | nil => rfl
  | cons c gap ih =>
      have hspace : punctuation? c = some .space :=
        punctuation?_eq_space_iff.2 (h c List.mem_cons_self)
      have hgap : IsGap gap := fun d hd => h d (List.mem_cons_of_mem c hd)
      rw [← ih hgap, List.cons_append, visibleLexemes, lexemes_punctuation hspace]
      rfl

theorem resumesAs_gap {gap : List Char} (h : IsGap gap) {text later : List Char}
    (hnil : gap = [] → ResumesAs text later) : ResumesAs (gap ++ text) later := by
  cases gap with
  | nil => exact hnil rfl
  | cons c gap =>
      refine .inr fun d hd => ?_
      cases hd
      exact h c List.mem_cons_self

/-- What is left of a text after some of its lexemes is scanned as the others. -/
theorem exists_later_of_lexemes {cs : List Char} {run ls : List Lexeme}
    (h : lexemes cs = run ++ ls) : ∃ later, lexemes later = ls := by
  induction run generalizing cs with
  | nil => exact ⟨cs, h⟩
  | cons l run ih =>
      obtain ⟨later, -, hlater, -⟩ := lexemes_cons h
      exact ih hlater

/-- What is left of the tokens after a run of blanks ends as the line does. -/
theorem exists_rest_of_blanks {ls run rest : List Lexeme} (hblank : ∀ l ∈ run, l.kind = .space)
    (h : run ++ rest = ls ++ [.finish]) : ∃ ls', ls = run ++ ls' ∧ rest = ls' ++ [.finish] := by
  rcases List.append_eq_append_iff.1 h with ⟨ls', hls, hrest⟩ | ⟨after, hrun, hfinish⟩
  · exact ⟨ls', hls, hrest⟩
  · cases after with
    | nil =>
        rw [List.append_nil] at hrun
        exact ⟨[], by rw [hrun, List.append_nil], hfinish.symm⟩
    | cons l after =>
        have hl : l = .finish := (List.cons.inj hfinish).1.symm
        have hspace := hblank l (hrun ▸ List.mem_append_right ls List.mem_cons_self)
        rw [hl] at hspace
        cases hspace

/--
Among other blanks a text resumes as it did, and the same is scanned from it: a
token that is kept stands before what resumes as before, and so is scanned again.
-/
theorem Respaced.scanned {tokens : List Token} {text cs : List Char} (h : Respaced tokens text)
    (htokens : tokens.map Token.piece = lexemes cs ++ [.finish]) :
    ResumesAs text cs ∧ visibleLexemes text = visibleLexemes cs := by
  induction h generalizing cs with
  | @finish t gap _ hgap =>
      have hnil : lexemes cs = [] := by
        have hlength := congrArg List.length htokens
        simpa using hlength
      have hvisible := visibleLexemes_gap hgap []
      have hresumes : ResumesAs (gap ++ []) cs := resumesAs_gap hgap fun _ => resumesAs_nil cs
      rw [List.append_nil] at hvisible hresumes
      refine ⟨hresumes, ?_⟩
      rw [hvisible, visibleLexemes, visibleLexemes, hnil, lexemes]
  | @token t tokens gap text hvisible hgap _ ih =>
      cases hlexemes : lexemes cs with
      | nil =>
          rw [hlexemes, List.map_cons, List.nil_append] at htokens
          have hfinish : t.kind = .finish := congrArg Lexeme.kind (List.cons.inj htokens).1
          rw [hfinish] at hvisible
          cases hvisible
      | cons l ls =>
          rw [hlexemes, List.map_cons, List.cons_append] at htokens
          obtain ⟨rfl, hrest⟩ := List.cons.inj htokens
          obtain ⟨later, rfl, hlater, hagain⟩ := lexemes_cons hlexemes
          obtain ⟨hresumes, hsame⟩ := ih (hrest.trans (by rw [hlater]))
          refine ⟨resumesAs_gap hgap fun _ => hresumes.append t.lexeme.toList, ?_⟩
          have htext : lexemes (t.lexeme.toList ++ text) = t.piece :: lexemes text :=
            hagain text hresumes
          unfold visibleLexemes at hsame
          rw [visibleLexemes_gap hgap, visibleLexemes, visibleLexemes, htext, hlexemes,
            List.filter_cons, List.filter_cons, hsame, hlater]
  | @blanks run tokens gap text hblank hne hgap _ ih =>
      rw [List.map_append] at htokens
      have hrun : ∀ l ∈ run.map Token.piece, l.kind = .space := by
        intro l hl
        obtain ⟨t, ht, rfl⟩ := List.mem_map.1 hl
        exact hblank t ht
      obtain ⟨ls, hlexemes, hrest⟩ := exists_rest_of_blanks hrun htokens
      obtain ⟨later, hlater⟩ := exists_later_of_lexemes hlexemes
      obtain ⟨-, hsame⟩ := ih (hrest.trans (by rw [hlater]))
      refine ⟨resumesAs_gap hgap fun hnil => absurd hnil hne, ?_⟩
      have hnone : (run.map Token.piece).filter (·.kind != .space) = [] :=
        List.filter_eq_nil_iff.2 fun l hl => by simp [hrun l hl]
      rw [visibleLexemes_gap hgap, hsame, visibleLexemes, visibleLexemes, hlater, hlexemes,
        List.filter_append, hnone, List.nil_append]

end Calculator
