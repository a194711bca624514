import Calculator.Proofs.Environment.Persistence
import Calculator.Proofs.Grammar.Trees
import Mathlib.Data.List.Basic

/-!
# What is reported of a line

The faults of the tokens of a line are reported as they are. The parser adds at
most one fault of its own, and with it, or because of the faults before it, the
line has no tree.
-/

namespace Calculator

open Std

/-- A new key is put between the entries that there are. -/
theorem Table.split_insert {κ α : Type} [Ord κ] [TransOrd κ] [LawfulEqOrd κ] {t : Table κ α}
    {key : κ} (value : α) (h : t.contains key = false) :
    ∃ before after, t.entries = before ++ after ∧
      (t.insert key value).entries = before ++ (key, value) :: after := by
  have fresh : ∀ e ∈ t.entries, compare key e.1 ≠ .eq := by
    intro e he hkey
    have hmem : e.1 ∈ t.entries.map Prod.fst := List.mem_map_of_mem he
    rw [mem_keys_iff, ← LawfulEqOrd.eq_of_compare hkey, h] at hmem
    cases hmem
  change ∃ before after, _ ∧ insertEntry key value t.entries = _
  generalize t.entries = entries at fresh
  induction entries with
  | nil => exact ⟨[], [], rfl, rfl⟩
  | cons e rest ih =>
      unfold insertEntry
      split
      next => exact ⟨[], e :: rest, rfl, rfl⟩
      next heq => exact absurd heq (fresh e List.mem_cons_self)
      next =>
        obtain ⟨before, after, hsplit, hinsert⟩ :=
          ih fun d hd => fresh d (List.mem_cons_of_mem e hd)
        exact ⟨e :: before, after, by rw [hsplit, List.cons_append],
          by rw [hinsert, List.cons_append]⟩

namespace Diagnostics

def lexical (d : Diagnostics) : List (Span × Fault) :=
  d.entries.filter fun e => e.2.isLexical

def grammatical (d : Diagnostics) : List (Span × Fault) :=
  d.entries.filter fun e => !e.2.isLexical

theorem size_eq (d : Diagnostics) : d.size = d.lexical.length + d.grammatical.length :=
  List.length_eq_length_filter_add fun e : Span × Fault => e.2.isLexical

def IsLexical (d : Diagnostics) : Prop :=
  ∀ e ∈ d.entries, e.2.isLexical

theorem IsLexical.lexical_eq {d : Diagnostics} (h : d.IsLexical) : d.lexical = d.entries :=
  List.filter_eq_self.2 h

/-- What the diagnostics have become where a line was given up. -/
inductive GivenUp (d : Diagnostics) : Diagnostics → Prop
  | report (span : Span) {fault : Fault} (h : fault.isLexical = false) :
      GivenUp d (d.report span fault)
  | earlier (h : d.isEmpty = false) : GivenUp d d

theorem GivenUp.isEmpty {d d' : Diagnostics} (h : d.GivenUp d') : d'.isEmpty = false := by
  cases h with
  | report span _ => exact Diagnostics.isEmpty_report ..
  | earlier h => exact h

theorem lexical_report {d : Diagnostics} {fault : Fault} (span : Span)
    (h : fault.isLexical = false) : (d.report span fault).lexical = d.lexical := by
  rw [report_eq]
  split
  next => rfl
  next hfresh =>
    obtain ⟨before, after, hd, hinsert⟩ := Table.split_insert fault (Bool.eq_false_iff.2 hfresh)
    simp [lexical, hd, hinsert, h]

theorem size_report_le (d : Diagnostics) (span : Span) (fault : Fault) :
    (d.report span fault).size ≤ d.size + 1 := by
  rw [report_eq]
  split
  next => exact Nat.le_succ _
  next hfresh =>
    obtain ⟨before, after, hd, hinsert⟩ := Table.split_insert fault (Bool.eq_false_iff.2 hfresh)
    simp [Table.size, hd, hinsert, Nat.add_assoc]

theorem GivenUp.lexical {d d' : Diagnostics} (h : d.GivenUp d') : d'.lexical = d.lexical := by
  cases h with
  | report span hfault => exact lexical_report span hfault
  | earlier => rfl

theorem GivenUp.size_le {d d' : Diagnostics} (h : d.GivenUp d') : d'.size ≤ d.size + 1 := by
  cases h with
  | report span _ => exact size_report_le ..
  | earlier => exact Nat.le_succ _

end Diagnostics

/-! ## Tokens -/

theorem Token.isLexical_of_mem_faults {t : Token} {e : Span × Fault} (h : e ∈ t.faults) :
    e.2.isLexical := by
  unfold Token.faults at h
  split at h
  next =>
    rcases List.mem_append.1 h with h | h
    all_goals
      obtain ⟨i, -, rfl⟩ := List.mem_map.1 h
      rfl
  next =>
    obtain ⟨c, -, rfl⟩ := List.mem_map.1 h
    rfl
  next => cases h

theorem isLexical_lexicalFaults (tokens : List Token) : (lexicalFaults tokens).IsLexical := by
  intro e he
  obtain ⟨t, -, ht⟩ := List.mem_flatMap.1 (Diagnostics.mem_of_mem_ofFaults he)
  exact Token.isLexical_of_mem_faults ht

/-! ## The parser -/

namespace Parser

variable {limit : Option Nat} {s t : State Environment}

theorem State.Fails.givenUp (h : s.Fails limit t) : s.diagnostics.GivenUp t.diagnostics := by
  obtain ⟨u, hreaches, hstops⟩ := h
  have hsame : u.diagnostics = s.diagnostics := hreaches.diagnostics
  rw [← hsame]
  cases hstops with
  | report span hfault => exact .report span hfault
  | earlier hfaulty => exact .earlier hfaulty

theorem isLexical_of_remove {env : Environment} {n : String} {fault : Fault}
    (h : (env.remove n).map (·.2) = .error fault) : fault.isLexical = false := by
  unfold Environment.remove at h
  split at h <;> cases h <;> rfl

theorem diagnoses_deletion (s : State Environment) :
    (deletion s).Satisfies (fun _ t => t.diagnostics = s.diagnostics)
      fun t => s.diagnostics.GivenUp t.diagnostics := by
  rw [satisfies_deletion]
  split
  next =>
    rw [satisfies_commit_remove]
    split
    next =>
      split
      next => rfl
      next fault hremove => exact .report _ (isLexical_of_remove hremove)
    next hfaulty => exact .earlier (Bool.eq_false_iff.2 hfaulty)
  next => exact .report _ rfl

theorem diagnoses_statement (limit : Option Nat) (s : State Environment) :
    (statement limit s).Satisfies (fun _ t => t.diagnostics = s.diagnostics)
      fun t => s.diagnostics.GivenUp t.diagnostics := by
  rw [satisfies_statement]
  split
  next => exact diagnoses_deletion { s with rest := s.rest.tail }
  next =>
    have hexpr := (stepsOn limit s).expr .refl 0
    exact Outcome.Satisfies.imp hexpr (fun _ t ht => ht.diagnostics) fun t ht => ht.givenUp

/-- A run adds nothing to the diagnostics, or it leads to no tree and adds one fault at most. -/
theorem diagnoses_run (limit : Option Nat) (s : State Environment) :
    (run limit s).2.diagnostics = s.diagnostics ∨
      (run limit s).1 = .error ∧ s.diagnostics.GivenUp (run limit s).2.diagnostics := by
  have hstatement := diagnoses_statement limit s
  unfold run
  cases hs : statement limit s with
  | abort t =>
      rw [hs] at hstatement
      exact .inr ⟨rfl, hstatement⟩
  | ok e t _ =>
      rw [hs] at hstatement
      have hsame : t.diagnostics = s.diagnostics := hstatement
      dsimp only
      split
      next => exact .inl hsame
      next =>
        refine .inr ⟨rfl, ?_⟩
        rw [← hsame]
        exact .report _ rfl

end Parser

/-! ## Lines -/

theorem Statement.Reads.ne_error {st : Statement} {env env' : Environment} {e : Expr}
    (h : st.Reads env e env') : e ≠ .error := by
  cases h with
  | deletion => simp
  | phrase hp =>
      rintro rfl
      exact hp.isReadAmong .error (List.mem_singleton.2 rfl)

section Lines

variable {env : Environment} {source : String}

theorem diagnoses_readLine (env : Environment) (source : String) :
    (readLine env source).diagnostics = lexicalFaults (tokenize source) ∨
      (readLine env source).expr = .error ∧
        (lexicalFaults (tokenize source)).GivenUp (readLine env source).diagnostics :=
  Parser.diagnoses_run ..

theorem lexical_readLine (env : Environment) (source : String) :
    (readLine env source).diagnostics.lexical = (lexicalFaults (tokenize source)).entries := by
  have hfaults := (isLexical_lexicalFaults (tokenize source)).lexical_eq
  rcases diagnoses_readLine env source with hsame | ⟨-, hgivenUp⟩
  · rw [hsame, hfaults]
  · rw [hgivenUp.lexical, hfaults]

theorem length_grammatical_readLine_le (env : Environment) (source : String) :
    (readLine env source).diagnostics.grammatical.length ≤ 1 := by
  have hsize : (readLine env source).diagnostics.size ≤
      (lexicalFaults (tokenize source)).entries.length + 1 := by
    rcases diagnoses_readLine env source with hsame | ⟨-, hgivenUp⟩
    · rw [hsame]
      exact Nat.le_succ _
    · exact hgivenUp.size_le
  have hparts := (readLine env source).diagnostics.size_eq
  rw [lexical_readLine] at hparts
  omega

theorem isOk_of_error (h : (readLine env source).expr = .error) :
    (readLine env source).isOk = false := by
  rw [Bool.eq_false_iff]
  intro hok
  obtain ⟨st, -, -, hreads, -⟩ := reads_readLine hok
  exact hreads.ne_error h

theorem error_of_isOk (hempty : lexicalFaults (tokenize source) = .empty)
    (h : (readLine env source).isOk = false) : (readLine env source).expr = .error := by
  rcases diagnoses_readLine env source with hsame | ⟨hexpr, -⟩
  · rw [Reading.isOk, hsame, hempty] at h
    cases h
  · exact hexpr

theorem size_of_isOk (hempty : lexicalFaults (tokenize source) = .empty)
    (h : (readLine env source).isOk = false) : (readLine env source).diagnostics.size = 1 := by
  have hparts := (readLine env source).diagnostics.size_eq
  have hnone : (readLine env source).diagnostics.lexical.length = 0 := by
    rw [lexical_readLine, hempty]
    rfl
  have hone := length_grammatical_readLine_le env source
  have hpos : (readLine env source).diagnostics.size ≠ 0 := by
    intro hzero
    rw [Reading.isOk, Table.isEmpty, List.length_eq_zero_iff.1 hzero] at h
    cases h
  omega

end Lines

/--
The faults of the tokens are reported as they are and in their order, and at
most one other fault is. A line without a tree is never without a fault. Where
the tokens have no faults, a line has a tree or exactly one fault.
-/
theorem readLine_reports (env : Environment) (source : String) :
    (readLine env source).diagnostics.lexical = (lexicalFaults (tokenize source)).entries ∧
      (readLine env source).diagnostics.grammatical.length ≤ 1 ∧
      ((readLine env source).expr = .error → (readLine env source).isOk = false) ∧
      (lexicalFaults (tokenize source) = .empty →
        ((readLine env source).expr = .error ↔ (readLine env source).isOk = false) ∧
          ((readLine env source).isOk = false → (readLine env source).diagnostics.size = 1)) := by
  refine ⟨lexical_readLine env source, length_grammatical_readLine_le env source, isOk_of_error, ?_⟩
  intro hempty
  have hiff : (readLine env source).expr = .error ↔ (readLine env source).isOk = false :=
    ⟨isOk_of_error, error_of_isOk hempty⟩
  exact ⟨hiff, size_of_isOk hempty⟩

/-- The parser stops at a token that is at fault already, and so reports nothing of its own. -/
example : (readLine .empty "1 $ 2").expr = .error ∧
    (readLine .empty "1 $ 2").diagnostics.entries = [(.ofLength 2 1, .unknownChar '$')] := by
  decide +kernel

end Calculator
