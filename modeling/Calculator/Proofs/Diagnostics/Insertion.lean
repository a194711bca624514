import Calculator.Diagnostics
import Mathlib.Data.Finset.Card

/-!
# Insertion of faults

Of the faults that are inserted at one span a collection keeps the first. The
main statement is what a run of insertions answers and leaves, for faults in any
order and with any spans.
-/

namespace Calculator

open Std

/-! ## Tables as lists -/

namespace Table

variable {κ α : Type} [Ord κ] [LawfulEqOrd κ]

theorem get?_eq_lookup [DecidableEq κ] (t : Table κ α) (key : κ) :
    t.get? key = t.entries.lookup key := by
  unfold get?
  induction t.entries with
  | nil => rfl
  | cons e rest ih =>
      have hsame : (compare key e.1 == .eq) = (key == e.1) := by
        rw [Bool.eq_iff_iff, beq_iff_eq, beq_iff_eq, LawfulEqCmp.compare_eq_iff_eq]
      rw [List.find?_cons, hsame, List.lookup_cons, ← ih]
      split <;> rfl

end Table

namespace Diagnostics

variable {faults : List (Span × Fault)} {span : Span} {fault : Fault}

/-! ## What is reported -/

/-- What was found before stays, and elsewhere the first of the faults is found. -/
theorem get?_foldl_report (d : Diagnostics) (faults : List (Span × Fault)) (s : Span) :
    (faults.foldl (fun d e => Diagnostics.report d e.1 e.2) d).get? s =
      (d.get? s).or (faults.lookup s) := by
  induction faults generalizing d with
  | nil => exact Option.or_none.symm
  | cons e faults ih =>
      have hfirst : (e :: faults).lookup s =
          (if s = e.1 then some e.2 else none).or (faults.lookup s) := by
        rw [List.lookup_cons]
        split
        next hs => simp [eq_of_beq hs]
        next hs => simp [ne_of_beq_false hs]
      rw [List.foldl_cons, ih, get?_report, Option.or_assoc, hfirst]

/-- Of the faults at one span the first is reported. -/
theorem get?_ofFaults (faults : List (Span × Fault)) (s : Span) :
    (ofFaults faults).get? s = faults.lookup s := by
  rw [ofFaults, get?_foldl_report, Table.get?_empty, Option.none_or]

theorem mem_entries_ofFaults :
    (span, fault) ∈ (ofFaults faults).entries ↔ faults.lookup span = some fault := by
  rw [← Table.get?_eq_some_iff, get?_ofFaults]

theorem contains_ofFaults_iff :
    (ofFaults faults).contains span ↔ span ∈ faults.map Prod.fst := by
  rw [Table.contains, get?_ofFaults, List.lookup_isSome_iff, List.mem_map]
  simp only [beq_iff_eq, eq_comm (a := span)]

theorem mem_spans_ofFaults :
    span ∈ (ofFaults faults).entries.map Prod.fst ↔ span ∈ faults.map Prod.fst :=
  Table.mem_keys_iff.trans contains_ofFaults_iff

theorem mem_of_mem_ofFaults {e : Span × Fault} (h : e ∈ (ofFaults faults).entries) :
    e ∈ faults := by
  obtain ⟨earlier, later, rfl, -⟩ := List.lookup_eq_some_iff.1 (mem_entries_ofFaults.1 h)
  exact List.mem_append_right _ List.mem_cons_self

theorem ofFaults_eq_empty_iff : ofFaults faults = .empty ↔ faults = [] := by
  constructor
  · intro h
    refine List.eq_nil_iff_forall_not_mem.2 fun e he => ?_
    have hspan := mem_spans_ofFaults.2 (List.mem_map_of_mem he)
    rw [h] at hspan
    cases hspan
  · rintro rfl
    rfl

/-- Faults that are found in the order of their spans are all reported. -/
theorem entries_ofFaults (h : Ascending faults) : (ofFaults faults).entries = faults := by
  have hsame : ofFaults faults = ⟨faults, h⟩ := Table.ext_get? fun s => by
    rw [get?_ofFaults, Table.get?_eq_lookup]
  rw [hsame]

theorem size_ofFaults (faults : List (Span × Fault)) :
    (ofFaults faults).size = (faults.map Prod.fst).toFinset.card := by
  have hsame : ((ofFaults faults).entries.map Prod.fst).toFinset =
      (faults.map Prod.fst).toFinset := by
    ext span
    rw [List.mem_toFinset, List.mem_toFinset, mem_spans_ofFaults]
  rw [← hsame, List.toFinset_card_of_nodup (Table.nodup_keys _), List.length_map, Table.size]

/-! ## What is answered -/

theorem insert_eq (d : Diagnostics) (span : Span) (fault : Fault) :
    d.insert span fault = (!d.contains span, d.report span fault) := by
  unfold report insert
  split
  next h => rw [h, Bool.not_true]
  next h => rw [Bool.eq_false_iff.2 h, Bool.not_false]

/-- The answers to insertions one after another, and what they leave. -/
def insertAll (d : Diagnostics) : List (Span × Fault) → List Bool × Diagnostics
  | [] => ([], d)
  | e :: faults =>
      let first := d.insert e.1 e.2
      let later := first.2.insertAll faults
      (first.1 :: later.1, later.2)

/-- The answers change nothing about what is reported. -/
theorem insertAll_snd (d : Diagnostics) (faults : List (Span × Fault)) :
    (d.insertAll faults).2 = faults.foldl (fun d e => Diagnostics.report d e.1 e.2) d := by
  induction faults generalizing d with
  | nil => rfl
  | cons e faults ih => rw [insertAll, ih, insert_eq, List.foldl_cons]

theorem length_insertAll (d : Diagnostics) (faults : List (Span × Fault)) :
    (d.insertAll faults).1.length = faults.length := by
  induction faults generalizing d with
  | nil => rfl
  | cons e faults ih => rw [insertAll, List.length_cons, ih, List.length_cons]

theorem insertAll_append (d : Diagnostics) (earlier later : List (Span × Fault)) :
    (d.insertAll (earlier ++ later)).1 =
      (d.insertAll earlier).1 ++ ((d.insertAll earlier).2.insertAll later).1 := by
  induction earlier generalizing d with
  | nil => rfl
  | cons e earlier ih => rw [List.cons_append, insertAll, ih, insertAll, List.cons_append]

/-- The answer to one insertion of many depends on those before it only. -/
theorem getElem?_insertAll (earlier later : List (Span × Fault)) (e : Span × Fault) :
    (insertAll .empty (earlier ++ e :: later)).1[earlier.length]? =
      some (!(ofFaults earlier).contains e.1) := by
  have hlength := length_insertAll .empty earlier
  rw [insertAll_append, List.getElem?_append_right (Nat.le_of_eq hlength), hlength, Nat.sub_self,
    insertAll_snd, insertAll, List.getElem?_cons_zero, insert_eq, ofFaults]

/-- Of the faults that are inserted at one span the first is kept, and the spans are in order. -/
structure KeepsFirst (faults : List (Span × Fault)) (answers : List Bool) (d : Diagnostics) :
    Prop where
  answered : answers.length = faults.length
  /-- An insertion adds its fault exactly if none before it has the same span. -/
  added : ∀ {earlier later : List (Span × Fault)} {e : Span × Fault},
    faults = earlier ++ e :: later →
      (answers[earlier.length]? = some true ↔ e.1 ∉ earlier.map Prod.fst)
  /-- What is found at a span is the first fault that was inserted there, if one was. -/
  first : ∀ span, d.get? span = faults.lookup span
  entries : ∀ span fault, (span, fault) ∈ d.entries ↔ faults.lookup span = some fault
  spans : ∀ span, span ∈ d.entries.map Prod.fst ↔ span ∈ faults.map Prod.fst
  ordered : d.entries.Pairwise fun e e' =>
    e.1.start < e'.1.start ∨ e.1.start = e'.1.start ∧ e.1.stop < e'.1.stop
  size : d.size = (faults.map Prod.fst).toFinset.card

/--
Faults are inserted in any order and at any spans. Each insertion says whether it
is the first at its span, and what is left is the first fault at each span in the
order of the spans.
-/
theorem keepsFirst_insertAll (faults : List (Span × Fault)) :
    KeepsFirst faults (insertAll .empty faults).1 (insertAll .empty faults).2 := by
  have hleft : (insertAll .empty faults).2 = ofFaults faults := insertAll_snd .empty faults
  rw [hleft]
  exact {
    answered := length_insertAll .empty faults
    added := by
      rintro earlier later e rfl
      rw [getElem?_insertAll, Option.some_inj, Bool.not_eq_true', ← contains_ofFaults_iff,
        Bool.not_eq_true]
    first := get?_ofFaults faults
    entries := fun _ _ => mem_entries_ofFaults
    spans := fun _ => mem_spans_ofFaults
    ordered := (ofFaults faults).ascending.imp Span.compare_eq_lt_iff.1
    size := size_ofFaults faults }

example :
    let run := insertAll .empty [(.ofLength 5 1, .leftovers), (.ofLength 1 1, .unknownChar '$'),
      (.ofLength 1 0, .invalidExpression), (.ofLength 5 1, .tooDeep)]
    run.1 = [true, true, true, false] ∧
      run.2.entries = [(.ofLength 1 0, .invalidExpression), (.ofLength 1 1, .unknownChar '$'),
        (.ofLength 5 1, .leftovers)] := by
  decide

end Diagnostics

end Calculator
