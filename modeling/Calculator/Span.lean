/-!
# Spans

Half-open ranges of byte offsets into a line, ordered by their start and then by
their end.
-/

namespace Calculator

open Std

structure Span where
  start : Nat
  stop : Nat
  start_le_stop : start ≤ stop
deriving DecidableEq

namespace Span

def empty (offset : Nat) : Span :=
  ⟨offset, offset, Nat.le_refl _⟩

def ofLength (start length : Nat) : Span :=
  ⟨start, start + length, Nat.le_add_right ..⟩

def length (s : Span) : Nat :=
  s.stop - s.start

def isEmpty (s : Span) : Bool :=
  s.start == s.stop

def cover (s t : Span) : Span :=
  ⟨min s.start t.start, max s.stop t.stop,
    Nat.le_trans (Nat.min_le_left ..) (Nat.le_trans s.start_le_stop (Nat.le_max_left ..))⟩

def text (s : Span) : String :=
  toString s.start ++ ".." ++ toString s.stop

instance : Ord Span :=
  ⟨compareLex (compareOn start) (compareOn stop)⟩

theorem compare_eq_then (s t : Span) :
    compare s t = (compare s.start t.start).then (compare s.stop t.stop) := rfl

theorem compare_eq_lt_iff {s t : Span} :
    compare s t = .lt ↔ s.start < t.start ∨ s.start = t.start ∧ s.stop < t.stop := by
  rw [compare_eq_then, Ordering.then_eq_lt, Nat.compare_eq_lt, Nat.compare_eq_eq, Nat.compare_eq_lt]

instance : TransOrd Span :=
  inferInstanceAs (TransCmp (compareLex (compareOn start) (compareOn stop)))

instance : LawfulEqOrd Span where
  compare_self {s} :=
    have h : ReflCmp (compareLex (compareOn start) (compareOn stop)) := inferInstance
    h.compare_self
  eq_of_compare {s t} h := by
    rw [compare_eq_then, Ordering.then_eq_eq] at h
    cases s
    cases t
    have hstart := LawfulEqOrd.eq_of_compare h.1
    have hstop := LawfulEqOrd.eq_of_compare h.2
    subst hstart hstop
    rfl

end Span

end Calculator
