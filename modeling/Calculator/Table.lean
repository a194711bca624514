/-!
# Tables

A table maps keys to values and lists its entries in the order of their keys. A
key that is inserted again has its new value.
-/

namespace Calculator

open Std

def Ascending {κ α : Type} [Ord κ] (entries : List (κ × α)) : Prop :=
  entries.Pairwise fun a b => compare a.1 b.1 = .lt

structure Table (κ α : Type) [Ord κ] where
  entries : List (κ × α)
  ascending : Ascending entries

namespace Table

variable {κ α : Type} [Ord κ]

def empty : Table κ α :=
  ⟨[], .nil⟩

instance : Inhabited (Table κ α) :=
  ⟨empty⟩

@[ext] theorem ext {s t : Table κ α} (h : s.entries = t.entries) : s = t := by
  cases s
  cases t
  cases h
  rfl

instance [DecidableEq κ] [DecidableEq α] : DecidableEq (Table κ α) := fun s t =>
  decidable_of_iff (s.entries = t.entries) ⟨ext, fun h => h ▸ rfl⟩

def size (t : Table κ α) : Nat :=
  t.entries.length

def isEmpty (t : Table κ α) : Bool :=
  t.entries.isEmpty

def get? (t : Table κ α) (key : κ) : Option α :=
  (t.entries.find? fun e => compare key e.1 == .eq).map (·.2)

def contains (t : Table κ α) (key : κ) : Bool :=
  (t.get? key).isSome

/-! ## Insertion -/

def insertEntry (key : κ) (value : α) : List (κ × α) → List (κ × α)
  | [] => [(key, value)]
  | e :: rest =>
      match compare key e.1 with
      | .lt => (key, value) :: e :: rest
      | .eq => (key, value) :: rest
      | .gt => e :: insertEntry key value rest

theorem mem_insertEntry {key : κ} {value : α} {entries : List (κ × α)} {e : κ × α}
    (h : e ∈ insertEntry key value entries) : e = (key, value) ∨ e ∈ entries := by
  induction entries with
  | nil => simpa [insertEntry] using h
  | cons d rest ih =>
      unfold insertEntry at h
      split at h
      · simpa using h
      · rcases List.mem_cons.1 h with rfl | h
        · exact .inl rfl
        · exact .inr (List.mem_cons_of_mem d h)
      · rcases List.mem_cons.1 h with rfl | h
        · exact .inr List.mem_cons_self
        · exact (ih h).imp_right (List.mem_cons_of_mem d)

theorem ascending_insertEntry [TransOrd κ] [LawfulEqOrd κ] {key : κ} {value : α}
    {entries : List (κ × α)} (h : Ascending entries) :
    Ascending (insertEntry key value entries) := by
  induction entries with
  | nil => exact List.pairwise_singleton _ _
  | cons d rest ih =>
      have hd := List.pairwise_cons.1 h
      unfold insertEntry
      split
      next hlt =>
        refine List.pairwise_cons.2 ⟨fun e he => ?_, h⟩
        rcases List.mem_cons.1 he with rfl | he
        · exact hlt
        · exact TransCmp.lt_trans hlt (hd.1 e he)
      next heq =>
        refine List.pairwise_cons.2 ⟨fun e he => ?_, hd.2⟩
        rw [LawfulEqOrd.eq_of_compare heq]
        exact hd.1 e he
      next hgt =>
        refine List.pairwise_cons.2 ⟨fun e he => ?_, ih hd.2⟩
        rcases mem_insertEntry he with rfl | he
        · exact OrientedCmp.lt_of_gt hgt
        · exact hd.1 e he

def insert [TransOrd κ] [LawfulEqOrd κ] (t : Table κ α) (key : κ) (value : α) : Table κ α :=
  ⟨insertEntry key value t.entries, ascending_insertEntry t.ascending⟩

theorem isEmpty_insert [TransOrd κ] [LawfulEqOrd κ] (t : Table κ α) (key : κ) (value : α) :
    (t.insert key value).isEmpty = false := by
  obtain ⟨entries, h⟩ := t
  cases entries with
  | nil => rfl
  | cons e rest =>
      simp only [isEmpty, insert, insertEntry]
      split <;> rfl

def erase (t : Table κ α) (key : κ) : Table κ α :=
  ⟨t.entries.filter fun e => compare key e.1 != .eq, t.ascending.filter _⟩

def remove (t : Table κ α) (key : κ) : Option α × Table κ α :=
  (t.get? key, t.erase key)

/-! ## What a table holds -/

@[simp] theorem get?_empty (key : κ) : (empty : Table κ α).get? key = none := rfl

theorem get?_eq_some_iff [TransOrd κ] [LawfulEqOrd κ] {t : Table κ α} {key : κ} {value : α} :
    t.get? key = some value ↔ (key, value) ∈ t.entries := by
  obtain ⟨entries, h⟩ := t
  unfold get?
  induction entries with
  | nil => simp
  | cons e rest ih =>
      have hrest := List.pairwise_cons.1 h
      rw [List.find?_cons]
      by_cases hk : compare key e.1 = .eq
      · have hkey : key = e.1 := LawfulEqOrd.eq_of_compare hk
        subst hkey
        have hnot : ∀ v, (e.1, v) ∉ rest := by
          intro v hv
          have hlt := hrest.1 _ hv
          simp at hlt
        simp only [ReflCmp.compare_self, beq_self_eq_true, Option.map_some, Option.some.injEq,
          List.mem_cons, hnot, or_false]
        constructor
        · rintro rfl
          rfl
        · intro he
          exact (congrArg Prod.snd he).symm
      · have hne : (key, value) ≠ e := by
          rintro rfl
          exact hk ReflCmp.compare_self
        have hfalse : (compare key e.1 == .eq) = false := by simpa using hk
        rw [hfalse]
        simpa [hne] using ih hrest.2

theorem nodup_keys [LawfulEqOrd κ] (t : Table κ α) : (t.entries.map Prod.fst).Nodup := by
  refine List.pairwise_map.2 (t.ascending.imp ?_)
  intro e e' hlt heq
  rw [heq, compare_self] at hlt
  cases hlt

theorem mem_keys_iff [TransOrd κ] [LawfulEqOrd κ] {t : Table κ α} {key : κ} :
    key ∈ t.entries.map Prod.fst ↔ t.contains key := by
  simp [contains, Option.isSome_iff_exists, get?_eq_some_iff]

theorem nodup_entries [LawfulEqOrd κ] (t : Table κ α) : t.entries.Nodup :=
  (List.pairwise_map.1 t.nodup_keys).imp fun hkeys heq => hkeys (congrArg Prod.fst heq)

/-- Tables with the same entries are the same, as both lists are ascending. -/
theorem ext_mem [TransOrd κ] [LawfulEqOrd κ] {s t : Table κ α}
    (h : ∀ e, e ∈ s.entries ↔ e ∈ t.entries) : s = t := by
  have hperm : s.entries.Perm t.entries :=
    (List.perm_ext_iff_of_nodup s.nodup_entries t.nodup_entries).2 h
  refine ext (hperm.eq_of_pairwise (fun e e' _ _ hlt hgt => ?_) s.ascending t.ascending)
  rw [OrientedCmp.gt_of_lt hlt] at hgt
  cases hgt

/-- Tables that bind the same keys to the same values are the same. -/
theorem ext_get? [TransOrd κ] [LawfulEqOrd κ] {s t : Table κ α}
    (h : ∀ key, s.get? key = t.get? key) : s = t :=
  ext_mem fun e => by rw [← get?_eq_some_iff, ← get?_eq_some_iff, h]

theorem mem_insert [TransOrd κ] [LawfulEqOrd κ] {t : Table κ α} {key : κ} {value : α}
    {e : κ × α} :
    e ∈ (t.insert key value).entries ↔ e = (key, value) ∨ (e ∈ t.entries ∧ key ≠ e.1) := by
  obtain ⟨entries, h⟩ := t
  change e ∈ insertEntry key value entries ↔ e = _ ∨ (e ∈ entries ∧ _)
  induction entries with
  | nil => simp [insertEntry]
  | cons d rest ih =>
      have hrest := List.pairwise_cons.1 h
      have later {k : κ} (hk : compare k d.1 ≠ .gt) (c : κ × α) (hc : c ∈ rest) : k ≠ c.1 := by
        rintro rfl
        exact hk (OrientedCmp.gt_of_lt (hrest.1 c hc))
      unfold insertEntry
      split
      next hlt =>
        have hne : key ≠ d.1 := by
          rintro rfl
          simp at hlt
        have hlater := later (k := key) (by simp [hlt]) e
        grind
      next heq =>
        have hkey : key = d.1 := LawfulEqOrd.eq_of_compare heq
        have hlater := later (k := key) (by simp [heq]) e
        grind
      next hgt =>
        have hne : key ≠ d.1 := by
          rintro rfl
          simp at hgt
        have ih := ih hrest.2
        grind

theorem mem_erase [LawfulEqOrd κ] {t : Table κ α} {key : κ} {e : κ × α} :
    e ∈ (t.erase key).entries ↔ e ∈ t.entries ∧ key ≠ e.1 := by
  simp only [erase, List.mem_filter, bne_iff_ne, ne_eq, LawfulEqCmp.compare_eq_iff_eq]

theorem get?_insert [TransOrd κ] [LawfulEqOrd κ] (t : Table κ α) (key : κ) (value : α) (k : κ)
    [Decidable (k = key)] :
    (t.insert key value).get? k = if k = key then some value else t.get? k := by
  apply Option.ext
  intro v
  rw [get?_eq_some_iff, mem_insert, ← get?_eq_some_iff]
  split
  next hk =>
    subst hk
    simp [eq_comm]
  next hk => simp [hk, Ne.symm hk]

theorem get?_erase [TransOrd κ] [LawfulEqOrd κ] {t : Table κ α} {key : κ} (k : κ)
    [Decidable (k = key)] : (t.erase key).get? k = if k = key then none else t.get? k := by
  apply Option.ext
  intro v
  rw [get?_eq_some_iff, mem_erase, ← get?_eq_some_iff]
  split
  next hk =>
    subst hk
    simp
  next hk => simp [Ne.symm hk]

theorem erase_eq_self [TransOrd κ] [LawfulEqOrd κ] [DecidableEq κ] {t : Table κ α} {key : κ}
    (h : t.get? key = none) : t.erase key = t := by
  refine ext_get? fun k => ?_
  rw [get?_erase]
  split
  next hk => rw [hk, h]
  next => rfl

end Table

end Calculator
