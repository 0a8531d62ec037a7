import Mathlib.Data.List.Nodup

/-!
# Tables with a primary key

A table is a list of rows no two of which share a key.  A lookup by key is
then the same as membership, also in the part of a table that a filter keeps.
-/

namespace Foundation

universe u v

/-- Rows with pairwise different keys. -/
structure Table {Row : Type u} {Key : Type v} (key : Row → Key) where
  rows : List Row
  unique : (rows.map key).Nodup

namespace Table

variable {Row : Type u} {Key : Type v} {key : Row → Key}

def empty : Table key where
  rows := []
  unique := List.nodup_nil

def single (row : Row) : Table key where
  rows := [row]
  unique := List.nodup_singleton _

theorem eq_of_key_eq (table : Table key) {left right : Row}
    (leftMember : left ∈ table.rows) (rightMember : right ∈ table.rows)
    (same : key left = key right) : left = right :=
  List.inj_on_of_nodup_map table.unique leftMember rightMember same

variable [DecidableEq Key]

def get (table : Table key) (wanted : Key) : Option Row :=
  table.rows.find? fun row => key row = wanted

def erase (table : Table key) (unwanted : Key) : Table key where
  rows := table.rows.filter fun row => key row ≠ unwanted
  unique := table.unique.sublist (List.filter_sublist.map key)

theorem get_eq_some {table : Table key} {wanted : Key} {row : Row} :
    table.get wanted = some row ↔ row ∈ table.rows ∧ key row = wanted := by
  constructor
  · intro found
    have isWanted := List.find?_some found
    exact ⟨List.mem_of_find?_eq_some found, of_decide_eq_true isWanted⟩
  · rintro ⟨member, isWanted⟩
    cases found : table.get wanted with
    | none =>
        have noRow := List.find?_eq_none.mp found row member
        exact absurd (decide_eq_true isWanted) noRow
    | some other =>
        have isOther := List.find?_some found
        have otherMember := List.mem_of_find?_eq_some found
        have sameKey : key other = key row :=
          (of_decide_eq_true isOther).trans isWanted.symm
        rw [table.eq_of_key_eq otherMember member sameKey]

theorem get_erase (table : Table key) (unwanted : Key) :
    (table.erase unwanted).get unwanted = none := by
  apply List.find?_eq_none.mpr
  intro row member
  have kept := (List.mem_filter.mp member).2
  simpa using kept

/-- A row of a part of the table is found in every table with that part. -/
theorem get_of_filter_eq {left right : Table key} {part : Row → Bool}
    (same : left.rows.filter part = right.rows.filter part)
    {wanted : Key} {row : Row} (found : left.get wanted = some row)
    (inPart : part row = true) : right.get wanted = some row := by
  obtain ⟨member, isWanted⟩ := get_eq_some.mp found
  have inRight : row ∈ right.rows.filter part := by
    rw [← same]
    exact List.mem_filter.mpr ⟨member, inPart⟩
  exact get_eq_some.mpr ⟨(List.mem_filter.mp inRight).1, isWanted⟩

/-- Erasing a row outside a part leaves the part as it is. -/
theorem filter_erase (table : Table key) {part : Row → Bool}
    {unwanted : Key}
    (outside : ∀ row ∈ table.rows, key row = unwanted → part row = false) :
    (table.erase unwanted).rows.filter part = table.rows.filter part := by
  rw [erase, List.filter_filter]
  apply List.filter_congr
  intro row member
  by_cases isUnwanted : key row = unwanted
  · simp [outside row member isUnwanted]
  · simp [isUnwanted]

theorem filter_key_mem (table : Table key) (part : Row → Bool) :
    (table.rows.filter fun row =>
        key row ∈ (table.rows.filter part).map key) =
      table.rows.filter part := by
  apply List.filter_congr
  intro row member
  rw [Bool.eq_iff_iff, decide_eq_true_iff]
  constructor
  · intro selected
    obtain ⟨other, inPart, sameKey⟩ := List.mem_map.mp selected
    have otherMember := List.mem_filter.mp inPart
    rw [← table.eq_of_key_eq otherMember.1 member sameKey]
    exact otherMember.2
  · intro inPart
    exact List.mem_map.mpr ⟨row, List.mem_filter.mpr ⟨member, inPart⟩, rfl⟩

end Table

end Foundation
