import Mathlib.Data.List.Basic
import Mathlib.Data.List.Nodup
import Mathlib.Logic.Function.Basic

/-!
# Stores in which an upsert replaces by key

A store maps keys to optional values.  An upsert writes its entries one after
the other; the value at a key is that of the last entry with the key.  A cache
is a store whose values are computed once and given again.
-/

namespace Foundation

universe u v w

variable {Key : Type u} {Value : Type v} [DecidableEq Key]

/-- Looking up a key after one entry was written. -/
theorem update_some_cases {store : Key → Option Value} {written key : Key}
    {value found : Value}
    (present : Function.update store written (some value) key = some found) :
    (key = written ∧ found = value) ∨
      (key ≠ written ∧ store key = some found) := by
  by_cases same : key = written
  · subst same
    rw [Function.update_self, Option.some.injEq] at present
    exact Or.inl ⟨rfl, present.symm⟩
  · rw [Function.update_of_ne same] at present
    exact Or.inr ⟨same, present⟩

/-- Write the entries in order. -/
def upsert (store : Key → Option Value) (entries : List (Key × Value)) :
    Key → Option Value :=
  entries.foldl
    (fun current entry => Function.update current entry.1 (some entry.2))
    store

@[simp]
theorem upsert_nil (store : Key → Option Value) : upsert store [] = store :=
  rfl

@[simp]
theorem upsert_cons (store : Key → Option Value) (entry : Key × Value)
    (entries : List (Key × Value)) :
    upsert store (entry :: entries) =
      upsert (Function.update store entry.1 (some entry.2)) entries :=
  rfl

theorem upsert_of_not_mem (store : Key → Option Value)
    {entries : List (Key × Value)} {key : Key}
    (absent : key ∉ entries.map Prod.fst) :
    upsert store entries key = store key := by
  induction entries generalizing store with
  | nil => rfl
  | cons entry entries inductionHypothesis =>
      rw [List.map_cons, List.mem_cons, not_or] at absent
      rw [upsert_cons, inductionHypothesis _ absent.2,
        Function.update_of_ne absent.1]

/-- A written key holds the value of one of its entries. -/
theorem upsert_of_mem (store : Key → Option Value)
    {entries : List (Key × Value)} {key : Key}
    (present : key ∈ entries.map Prod.fst) :
    ∃ value, (key, value) ∈ entries ∧
      upsert store entries key = some value := by
  induction entries generalizing store with
  | nil => cases present
  | cons entry entries inductionHypothesis =>
      rw [upsert_cons]
      by_cases later : key ∈ entries.map Prod.fst
      · obtain ⟨value, member, found⟩ := inductionHypothesis _ later
        exact ⟨value, List.mem_cons_of_mem _ member, found⟩
      · rw [List.map_cons, List.mem_cons] at present
        have first : key = entry.1 := present.resolve_right later
        refine ⟨entry.2, ?_, ?_⟩
        · rw [first]
          exact List.mem_cons_self
        · rw [upsert_of_not_mem _ later, first, Function.update_self]

/-- Where no two entries have the same key, none is replaced. -/
theorem upsert_of_nodup (store : Key → Option Value)
    {entries : List (Key × Value)} (distinct : (entries.map Prod.fst).Nodup)
    {key : Key} {value : Value} (member : (key, value) ∈ entries) :
    upsert store entries key = some value := by
  obtain ⟨other, isEntry, found⟩ :=
    upsert_of_mem store (List.mem_map.mpr ⟨(key, value), member, rfl⟩)
  have same : (key, other) = (key, value) :=
    List.inj_on_of_nodup_map distinct isEntry member rfl
  rw [found, (Prod.mk.inj same).2]

/-- A key holds what it held before, or the value of one of its entries. -/
theorem upsert_cases (store : Key → Option Value)
    (entries : List (Key × Value)) (key : Key) :
    upsert store entries key = store key ∨
      ∃ value, (key, value) ∈ entries ∧
        upsert store entries key = some value := by
  by_cases present : key ∈ entries.map Prod.fst
  · exact Or.inr (upsert_of_mem store present)
  · exact Or.inl (upsert_of_not_mem store present)

theorem upsert_isSome_iff (store : Key → Option Value)
    (entries : List (Key × Value)) (key : Key) :
    (upsert store entries key).isSome = true ↔
      (store key).isSome = true ∨ key ∈ entries.map Prod.fst := by
  by_cases written : key ∈ entries.map Prod.fst
  · obtain ⟨value, _, found⟩ := upsert_of_mem store written
    simp [found, written]
  · rw [upsert_of_not_mem store written]
    exact (or_iff_left written).symm

theorem upsert_isSome {store : Key → Option Value} {key : Key}
    (present : (store key).isSome = true)
    (entries : List (Key × Value)) :
    (upsert store entries key).isSome = true := by
  rcases upsert_cases store entries key with same | ⟨value, _, found⟩
  · rw [same]
    exact present
  · rw [found]
    rfl

/-! ## Results that are computed once -/

section Replay

variable {Failure : Type w}

/-- The stored value of a key; the first time it is computed and stored,
unless that fails. -/
def replay (store : Key → Option Value) (key : Key)
    (computed : Except Failure Value) :
    Except Failure Value × (Key → Option Value) :=
  match store key with
  | some value => (.ok value, store)
  | none =>
      match computed with
      | .error failure => (.error failure, store)
      | .ok value => (.ok value, Function.update store key (some value))

theorem replay_of_stored {store : Key → Option Value} {key : Key}
    {value : Value} (stored : store key = some value)
    (computed : Except Failure Value) :
    replay store key computed = (.ok value, store) := by
  unfold replay
  rw [stored]

/-- A value that was given is stored. -/
theorem stored_of_replay {store after : Key → Option Value} {key : Key}
    {computed : Except Failure Value} {value : Value}
    (given : replay store key computed = (.ok value, after)) :
    after key = some value := by
  unfold replay at given
  split at given
  case h_1 found stored =>
    obtain ⟨isValue, rfl⟩ := Prod.mk.inj given
    rw [stored, Except.ok.inj isValue]
  case h_2 =>
    split at given
    case h_1 => cases given
    case h_2 found =>
      obtain ⟨isValue, rfl⟩ := Prod.mk.inj given
      rw [Function.update_self, Except.ok.inj isValue]

end Replay

end Foundation
