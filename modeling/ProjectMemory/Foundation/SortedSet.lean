import Mathlib.Data.List.Nodup
import Mathlib.Data.List.Perm.Subperm
import Mathlib.Order.MinMax

/-!
# Sorted sets

A sorted set holds one entry for each member, with a score.  Adding a member
again replaces its score, and a range of scores can be removed.
-/

namespace Foundation

universe u v w

structure SortedSet (Member : Type u) (Score : Type v) where
  entries : List (Member × Score)
  distinct : (entries.map Prod.fst).Nodup

namespace SortedSet

variable {Member : Type u} {Score : Type v}

def empty : SortedSet Member Score where
  entries := []
  distinct := List.nodup_nil

def members (set : SortedSet Member Score) : List Member :=
  set.entries.map Prod.fst

/-- `ZCARD`. -/
def zcard (set : SortedSet Member Score) : Nat :=
  set.entries.length

section Order

variable [LE Score] [DecidableLE Score]

/-- `ZREMRANGEBYSCORE key -inf bound`. -/
def zremrangebyscore (set : SortedSet Member Score) (bound : Score) :
    SortedSet Member Score where
  entries := set.entries.filter fun entry => ¬ entry.2 ≤ bound
  distinct := (List.filter_sublist.map Prod.fst).nodup set.distinct

/-- The score of `ZRANGE key 0 0`. -/
def lowest [Min Score] (set : SortedSet Member Score) : Option Score :=
  (set.entries.map Prod.snd).min?

end Order

/-- `ZADD`. -/
def zadd [DecidableEq Member] (set : SortedSet Member Score)
    (member : Member) (score : Score) : SortedSet Member Score where
  entries :=
    (member, score) :: set.entries.filter fun entry => entry.1 ≠ member
  distinct := by
    rw [List.map_cons, List.nodup_cons]
    constructor
    · intro again
      obtain ⟨entry, kept, same⟩ := List.mem_map.mp again
      have different := (List.mem_filter.mp kept).2
      simp [same] at different
    · exact (List.filter_sublist.map Prod.fst).nodup set.distinct

theorem eq_of_entries_eq {left right : SortedSet Member Score}
    (same : left.entries = right.entries) : left = right := by
  cases left
  cases right
  cases same
  rfl

@[simp]
theorem mem_entries_zadd [DecidableEq Member] {set : SortedSet Member Score}
    {member : Member} {score : Score} {entry : Member × Score} :
    entry ∈ (set.zadd member score).entries ↔
      entry = (member, score) ∨ entry ∈ set.entries ∧ entry.1 ≠ member := by
  rw [zadd, List.mem_cons, List.mem_filter, decide_eq_true_eq]

theorem lowest_of_zcard_pos [LinearOrder Score]
    {set : SortedSet Member Score} (some : 0 < set.zcard) :
    ∃ entry ∈ set.entries, set.lowest = Option.some entry.2 ∧
      ∀ other ∈ set.entries, entry.2 ≤ other.2 := by
  have lawful : Std.LawfulOrderMin Score := {
    min_eq_or := min_choice
    le_min_iff := fun _ _ _ => le_min_iff }
  have nonempty : set.entries.map Prod.snd ≠ [] := by
    rw [ne_eq, List.map_eq_nil_iff]
    exact List.ne_nil_of_length_pos some
  obtain ⟨least, isLeast⟩ :=
    Option.ne_none_iff_exists'.mp (mt List.min?_eq_none_iff.mp nonempty)
  obtain ⟨member, below⟩ := List.min?_eq_some_iff.mp isLeast
  obtain ⟨entry, isEntry, same⟩ := List.mem_map.mp member
  refine ⟨entry, isEntry, ?_, ?_⟩
  · rw [same]
    exact isLeast
  · intro other isOther
    rw [same]
    exact below other.2 (List.mem_map_of_mem isOther)

theorem zcard_zadd_le [DecidableEq Member] (set : SortedSet Member Score)
    (member : Member) (score : Score) :
    (set.zadd member score).zcard ≤ set.zcard + 1 :=
  Nat.succ_le_succ (List.length_filter_le _ _)

@[simp]
theorem mem_entries_zremrangebyscore [LE Score] [DecidableLE Score]
    {set : SortedSet Member Score} {bound : Score}
    {entry : Member × Score} :
    entry ∈ (set.zremrangebyscore bound).entries ↔
      entry ∈ set.entries ∧ ¬ entry.2 ≤ bound := by
  rw [zremrangebyscore, List.mem_filter, decide_eq_true_eq]

/-- A larger range removes what a smaller one does. -/
theorem zremrangebyscore_twice [LinearOrder Score]
    (set : SortedSet Member Score) {low high : Score} (inOrder : low ≤ high) :
    (set.zremrangebyscore low).zremrangebyscore high =
      set.zremrangebyscore high := by
  apply eq_of_entries_eq
  simp only [zremrangebyscore, List.filter_filter]
  refine List.filter_congr fun entry _ => ?_
  by_cases outside : entry.2 ≤ high
  · simp only [outside, not_true_eq_false, decide_false, Bool.false_and]
  · have kept : ¬ entry.2 ≤ low := fun removed =>
      outside (le_trans removed inOrder)
    simp only [outside, kept, not_false_eq_true, decide_true, Bool.and_self]

/-- Items with distinct keys are at most as many as the members they stand
for. -/
theorem countP_le_zcard {Item : Type w} {key : Item → Member}
    {items : List Item} (distinct : (items.map key).Nodup)
    (set : SortedSet Member Score) {holds : Item → Bool}
    (recorded : ∀ item ∈ items, holds item = true →
      key item ∈ set.members) :
    items.countP holds ≤ set.zcard := by
  have keysDistinct : ((items.filter holds).map key).Nodup :=
    (List.filter_sublist.map key).nodup distinct
  have contained : (items.filter holds).map key ⊆ set.members := by
    intro member isKey
    obtain ⟨item, kept, rfl⟩ := List.mem_map.mp isKey
    obtain ⟨isItem, isHolding⟩ := List.mem_filter.mp kept
    exact recorded item isItem isHolding
  have bound := (List.subperm_of_subset keysDistinct contained).length_le
  rw [List.length_map, members, List.length_map] at bound
  rw [List.countP_eq_length_filter]
  exact bound

end SortedSet

end Foundation
