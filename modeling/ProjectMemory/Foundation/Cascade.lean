import Mathlib.Data.List.Nodup
import Mathlib.Logic.Function.Basic

/-!
# Rows with keys and references

Two lists of rows of which one refers to the other: every reference of a child
is the key of a parent.  Inserting a row with a new key or a known reference
keeps this, and so does deleting parents together with the children that refer
to them.

Rows that were added to a list can be deleted again: what tells them from the
rows that were there restores the list.
-/

namespace Foundation

universe u v w

section Cascade

variable {Parent : Type u} {Child : Type v} {Key : Type w}
  {key : Parent → Key} {ref : Child → Key}

theorem nodup_map_snoc {rows : List Parent} {row : Parent}
    (distinct : (rows.map key).Nodup) (fresh : key row ∉ rows.map key) :
    ((rows ++ [row]).map key).Nodup := by
  rw [List.map_append, List.map_singleton, ← List.concat_eq_append]
  exact List.Nodup.concat fresh distinct

theorem map_snoc_subset {children : List Child} {child : Child}
    {keys : List Key} (refers : children.map ref ⊆ keys)
    (known : ref child ∈ keys) : (children ++ [child]).map ref ⊆ keys := by
  rw [List.map_append, List.map_singleton, List.append_subset]
  exact ⟨refers, List.cons_subset.mpr ⟨known, List.nil_subset _⟩⟩

theorem subset_map_snoc {keys : List Key} {rows : List Parent}
    (refers : keys ⊆ rows.map key) (row : Parent) :
    keys ⊆ (rows ++ [row]).map key := by
  rw [List.map_append]
  exact List.Subset.trans refers (List.subset_append_left _ _)

theorem forall_mem_snoc {condition : Parent → Prop} {rows : List Parent}
    {row : Parent} (meets : ∀ other ∈ rows, condition other)
    (own : condition row) : ∀ other ∈ rows ++ [row], condition other :=
  List.forall_mem_append.mpr ⟨meets, List.forall_mem_singleton.mpr own⟩

theorem forall_mem_filter {condition : Parent → Prop} {rows : List Parent}
    (meets : ∀ row ∈ rows, condition row) (keep : Parent → Bool) :
    ∀ row ∈ rows.filter keep, condition row :=
  fun row isKept => meets row (List.mem_filter.mp isKept).1

/-- Keys stay distinct in a part of the rows. -/
theorem nodup_map_filter {rows : List Parent}
    (distinct : (rows.map key).Nodup) (stays : Parent → Bool) :
    ((rows.filter stays).map key).Nodup :=
  distinct.sublist (List.filter_sublist.map key)

/-- Where a child that is kept refers to no deleted parent, the references of
the kept children are keys of the parents that stay. -/
theorem cascade_subset {children : List Child} {parents : List Parent}
    {keep : Child → Bool} {stays : Parent → Bool}
    (refers : children.map ref ⊆ parents.map key)
    (cascades : ∀ child ∈ children, keep child = true →
      ∀ parent ∈ parents, key parent = ref child → stays parent = true) :
    (children.filter keep).map ref ⊆ (parents.filter stays).map key := by
  intro reference isReference
  obtain ⟨child, isKept, rfl⟩ := List.mem_map.mp isReference
  obtain ⟨isChild, kept⟩ := List.mem_filter.mp isKept
  obtain ⟨parent, isParent, same⟩ :=
    List.mem_map.mp (refers (List.mem_map_of_mem isChild))
  have stay := cascades child isChild kept parent isParent same
  exact List.mem_map.mpr
    ⟨parent, List.mem_filter.mpr ⟨isParent, stay⟩, same⟩

/-- The references that are dropped do not matter. -/
theorem filter_subset {children : List Child} {keys : List Key}
    (refers : children.map ref ⊆ keys) (keep : Child → Bool) :
    (children.filter keep).map ref ⊆ keys :=
  List.Subset.trans (List.map_subset ref (List.filter_subset_self children))
    refers

/-- No child refers to a key that is not used. -/
theorem ref_ne_of_fresh {children : List Child} {keys : List Key} {fresh : Key}
    (refers : children.map ref ⊆ keys) (isFresh : fresh ∉ keys) :
    ∀ child ∈ children, ref child ≠ fresh := by
  rintro child isChild rfl
  exact isFresh (refers (List.mem_map_of_mem isChild))

end Cascade

/-! ## Adding rows and deleting them again -/

section Added

variable {Row : Type u} {mine : Row → Prop} {keep : Row → Bool}
  {before after : List Row} {row : Row}

/-- The second list continues the first with rows that have a property. -/
def AddedTo (mine : Row → Prop) (before after : List Row) : Prop :=
  ∃ added, (∀ row ∈ added, mine row) ∧ after = before ++ added

theorem AddedTo.refl (mine : Row → Prop) (rows : List Row) :
    AddedTo mine rows rows :=
  ⟨[], List.forall_mem_nil _, (List.append_nil rows).symm⟩

theorem AddedTo.snoc (added : AddedTo mine before after) (isMine : mine row) :
    AddedTo mine before (after ++ [row]) := by
  obtain ⟨rows, areMine, rfl⟩ := added
  refine ⟨rows ++ [row], ?_, List.append_assoc before rows [row]⟩
  exact List.forall_mem_append.mpr
    ⟨areMine, List.forall_mem_singleton.mpr isMine⟩

theorem AddedTo.filter_eq (added : AddedTo mine before after)
    (stays : ∀ row ∈ before, keep row = true)
    (goes : ∀ row, mine row → keep row = false) :
    after.filter keep = before := by
  obtain ⟨rows, areMine, rfl⟩ := added
  have none : rows.filter keep = [] := by
    refine List.filter_eq_nil_iff.mpr fun row isRow kept => ?_
    rw [goes row (areMine row isRow)] at kept
    cases kept
  rw [List.filter_append, List.filter_eq_self.mpr stays, none,
    List.append_nil]

end Added

/-! ## Looking a row up by its key -/

section Lookup

variable {Row : Type u} {Key : Type w} [DecidableEq Key] {key : Row → Key}
  {rows : List Row} {row : Row} {wanted : Key}

theorem find_key_eq_some
    (found : rows.find? (fun other => key other = wanted) = some row) :
    row ∈ rows ∧ key row = wanted := by
  have isWanted := List.find?_some found
  exact ⟨List.mem_of_find?_eq_some found, of_decide_eq_true isWanted⟩

theorem find_key_eq_none :
    rows.find? (fun other => key other = wanted) = none ↔
      wanted ∉ rows.map key := by
  rw [List.find?_eq_none]
  constructor
  · rintro absent taken
    obtain ⟨other, isOther, same⟩ := List.mem_map.mp taken
    exact absent other isOther (decide_eq_true same)
  · intro fresh other isOther same
    apply fresh
    rw [← of_decide_eq_true same]
    exact List.mem_map_of_mem isOther

theorem find_key_of_mem (distinct : (rows.map key).Nodup)
    (isRow : row ∈ rows) :
    rows.find? (fun other => key other = key row) = some row := by
  cases found : rows.find? (fun other => key other = key row) with
  | none =>
      exact absurd (List.mem_map_of_mem isRow) (find_key_eq_none.mp found)
  | some other =>
      obtain ⟨isOther, same⟩ := find_key_eq_some found
      rw [List.inj_on_of_nodup_map distinct isOther isRow same]

theorem find_key_snoc (fresh : key row ∉ rows.map key) :
    (rows ++ [row]).find? (fun other => key other = key row) = some row := by
  rw [List.find?_append, find_key_eq_none.mpr fresh, Option.none_or]
  exact List.find?_cons_of_pos (decide_eq_true rfl)

/-- A row is added to what is found under the keys. -/
theorem find_key_append (fresh : key row ∉ rows.map key) :
    (fun wanted =>
      (rows ++ [row]).find? fun other => key other = wanted) =
      Function.update
        (fun wanted => rows.find? fun other => key other = wanted) (key row)
        (some row) := by
  funext wanted
  by_cases own : wanted = key row
  · subst own
    rw [Function.update_self, find_key_snoc fresh]
  · have other : [row].find? (fun other => key other = wanted) = none :=
      List.find?_cons_of_neg fun same => own (of_decide_eq_true same).symm
    rw [Function.update_of_ne own, List.find?_append, other, Option.or_none]

/-- The rows that stay are found under their keys. -/
theorem find_key_filter (distinct : (rows.map key).Nodup)
    (stays : Row → Bool) :
    (rows.filter stays).find? (fun other => key other = wanted) =
      (rows.find? fun other => key other = wanted).filter stays := by
  cases found : rows.find? fun other => key other = wanted with
  | none =>
      have absent := find_key_eq_none.mp found
      refine find_key_eq_none.mpr fun taken => absent ?_
      exact (List.filter_sublist.map key).subset taken
  | some row =>
      obtain ⟨isRow, rfl⟩ := find_key_eq_some found
      by_cases kept : stays row = true
      · rw [Option.filter_some, if_pos kept]
        exact find_key_of_mem (nodup_map_filter distinct stays)
          (List.mem_filter.mpr ⟨isRow, kept⟩)
      · rw [Option.filter_some, if_neg kept]
        refine find_key_eq_none.mpr fun taken => ?_
        obtain ⟨other, isKept, same⟩ := List.mem_map.mp taken
        obtain ⟨isOther, stay⟩ := List.mem_filter.mp isKept
        rw [List.inj_on_of_nodup_map distinct isOther isRow same] at stay
        exact kept stay

end Lookup

end Foundation
