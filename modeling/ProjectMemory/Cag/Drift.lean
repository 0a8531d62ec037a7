import ProjectMemory.Foundation.Counting
import ProjectMemory.Models.BeliefState

/-!
# The drift of a rebuild

After a rebuild the decisions and open items of the new belief state are
compared with those of the one before.  An entry is looked up by its reference
and its description together, so that it has a counterpart by one of them alone
that is not found.
-/

namespace ProjectMemory.Cag

open Foundation

section Drift

-- `str.lower`; nothing below depends on which letters it maps.
variable (lower : String → String)

/-- What the comparison reads of an entry; a reference that the entry has no
field for is missing. -/
structure DriftEntry where
  summaryIdRef : Option Uuid
  firstSeenSummaryId : Option Uuid
  description : String
  deriving DecidableEq

def ofDecision (item : Decision) : DriftEntry where
  summaryIdRef := item.summaryIdRef
  firstSeenSummaryId := none
  description := item.description.val

def ofOpenItem (item : OpenItem) : DriftEntry where
  summaryIdRef := none
  firstSeenSummaryId := item.firstSeenSummaryId
  description := item.description.val

def DriftEntry.reference (item : DriftEntry) : Option Uuid :=
  item.summaryIdRef.or item.firstSeenSummaryId

/-- `_key`. -/
def DriftEntry.key (item : DriftEntry) : Option Uuid × String :=
  (item.reference, lower item.description)

/-- `_delta_entries`: how many entries were added and how many dropped. -/
def deltaEntries (previous current : List DriftEntry) : Nat × Nat :=
  let prevKeys := previous.map (DriftEntry.key lower)
  let currKeys := current.map (DriftEntry.key lower)
  (current.countP fun item => item.key lower ∉ prevKeys,
    previous.countP fun item => item.key lower ∉ currKeys)

structure RebuildDrift where
  decisionsAdded : Nat
  decisionsDropped : Nat
  openItemsAdded : Nat
  openItemsDropped : Nat
  deriving DecidableEq

/-- The counts that `_emit_rebuild_drift` reports. -/
def rebuildDrift (previous : Option BeliefStateContent)
    (current : BeliefStateContent) : RebuildDrift :=
  match previous with
  | none => {
      decisionsAdded := current.decisions.val.length
      decisionsDropped := 0
      openItemsAdded := current.openItems.val.length
      openItemsDropped := 0 }
  | some previous =>
      let decisions := deltaEntries lower
        (previous.decisions.val.map ofDecision)
        (current.decisions.val.map ofDecision)
      let openItems := deltaEntries lower
        (previous.openItems.val.map ofOpenItem)
        (current.openItems.val.map ofOpenItem)
      {
        decisionsAdded := decisions.1
        decisionsDropped := decisions.2
        openItemsAdded := openItems.1
        openItemsDropped := openItems.2 }

/-! ## Matching by reference or description -/

/-- Two entries with the same reference, or with descriptions that differ in
case only. -/
def SameEntry (left right : DriftEntry) : Prop :=
  (left.reference ≠ none ∧ left.reference = right.reference) ∨
    lower left.description = lower right.description

instance (left right : DriftEntry) : Decidable (SameEntry lower left right) :=
  inferInstanceAs (Decidable (_ ∨ _))

/-- The entries that have no counterpart. -/
def unmatched (others items : List DriftEntry) : Nat :=
  items.countP fun item => ¬∃ other ∈ others, SameEntry lower other item

/-- A counterpart by reference or by description comes with one by both. -/
def KeepsKeys (others items : List DriftEntry) : Prop :=
  ∀ item ∈ items, (∃ other ∈ others, SameEntry lower other item) →
    ∃ other ∈ others, other.key lower = item.key lower

variable {lower}

theorem sameEntry_of_key_eq {left right : DriftEntry}
    (same : left.key lower = right.key lower) :
    SameEntry lower left right :=
  Or.inr (Prod.mk.inj same).2

theorem countP_key_eq_unmatched_iff {others items : List DriftEntry} :
    (items.countP fun item =>
        item.key lower ∉ others.map (DriftEntry.key lower)) =
      unmatched lower others items ↔ KeepsKeys lower others items := by
  have isKey (item : DriftEntry) :
      item.key lower ∈ others.map (DriftEntry.key lower) ↔
        ∃ other ∈ others, other.key lower = item.key lower :=
    List.mem_map
  rw [unmatched, countP_eq_iff_of_imp]
  · refine forall₂_congr fun item _ => ?_
    rw [decide_eq_true_eq, decide_eq_true_eq, isKey, not_imp_not]
  · intro item _ noCounterpart
    rw [decide_eq_true_eq] at noCounterpart ⊢
    rw [isKey]
    rintro ⟨other, isOther, same⟩
    exact noCounterpart ⟨other, isOther, sameEntry_of_key_eq same⟩

/-- The counts are those of the entries without a counterpart exactly where no
entry keeps only its reference, or only its description. -/
theorem deltaEntries_eq_unmatched_iff (lower : String → String)
    (previous current : List DriftEntry) :
    deltaEntries lower previous current =
        (unmatched lower previous current, unmatched lower current previous) ↔
      KeepsKeys lower previous current ∧ KeepsKeys lower current previous := by
  rw [deltaEntries, Prod.mk.injEq, countP_key_eq_unmatched_iff,
    countP_key_eq_unmatched_iff]

/-- `str.lower` on ASCII. -/
def lowerAscii (text : String) : String :=
  String.ofList (text.toList.map Char.toLower)

/-- A decision that was reworded and kept its reference. -/
theorem deltaEntries_reworded :
    let previous := [ofDecision {
      description := ⟨"Store events in Postgres", by decide⟩
      approximateDate := none
      summaryIdRef := some 7 }]
    let current := [ofDecision {
      description := ⟨"Events are stored in PostgreSQL", by decide⟩
      approximateDate := none
      summaryIdRef := some 7 }]
    deltaEntries lowerAscii previous current = (1, 1) ∧
      (unmatched lowerAscii previous current,
        unmatched lowerAscii current previous) = (0, 0) := by
  decide

example :
    deltaEntries lowerAscii
      [⟨some 1, none, "Decision A"⟩, ⟨some 2, none, "Decision B"⟩,
        ⟨none, none, "Decision C"⟩]
      [⟨some 1, none, "decision a"⟩, ⟨some 3, none, "Decision D"⟩,
        ⟨none, none, "decision c"⟩] = (1, 1) := by
  decide

end Drift

end ProjectMemory.Cag
