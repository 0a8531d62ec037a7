import Mathlib.Data.List.Flatten
import Mathlib.Data.List.Forall2
import Mathlib.Data.List.Perm.Basic
import Mathlib.Order.MinMax

/-!
# The best items of several sources

Each source gives the best of its items by score.  Sorting what the sources
give and cutting again yields the best of all items: where a source left
something out, it gave as many better ones as are wanted.
-/

namespace Foundation

universe u v w

section Top

variable {Item : Type u} {Score : Type v} [LinearOrder Score]
  (score : Item → Score)

/-- Falling scores. -/
def falling (left right : Item) : Bool :=
  score right ≤ score left

/-- The best items of a list, up to a number of them, by falling score. -/
structure SplitsTop (count : Nat) (items best rest : List Item) : Prop where
  perm : (best ++ rest).Perm items
  sorted : best.Pairwise fun left right => score right ≤ score left
  length : best.length = min count items.length
  above : ∀ kept ∈ best, ∀ left ∈ rest, score left ≤ score kept

def IsTop (count : Nat) (items best : List Item) : Prop :=
  ∃ rest, SplitsTop score count items best rest

end Top

section Sorting

variable {Item : Type u} {Score : Type v} [LinearOrder Score]
  {score : Item → Score}

theorem falling_trans (first second third : Item)
    (left : falling score first second = true)
    (right : falling score second third = true) :
    falling score first third = true :=
  decide_eq_true
    (le_trans (of_decide_eq_true right) (of_decide_eq_true left))

theorem falling_total (left right : Item) :
    (falling score left right || falling score right left) = true := by
  rw [Bool.or_eq_true, falling, falling, decide_eq_true_eq,
    decide_eq_true_eq]
  exact le_total _ _

theorem pairwise_sorted (items : List Item) :
    (items.mergeSort (falling score)).Pairwise
      fun left right => score right ≤ score left := by
  have sorted := List.pairwise_mergeSort (@falling_trans Item Score _ score)
    falling_total items
  exact sorted.imp fun inOrder => of_decide_eq_true inOrder

/-- Fewer items than those kept score higher than one of them. -/
theorem countP_lt_of_mem_take {items : List Item} {count : Nat}
    (sorted : items.Pairwise fun left right => score right ≤ score left)
    {kept : Item} (isKept : kept ∈ items.take count) :
    items.countP (fun item => score kept < score item) < count := by
  obtain ⟨before, after, split⟩ := List.append_of_mem isKept
  have whole : items = before ++ kept :: (after ++ items.drop count) := by
    rw [← List.cons_append, ← List.append_assoc, ← split,
      List.take_append_drop]
  have position : before.length < count := by
    have lengths := congrArg List.length split
    rw [List.length_take, List.length_append, List.length_cons] at lengths
    omega
  have later : (kept :: (after ++ items.drop count)).countP
      (fun item => score kept < score item) = 0 := by
    rw [whole] at sorted
    have below := (List.pairwise_cons.mp
      (List.pairwise_append.mp sorted).2.1).1
    refine List.countP_eq_zero.mpr fun item member higher => ?_
    rw [decide_eq_true_eq] at higher
    rcases List.mem_cons.mp member with rfl | isLater
    · exact lt_irrefl _ higher
    · exact absurd higher (not_lt_of_ge (below item isLater))
  have earlier : before.countP (fun item => score kept < score item) ≤
      before.length := List.countP_le_length
  rw [whole, List.countP_append, later]
  omega

/-- Sorting by a score keeps a correspondence between items of one score. -/
theorem forall₂_mergeSort {Other : Type w} {otherScore : Other → Score}
    {related : Item → Other → Prop}
    (sameScore : ∀ item other, related item other →
      score item = otherScore other) {items : List Item} {others : List Other}
    (correspond : List.Forall₂ related items others) :
    List.Forall₂ related (items.mergeSort (falling score))
      (others.mergeSort (falling otherScore)) := by
  have isZip : ∀ pair ∈ items.zip others, related pair.1 pair.2 := by
    intro pair member
    exact List.forall₂_zip correspond member
  have firsts : (items.zip others).map Prod.fst = items :=
    List.map_fst_zip (Nat.le_of_eq correspond.length_eq)
  have seconds : (items.zip others).map Prod.snd = others :=
    List.map_snd_zip (Nat.le_of_eq correspond.length_eq.symm)
  let byScore := falling fun pair : Item × Other => score pair.1
  have sortedFirsts : ((items.zip others).mergeSort byScore).map Prod.fst =
      items.mergeSort (falling score) := by
    conv_rhs => rw [← firsts]
    exact List.map_mergeSort fun _ _ _ _ => rfl
  have sortedSeconds : ((items.zip others).mergeSort byScore).map Prod.snd =
      others.mergeSort (falling otherScore) := by
    conv_rhs => rw [← seconds]
    refine List.map_mergeSort fun left isLeft right isRight => ?_
    simp only [byScore, falling, sameScore _ _ (isZip left isLeft),
      sameScore _ _ (isZip right isRight)]
  rw [← sortedFirsts, ← sortedSeconds, List.forall₂_map_left_iff,
    List.forall₂_map_right_iff, List.forall₂_same]
  intro pair member
  exact isZip pair (List.mem_mergeSort.mp member)

end Sorting

/-! ## Merging -/

section Merging

variable {Source : Type w} {Item : Type u} {Score : Type v}
  [LinearOrder Score] {score : Item → Score} {count : Nat}
  {sources : List Source} {points best : Source → List Item}

/-- Sorting and cutting gives the best items. -/
theorem isTop_mergeSort (items : List Item) :
    IsTop score count items ((items.mergeSort (falling score)).take count) := by
  have sorted := @pairwise_sorted Item Score _ score items
  have perm := List.mergeSort_perm items (falling score)
  refine ⟨(items.mergeSort (falling score)).drop count, ?_, ?_, ?_, ?_⟩
  · rw [List.take_append_drop]
    exact perm
  · exact sorted.sublist (List.take_sublist count _)
  · rw [List.length_take, perm.length_eq]
  · intro kept isKept left isLeft
    rw [← List.take_append_drop count (items.mergeSort (falling score))]
      at sorted
    exact (List.pairwise_append.mp sorted).2.2 kept isKept left isLeft

theorem IsTop.map {Image : Type w} {imageScore : Image → Score}
    {image : Item → Image} (same : ∀ item, imageScore (image item) = score item)
    {items best : List Item} (top : IsTop score count items best) :
    IsTop imageScore count (items.map image) (best.map image) := by
  obtain ⟨rest, splits⟩ := top
  refine ⟨rest.map image, ?_, ?_, ?_, ?_⟩
  · rw [← List.map_append]
    exact splits.perm.map image
  · rw [List.pairwise_map]
    refine splits.sorted.imp fun inOrder => ?_
    rw [same, same]
    exact inOrder
  · rw [List.length_map, List.length_map]
    exact splits.length
  · intro kept isKept left isLeft
    obtain ⟨keptItem, keptMember, rfl⟩ := List.mem_map.mp isKept
    obtain ⟨leftItem, leftMember, rfl⟩ := List.mem_map.mp isLeft
    rw [same, same]
    exact splits.above keptItem keptMember leftItem leftMember

theorem IsTop.subset {items best : List Item}
    (top : IsTop score count items best) : best ⊆ items := by
  obtain ⟨rest, splits⟩ := top
  intro item isBest
  exact splits.perm.subset (List.mem_append_left rest isBest)

theorem IsTop.sorted {items best : List Item}
    (top : IsTop score count items best) :
    best.Pairwise fun left right => score right ≤ score left := by
  obtain ⟨_, splits⟩ := top
  exact splits.sorted

theorem IsTop.length_eq {items best : List Item}
    (top : IsTop score count items best) :
    best.length = min count items.length := by
  obtain ⟨_, splits⟩ := top
  exact splits.length

theorem IsTop.nodup {items best : List Item}
    (top : IsTop score count items best) (distinct : items.Nodup) :
    best.Nodup := by
  obtain ⟨rest, splits⟩ := top
  exact (List.nodup_append.mp (splits.perm.nodup_iff.mpr distinct)).1

theorem IsTop.le_of_not_mem {items best : List Item}
    (top : IsTop score count items best) {item kept : Item}
    (isItem : item ∈ items) (notBest : item ∉ best) (isKept : kept ∈ best) :
    score item ≤ score kept := by
  obtain ⟨rest, splits⟩ := top
  have isLeft : item ∈ rest :=
    (List.mem_append.mp (splits.perm.symm.subset isItem)).resolve_left notBest
  exact splits.above kept isKept item isLeft

/-- What the sources leave out is below as many items as are wanted. -/
theorem exists_left
    (tops : ∀ source ∈ sources,
      IsTop score count (points source) (best source)) :
    ∃ left, (sources.flatMap best ++ left).Perm (sources.flatMap points) ∧
      ∀ item ∈ left, ∃ source ∈ sources, count ≤ (best source).length ∧
        ∀ kept ∈ best source, score item ≤ score kept := by
  induction sources with
  | nil => exact ⟨[], List.Perm.refl _, fun _ member => by cases member⟩
  | cons source sources inductionHypothesis =>
      obtain ⟨left, perm, below⟩ := inductionHypothesis fun other member =>
        tops other (List.mem_cons_of_mem source member)
      obtain ⟨rest, splits⟩ := tops source List.mem_cons_self
      refine ⟨rest ++ left, ?_, ?_⟩
      · rw [List.flatMap_cons, List.flatMap_cons]
        refine List.Perm.trans ?_ (splits.perm.append perm)
        rw [List.append_assoc, List.append_assoc]
        refine List.Perm.append_left _ ?_
        rw [← List.append_assoc, ← List.append_assoc]
        exact List.perm_append_comm.append_right left
      · intro item member
        rcases List.mem_append.mp member with isRest | isLeft
        · have total := splits.perm.length_eq
          have some := List.length_pos_of_mem isRest
          have length := splits.length
          rw [List.length_append] at total
          exact ⟨source, List.mem_cons_self, by omega,
            fun kept isKept => splits.above kept isKept item isRest⟩
        · obtain ⟨other, isSource, full, isBelow⟩ := below item isLeft
          exact ⟨other, List.mem_cons_of_mem source isSource, full, isBelow⟩

theorem length_flatMap_best
    (tops : ∀ source ∈ sources,
      IsTop score count (points source) (best source)) :
    min count (sources.flatMap best).length =
      min count (sources.flatMap points).length := by
  induction sources with
  | nil => rfl
  | cons source sources inductionHypothesis =>
      have later := inductionHypothesis fun other member =>
        tops other (List.mem_cons_of_mem source member)
      obtain ⟨rest, splits⟩ := tops source List.mem_cons_self
      have length := splits.length
      rw [List.flatMap_cons, List.flatMap_cons, List.length_append,
        List.length_append]
      omega

theorem sublist_flatMap_of_mem {source : Source} (isSource : source ∈ sources) :
    (best source).Sublist (sources.flatMap best) := by
  rw [List.flatMap_def]
  exact List.sublist_flatten_of_mem (List.mem_map_of_mem isSource)

/-- The best of what the sources give are the best of all. -/
theorem isTop_merge
    (tops : ∀ source ∈ sources,
      IsTop score count (points source) (best source)) :
    IsTop score count (sources.flatMap points)
      (((sources.flatMap best).mergeSort (falling score)).take count) := by
  obtain ⟨left, perm, below⟩ := exists_left tops
  generalize isMerged :
    (sources.flatMap best).mergeSort (falling score) = merged
  have mergedPerm : merged.Perm (sources.flatMap best) := by
    rw [← isMerged]
    exact List.mergeSort_perm _ _
  have sorted : merged.Pairwise fun left right => score right ≤ score left := by
    rw [← isMerged]
    exact pairwise_sorted _
  refine ⟨merged.drop count ++ left, ?_, ?_, ?_, ?_⟩
  · rw [← List.append_assoc, List.take_append_drop]
    exact (mergedPerm.append_right left).trans perm
  · exact sorted.sublist (List.take_sublist count merged)
  · rw [List.length_take, mergedPerm.length_eq, length_flatMap_best tops]
  · intro kept isKept item isLeft
    rcases List.mem_append.mp isLeft with isDropped | isLeft
    · rw [← List.take_append_drop count merged] at sorted
      exact (List.pairwise_append.mp sorted).2.2 kept isKept item isDropped
    · obtain ⟨source, isSource, full, isBelow⟩ := below item isLeft
      by_contra higher
      -- All that the source gave score higher than the kept item.
      have allHigher : (best source).countP
          (fun other => score kept < score other) = (best source).length := by
        refine List.countP_eq_length.mpr fun other isBest => ?_
        exact decide_eq_true
          (lt_of_lt_of_le (not_le.mp higher) (isBelow other isBest))
      have given : (best source).countP
          (fun other => score kept < score other) ≤
            merged.countP (fun other => score kept < score other) := by
        rw [mergedPerm.countP_eq]
        exact (sublist_flatMap_of_mem isSource).countP_le
      have few := countP_lt_of_mem_take sorted isKept
      omega

theorem filter_own [DecidableEq Source] {sourceOf : Item → Source}
    (ofSource : ∀ source, ∀ item ∈ best source, sourceOf item = source)
    (source : Source) :
    (best source).filter (fun item => sourceOf item = source) =
      best source :=
  List.filter_eq_self.mpr fun item isBest =>
    decide_eq_true (ofSource source item isBest)

/-- What one of several sources gives is found by its source. -/
theorem filter_flatMap_source [DecidableEq Source] {sourceOf : Item → Source}
    (distinct : sources.Nodup)
    (ofSource : ∀ source, ∀ item ∈ best source, sourceOf item = source)
    {source : Source} (isSource : source ∈ sources) :
    (sources.flatMap best).filter (fun item => sourceOf item = source) =
      best source := by
  have others {part : List Source} (absent : source ∉ part) :
      (part.flatMap best).filter (fun item => sourceOf item = source) =
        [] := by
    refine List.filter_eq_nil_iff.mpr fun item member isSame => ?_
    obtain ⟨other, isPart, isBest⟩ := List.mem_flatMap.mp member
    rw [decide_eq_true_eq, ofSource other item isBest] at isSame
    exact absent (isSame ▸ isPart)
  obtain ⟨before, after, split⟩ := List.append_of_mem isSource
  rw [split, List.nodup_append, List.nodup_cons] at distinct
  obtain ⟨_, ⟨notAfter, _⟩, apart⟩ := distinct
  have notBefore : source ∉ before := fun isBefore =>
    apart source isBefore source List.mem_cons_self rfl
  rw [split, List.flatMap_append, List.flatMap_cons, List.filter_append,
    List.filter_append, others notBefore, others notAfter,
    filter_own ofSource,
    List.nil_append, List.append_nil]

/-- In the merged list the items of one source stand as it gave them. -/
theorem filter_merged [DecidableEq Source] {sourceOf : Item → Source}
    (distinct : sources.Nodup)
    (ofSource : ∀ source, ∀ item ∈ best source, sourceOf item = source)
    {source : Source} (isSource : source ∈ sources)
    (sorted : (best source).Pairwise fun left right =>
      score right ≤ score left) :
    ((sources.flatMap best).mergeSort (falling score)).filter
      (fun item => sourceOf item = source) = best source := by
  have fallingSorted : (best source).Pairwise fun left right =>
      falling score left right = true :=
    sorted.imp fun inOrder => decide_eq_true inOrder
  have inOrder : (best source).Sublist
      ((sources.flatMap best).mergeSort (falling score)) :=
    List.sublist_mergeSort falling_trans falling_total fallingSorted
      (sublist_flatMap_of_mem isSource)
  have within := inOrder.filter fun item => decide (sourceOf item = source)
  have sameLength := ((List.mergeSort_perm (sources.flatMap best)
    (falling score)).filter
      fun item => decide (sourceOf item = source)).length_eq
  rw [filter_flatMap_source distinct ofSource isSource] at sameLength
  rw [filter_own ofSource] at within
  exact (within.eq_of_length sameLength.symm).symm

/-- The cut keeps a first part of what each source gave. -/
theorem filter_take_isPrefix [DecidableEq Source] {sourceOf : Item → Source}
    (distinct : sources.Nodup)
    (ofSource : ∀ source, ∀ item ∈ best source, sourceOf item = source)
    {source : Source} (isSource : source ∈ sources)
    (sorted : (best source).Pairwise fun left right =>
      score right ≤ score left) (count : Nat) :
    (((sources.flatMap best).mergeSort (falling score)).take count).filter
      (fun item => sourceOf item = source) <+: best source := by
  have front := (List.take_prefix count ((sources.flatMap best).mergeSort
    (falling score))).filter fun item => decide (sourceOf item = source)
  rw [filter_merged distinct ofSource isSource sorted] at front
  exact front

end Merging

end Foundation
