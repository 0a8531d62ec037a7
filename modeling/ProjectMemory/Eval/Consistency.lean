import Mathlib.Algebra.BigOperators.Group.List.Basic
import Mathlib.Tactic.Ring
import ProjectMemory.Eval.Report
import ProjectMemory.Foundation.Counting
import ProjectMemory.Foundation.TopK

/-!
# The consistency of a report

The passes over the judged questions agree with each other: the counts on an
axis add up to the questions, the mean of the differences is the difference of
the means, and the questions listed as most divergent are best among all by the
sum of the differences that the axes list.
-/

namespace ProjectMemory.Eval

open Foundation

/-! ## Means -/

section Means

theorem sum_map_sub {Item : Type} (left right : Item → Rat)
    (items : List Item) :
    (items.map fun item => left item - right item).sum =
      (items.map left).sum - (items.map right).sum := by
  induction items with
  | nil => exact (sub_zero 0).symm
  | cons item items inductionHypothesis =>
      simp only [List.map_cons, List.sum_cons, inductionHypothesis]
      ring

theorem meanOf_map_sub {Item : Type} (left right : Item → Rat)
    (items : List Item) :
    meanOf (items.map fun item => left item - right item) =
      meanOf (items.map left) - meanOf (items.map right) := by
  simp only [meanOf, List.length_map, sum_map_sub]
  by_cases empty : items.length = 0
  · rw [if_pos empty, if_pos empty, if_pos empty, sub_zero]
  · rw [if_neg empty, if_neg empty, if_neg empty, sub_div]

theorem meanOf_perm {values others : List Rat} (perm : values.Perm others) :
    meanOf values = meanOf others := by
  rw [meanOf, meanOf, perm.length_eq, perm.sum_eq]

end Means

/-! ## One axis -/

section Axis

theorem axisAgg_counts (pairs : List (Int × Int)) :
    (axisAgg pairs).cagBetter + (axisAgg pairs).ragBetter +
      (axisAgg pairs).tie = (axisAgg pairs).n := by
  have counted := countP_trichotomy (fun delta : Rat => delta) 0
    (axisAgg pairs).perQuestionDeltas
  exact counted.trans (List.length_map _)

theorem axisAgg_deltaMean (pairs : List (Int × Int)) :
    (axisAgg pairs).deltaMean =
      (axisAgg pairs).cagMean - (axisAgg pairs).ragMean := by
  have means := meanOf_map_sub (fun pair : Int × Int => (pair.1 : Rat))
    (fun pair => (pair.2 : Rat)) pairs
  simp only [axisAgg, Rat.intCast_sub]
  exact means

/-- The counts and the means of an axis. -/
structure SameSummary (agg other : AxisAgg) : Prop where
  cagMean : agg.cagMean = other.cagMean
  ragMean : agg.ragMean = other.ragMean
  deltaMean : agg.deltaMean = other.deltaMean
  cagBetter : agg.cagBetter = other.cagBetter
  ragBetter : agg.ragBetter = other.ragBetter
  tie : agg.tie = other.tie
  n : agg.n = other.n

theorem axisAgg_perm {pairs others : List (Int × Int)}
    (perm : pairs.Perm others) :
    SameSummary (axisAgg pairs) (axisAgg others) where
  cagMean := meanOf_perm (perm.map _)
  ragMean := meanOf_perm (perm.map _)
  deltaMean := meanOf_perm (perm.map _)
  cagBetter := (perm.map _).countP_eq _
  ragBetter := (perm.map _).countP_eq _
  tie := (perm.map _).countP_eq _
  n := perm.length_eq

end Axis

/-! ## The whole report -/

section Report

/-- The differences that the axes list for a judged question, added up. -/
def ReportData.deltaTotalAt (data : ReportData) (position : Nat) : Rat :=
  (axes.map fun axis =>
    (data.axisAggs.get axis).perQuestionDeltas.getD position 0).sum

/-- The questions listed as most divergent are the judged ones at these
positions. -/
structure ListsMostDivergent (judged : List QuestionResult)
    (data : ReportData) (positions : List Nat) : Prop where
  distinct : positions.Nodup
  length : positions.length = min 3 judged.length
  listed : List.Forall₂
    (fun position divergence => ∃ result, judged[position]? = some result ∧
      divergenceOf result = .ok divergence ∧
      divergence.deltaTotal = data.deltaTotalAt position)
    positions data.mostDivergent
  falling : data.mostDivergent.Pairwise fun left right =>
    |right.deltaTotal| ≤ |left.deltaTotal|
  above : ∀ kept ∈ positions, ∀ position < judged.length,
    position ∉ positions →
      |data.deltaTotalAt position| ≤ |data.deltaTotalAt kept|

structure ShowsConflict (result : QuestionResult)
    (view : ConflictQuestionView) : Prop where
  questionId : view.questionId = result.questionId
  questionText : view.questionText = result.questionText
  cagAnswer : view.cagAnswer = result.cag.answer
  ragAnswer : view.ragAnswer = result.rag.answer
  cagScores : unblindArmScores result .cag = .ok view.cagScores
  ragScores : unblindArmScores result .rag = .ok view.ragScores

/-- What the passes over the judged questions agree on. -/
structure IsConsistent (judged : List QuestionResult) (data : ReportData) :
    Prop where
  nJudged : data.nJudged = judged.length
  perQuestionDeltas : ∀ (axis : Axis) (position : Nat) result,
    judged[position]? = some result →
      ∃ pair, unblindAxis result axis = .ok pair ∧
        (data.axisAggs.get axis).perQuestionDeltas[position]? =
          some ((pair.1 - pair.2 : Int) : Rat)
  counts : ∀ axis, (data.axisAggs.get axis).cagBetter +
    (data.axisAggs.get axis).ragBetter + (data.axisAggs.get axis).tie =
      (data.axisAggs.get axis).n
  n : ∀ axis, (data.axisAggs.get axis).n = data.nJudged
  deltaMean : ∀ axis, (data.axisAggs.get axis).deltaMean =
    (data.axisAggs.get axis).cagMean - (data.axisAggs.get axis).ragMean
  mostDivergent : ∃ positions, ListsMostDivergent judged data positions
  conflictViews : List.Forall₂ ShowsConflict
    (judged.filter fun result =>
      result.expectedBehavior = .conflictSurfaced)
    data.conflictViews

variable (nQuestions : Nat) (views : List Unblinded)

theorem perQuestionDeltas_reportOn (axis : Axis) :
    ((reportOn nQuestions views).axisAggs.get axis).perQuestionDeltas =
      views.map fun view => ((view.delta axis : Int) : Rat) := by
  rw [reportOn, PerAxis.get_tabulate]
  exact List.map_map

/-- The differences on the axes add up to the difference of the totals. -/
theorem deltaTotalAt_reportOn {position : Nat} {view : Unblinded}
    (isAt : views[position]? = some view) :
    (reportOn nQuestions views).deltaTotalAt position =
      view.divergence.deltaTotal := by
  have onAxis (axis : Axis) :
      ((reportOn nQuestions views).axisAggs.get
        axis).perQuestionDeltas.getD position 0 =
          ((view.delta axis : Int) : Rat) := by
    rw [perQuestionDeltas_reportOn, List.getD_eq_getElem?_getD,
      List.getElem?_map, isAt, Option.map_some, Option.getD_some]
  simp only [ReportData.deltaTotalAt, onAxis, axes, List.map_cons,
    List.map_nil, List.sum_cons, List.sum_nil, Unblinded.divergence,
    Unblinded.cagTotal, Unblinded.ragTotal, Unblinded.delta]
  push_cast
  ring

/-- The positions that are listed, as a sort of the positions finds them. -/
def topPositions (data : ReportData) : List Nat :=
  ((List.range data.nJudged).mergeSort
    (falling fun position => |data.deltaTotalAt position|)).take 3

theorem isTop_topPositions (data : ReportData) :
    IsTop (fun position => |data.deltaTotalAt position|) 3
      (List.range data.nJudged) (topPositions data) :=
  isTop_mergeSort _

/-- Sorting the positions is sorting the divergences. -/
theorem forall₂_topPositions :
    List.Forall₂
      (fun position divergence => ∃ view, views[position]? = some view ∧
        divergence = view.divergence)
      (topPositions (reportOn nQuestions views))
      (reportOn nQuestions views).mostDivergent := by
  refine List.forall₂_take 3 (forall₂_mergeSort ?_ ?_)
  · rintro position divergence ⟨view, isAt, rfl⟩
    rw [deltaTotalAt_reportOn nQuestions views isAt]
  · rw [List.forall₂_map_right_iff, List.forall₂_iff_get]
    refine ⟨List.length_range, fun position _ inside => ?_⟩
    refine ⟨views.get ⟨position, inside⟩, ?_, rfl⟩
    rw [List.get_eq_getElem, List.getElem_range, List.get_eq_getElem]
    exact List.getElem?_eq_getElem inside

variable {nQuestions views} {judged : List QuestionResult}

/-- The judged question and its unblinded view stand at the same position. -/
theorem exists_view (unblinded : judged.map unblind = views.map some)
    {position : Nat} {result : QuestionResult}
    (isAt : judged[position]? = some result) :
    ∃ view, views[position]? = some view ∧ unblind result = some view := by
  have same := congrArg (fun found => found[position]?) unblinded
  simp only [List.getElem?_map, isAt, Option.map_some] at same
  obtain ⟨view, isView, isSame⟩ := Option.map_eq_some_iff.mp same.symm
  exact ⟨view, isView, isSame.symm⟩

theorem exists_judged (unblinded : judged.map unblind = views.map some)
    {position : Nat} {view : Unblinded}
    (isAt : views[position]? = some view) :
    ∃ result, judged[position]? = some result ∧
      unblind result = some view := by
  have same := congrArg (fun found => found[position]?) unblinded
  simp only [List.getElem?_map, isAt, Option.map_some] at same
  exact Option.map_eq_some_iff.mp same

theorem listsMostDivergent
    (unblinded : judged.map unblind = views.map some) :
    ListsMostDivergent judged (reportOn nQuestions views)
      (topPositions (reportOn nQuestions views)) := by
  have top := isTop_topPositions (reportOn nQuestions views)
  have length : judged.length = views.length := by
    have lengths := congrArg List.length unblinded
    rwa [List.length_map, List.length_map] at lengths
  refine ⟨top.nodup List.nodup_range, ?_, ?_, ?_, ?_⟩
  · rw [top.length_eq, List.length_range, length]
    rfl
  · refine (forall₂_topPositions nQuestions views).imp ?_
    rintro position divergence ⟨view, isAt, rfl⟩
    obtain ⟨result, isResult, ofResult⟩ := exists_judged unblinded isAt
    exact ⟨result, isResult, divergenceOf_of_unblind ofResult,
      (deltaTotalAt_reportOn nQuestions views isAt).symm⟩
  · exact (pairwise_sorted _).sublist (List.take_sublist 3 _)
  · intro kept isKept position inside notListed
    rw [length] at inside
    exact top.le_of_not_mem (List.mem_range.mpr inside) notListed isKept

theorem forall₂_conflictViews (results : List QuestionResult) :
    List.Forall₂ ShowsConflict
      ((results.filter fun result => result.judge.isSome).filter fun result =>
        result.expectedBehavior = .conflictSurfaced)
      (reportOn nQuestions (results.filterMap unblind)).conflictViews := by
  have related := map_unblind_judged (results.filter fun result =>
    result.expectedBehavior = .conflictSurfaced)
  rw [← List.forall₂_eq_eq_eq, List.forall₂_map_left_iff,
    List.forall₂_map_right_iff, filterMap_unblind_filter, List.filter_comm]
    at related
  refine List.forall₂_map_right_iff.mpr (related.imp ?_)
  intro result view isView
  obtain ⟨ofCag, ofRag⟩ := unblindArmScores_of_unblind isView
  obtain ⟨outcome, _, rfl⟩ := Option.map_eq_some_iff.mp isView
  exact ⟨rfl, rfl, rfl, rfl, ofCag, ofRag⟩

theorem isConsistent_reportOn (results : List QuestionResult) :
    IsConsistent (results.filter fun result => result.judge.isSome)
      (reportOn nQuestions (results.filterMap unblind)) := by
  have unblinded := map_unblind_judged results
  refine ⟨(length_judged results).symm, ?_, fun axis => ?_, fun axis => ?_,
    fun axis => ?_, ⟨_, listsMostDivergent unblinded⟩,
    forall₂_conflictViews results⟩
  · intro axis position result isAt
    obtain ⟨view, isView, ofResult⟩ := exists_view unblinded isAt
    refine ⟨view.pair axis, unblindAxis_of_unblind ofResult axis, ?_⟩
    rw [perQuestionDeltas_reportOn, List.getElem?_map, isView]
    rfl
  · rw [reportOn, PerAxis.get_tabulate]
    exact axisAgg_counts _
  · rw [reportOn, PerAxis.get_tabulate]
    exact List.length_map _
  · rw [reportOn, PerAxis.get_tabulate]
    exact axisAgg_deltaMean _

/-- Neither the order of the results nor the ones without a judge outcome
change the counts and the means. -/
theorem sameSummary_reportOn {results others unjudged : List QuestionResult}
    (notJudged : ∀ result ∈ unjudged, result.judge = none)
    (perm : others.Perm (unjudged ++ results)) (otherQuestions : Nat)
    (axis : Axis) :
    SameSummary
      ((reportOn otherQuestions (others.filterMap unblind)).axisAggs.get axis)
      ((reportOn nQuestions (results.filterMap unblind)).axisAggs.get
        axis) := by
  have none : unjudged.filterMap unblind = [] := by
    refine List.filterMap_eq_nil_iff.mpr fun result member => ?_
    rw [unblind, notJudged result member, Option.map_none]
  have views := perm.filterMap unblind
  rw [List.filterMap_append, none, List.nil_append] at views
  rw [reportOn, reportOn, PerAxis.get_tabulate, PerAxis.get_tabulate]
  exact axisAgg_perm (views.map _)

/-- The report on any results is consistent, and the counts and the means of
its axes are those of the judged ones in any order. -/
theorem aggregate_isConsistent (results : List QuestionResult) :
    ∃ data, aggregate results = .ok data ∧
      IsConsistent (results.filter fun result => result.judge.isSome) data ∧
      ∀ others unjudged : List QuestionResult,
        (∀ result ∈ unjudged, result.judge = none) →
        others.Perm (unjudged ++ results) →
          ∃ other, aggregate others = .ok other ∧
            ∀ axis, SameSummary (other.axisAggs.get axis)
              (data.axisAggs.get axis) := by
  refine ⟨_, aggregate_eq_reportOn results, isConsistent_reportOn results,
    fun others unjudged notJudged perm => ?_⟩
  exact ⟨_, aggregate_eq_reportOn others,
    sameSummary_reportOn notJudged perm others.length⟩

end Report

end ProjectMemory.Eval
