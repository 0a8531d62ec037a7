import Mathlib.Algebra.Order.Ring.Rat
import Mathlib.Data.List.Perm.Basic
import ProjectMemory.Eval.Types

/-!
# The aggregation of a report

The scores of the judged questions are given back to the arms, averaged on each
axis and totalled for each question.  All of it can be said of the answers after
unblinding alone, in which the order they were shown in is forgotten.
-/

namespace ProjectMemory.Eval

/-! ## As the report computes it -/

section Aggregate

structure AxisAgg where
  cagMean : Rat
  ragMean : Rat
  deltaMean : Rat
  perQuestionDeltas : List Rat
  cagBetter : Nat
  ragBetter : Nat
  tie : Nat
  n : Nat
  deriving DecidableEq, Repr

structure QuestionDivergence where
  questionId : String
  expectedBehavior : ExpectedBehavior
  cagTotal : Rat
  ragTotal : Rat
  deltaTotal : Rat
  deriving DecidableEq, Repr

structure ConflictQuestionView where
  questionId : String
  questionText : String
  cagAnswer : String
  ragAnswer : String
  cagScores : ArmJudgeScores
  ragScores : ArmJudgeScores
  deriving DecidableEq, Repr

structure ReportData where
  axisAggs : PerAxis AxisAgg
  mostDivergent : List QuestionDivergence
  conflictViews : List ConflictQuestionView
  nQuestions : Nat
  nJudged : Nat
  deriving DecidableEq, Repr

def notJudged (result : QuestionResult) : String :=
  "Question " ++ result.questionId ++ " has no judge outcome"

/-- `_unblind_axis`; an error is an `EvalInvariantError`. -/
def unblindAxis (result : QuestionResult) (axis : Axis) :
    Except String (Int × Int) :=
  match result.judge with
  | none => .error (notJudged result)
  | some outcome =>
      let first := (outcome.scores.answer1.get axis).score.val
      let second := (outcome.scores.answer2.get axis).score.val
      if outcome.answer1Arm = .cag then .ok (first, second)
      else .ok (second, first)

/-- `_unblind_arm_scores`. -/
def unblindArmScores (result : QuestionResult) (arm : ArmKind) :
    Except String ArmJudgeScores :=
  match result.judge with
  | none => .error (notJudged result)
  | some outcome =>
      if outcome.answer1Arm = arm then .ok outcome.scores.answer1
      else .ok outcome.scores.answer2

/-- `sum(values) / n if n else 0.0`. -/
def meanOf (values : List Rat) : Rat :=
  if values.length = 0 then 0 else values.sum / values.length

/-- The aggregate of the scores of both arms on one axis. -/
def axisAgg (pairs : List (Int × Int)) : AxisAgg :=
  let deltas : List Rat := pairs.map fun pair => ((pair.1 - pair.2 : Int) : Rat)
  {
    cagMean := meanOf (pairs.map fun pair => (pair.1 : Rat))
    ragMean := meanOf (pairs.map fun pair => (pair.2 : Rat))
    deltaMean := meanOf deltas
    perQuestionDeltas := deltas
    cagBetter := deltas.countP fun delta => 0 < delta
    ragBetter := deltas.countP fun delta => delta < 0
    tie := deltas.countP fun delta => delta = 0
    n := pairs.length }

def divergenceOf (result : QuestionResult) :
    Except String QuestionDivergence := do
  let pairs ← axes.mapM (unblindAxis result)
  let cagTotal := (pairs.map Prod.fst).sum
  let ragTotal := (pairs.map Prod.snd).sum
  return {
    questionId := result.questionId
    expectedBehavior := result.expectedBehavior
    cagTotal := cagTotal
    ragTotal := ragTotal
    deltaTotal := ((cagTotal - ragTotal : Int) : Rat) }

def conflictViewOf (result : QuestionResult) :
    Except String ConflictQuestionView := do
  let cagScores ← unblindArmScores result .cag
  let ragScores ← unblindArmScores result .rag
  return {
    questionId := result.questionId
    questionText := result.questionText
    cagAnswer := result.cag.answer
    ragAnswer := result.rag.answer
    cagScores := cagScores
    ragScores := ragScores }

/-- `divergences.sort(key=..., reverse=True)`. -/
def sortByDivergence (divergences : List QuestionDivergence) :
    List QuestionDivergence :=
  divergences.mergeSort fun left right =>
    |right.deltaTotal| ≤ |left.deltaTotal|

def aggregate (results : List QuestionResult) : Except String ReportData := do
  let judged := results.filter fun result => result.judge.isSome
  let axisAggs ← PerAxis.tabulateM fun axis => do
    let pairs ← judged.mapM fun result => unblindAxis result axis
    return axisAgg pairs
  let divergences ← judged.mapM divergenceOf
  let conflictViews ← (judged.filter fun result =>
    result.expectedBehavior = .conflictSurfaced).mapM conflictViewOf
  return {
    axisAggs := axisAggs
    mostDivergent := (sortByDivergence divergences).take 3
    conflictViews := conflictViews
    nQuestions := results.length
    nJudged := judged.length }

end Aggregate

/-! ## After unblinding -/

section Unblinded

/-- A judged question with the scores of each arm. -/
structure Unblinded where
  questionId : String
  questionText : String
  expectedBehavior : ExpectedBehavior
  cagAnswer : String
  ragAnswer : String
  cagScores : ArmJudgeScores
  ragScores : ArmJudgeScores
  deriving DecidableEq, Repr

/-- The scores that a judge gave to the answer of an arm. -/
def JudgeOutcome.scoresOf (outcome : JudgeOutcome) (arm : ArmKind) :
    ArmJudgeScores :=
  if outcome.answer1Arm = arm then outcome.scores.answer1
  else outcome.scores.answer2

def unblind (result : QuestionResult) : Option Unblinded :=
  result.judge.map fun outcome => {
    questionId := result.questionId
    questionText := result.questionText
    expectedBehavior := result.expectedBehavior
    cagAnswer := result.cag.answer
    ragAnswer := result.rag.answer
    cagScores := outcome.scoresOf .cag
    ragScores := outcome.scoresOf .rag }

def Unblinded.pair (view : Unblinded) (axis : Axis) : Int × Int :=
  ((view.cagScores.get axis).score.val, (view.ragScores.get axis).score.val)

/-- The difference between the arms on an axis. -/
def Unblinded.delta (view : Unblinded) (axis : Axis) : Int :=
  (view.pair axis).1 - (view.pair axis).2

def Unblinded.cagTotal (view : Unblinded) : Int :=
  (axes.map fun axis => (view.pair axis).1).sum

def Unblinded.ragTotal (view : Unblinded) : Int :=
  (axes.map fun axis => (view.pair axis).2).sum

def Unblinded.divergence (view : Unblinded) : QuestionDivergence where
  questionId := view.questionId
  expectedBehavior := view.expectedBehavior
  cagTotal := view.cagTotal
  ragTotal := view.ragTotal
  deltaTotal := ((view.cagTotal - view.ragTotal : Int) : Rat)

def Unblinded.conflictView (view : Unblinded) : ConflictQuestionView where
  questionId := view.questionId
  questionText := view.questionText
  cagAnswer := view.cagAnswer
  ragAnswer := view.ragAnswer
  cagScores := view.cagScores
  ragScores := view.ragScores

/-- The report on unblinded answers, out of so many questions. -/
def reportOn (nQuestions : Nat) (views : List Unblinded) : ReportData where
  axisAggs := PerAxis.tabulate fun axis =>
    axisAgg (views.map fun view => view.pair axis)
  mostDivergent :=
    (sortByDivergence (views.map Unblinded.divergence)).take 3
  conflictViews :=
    (views.filter fun view =>
      view.expectedBehavior = .conflictSurfaced).map Unblinded.conflictView
  nQuestions := nQuestions
  nJudged := views.length

theorem unblindAxis_of_unblind {result : QuestionResult} {view : Unblinded}
    (unblinded : unblind result = some view) (axis : Axis) :
    unblindAxis result axis = .ok (view.pair axis) := by
  obtain ⟨outcome, judged, rfl⟩ := Option.map_eq_some_iff.mp unblinded
  rw [unblindAxis, judged]
  cases first : outcome.answer1Arm with
  | cag => simp [Unblinded.pair, JudgeOutcome.scoresOf, first]
  | rag => simp [Unblinded.pair, JudgeOutcome.scoresOf, first]

theorem unblindArmScores_of_unblind {result : QuestionResult}
    {view : Unblinded} (unblinded : unblind result = some view) :
    unblindArmScores result .cag = .ok view.cagScores ∧
      unblindArmScores result .rag = .ok view.ragScores := by
  obtain ⟨outcome, judged, rfl⟩ := Option.map_eq_some_iff.mp unblinded
  rw [unblindArmScores, unblindArmScores, judged]
  cases first : outcome.answer1Arm with
  | cag => simp [JudgeOutcome.scoresOf, first]
  | rag => simp [JudgeOutcome.scoresOf, first]

theorem divergenceOf_of_unblind {result : QuestionResult} {view : Unblinded}
    (unblinded : unblind result = some view) :
    divergenceOf result = .ok view.divergence := by
  have onAxis := unblindAxis_of_unblind unblinded
  obtain ⟨outcome, judged, rfl⟩ := Option.map_eq_some_iff.mp unblinded
  simp only [divergenceOf, axes, List.mapM_cons, List.mapM_nil, onAxis]
  rfl

theorem conflictViewOf_of_unblind {result : QuestionResult} {view : Unblinded}
    (unblinded : unblind result = some view) :
    conflictViewOf result = .ok view.conflictView := by
  obtain ⟨ofCag, ofRag⟩ := unblindArmScores_of_unblind unblinded
  obtain ⟨outcome, judged, rfl⟩ := Option.map_eq_some_iff.mp unblinded
  simp only [conflictViewOf, ofCag, ofRag]
  rfl

/-- A loop over the judged questions is a loop over their unblinded views. -/
theorem mapM_judged {Value : Type} {read : QuestionResult → Except String Value}
    {found : Unblinded → Value}
    (isFound : ∀ result view, unblind result = some view →
      read result = .ok (found view)) (results : List QuestionResult) :
    (results.filter fun result => result.judge.isSome).mapM read =
      .ok ((results.filterMap unblind).map found) := by
  induction results with
  | nil => rfl
  | cons result results inductionHypothesis =>
      cases judged : result.judge with
      | none =>
          have blind : unblind result = none := by
            rw [unblind, judged, Option.map_none]
          rw [List.filter_cons_of_neg (by simp [judged]),
            List.filterMap_cons_none blind, inductionHypothesis]
      | some outcome =>
          obtain ⟨view, isView⟩ : ∃ view, unblind result = some view := by
            rw [unblind, judged]
            exact ⟨_, rfl⟩
          rw [List.filter_cons_of_pos (by simp [judged]),
            List.filterMap_cons_some isView, List.mapM_cons,
            isFound result view isView, inductionHypothesis, List.map_cons]
          rfl

theorem filterMap_unblind_filter (behavior : ExpectedBehavior)
    (results : List QuestionResult) :
    (results.filter fun result => result.expectedBehavior = behavior).filterMap
        unblind =
      (results.filterMap unblind).filter fun view =>
        view.expectedBehavior = behavior := by
  rw [List.filterMap_filter, List.filter_filterMap]
  refine List.filterMap_congr fun result _ => ?_
  cases judged : result.judge with
  | none => simp [unblind, judged]
  | some outcome => simp [unblind, judged, Option.filter]

theorem map_unblind_judged (results : List QuestionResult) :
    (results.filter fun result => result.judge.isSome).map unblind =
      (results.filterMap unblind).map some := by
  rw [List.map_filterMap_some_eq_filter_map_isSome, List.filter_map]
  refine congrArg (List.map unblind) (List.filter_congr fun result _ => ?_)
  rw [Function.comp_apply, unblind, Option.isSome_map]

theorem length_judged (results : List QuestionResult) :
    (results.filter fun result => result.judge.isSome).length =
      (results.filterMap unblind).length := by
  have lengths := congrArg List.length (map_unblind_judged results)
  rwa [List.length_map, List.length_map] at lengths

/-- The report raises for no results: it is the report on what unblinding
leaves of them. -/
theorem aggregate_eq_reportOn (results : List QuestionResult) :
    aggregate results =
      .ok (reportOn results.length (results.filterMap unblind)) := by
  have onAxis (axis : Axis) :
      ((results.filter fun result => result.judge.isSome).mapM
          fun result => unblindAxis result axis) =
        .ok ((results.filterMap unblind).map fun view => view.pair axis) :=
    mapM_judged (fun _ _ unblinded => unblindAxis_of_unblind unblinded axis)
      results
  have divergences := mapM_judged
    (fun _ _ unblinded => divergenceOf_of_unblind unblinded) results
  have views := mapM_judged
    (fun _ _ unblinded => conflictViewOf_of_unblind unblinded)
    (results.filter fun result =>
      result.expectedBehavior = .conflictSurfaced)
  rw [filterMap_unblind_filter, List.filter_comm] at views
  simp only [aggregate, onAxis, divergences, views, length_judged]
  rfl

end Unblinded

end ProjectMemory.Eval
