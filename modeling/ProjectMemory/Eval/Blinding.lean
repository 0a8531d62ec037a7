import Mathlib.Data.List.Infix
import Mathlib.Data.List.TakeWhile
import ProjectMemory.Eval.Judge
import ProjectMemory.Eval.Gate

/-!
# Unblinding undoes blinding

A judge that does not mind which answer it is shown first gives each arm the
scores of its answer, whatever was drawn.  The report and the grades read them
back in three places, each in its own way.
-/

namespace ProjectMemory.Eval

def ArmKind.other : ArmKind → ArmKind
  | .cag => .rag
  | .rag => .cag

/-! ## One question -/

section Question

variable {Memory : Type} {judge : Judge Memory}

/-- The scores of an answer beside another, for a question with its sources. -/
abbrev Grading :=
  Question → List String → String → String → ArmJudgeScores

/-- The scores of an answer do not depend on which one is shown first. -/
def IsFair (judge : Judge Memory) (grading : Grading) : Prop :=
  ∀ memory question answer1 answer2 sourceTexts scores,
    (callAndParse judge
      (buildJudgeMessages question answer1 answer2 sourceTexts) memory).1 =
        .ok scores →
      scores = {
        answer1 := grading question sourceTexts answer1 answer2
        answer2 := grading question sourceTexts answer2 answer1 }

def AnsweredQuestion.answer (answered : AnsweredQuestion) :
    ArmKind → String
  | .cag => answered.cag.answer
  | .rag => answered.rag.answer

/-- The scores that an arm deserves. -/
def Grading.of (grading : Grading) (answered : AnsweredQuestion)
    (arm : ArmKind) : ArmJudgeScores :=
  grading answered.question answered.sourceTexts (answered.answer arm)
    (answered.answer arm.other)

/-- An outcome gives every arm its scores. -/
structure Attributes (grading : Grading) (answered : AnsweredQuestion)
    (outcome : JudgeOutcome) : Prop where
  scoresOf : ∀ arm, outcome.scoresOf arm = grading.of answered arm
  answer2Arm : outcome.answer2Arm = outcome.answer1Arm.other

theorem attributes_of_judgeQuestion {grading : Grading}
    (fair : IsFair judge grading) {answered : AnsweredQuestion} {draw : Rat}
    {memory : Memory} {outcome : JudgeOutcome}
    (judged : (judgeQuestion judge answered.question answered.cag.answer
      answered.rag.answer answered.sourceTexts draw memory).1 =
        .ok outcome) :
    Attributes grading answered outcome := by
  rw [judgeQuestion] at judged
  split at judged
  case h_1 => cases judged
  case h_2 scores after called =>
    have isGrading := fair memory answered.question _ _ answered.sourceTexts
      scores (congrArg Prod.fst called)
    obtain rfl := Except.ok.inj judged
    rw [isGrading]
    by_cases first : draw < 1 / 2
    · simp only [present, if_pos first]
      exact ⟨fun arm => by cases arm <;> rfl, rfl⟩
    · simp only [present, if_neg first]
      exact ⟨fun arm => by cases arm <;> rfl, rfl⟩

end Question

/-! ## Reading the scores back -/

section ReadingBack

variable {grading : Grading} {answered : AnsweredQuestion}
  {outcome : JudgeOutcome}

/-- A judged question after unblinding. -/
def Grading.view (grading : Grading) (answered : AnsweredQuestion) :
    Unblinded where
  questionId := answered.question.id
  questionText := answered.question.questionText
  expectedBehavior := answered.question.expectedBehavior
  cagAnswer := answered.cag.answer
  ragAnswer := answered.rag.answer
  cagScores := grading.of answered .cag
  ragScores := grading.of answered .rag

theorem Attributes.unblind_result
    (attributes : Attributes grading answered outcome) :
    unblind (answered.result (some outcome)) = some (grading.view answered) := by
  rw [Grading.view, ← attributes.scoresOf, ← attributes.scoresOf]
  rfl

end ReadingBack

/-! ## The whole run -/

section Run

variable {Memory : Type} {judge : Judge Memory} {grading : Grading}

/-- A result of an answered question in which the judge was fair. -/
def IsJudged (grading : Grading) (answered : AnsweredQuestion)
    (result : QuestionResult) : Prop :=
  ∃ outcome, result = answered.result (some outcome) ∧
    Attributes grading answered outcome

theorem isJudged_judgeAll (fair : IsFair judge grading)
    {draws : Nat → Rat} {questions : List AnsweredQuestion} {memory : Memory}
    {results : List QuestionResult}
    (judged : (judgeAll judge draws questions memory).1 = .ok results) :
    List.Forall₂ (IsJudged grading) questions results := by
  induction questions generalizing draws memory results with
  | nil =>
      obtain rfl := Except.ok.inj judged
      exact .nil
  | cons answered questions inductionHypothesis =>
      rw [judgeAll] at judged
      split at judged
      case h_1 => cases judged
      case h_2 outcome after called =>
        split at judged
        case h_1 => cases judged
        case h_2 rest final others =>
          obtain rfl := Except.ok.inj judged
          have attributes := attributes_of_judgeQuestion fair
            (congrArg Prod.fst called)
          exact .cons ⟨outcome, rfl, attributes⟩
            (inductionHypothesis (congrArg Prod.fst others))

/-- Unblinding the results forgets the draws. -/
theorem filterMap_unblind_of_isJudged {questions : List AnsweredQuestion}
    {results : List QuestionResult}
    (judged : List.Forall₂ (IsJudged grading) questions results) :
    results.filterMap unblind = questions.map grading.view := by
  induction judged with
  | nil => rfl
  | cons isJudged _ inductionHypothesis =>
      obtain ⟨outcome, rfl, attributes⟩ := isJudged
      rw [List.filterMap_cons_some attributes.unblind_result,
        inductionHypothesis, List.map_cons]

theorem aggregate_eq_of_isJudged {questions : List AnsweredQuestion}
    {results others : List QuestionResult}
    (judged : List.Forall₂ (IsJudged grading) questions results)
    (otherJudged : List.Forall₂ (IsJudged grading) questions others) :
    aggregate others = aggregate results := by
  rw [aggregate_eq_reportOn, aggregate_eq_reportOn,
    filterMap_unblind_of_isJudged judged,
    filterMap_unblind_of_isJudged otherJudged, ← judged.length_eq,
    ← otherJudged.length_eq]

end Run

/-! ## A judge that prefers the answer with a paragraph sign -/

section Sample

end Sample

end ProjectMemory.Eval
