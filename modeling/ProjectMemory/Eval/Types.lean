/-!
# The types of the evaluation

Questions, the answers of the two arms, what the judge says about them and what
a calibration finds.  The judge sees the answers as the first and the second;
which arm each is from is kept beside the scores.
-/

namespace ProjectMemory.Eval

inductive ArmKind where
  | cag
  | rag
  deriving DecidableEq, Repr

def ArmKind.str : ArmKind → String
  | .cag => "cag"
  | .rag => "rag"

inductive ExpectedBehavior where
  | factual
  | supersessionResolved
  | conflictSurfaced
  deriving DecidableEq, Repr

def ExpectedBehavior.str : ExpectedBehavior → String
  | .factual => "factual"
  | .supersessionResolved => "supersession_resolved"
  | .conflictSurfaced => "conflict_surfaced"

inductive Axis where
  | factualCorrectness
  | grounding
  | conflictHandling
  deriving DecidableEq, Repr

def Axis.str : Axis → String
  | .factualCorrectness => "factual_correctness"
  | .grounding => "grounding"
  | .conflictHandling => "conflict_handling"

/-- `AXES`. -/
def axes : List Axis :=
  [.factualCorrectness, .grounding, .conflictHandling]

@[simp]
theorem mem_axes (axis : Axis) : axis ∈ axes := by
  cases axis <;> simp [axes]

/-- A value for each axis. -/
structure PerAxis (Value : Type) where
  factualCorrectness : Value
  grounding : Value
  conflictHandling : Value
  deriving DecidableEq, Repr

namespace PerAxis

variable {Value : Type}

/-- `getattr(values, axis)`. -/
def get (values : PerAxis Value) : Axis → Value
  | .factualCorrectness => values.factualCorrectness
  | .grounding => values.grounding
  | .conflictHandling => values.conflictHandling

def tabulate (value : Axis → Value) : PerAxis Value where
  factualCorrectness := value .factualCorrectness
  grounding := value .grounding
  conflictHandling := value .conflictHandling

@[simp]
theorem get_tabulate (value : Axis → Value) (axis : Axis) :
    (tabulate value).get axis = value axis := by
  cases axis <;> rfl

/-- The values in the order of the axes; the first that raises ends the
loop. -/
def tabulateM {Failure : Type} (value : Axis → Except Failure Value) :
    Except Failure (PerAxis Value) := do
  let factualCorrectness ← value .factualCorrectness
  let grounding ← value .grounding
  let conflictHandling ← value .conflictHandling
  return {
    factualCorrectness := factualCorrectness
    grounding := grounding
    conflictHandling := conflictHandling }

end PerAxis

structure Question where
  id : String
  questionText : String
  referenceAnswer : String
  expectedBehavior : ExpectedBehavior
  grounding : List String
  deriving DecidableEq, Repr

/-- A score from one to five. -/
abbrev Score :=
  { score : Int // 1 ≤ score ∧ score ≤ 5 }

structure AxisScore where
  score : Score
  justification : String
  deriving DecidableEq, Repr

abbrev ArmJudgeScores :=
  PerAxis AxisScore

structure JudgeScores where
  answer1 : ArmJudgeScores
  answer2 : ArmJudgeScores
  deriving DecidableEq, Repr

structure JudgeOutcome where
  answer1Arm : ArmKind
  answer2Arm : ArmKind
  scores : JudgeScores
  promptTokens : Option Nat := none
  completionTokens : Option Nat := none
  deriving DecidableEq, Repr

structure ChunkRef where
  documentId : String
  chunkIndex : Nat
  filename : String
  deriving DecidableEq, Repr

structure ArmResult where
  answer : String
  chunks : List ChunkRef
  beliefStateVersion : Option Nat
  promptTokens : Option Nat
  completionTokens : Option Nat
  latencyMs : Int
  deriving DecidableEq, Repr

structure QuestionResult where
  questionId : String
  questionText : String
  referenceAnswer : String
  expectedBehavior : ExpectedBehavior
  grounding : List String
  cag : ArmResult
  rag : ArmResult
  retrievalMatch : Bool
  judge : Option JudgeOutcome
  deriving DecidableEq, Repr

/-- The scores of one arm on one question, by a person or by the judge. -/
structure Grade where
  questionId : String
  arm : ArmKind
  scores : PerAxis Score
  deriving DecidableEq, Repr

abbrev HumanGrade := Grade

abbrev JudgeGrade := Grade

/-- What a person's and the judge's grades are matched by. -/
def Grade.key (grade : Grade) : String × ArmKind :=
  (grade.questionId, grade.arm)

structure AxisCalibration where
  meanAbsDiff : Rat
  exactAgreement : Rat
  withinOneAgreement : Rat
  n : Nat
  deriving DecidableEq, Repr

structure CalibrationResult where
  trustworthy : Bool
  warning : Option String
  perAxis : PerAxis AxisCalibration
  n : Nat
  deriving DecidableEq, Repr

structure RunMeta where
  runId : String
  projectId : String
  createdAt : String
  generationModel : String
  judgeModel : String
  mockLlm : Bool
  deriving DecidableEq, Repr

end ProjectMemory.Eval
