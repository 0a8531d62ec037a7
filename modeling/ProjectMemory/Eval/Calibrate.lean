import ProjectMemory.Eval.Report
import ProjectMemory.Foundation.Decimals
import ProjectMemory.Foundation.KeyedStore
import ProjectMemory.Foundation.RunningMax

/-!
# The calibration of the judge

The scores of the judge are compared with those of a person.  Where they differ
too much on some axis, the result carries a warning.
-/

namespace ProjectMemory.Eval

open Foundation

def defaultWarnThreshold : Rat := 1

/-- `human_by_key`: the last grade with a key stays. -/
def humanByKey (humanGrades : List HumanGrade) :
    String × ArmKind → Option HumanGrade :=
  upsert (fun _ => none) (humanGrades.map fun grade => (grade.key, grade))

/-- The grades of the judge that a person graded as well. -/
def matchedGrades (judgeGrades : List JudgeGrade)
    (humanGrades : List HumanGrade) : List (JudgeGrade × HumanGrade) :=
  judgeGrades.filterMap fun grade =>
    (humanByKey humanGrades grade.key).map fun human => (grade, human)

def axisDiffs (pairs : List (JudgeGrade × HumanGrade)) (axis : Axis) :
    List Int :=
  pairs.map fun pair =>
    |(pair.1.scores.get axis).val - (pair.2.scores.get axis).val|

def axisCalibration (values : List Int) : AxisCalibration :=
  if values.length = 0 then {
    meanAbsDiff := 0
    exactAgreement := 0
    withinOneAgreement := 0
    n := 0 }
  else {
    meanAbsDiff := (values.sum : Rat) / values.length
    exactAgreement :=
      ((values.countP fun diff => diff = 0 : Nat) : Rat) / values.length
    withinOneAgreement :=
      ((values.countP fun diff => diff ≤ 1 : Nat) : Rat) / values.length
    n := values.length }

/-- The axis with the largest mean difference above zero; an axis without
values is passed over. -/
def worstAxis (perAxis : PerAxis AxisCalibration) : Option Axis × Rat :=
  runningMax (fun axis => (perAxis.get axis).meanAbsDiff) 0
    (axes.filter fun axis => (perAxis.get axis).n ≠ 0)

def warningText (axis : Axis) (worstDiff warnThreshold : Rat) : String :=
  "JUDGE SCORES UNTRUSTWORTHY: mean abs diff on axis " ++
    "'" ++ axis.str ++ "' is " ++ fixedPoint 2 worstDiff ++ " > " ++
    fixedPoint 2 warnThreshold ++ ". " ++
    "The judge rubric needs revision before interpreting the full run."

/-- What the differences of the matched pairs come to. -/
def calibrationOf (pairs : List (JudgeGrade × HumanGrade))
    (warnThreshold : Rat) : CalibrationResult :=
  let perAxis := PerAxis.tabulate fun axis =>
    axisCalibration (axisDiffs pairs axis)
  let totalN := (axes.map fun axis => (perAxis.get axis).n).foldl max 0
  let trusted := {
    trustworthy := true
    warning := none
    perAxis := perAxis
    n := totalN }
  if totalN = 0 then trusted
  else
    match worstAxis perAxis with
    | (none, _) => trusted
    | (some axis, worstDiff) =>
        if warnThreshold < worstDiff then {
          trustworthy := false
          warning := some (warningText axis worstDiff warnThreshold)
          perAxis := perAxis
          n := totalN }
        else trusted

def computeCalibration (judgeGrades : List JudgeGrade)
    (humanGrades : List HumanGrade) (warnThreshold : Rat) :
    CalibrationResult :=
  calibrationOf (matchedGrades judgeGrades humanGrades) warnThreshold

end ProjectMemory.Eval
