import ProjectMemory.Eval.Calibrate

/-!
# The text of a report

The aggregated results as a document of lines.
-/

namespace ProjectMemory.Eval

open Foundation

/-- `_fmt_delta`. -/
def fmtDelta (delta : Rat) : String :=
  signedFixedPoint 2 delta

def boolStr (value : Bool) : String :=
  if value then "True" else "False"

def reportHead (data : ReportData) (runMeta : RunMeta) : List String :=
  ["# CAG vs RAG Evaluation Report — " ++ runMeta.runId,
    "",
    "- Generated: " ++ runMeta.createdAt,
    "- Generation model: `" ++ runMeta.generationModel ++ "`",
    "- Judge model: `" ++ runMeta.judgeModel ++ "`",
    "- Mock LLM: " ++ boolStr runMeta.mockLlm,
    "- Questions: " ++ toString data.nQuestions ++ " (judged: " ++
      toString data.nJudged ++ ")",
    ""]

/-! ## Calibration -/

def noCalibrationRun : String :=
  "> No calibration run. Judge trustworthiness is NOT established. " ++
  "Run `python -m eval.calibrate` with human grades before interpreting."

def scaffoldNotFilledIn : String :=
  "> Calibration scaffold not yet filled in (n=0). Judge trustworthiness " ++
  "is NOT established. Fill in eval/fixtures/human_grades.yaml for ~5 " ++
  "questions before interpreting the full run."

def looksTrustworthy (n : Nat) : String :=
  "> Judge scores look trustworthy (n=" ++ toString n ++ ")."

def axisLine (axis : Axis) (calibration : AxisCalibration) : String :=
  "> - " ++ axis.str ++ ": mean_abs_diff=" ++
    fixedPoint 2 calibration.meanAbsDiff ++
    " exact=" ++ fixedPoint 2 calibration.exactAgreement ++
    " within_one=" ++ fixedPoint 2 calibration.withinOneAgreement

def axisLines (perAxis : PerAxis AxisCalibration) : List String :=
  (axes.filter fun axis => (perAxis.get axis).n ≠ 0).map fun axis =>
    axisLine axis (perAxis.get axis)

/-- An absent warning is printed by its name. -/
def warningLine (warning : Option String) : String :=
  "> ⚠️ **" ++ warning.getD "None" ++ "**"

def calibrationLines : Option CalibrationResult → List String
  | none => [noCalibrationRun]
  | some calibration =>
      if calibration.n = 0 then [scaffoldNotFilledIn]
      else if calibration.trustworthy then
        looksTrustworthy calibration.n :: axisLines calibration.perAxis
      else [warningLine calibration.warning]

/-! ## The three questions -/

def meansLine (axis : Axis) (agg : AxisAgg) : String :=
  "| " ++ axis.str ++ " | " ++ fixedPoint 2 agg.cagMean ++ " | " ++
    fixedPoint 2 agg.ragMean ++ " | " ++ fmtDelta agg.deltaMean ++ " " ++
    "| " ++ toString agg.cagBetter ++ " | " ++ toString agg.ragBetter ++
    " | " ++ toString agg.tie ++ " |"

def qualityLines (data : ReportData) : List String :=
  if data.nJudged = 0 then
    ["> No judged questions; cannot compare arms."]
  else
    ["| Axis | CAG mean | RAG mean | Δ (CAG-RAG) | CAG better | RAG better | tie |",
      "|---|---|---|---|---|---|---|"] ++
    (axes.map fun axis => meansLine axis (data.axisAggs.get axis)) ++
    ["",
      "Per-question Δ distribution (CAG-RAG, factual_correctness):",
      "  " ++ ", ".intercalate
        ((data.axisAggs.get .factualCorrectness).perQuestionDeltas.map
          fmtDelta),
      "",
      "> Note: this is **descriptive, not a significance test**. n is small " ++
      "(" ++ toString data.nJudged ++
      "); a mean hides whether CAG helps some questions and " ++
      "hurts others — inspect the per-question Δ distribution above."]

def divergenceLine (divergence : QuestionDivergence) : String :=
  "- `" ++ divergence.questionId ++ "` (" ++
    divergence.expectedBehavior.str ++ "): " ++
    "CAG total " ++ fixedPoint 0 divergence.cagTotal ++
    ", RAG total " ++ fixedPoint 0 divergence.ragTotal ++ ", " ++
    "Δ " ++ fmtDelta divergence.deltaTotal ++
    " — review both answers for style drift."

def styleLines (data : ReportData) : List String :=
  if data.mostDivergent.isEmpty then
    ["> No judged questions to compare."]
  else
    ["Questions where the two arms diverged most in total score:", ""] ++
    data.mostDivergent.map divergenceLine ++
    ["",
      "> Inspect these answers by hand for stylistic or consistency " ++
      "differences between the CAG and RAG arms."]

def conflictHandlingLine (arm : String) (scores : ArmJudgeScores) : String :=
  "- " ++ arm ++ " conflict_handling: " ++
    toString scores.conflictHandling.score.val ++ "/5 " ++
    "— " ++ scores.conflictHandling.justification

def conflictViewLines (view : ConflictQuestionView) : List String :=
  ["### " ++ view.questionId,
    "Question: " ++ view.questionText,
    "",
    conflictHandlingLine "CAG" view.cagScores,
    conflictHandlingLine "RAG" view.ragScores,
    "",
    "**CAG answer (verbatim):**",
    "",
    "> " ++ view.cagAnswer,
    "",
    "**RAG answer (verbatim):**",
    "",
    "> " ++ view.ragAnswer,
    ""]

def consensusLines (data : ReportData) : List String :=
  if data.conflictViews.isEmpty then
    ["> No conflict_surfaced questions in this run."]
  else
    data.conflictViews.flatMap conflictViewLines ++
    ["> Did either arm surface the disagreement (cite both sides) rather " ++
      "than fabricate consensus? Judge conflict_handling and the verbatim " ++
      "answers above answer Q3 directly."]

def reportBody (data : ReportData) : List String :=
  ["## Q1 — Does belief-state injection beat plain RAG on answer quality?",
    ""] ++ qualityLines data ++
  ["",
    "## Q2 — Does injection change response style/consistency?",
    ""] ++ styleLines data ++
  ["",
    "## Q3 — Does the system fabricate false consensus, or hedge correctly?",
    ""] ++ consensusLines data ++
  ["",
    "---",
    "",
    "**POC-grade:** these results are proof-of-concept grade. n is small, the " ++
    "corpus is synthetic, and (under the mock) the numbers are meaningless. " ++
    "Do not treat this as a benchmark.",
    ""]

def renderReport (data : ReportData) (calibration : Option CalibrationResult)
    (runMeta : RunMeta) : String :=
  "\n".intercalate
    (reportHead data runMeta ++ "## Calibration" ::
      calibrationLines calibration ++ "" :: reportBody data)

end ProjectMemory.Eval
