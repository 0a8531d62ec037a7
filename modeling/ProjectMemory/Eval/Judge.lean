import ProjectMemory.Eval.Types
import ProjectMemory.Ingestion.Summarizer

/-!
# The blind judge

The judge compares two answers to a question without knowing where they come
from.  A random number decides which arm is shown first, and the outcome keeps
the decision so that the scores can be given back to the arms.
-/

namespace ProjectMemory.Eval

open Ingestion

def judgeSystem : String :=
  "You are an impartial blind evaluator comparing two answers to the same " ++
  "question. You are NOT told how either answer was produced. Judge each answer " ++
  "on its own merits against the reference answer and the provided source " ++
  "documents. Return strict JSON only."

def rubricIntro : String :=
  "Score EACH answer independently on three axes, 1-5, with a one-line " ++
  "justification per score:\n" ++
  "- factual_correctness: agreement with the reference answer and the sources; " ++
  "5 = fully correct, 1 = mostly wrong.\n" ++
  "- grounding: are claims attributable to the provided sources and cited; does " ++
  "it avoid inventing facts not in the sources; 5 = fully grounded, 1 = " ++
  "fabricated.\n" ++
  "- conflict_handling: see the question-specific rule below."

/-- `_CONFLICT_RULES`. -/
def conflictRule : ExpectedBehavior → String
  | .factual =>
      "conflict_handling is N/A for this question type: score 3 for both answers."
  | .supersessionResolved =>
      "conflict_handling: 5 if the answer reflects the LATER decision and does " ++
      "not assert the superseded one as current; lower if it asserts the " ++
      "superseded decision or treats both as equally current."
  | .conflictSurfaced =>
      "conflict_handling: 5 if the answer surfaces BOTH sides of the " ++
      "disagreement and cites both, without fabricating consensus; lower if it " ++
      "silently picks one side or asserts a single value as settled."

def jsonShape : String :=
  "Return JSON shaped exactly as: " ++
  "\x7b\"answer1\": \x7b\"factual_correctness\": \x7b\"score\": <1-5>, " ++
  "\"justification\": \"...\"\x7d, " ++
  "\"grounding\": \x7b\"score\": <1-5>, \"justification\": \"...\"\x7d, " ++
  "\"conflict_handling\": \x7b\"score\": <1-5>, \"justification\": \"...\"\x7d\x7d, " ++
  "\"answer2\": \x7b\"factual_correctness\": \x7b...\x7d, \"grounding\": \x7b...\x7d, " ++
  "\"conflict_handling\": \x7b...\x7d\x7d\x7d."

def docBlocks (sourceTexts : List String) : String :=
  "\n\n".intercalate (sourceTexts.mapIdx fun position text =>
    "[Doc " ++ toString (position + 1) ++ "] " ++ text)

def buildJudgeMessages (question : Question) (answer1 answer2 : String)
    (sourceTexts : List String) : List Message :=
  let user := "\n\n".intercalate [
    "Question: " ++ question.questionText,
    "Reference answer (ground truth): " ++ question.referenceAnswer,
    "Source documents:\n" ++ docBlocks sourceTexts,
    "Answer 1:\n" ++ answer1,
    "Answer 2:\n" ++ answer2,
    rubricIntro,
    conflictRule question.expectedBehavior,
    jsonShape]
  [{ role := "system", content := judgeSystem },
    { role := "user", content := user }]

section Judge

variable {Memory : Type}

/-- Why `parse_judge_json` raises: `JSONDecodeError` or `ValueError`, which
are caught, or something else. -/
inductive ScoresError where
  | rejected (message : String)
  | other (message : String)
  deriving DecidableEq, Repr

inductive JudgeError where
  | llmError (message : String)
  | valueError (message : String)
  | other (message : String)
  deriving DecidableEq, Repr

/-- The LLM that judges, which may remember what it was asked, and
`parse_judge_json`. -/
structure Judge (Memory : Type) where
  llm : Memory → List Message → String → Except String String × Memory
  parseJudgeJson : String → Except ScoresError JudgeScores
  judgeModel : String

variable (judge : Judge Memory)

def retryMessage (lastError : String) : Message where
  role := "user"
  content :=
    "Your previous response was not valid JSON matching the " ++
    "required shape. Error: " ++ lastError ++ ". Return ONLY the " ++
    "JSON object, no prose, no code fences."

/-- The attempts that are left from a given one on. -/
def judgeAttempts (messages : List Message) :
    Nat → Nat → String → Memory → Except JudgeError JudgeScores × Memory
  | 0, _, lastError, memory =>
      (.error (.valueError
        ("Judge output failed validation after retry: " ++ lastError)), memory)
  | left + 1, attempt, lastError, memory =>
      let current :=
        if attempt = 1 then messages ++ [retryMessage lastError] else messages
      match judge.llm memory current judge.judgeModel with
      | (.error message, after) => (.error (.llmError message), after)
      | (.ok text, after) =>
          match judge.parseJudgeJson text with
          | .ok scores => (.ok scores, after)
          | .error (.rejected message) =>
              judgeAttempts messages left (attempt + 1) message after
          | .error (.other message) => (.error (.other message), after)

/-- `_call_and_parse`. -/
def callAndParse (messages : List Message) (memory : Memory) :
    Except JudgeError JudgeScores × Memory :=
  judgeAttempts judge messages 2 0 "" memory

/-- Which arm is shown first, and which second, with their answers. -/
structure Presentation where
  answer1Arm : ArmKind
  answer2Arm : ArmKind
  answer1 : String
  answer2 : String
  deriving DecidableEq, Repr

/-- The order that `rng.random()` decides. -/
def present (draw : Rat) (cagAnswer ragAnswer : String) : Presentation :=
  if draw < 1 / 2 then {
    answer1Arm := .cag
    answer2Arm := .rag
    answer1 := cagAnswer
    answer2 := ragAnswer }
  else {
    answer1Arm := .rag
    answer2Arm := .cag
    answer1 := ragAnswer
    answer2 := cagAnswer }

/-- The messages of `judge_question`. -/
def judgeMessages (question : Question) (cagAnswer ragAnswer : String)
    (sourceTexts : List String) (draw : Rat) : List Message :=
  let shown := present draw cagAnswer ragAnswer
  buildJudgeMessages question shown.answer1 shown.answer2 sourceTexts

/-- `judge_question`, from the number that was drawn for it. -/
def judgeQuestion (question : Question) (cagAnswer ragAnswer : String)
    (sourceTexts : List String) (draw : Rat) (memory : Memory) :
    Except JudgeError JudgeOutcome × Memory :=
  let shown := present draw cagAnswer ragAnswer
  match callAndParse judge
      (judgeMessages question cagAnswer ragAnswer sourceTexts draw) memory with
  | (.error failure, after) => (.error failure, after)
  | (.ok scores, after) =>
      (.ok {
        answer1Arm := shown.answer1Arm
        answer2Arm := shown.answer2Arm
        scores := scores }, after)

/-- A question that both arms have answered, with its source documents. -/
structure AnsweredQuestion where
  question : Question
  sourceTexts : List String
  cag : ArmResult
  rag : ArmResult
  retrievalMatch : Bool

def AnsweredQuestion.result (answered : AnsweredQuestion)
    (outcome : Option JudgeOutcome) : QuestionResult where
  questionId := answered.question.id
  questionText := answered.question.questionText
  referenceAnswer := answered.question.referenceAnswer
  expectedBehavior := answered.question.expectedBehavior
  grounding := answered.question.grounding
  cag := answered.cag
  rag := answered.rag
  retrievalMatch := answered.retrievalMatch
  judge := outcome

/-- The judging of `run_arms_and_judge`: a number is drawn for every question,
and the first call that raises ends the run. -/
def judgeAll : (Nat → Rat) → List AnsweredQuestion → Memory →
    Except JudgeError (List QuestionResult) × Memory
  | _, [], memory => (.ok [], memory)
  | draws, answered :: rest, memory =>
      match judgeQuestion judge answered.question answered.cag.answer
          answered.rag.answer answered.sourceTexts (draws 0) memory with
      | (.error failure, after) => (.error failure, after)
      | (.ok outcome, after) =>
          match judgeAll (fun index => draws (index + 1)) rest after with
          | (.error failure, final) => (.error failure, final)
          | (.ok results, final) =>
              (.ok (answered.result (some outcome) :: results), final)

end Judge

end ProjectMemory.Eval
