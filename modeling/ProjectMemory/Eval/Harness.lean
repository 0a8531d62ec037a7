import ProjectMemory.Eval.Blinding
import ProjectMemory.Eval.Evidence

/-!
# The harness

Each question goes through both arms and is judged before the next one.  The
judge touches neither the cache nor the spy, so that the arms do what they do
without it, and the judge what it does on their answers.
-/

namespace ProjectMemory.Eval

open Foundation

structure FixtureDoc where
  id : String
  text : String
  deriving DecidableEq, Repr

/-- `corpus_text_for`; an error names the documents that are missing. -/
def corpusTextFor (corpus : List FixtureDoc) (docIds : List String) :
    Except (List String) (List String) :=
  let byId := upsert (fun _ => none) (corpus.map fun doc => (doc.id, doc.text))
  let missing := docIds.filter fun docId => (byId docId).isNone
  if missing.isEmpty then .ok (docIds.filterMap byId) else .error missing

inductive HarnessError where
  | arms (failure : ArmsError)
  | unknownGrounding (docIds : List String)
  | judge (failure : JudgeError)
  deriving DecidableEq, Repr

section Loop

variable {Content Dense Sparse Score Memory : Type}

/-- A question as the arms leave it to the judge. -/
def ArmsRun.toJudge (run : ArmsRun Content Score)
    (sourceTexts : List String) : AnsweredQuestion where
  question := run.question
  sourceTexts := sourceTexts
  cag := run.cag
  rag := run.rag
  retrievalMatch := run.retrievalMatch

variable (backend : Backend Score Content Dense Sparse) (judge : Judge Memory)
  (projectId : Uuid) (topK : Nat) (corpus : List FixtureDoc)

/-- The loop of `run_arms_and_judge`. -/
def judgeArms : (Nat → Rat) → List Question → World Score → Memory →
    Except HarnessError (List QuestionResult) × World Score × Memory
  | _, [], world, memory => (.ok [], world, memory)
  | draws, question :: questions, world, memory =>
      match runTwoArms backend projectId [projectId] topK question world with
      | (.error failure, after) => (.error (.arms failure), after, memory)
      | (.ok run, after) =>
          match corpusTextFor corpus question.grounding with
          | .error missing =>
              (.error (.unknownGrounding missing), after, memory)
          | .ok sourceTexts =>
              match judgeQuestion judge question run.cag.answer run.rag.answer
                  sourceTexts (draws 0) memory with
              | (.error failure, later) =>
                  (.error (.judge failure), after, later)
              | (.ok outcome, later) =>
                  match judgeArms (fun index => draws (index + 1)) questions
                      after later with
                  | (.error failure, final) => (.error failure, final)
                  | (.ok results, final) =>
                      (.ok ((run.toJudge sourceTexts).result (some outcome) ::
                        results), final)

/-- `run_arms_and_judge`: the cache is cleared first. -/
def runArmsAndJudge (draws : Nat → Rat) (questions : List Question)
    (world : World Score) (memory : Memory) :
    Except HarnessError (List QuestionResult) × World Score × Memory :=
  judgeArms backend judge projectId topK corpus draws questions
    { world with cache := fun _ => none } memory

/-- A question that the arms have run for, with the texts of its sources. -/
def IsAnswered (run : ArmsRun Content Score) (answered : AnsweredQuestion) :
    Prop :=
  ∃ sourceTexts, corpusTextFor corpus run.question.grounding =
      .ok sourceTexts ∧ answered = run.toJudge sourceTexts

variable {backend judge projectId topK corpus} {draws : Nat → Rat}
  {questions : List Question} {world : World Score} {memory : Memory}
  {results : List QuestionResult}

/-- The loop is the judge on what the arms alone come to. -/
theorem judgeArms_ok
    (returned : (judgeArms backend judge projectId topK corpus draws questions
      world memory).1 = .ok results) :
    (runArms backend projectId [projectId] topK questions world).failure =
        none ∧
      ∃ answered, List.Forall₂ (IsAnswered corpus)
          (runArms backend projectId [projectId] topK questions
            world).completed answered ∧
        (judgeAll judge draws answered memory).1 = .ok results := by
  induction questions generalizing draws world memory results with
  | nil =>
      obtain rfl := Except.ok.inj returned
      exact ⟨rfl, [], .nil, rfl⟩
  | cons question questions inductionHypothesis =>
      rw [judgeArms] at returned
      split at returned
      case h_1 => cases returned
      case h_2 run after armsReturned =>
        split at returned
        case h_1 => cases returned
        case h_2 sourceTexts isText =>
          split at returned
          case h_1 => cases returned
          case h_2 outcome later judged =>
            split at returned
            case h_1 => cases returned
            case h_2 rest final restReturned =>
              obtain rfl := Except.ok.inj returned
              obtain ⟨noFailure, answered, areAnswered, restJudged⟩ :=
                inductionHypothesis (congrArg Prod.fst restReturned)
              obtain ⟨_, arms⟩ := runTwoArms_ok armsReturned
              have isQuestion := arms.isQuestion
              rw [runArms, armsReturned]
              refine ⟨noFailure, run.toJudge sourceTexts :: answered,
                .cons ⟨sourceTexts, isQuestion ▸ isText, rfl⟩ areAnswered, ?_⟩
              have first : judgeQuestion judge
                  (run.toJudge sourceTexts).question
                  (run.toJudge sourceTexts).cag.answer
                  (run.toJudge sourceTexts).rag.answer
                  (run.toJudge sourceTexts).sourceTexts (draws 0) memory =
                    (.ok outcome, later) := by
                rw [ArmsRun.toJudge, isQuestion]
                exact judged
              rw [judgeAll, first]
              simp only
              cases others : judgeAll judge (fun index => draws (index + 1))
                  answered later with
              | mk found last =>
                  rw [others] at restJudged
                  obtain rfl := restJudged
                  rfl

/-- The sources of a question are those of the corpus. -/
theorem answered_unique {runs : List (ArmsRun Content Score)}
    {answered others : List AnsweredQuestion}
    (areAnswered : List.Forall₂ (IsAnswered corpus) runs answered)
    (otherAnswered : List.Forall₂ (IsAnswered corpus) runs others) :
    others = answered := by
  induction areAnswered generalizing others with
  | nil =>
      cases otherAnswered
      rfl
  | cons isAnswered _ inductionHypothesis =>
      cases otherAnswered with
      | cons otherIsAnswered rest =>
          obtain ⟨sourceTexts, isText, rfl⟩ := isAnswered
          obtain ⟨otherTexts, otherIsText, rfl⟩ := otherIsAnswered
          rw [isText] at otherIsText
          rw [Except.ok.inj otherIsText, inductionHypothesis rest]

/-- The seed of the draws does not show in the report of a fair judge. -/
theorem aggregate_runArmsAndJudge {grading : Grading}
    (fair : IsFair judge grading) {otherDraws : Nat → Rat}
    {otherMemory : Memory} {others : List QuestionResult}
    (returned : (runArmsAndJudge backend judge projectId topK corpus draws
      questions world memory).1 = .ok results)
    (otherReturned : (runArmsAndJudge backend judge projectId topK corpus
      otherDraws questions world otherMemory).1 = .ok others) :
    aggregate others = aggregate results := by
  obtain ⟨_, answered, areAnswered, judged⟩ := judgeArms_ok returned
  obtain ⟨_, otherAnswered, otherAreAnswered, otherJudged⟩ :=
    judgeArms_ok otherReturned
  rw [answered_unique areAnswered otherAreAnswered] at otherJudged
  exact aggregate_eq_of_isJudged (isJudged_judgeAll fair judged)
    (isJudged_judgeAll fair otherJudged)

end Loop

end ProjectMemory.Eval
