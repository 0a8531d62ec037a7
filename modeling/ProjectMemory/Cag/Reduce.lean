import ProjectMemory.Cag.Prompts
import ProjectMemory.Foundation.Batches
import ProjectMemory.Ingestion.Summarizer
import ProjectMemory.Models.BeliefState
import ProjectMemory.Models.RoundTrip

/-!
# The hierarchical reduce

A rebuild asks the LLM for a digest of every batch of summaries and then, level
by level, for merges of batches of digests until one is left.  A call is asked
a second time when its first answer is no valid belief state.

Every call is recorded with its prompt, with what was sent for it and with its
outcome.  No step reads the record.
-/

namespace ProjectMemory.Cag

open Foundation Ingestion

section Reduce

variable {Memory Content : Type}

/-- Why an answer of the LLM is no belief state: `json.loads` raises
`JSONDecodeError`, a `ValueError` is raised there or by the validation, or
something else is raised. -/
inductive AnswerError where
  | decode (message : String)
  | value (message : String)
  | other (message : String)
  deriving DecidableEq, Repr

inductive ReduceError where
  | valueError (message : String)
  | indexError (message : String)
  | llmError (message : String)
  | other (message : String)
  deriving DecidableEq, Repr

/-- `json.loads` and `model_validate`, with what their exceptions say of a
text. -/
def readBeliefState (complaint : String → String) (text : String) :
    Except AnswerError BeliefStateContent :=
  match Json.loads text.toList with
  | none => .error (.decode (complaint text))
  | some value =>
      match Schema.beliefState.validate value with
      | none => .error (.value (complaint text))
      | some content => .ok content

/-- What was dumped is read back. -/
theorem readBeliefState_dumps (complaint : String → String)
    (content : BeliefStateContent) :
    readBeliefState complaint
      (String.ofList (Schema.beliefState.dump content).dumps) =
        .ok content := by
  rw [readBeliefState, String.toList_ofList, Json.loads_dumps]
  simp only [Schema.beliefState_faithful content]

/-- What a rebuild works with.  The LLM may remember what it was asked. -/
structure ReduceContext (Memory Content : Type) where
  schema : Schema Content
  /-- `llm_call`, from the messages and the model. -/
  llmCall : Memory → List Message → String → Except String String × Memory
  /-- `json.loads` and `model_validate`. -/
  readAnswer : String → Except AnswerError Content
  projectId : Uuid
  contextModel : String
  cagMaxPromptTokens : Nat

/-- A call of `_synthesize_prompt`: its prompt, the user messages sent for it
and what came of it. -/
structure ReduceCall (Content : Type) where
  prompt : String
  sent : List String
  outcome : Except ReduceError Content

/-- The memory of the LLM and the calls so far. -/
structure Chat (Memory Content : Type) where
  memory : Memory
  calls : List (ReduceCall Content)

variable (context : ReduceContext Memory Content)

/-! ## One call -/

def synthesisSystemPrompt : String :=
  "You are a structured project memory synthesis system. " ++
    "Return only valid JSON matching the requested schema."

/-- The prompt of an attempt, with what was wrong with the answers so far. -/
def attemptPrompt (prompt : String) (errors : List String) : String :=
  if errors.isEmpty then prompt
  else
    prompt ++ "\n\nYour previous output violated:\n" ++
      "\n".intercalate errors

def synthesisMessages (prompt : String) : List Message :=
  [{ role := "system", content := synthesisSystemPrompt },
    { role := "user", content := prompt }]

/-- The attempts that are left, with the complaints about the earlier ones;
the result comes with what was sent and the memory after it. -/
def synthesizeAttempts (prompt : String) :
    Nat → List String → Memory →
      Except ReduceError Content × List String × Memory
  | 0, errors, memory =>
      (.error (.llmError ("Belief state synthesis failed for project " ++
        context.projectId.str ++ ": " ++ "; ".intercalate errors)),
        [], memory)
  | attempts + 1, errors, memory =>
      let current := attemptPrompt prompt errors
      match context.llmCall memory (synthesisMessages current)
          context.contextModel with
      | (.error message, after) => (.error (.llmError message), [current], after)
      | (.ok answer, after) =>
          match context.readAnswer answer with
          | .ok content => (.ok content, [current], after)
          | .error (.other message) =>
              (.error (.other message), [current], after)
          | .error (.decode message) =>
              let later := synthesizeAttempts prompt attempts
                (errors ++ ["JSON parse error: " ++ message]) after
              (later.1, current :: later.2.1, later.2.2)
          | .error (.value message) =>
              let later := synthesizeAttempts prompt attempts
                (errors ++ ["Schema validation error: " ++ message]) after
              (later.1, current :: later.2.1, later.2.2)

/-- The estimate of `_synthesize_prompt`. -/
def estimatedTokens (prompt : String) : Nat :=
  prompt.length / 4

def overBudget (projectId : Uuid) (estimated budget : Nat) : String :=
  "CAG prompt for project " ++ projectId.str ++ " exceeds token budget: " ++
    "estimated " ++ toString estimated ++ " tokens > " ++ toString budget

def synthesizePrompt (prompt : String) (memory : Memory) :
    Except ReduceError Content × List String × Memory :=
  if context.cagMaxPromptTokens < estimatedTokens prompt then
    (.error (.llmError (overBudget context.projectId (estimatedTokens prompt)
      context.cagMaxPromptTokens)), [], memory)
  else synthesizeAttempts context prompt 2 [] memory

/-- A call with its record. -/
def Chat.ask (chat : Chat Memory Content) (prompt : String) :
    Except ReduceError Content × Chat Memory Content :=
  let (outcome, sent, memory) := synthesizePrompt context prompt chat.memory
  (outcome, {
    memory := memory
    calls := chat.calls ++
      [{ prompt := prompt, sent := sent, outcome := outcome }] })

/-- A call within the budget whose first answer is read. -/
theorem ask_of_answered {context : ReduceContext Memory Content}
    {chat : Chat Memory Content} {prompt text : String} {after : Memory}
    {content : Content}
    (within : estimatedTokens prompt ≤ context.cagMaxPromptTokens)
    (answered : context.llmCall chat.memory (synthesisMessages prompt)
      context.contextModel = (.ok text, after))
    (isContent : context.readAnswer text = .ok content) :
    chat.ask context prompt = (.ok content, {
      memory := after
      calls := chat.calls ++
        [{ prompt := prompt, sent := [prompt], outcome := .ok content }] }) := by
  have first : attemptPrompt prompt [] = prompt := rfl
  rw [Chat.ask, synthesizePrompt, if_neg (Nat.not_lt.mpr within),
    synthesizeAttempts, first]
  simp only [answered, isContent]

/-! ## The levels -/

/-- One call for each batch, in their order; the first that raises ends the
loop. -/
def askBatches {Input : Type}
    (format : List Input → Except String String) :
    List (List Input) → Chat Memory Content →
      Except ReduceError (List Content) × Chat Memory Content
  | [], chat => (.ok [], chat)
  | batch :: rest, chat =>
      match format batch with
      | .error message => (.error (.valueError message), chat)
      | .ok prompt =>
          match chat.ask context prompt with
          | (.error failure, after) => (.error failure, after)
          | (.ok answer, after) =>
              match askBatches format rest after with
              | (.error failure, final) => (.error failure, final)
              | (.ok answers, final) => (.ok (answer :: answers), final)

theorem askBatches_of_answered {Input : Type} {batch : List Input}
    {rest : List (List Input)} {context : ReduceContext Memory Content}
    {format : List Input → Except String String}
    {chat middle after : Chat Memory Content} {prompt : String}
    {answer : Content} {answers : List Content}
    (formatted : format batch = .ok prompt)
    (asked : chat.ask context prompt = (.ok answer, middle))
    (others : askBatches context format rest middle = (.ok answers, after)) :
    askBatches context format (batch :: rest) chat =
      (.ok (answer :: answers), after) := by
  rw [askBatches, formatted]
  simp only [asked, others]

/-- `while len(current_level) > 1`, for at most `fuel` rounds; `none` if it has
not come to its end by then. -/
def mergeLevels (batchSize : Nat) :
    Nat → List Content → Chat Memory Content →
      Option (Except ReduceError Content × Chat Memory Content)
  | _, [], chat => some (.error (.indexError "list index out of range"), chat)
  | _, [digest], chat => some (.ok digest, chat)
  | 0, _ :: _ :: _, _ => none
  | fuel + 1, level@(_ :: _ :: _), chat =>
      match askBatches context (formatDigestMergePrompt context.schema)
          (batches batchSize level) chat with
      | (.error failure, after) => some (.error failure, after)
      | (.ok next, after) => mergeLevels batchSize fuel next after

theorem mergeLevels_of_answered {context : ReduceContext Memory Content}
    {batchSize fuel : Nat} {level next : List Content}
    {chat after : Chat Memory Content} (several : 2 ≤ level.length)
    (asked : askBatches context (formatDigestMergePrompt context.schema)
      (batches batchSize level) chat = (.ok next, after)) :
    mergeLevels context batchSize (fuel + 1) level chat =
      mergeLevels context batchSize fuel next after := by
  match level, several with
  | _ :: _ :: _, _ => rw [mergeLevels, asked]

/-- `_hierarchical_reduce`, with as many rounds of merges as there are digests;
`none` if it has not come to its end by then, as only batches of one allow. -/
def hierarchicalReduce (accumulator : Option Content)
    (summaries : List LoggedSummary) (batchSize : Nat)
    (chat : Chat Memory Content) :
    Option (Except ReduceError Content × Chat Memory Content) :=
  if summaries.isEmpty then
    match accumulator with
    | none =>
        some (.error (.valueError
          "No summaries and no accumulator for hierarchical reduce"), chat)
    | some content => some (.ok content, chat)
  else if batchSize = 0 then
    some (.error (.valueError "range() arg 3 must not be zero"), chat)
  else
    match askBatches context formatBatchDigestPrompt
        (batches batchSize summaries) chat with
    | (.error failure, after) => some (.error failure, after)
    | (.ok digests, after) =>
        let level := accumulator.toList ++ digests
        mergeLevels context batchSize level.length level after

theorem hierarchicalReduce_of_answered {context : ReduceContext Memory Content}
    {accumulator : Option Content} {summaries : List LoggedSummary}
    {batchSize : Nat} {chat after : Chat Memory Content}
    {digests : List Content} (nonempty : summaries ≠ [])
    (positive : 1 ≤ batchSize)
    (asked : askBatches context formatBatchDigestPrompt
      (batches batchSize summaries) chat = (.ok digests, after)) :
    hierarchicalReduce context accumulator summaries batchSize chat =
      mergeLevels context batchSize (accumulator.toList ++ digests).length
        (accumulator.toList ++ digests) after := by
  have some : summaries.isEmpty = false := by
    rwa [List.isEmpty_eq_false_iff]
  unfold hierarchicalReduce
  rw [some, if_neg (by decide), if_neg (by omega), asked]

end Reduce

end ProjectMemory.Cag
