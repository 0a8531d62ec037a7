import ProjectMemory.Api.Endpoints
import ProjectMemory.Eval.Types
import ProjectMemory.Foundation.KeyedStore

/-!
# The two arms

Every question is put to the query service twice, with the belief state and
without it.  Around the service stand a cache that replays the first retrieval
and a spy that keeps the last result of the LLM.

The service is the one behind the query endpoint; what it meets outside may be
different at every query, and is given by the number of the query.
-/

namespace ProjectMemory.Eval

open Foundation ProjectMemory.Core Retrieval

section Types

structure LLMResult where
  text : String
  promptTokens : Option Nat
  completionTokens : Option Nat
  deriving DecidableEq, Repr

/-- A call of the LLM that returned. -/
structure LLMCall where
  userPrompt : String
  result : LLMResult
  deriving DecidableEq, Repr

variable (Score : Type)

/-- `_RETRIEVE_CACHE`, by project, question and `top_k`. -/
abbrev RetrieveCache :=
  Uuid × String × Nat → Option (List (RetrievedChunk Score))

/-- A retriever that may use the cache. -/
abbrev Retriever :=
  Nat → Uuid → String → List Uuid → Nat → RetrieveCache Score →
    Except HttpError (List (RetrievedChunk Score)) × RetrieveCache Score

/-- What the query service finds at each query. -/
structure Backend (Content Dense Sparse : Type) where
  schema : Schema Content
  queryModel : String
  state : Nat → Api.State Dense Sparse
  retrieve : Retriever Score
  llm : Nat → Json → String → Except String LLMResult
  /-- How long the query took, by the clock of the harness. -/
  latencyMs : Nat → Int

/-- What lasts from one query to the next: the cache, and what the spy saw
last. -/
structure World where
  queries : Nat
  cache : RetrieveCache Score
  last : Option LLMResult

/-- A response with the chunks and the call of the LLM that led to it. -/
structure Answered where
  response : Api.QueryResponse Score
  chunks : List (RetrievedChunk Score)
  call : Option LLMCall

end Types

/-! ## Retrieval -/

section Retrieval

variable {Score : Type}

/-- `(-c.score, str(c.document_id), c.chunk_index)` in order. -/
def inOrder [LinearOrder Score] (left right : RetrievedChunk Score) : Bool :=
  right.score < left.score ∨ left.score = right.score ∧
    (left.documentId.str < right.documentId.str ∨
      left.documentId.str = right.documentId.str ∧
        left.chunkIndex ≤ right.chunkIndex)

/-- `_deterministic_retrieve`, over a retriever that may answer differently
every time. -/
def deterministicRetrieve [LinearOrder Score]
    (realRetrieve : Nat → Uuid → String → List Uuid → Nat →
      Except HttpError (List (RetrievedChunk Score))) : Retriever Score :=
  fun query projectId queryText accessibleIds topK cache =>
    replay cache (projectId, queryText, topK)
      ((realRetrieve query projectId queryText accessibleIds topK).map
        fun chunks => chunks.mergeSort inOrder)

end Retrieval

/-! ## One query -/

section Query

variable {Content Dense Sparse Score : Type}
  (backend : Backend Score Content Dense Sparse)

/-- What `get_latest` finds, or none where it cannot be read back. -/
def latestState (query : Nat) (projectId : Uuid) :
    Option (BeliefStateRecord Content) :=
  match Cag.getLatest backend.schema (backend.state query).tables projectId with
  | .ok record => record
  | .error _ => none

/-- The end of a query, from the chunks on. -/
def answerOver (query : Nat) (project : Project)
    (latest : Option (BeliefStateRecord Content))
    (chunks : List (RetrievedChunk Score)) (question : String)
    (world : World Score) :
    Except HttpError (Answered Score) × World Score :=
  if chunks.isEmpty && latest.isNone then
    (.ok {
      response := Api.noContent
        "No indexed content is available for this project yet."
      chunks := chunks
      call := none }, world)
  else
    let userPrompt := buildUserPrompt
      (latest.map fun record => backend.schema.dump record.state)
      chunks question false
    let model := (project.config.lookup "query_model").getD
      (.str backend.queryModel)
    match backend.llm query model userPrompt with
    | .error _ =>
        (.error ⟨503, "Query generation failed; please retry"⟩, world)
    | .ok result =>
        (.ok {
          response := {
            answer := result.text
            sources := Api.toSourceChunks chunks
            beliefStateVersion := latest.map BeliefStateRecord.version
            grounded := !chunks.isEmpty }
          chunks := chunks
          call := some { userPrompt := userPrompt, result := result } },
          -- The spy keeps the result on its way to the service.
          { world with last := some result })

/-- `QueryService.query`, from what its `get_latest` returns. -/
def query (latest : Option (BeliefStateRecord Content)) (question : String)
    (projectId : Uuid) (accessibleIds : List Uuid) (topK : Nat)
    (world : World Score) :
    Except HttpError (Answered Score) × World Score :=
  let begun := { world with queries := world.queries + 1 }
  match Api.validateQuestion question with
  | .error failure => (.error failure, begun)
  | .ok () =>
      match (backend.state world.queries).accounts.projects.get projectId with
      | none =>
          (.error (internal ("Project " ++ projectId.str ++ " not found")),
            begun)
      | some project =>
          match backend.retrieve world.queries projectId question
              accessibleIds topK world.cache with
          | (.error failure, cache) =>
              (.error failure, { begun with cache := cache })
          | (.ok chunks, cache) =>
              answerOver backend world.queries project latest chunks question
                { begun with cache := cache }

/-- The outside as the query endpoint has it. -/
def ofServices (services : Api.Services Content Dense Sparse Score)
    (state : Api.State Dense Sparse) :
    Backend Score Content Dense Sparse where
  schema := services.schema
  queryModel := services.queryModel
  state := fun _ => state
  retrieve := fun _ projectId queryText accessibleIds topK cache =>
    (retrieve services.search state.collections projectId queryText
      accessibleIds topK, cache)
  llm := fun _ model userPrompt =>
    (services.generate model userPrompt).map fun text => {
      text := text
      promptTokens := none
      completionTokens := none }
  latencyMs := fun _ => 0

theorem answerOver_ofServices
    (services : Api.Services Content Dense Sparse Score)
    (state : Api.State Dense Sparse) (number : Nat) (project : Project)
    (latest : Option (BeliefStateRecord Content))
    (chunks : List (RetrievedChunk Score)) (question : String)
    (world : World Score) :
    (answerOver (ofServices services state) number project latest chunks
        question world).1.map Answered.response =
      if chunks.isEmpty && latest.isNone then
        .ok (Api.noContent
          "No indexed content is available for this project yet.")
      else
        Api.answer services
          ((project.config.lookup "query_model").getD
            (.str services.queryModel))
          latest chunks question false := by
  rw [answerOver]
  by_cases silent : (chunks.isEmpty && latest.isNone) = true
  · rw [if_pos silent, if_pos silent]
    rfl
  · rw [if_neg silent, if_neg silent, Api.answer]
    simp only [ofServices]
    cases services.generate ((project.config.lookup "query_model").getD
        (.str services.queryModel))
      (buildUserPrompt (latest.map fun record =>
        services.schema.dump record.state) chunks question false) with
    | error failure => rfl
    | ok text => rfl

/-- The arms query the service that answers the endpoint. -/
theorem query_ofServices (services : Api.Services Content Dense Sparse Score)
    (state : Api.State Dense Sparse) (question : String) (projectId : Uuid)
    (accessibleIds : List Uuid) (topK : Nat) (world : World Score) :
    (query (ofServices services state)
        (latestState (ofServices services state) world.queries projectId)
        question projectId accessibleIds topK world).1.map Answered.response =
      Api.query services state question projectId accessibleIds topK := by
  rw [query, Api.query]
  cases Api.validateQuestion question with
  | error failure => rfl
  | ok valid =>
      cases found : state.accounts.projects.get projectId with
      | none =>
          simp only [ofServices, found]
          rfl
      | some project =>
          simp only [ofServices, found]
          cases retrieve services.search state.collections projectId question
              accessibleIds topK with
          | error failure => rfl
          | ok chunks =>
              exact answerOver_ofServices services state world.queries project
                _ chunks question _

/-- What a query that returns has done. -/
structure Answers (latest : Option (BeliefStateRecord Content))
    (question : String) (projectId : Uuid) (accessibleIds : List Uuid)
    (topK : Nat) (world : World Score) (answered : Answered Score)
    (after : World Score) : Prop where
  retrieved : backend.retrieve world.queries projectId question accessibleIds
    topK world.cache = (.ok answered.chunks, after.cache)
  sources : answered.response.sources = Api.toSourceChunks answered.chunks
  silent : answered.chunks = [] → latest = none →
    answered.call = none ∧ after.last = world.last
  called : ¬ (answered.chunks = [] ∧ latest = none) →
    ∃ result, answered.call = some {
        userPrompt := buildUserPrompt
          (latest.map fun record => backend.schema.dump record.state)
          answered.chunks question false
        result := result } ∧
      after.last = some result

variable {backend} {latest : Option (BeliefStateRecord Content)}
  {question : String} {projectId : Uuid} {accessibleIds : List Uuid}
  {topK : Nat} {world after : World Score} {answered : Answered Score}

theorem answerOver_ok {number : Nat} {project : Project}
    {chunks : List (RetrievedChunk Score)}
    (returned : answerOver backend number project latest chunks question
      world = (.ok answered, after)) :
    answered.chunks = chunks ∧ after.cache = world.cache ∧
      answered.response.sources = Api.toSourceChunks chunks ∧
      (chunks = [] → latest = none →
        answered.call = none ∧ after.last = world.last) ∧
      (¬ (chunks = [] ∧ latest = none) → ∃ result,
        answered.call = some {
            userPrompt := buildUserPrompt
              (latest.map fun record => backend.schema.dump record.state)
              chunks question false
            result := result } ∧
          after.last = some result) := by
  rw [answerOver] at returned
  by_cases silent : (chunks.isEmpty && latest.isNone) = true
  · rw [if_pos silent] at returned
    obtain ⟨isAnswered, rfl⟩ := Prod.mk.inj returned
    obtain rfl := Except.ok.inj isAnswered
    rw [Bool.and_eq_true, List.isEmpty_iff, Option.isNone_iff_eq_none]
      at silent
    obtain ⟨rfl, rfl⟩ := silent
    exact ⟨rfl, rfl, rfl, fun _ _ => ⟨rfl, rfl⟩,
      fun some => absurd ⟨rfl, rfl⟩ some⟩
  · rw [if_neg silent] at returned
    rw [Bool.and_eq_true, List.isEmpty_iff, Option.isNone_iff_eq_none]
      at silent
    simp only at returned
    split at returned
    case h_1 => cases returned
    case h_2 result _ =>
      obtain ⟨isAnswered, rfl⟩ := Prod.mk.inj returned
      obtain rfl := Except.ok.inj isAnswered
      exact ⟨rfl, rfl, rfl,
        fun noChunks noState => absurd ⟨noChunks, noState⟩ silent,
        fun _ => ⟨result, rfl, rfl⟩⟩

theorem query_ok
    (returned : query backend latest question projectId accessibleIds topK
      world = (.ok answered, after)) :
    Answers backend latest question projectId accessibleIds topK world
      answered after := by
  rw [query] at returned
  split at returned
  case h_1 => cases returned
  case h_2 =>
    split at returned
    case h_1 => cases returned
    case h_2 project _ =>
      split at returned
      case h_1 => cases returned
      case h_2 chunks cache retrieved =>
        obtain ⟨rfl, sameCache, sources, silent, called⟩ :=
          answerOver_ok returned
        exact ⟨retrieved.trans (by rw [sameCache]), sources, silent, called⟩

end Query

/-! ## Both arms -/

section Arms

variable {Content Dense Sparse Score : Type}

/-- `_spy_tokens`. -/
def spyTokens (last : Option LLMResult) : Option Nat × Option Nat :=
  match last with
  | some result => (result.promptTokens, result.completionTokens)
  | none => (none, none)

def chunkKeys (response : Api.QueryResponse Score) : List (String × Nat) :=
  response.sources.map fun source =>
    (source.chunk.documentId.str, source.chunk.chunkIndex)

/-- A list of keys as Python prints it. -/
def keysRepr (keys : List (String × Nat)) : String :=
  "[" ++ ", ".intercalate (keys.map fun key =>
    "('" ++ key.1 ++ "', " ++ toString key.2 ++ ")") ++ "]"

def toArmResult (response : Api.QueryResponse Score)
    (tokens : Option Nat × Option Nat) (latencyMs : Int) : ArmResult where
  answer := response.answer
  chunks := response.sources.map fun source => {
    documentId := source.chunk.documentId.str
    chunkIndex := source.chunk.chunkIndex
    filename := source.chunk.filename }
  beliefStateVersion := response.beliefStateVersion
  promptTokens := tokens.1
  completionTokens := tokens.2
  latencyMs := latencyMs

inductive ArmsError where
  | query (failure : HttpError)
  /-- `EvalInvariantError`. -/
  | invariant (message : String)
  deriving DecidableEq, Repr

/-- What `run_two_arms` returns, with what the arms did for it. -/
structure ArmsRun (Content Score : Type) where
  cag : ArmResult
  rag : ArmResult
  retrievalMatch : Bool
  question : Question
  latest : Option (BeliefStateRecord Content)
  lastBefore : Option LLMResult
  cagAnswered : Answered Score
  ragAnswered : Answered Score

variable (backend : Backend Score Content Dense Sparse) (projectId : Uuid)
  (accessibleIds : List Uuid) (topK : Nat)

def runTwoArms (question : Question) (world : World Score) :
    Except ArmsError (ArmsRun Content Score) × World Score :=
  let latest := latestState backend world.queries projectId
  match query backend latest question.questionText projectId accessibleIds
      topK world with
  | (.error failure, after) => (.error (.query failure), after)
  | (.ok cag, between) =>
      -- The service of the other arm finds no belief state.
      match query backend none question.questionText projectId accessibleIds
          topK between with
      | (.error failure, after) => (.error (.query failure), after)
      | (.ok rag, after) =>
          let cagKeys := chunkKeys cag.response
          let ragKeys := chunkKeys rag.response
          if cagKeys ≠ ragKeys then
            (.error (.invariant
              ("Retrieved chunks differ across arms for question " ++
                question.id ++ ": " ++
                "CAG=" ++ keysRepr cagKeys ++ " RAG=" ++ keysRepr ragKeys)),
              after)
          else
            (.ok {
              cag := toArmResult cag.response (spyTokens between.last)
                (backend.latencyMs world.queries)
              rag := toArmResult rag.response (spyTokens after.last)
                (backend.latencyMs between.queries)
              retrievalMatch := true
              question := question
              latest := latest
              lastBefore := world.last
              cagAnswered := cag
              ragAnswered := rag }, after)

/-- How a run over several questions has ended. -/
structure ArmsRuns (Content Score : Type) where
  completed : List (ArmsRun Content Score)
  failure : Option ArmsError
  world : World Score

/-- The arms of `run_arms_and_judge`: the first question that raises ends the
run. -/
def runArms : List Question → World Score → ArmsRuns Content Score
  | [], world => { completed := [], failure := none, world := world }
  | question :: questions, world =>
      match runTwoArms backend projectId accessibleIds topK question world with
      | (.error failure, after) =>
          { completed := [], failure := some failure, world := after }
      | (.ok run, after) =>
          let rest := runArms questions after
          { rest with completed := run :: rest.completed }

/-- What the two arms of a question that returns have done. -/
structure RunsArms (question : Question) (world : World Score)
    (run : ArmsRun Content Score) (between after : World Score) : Prop where
  cag : Answers backend run.latest question.questionText projectId
    accessibleIds topK world run.cagAnswered between
  rag : Answers backend none question.questionText projectId accessibleIds
    topK between run.ragAnswered after
  sameKeys : chunkKeys run.cagAnswered.response =
    chunkKeys run.ragAnswered.response
  cagResult : run.cag = toArmResult run.cagAnswered.response
    (spyTokens between.last) (backend.latencyMs world.queries)
  ragResult : run.rag = toArmResult run.ragAnswered.response
    (spyTokens after.last) (backend.latencyMs between.queries)
  latest : run.latest = latestState backend world.queries projectId
  lastBefore : run.lastBefore = world.last
  isQuestion : run.question = question

variable {backend projectId accessibleIds topK} {question : Question}
  {world after : World Score} {run : ArmsRun Content Score}

theorem runTwoArms_ok
    (returned : runTwoArms backend projectId accessibleIds topK question
      world = (.ok run, after)) :
    ∃ between, RunsArms backend projectId accessibleIds topK question world
      run between after := by
  rw [runTwoArms] at returned
  simp only at returned
  split at returned
  case h_1 => cases returned
  case h_2 cag between cagReturned =>
    split at returned
    case h_1 => cases returned
    case h_2 rag final ragReturned =>
      split at returned
      case isTrue => cases returned
      case isFalse sameKeys =>
        obtain ⟨isRun, rfl⟩ := Prod.mk.inj returned
        obtain rfl := Except.ok.inj isRun
        exact ⟨between, query_ok cagReturned, query_ok ragReturned,
          not_not.mp sameKeys, rfl, rfl, rfl, rfl, rfl⟩

/-- The invariant fails only where both arms returned. -/
theorem runTwoArms_invariant {message : String}
    (raised : runTwoArms backend projectId accessibleIds topK question
      world = (.error (.invariant message), after)) :
    ∃ cag rag between,
      Answers backend (latestState backend world.queries projectId)
        question.questionText projectId accessibleIds topK world cag between ∧
      Answers backend none question.questionText projectId accessibleIds topK
        between rag after ∧
      chunkKeys cag.response ≠ chunkKeys rag.response := by
  rw [runTwoArms] at raised
  simp only at raised
  split at raised
  case h_1 => cases raised
  case h_2 cag between cagReturned =>
    split at raised
    case h_1 => cases raised
    case h_2 rag final ragReturned =>
      split at raised
      case isTrue different =>
        obtain ⟨_, rfl⟩ := Prod.mk.inj raised
        exact ⟨cag, rag, between, query_ok cagReturned, query_ok ragReturned,
          different⟩
      case isFalse => cases raised

/-- What holds of every question that returns holds along a run. -/
theorem forall_completed {holds : ArmsRun Content Score → Prop}
    (step : ∀ question world run after,
      runTwoArms backend projectId accessibleIds topK question world =
        (.ok run, after) → holds run)
    (questions : List Question) (world : World Score) :
    ∀ run ∈ (runArms backend projectId accessibleIds topK questions
      world).completed, holds run := by
  induction questions generalizing world with
  | nil => exact fun run member => absurd member List.not_mem_nil
  | cons question questions inductionHypothesis =>
      rw [runArms]
      split
      case h_1 => exact fun run member => absurd member List.not_mem_nil
      case h_2 first after returned =>
        exact List.forall_mem_cons.mpr
          ⟨step question world first after returned, inductionHypothesis after⟩

/-- A run fails as one of its questions does. -/
theorem exists_failed {failure : ArmsError} {questions : List Question}
    (failed : (runArms backend projectId accessibleIds topK questions
      world).failure = some failure) :
    ∃ question before after,
      runTwoArms backend projectId accessibleIds topK question before =
        (.error failure, after) := by
  induction questions generalizing world with
  | nil => cases failed
  | cons question questions inductionHypothesis =>
      rw [runArms] at failed
      split at failed
      case h_1 raised after returned =>
        obtain rfl := Option.some.inj failed
        exact ⟨question, world, after, returned⟩
      case h_2 => exact inductionHypothesis failed

end Arms

end ProjectMemory.Eval
