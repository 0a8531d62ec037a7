import ProjectMemory.Eval.Arms

/-!
# The tokens of an arm

The spy keeps the last result of the LLM, whichever arm it was for.  An arm
that answers without the LLM is given the tokens of an earlier call.
-/

namespace ProjectMemory.Eval

open Foundation ProjectMemory.Core Retrieval

section Tokens

variable {Content Dense Sparse Score : Type}

def callTokens (call : Option LLMCall) : Option Nat × Option Nat :=
  spyTokens (call.map LLMCall.result)

/-- The tokens of an arm are those of the call that made its answer, and none
where it answered without a call. -/
def OwnTokens (arm : ArmResult) (call : Option LLMCall) : Prop :=
  (arm.promptTokens, arm.completionTokens) = callTokens call

structure AttributesTokens (run : ArmsRun Content Score) : Prop where
  cag : OwnTokens run.cag run.cagAnswered.call
  rag : OwnTokens run.rag run.ragAnswered.call

/-- The spy holds no tokens that are not of the arm: something was retrieved,
or the LLM has reported none when it was last called before the arm that stays
silent. -/
def NothingStale (run : ArmsRun Content Score) : Prop :=
  run.cagAnswered.chunks ≠ [] ∨
    (run.latest = none ∧ spyTokens run.lastBefore = (none, none)) ∨
    (run.latest ≠ none ∧ callTokens run.cagAnswered.call = (none, none))

variable {backend : Backend Score Content Dense Sparse} {projectId : Uuid}
  {accessibleIds : List Uuid} {topK : Nat} {question : Question}
  {world between after : World Score} {run : ArmsRun Content Score}

/-- An arm that calls the LLM leaves its result with the spy. -/
theorem Answers.ownTokens {latest : Option (BeliefStateRecord Content)}
    {text : String} {answered : Answered Score}
    (answers : Answers backend latest text projectId accessibleIds topK world
      answered after)
    (called : ¬ (answered.chunks = [] ∧ latest = none)) :
    spyTokens after.last = callTokens answered.call := by
  obtain ⟨result, call, last⟩ := answers.called called
  rw [call, last]
  rfl

/-- With the same keys both arms retrieved something, or neither did. -/
theorem RunsArms.chunks_eq_nil_iff
    (arms : RunsArms backend projectId accessibleIds topK question world run
      between after) :
    run.cagAnswered.chunks = [] ↔ run.ragAnswered.chunks = [] := by
  have keys := congrArg List.length arms.sameKeys
  rw [chunkKeys, chunkKeys, arms.cag.sources, arms.rag.sources,
    Api.toSourceChunks, Api.toSourceChunks] at keys
  simp only [List.length_map, List.length_mapIdx] at keys
  rw [← List.length_eq_zero_iff, ← List.length_eq_zero_iff, keys]

/-- The tokens of both arms are their own exactly where the spy holds nothing
stale. -/
theorem RunsArms.attributesTokens_iff
    (arms : RunsArms backend projectId accessibleIds topK question world run
      between after) :
    AttributesTokens run ↔ NothingStale run := by
  have isOwn : AttributesTokens run ↔
      spyTokens between.last = callTokens run.cagAnswered.call ∧
        spyTokens after.last = callTokens run.ragAnswered.call := by
    constructor
    · intro own
      have cag := own.cag
      have rag := own.rag
      rw [arms.cagResult] at cag
      rw [arms.ragResult] at rag
      exact ⟨cag, rag⟩
    · rintro ⟨cag, rag⟩
      refine ⟨?_, ?_⟩
      · rw [arms.cagResult]
        exact cag
      · rw [arms.ragResult]
        exact rag
  rw [isOwn, NothingStale]
  by_cases noChunks : run.cagAnswered.chunks = []
  · -- The second arm stays silent and is given what the first one left.
    have noOther := arms.chunks_eq_nil_iff.mp noChunks
    obtain ⟨noCall, kept⟩ := arms.rag.silent noOther rfl
    rw [noCall, kept]
    by_cases noState : run.latest = none
    · obtain ⟨noFirst, keptFirst⟩ := arms.cag.silent noChunks noState
      rw [noFirst, keptFirst, arms.lastBefore]
      constructor
      · rintro ⟨none, _⟩
        exact Or.inr (Or.inl ⟨noState, none⟩)
      · rintro (some | ⟨_, none⟩ | ⟨some, _⟩)
        · exact absurd noChunks some
        · exact ⟨none, none⟩
        · exact absurd noState some
    · have own := arms.cag.ownTokens fun none => noState none.2
      rw [own]
      constructor
      · rintro ⟨_, none⟩
        exact Or.inr (Or.inr ⟨noState, none⟩)
      · rintro (some | ⟨none, _⟩ | ⟨_, none⟩)
        · exact absurd noChunks some
        · exact absurd none noState
        · exact ⟨rfl, none⟩
  · have someOther := mt arms.chunks_eq_nil_iff.mpr noChunks
    exact iff_of_true
      ⟨arms.cag.ownTokens fun none => noChunks none.1,
        arms.rag.ownTokens fun none => someOther none.1⟩
      (Or.inl noChunks)

/-- Along a run every arm has its own tokens exactly where no question leaves
the spy with stale ones. -/
theorem runArms_attributesTokens_iff
    (backend : Backend Score Content Dense Sparse) (projectId : Uuid)
    (accessibleIds : List Uuid) (topK : Nat) (questions : List Question)
    (world : World Score) :
    (∀ run ∈ (runArms backend projectId accessibleIds topK questions
        world).completed, AttributesTokens run) ↔
      ∀ run ∈ (runArms backend projectId accessibleIds topK questions
        world).completed, NothingStale run := by
  have exactly : ∀ run ∈ (runArms backend projectId accessibleIds topK
      questions world).completed, AttributesTokens run ↔ NothingStale run := by
    refine forall_completed ?_ questions world
    intro question before run after returned
    obtain ⟨between, arms⟩ := runTwoArms_ok returned
    exact arms.attributesTokens_iff
  exact forall₂_congr exactly

/-! A project with a belief state of which the vector store has no chunks. -/

def emptiedTables : Cag.Tables where
  summaries := []
  beliefs := [{
    id := 2
    projectId := 1
    version := 1
    state := .str "We use Postgres."
    rebuildType := .full
    lastSummaryCreatedAt := 5
    summaryCountCovered := 1
    createdAt := 6 }]

def emptiedBackend : Backend Nat String Unit Unit where
  schema := Cag.textSchema
  queryModel := "query"
  state := fun _ => {
    accounts := {
      users := .empty
      members := []
      projects := .single {
        id := 1
        name := "cag-eval"
        description := none
        teamId := 3
        config := []
        createdAt := 4 } }
    documents := .empty
    jobs := .empty
    tables := emptiedTables
    collections := fun _ => none }
  retrieve := deterministicRetrieve fun _ _ _ _ _ => .ok []
  llm := fun _ _ _ => .ok {
    text := "Postgres."
    promptTokens := some 120
    completionTokens := some 8 }
  latencyMs := fun _ => 10

def databaseQuestion : Question where
  id := "q1"
  questionText := "Which database?"
  referenceAnswer := "Postgres"
  expectedBehavior := .factual
  grounding := []

/-- The arm without the belief state answers without the LLM and is given the
tokens of the other arm. -/
theorem silentArm_hasTokens :
    ∃ run ∈ (runArms emptiedBackend 1 [1] 8 [databaseQuestion] {
        queries := 0
        cache := fun _ => none
        last := none }).completed,
      run.ragAnswered.call = none ∧ run.rag.promptTokens = some 120 ∧
        ¬ AttributesTokens run := by
  have shown : (runArms emptiedBackend 1 [1] 8 [databaseQuestion] {
      queries := 0
      cache := fun _ => none
      last := none }).completed.map
        (fun run => (run.ragAnswered.call, run.rag.promptTokens)) =
      [(none, some 120)] := by
    decide +kernel
  obtain ⟨run, _, isCompleted, isRun, _⟩ := List.map_eq_cons_iff.mp shown
  obtain ⟨noCall, tokens⟩ := Prod.mk.inj isRun
  refine ⟨run, ?_, noCall, tokens, fun attributes => ?_⟩
  · rw [isCompleted]
    exact List.mem_cons_self
  · have own := attributes.rag
    rw [OwnTokens, noCall, tokens] at own
    exact absurd (Prod.mk.inj own).1 nofun

end Tokens

end ProjectMemory.Eval
