import ProjectMemory.Eval.Arms
import ProjectMemory.Retrieval.Sealing

/-!
# The arms differ only in the belief state

The cache gives the second arm the chunks of the first, in their order, however
the store answers.  What follows the belief state in a prompt depends on the
chunks and the question alone.
-/

namespace ProjectMemory.Eval

open Foundation ProjectMemory.Core Retrieval

/-! ## The prompt -/

section Prompt

variable {Score : Type}

/-- What stands in a prompt before the blank line over the sources. -/
def stateBlock (beliefState : Option Json) : List Char :=
  List.intercalate ['\n'] (stateLines beliefState)

/-- A prompt from the blank line over the sources to its end. -/
def evidenceBlock (chunks : List (RetrievedChunk Score)) (question : String)
    (includeProjectId : Bool) : List Char :=
  List.intercalate ['\n'] ([[], "<sources>".toList] ++
    (sourceLines includeProjectId 1 chunks ++
      ["</sources>".toList, [], "Question:".toList, question.toList]))

theorem buildUserPrompt_eq (beliefState : Option Json)
    (chunks : List (RetrievedChunk Score)) (question : String)
    (includeProjectId : Bool) :
    (buildUserPrompt beliefState chunks question includeProjectId).toList =
      stateBlock beliefState ++
        '\n' :: evidenceBlock chunks question includeProjectId := by
  have some : stateLines beliefState ≠ [] := by
    cases beliefState <;> exact List.cons_ne_nil _ _
  have more : ([[], "<sources>".toList] ++
      (sourceLines includeProjectId 1 chunks ++
        ["</sources>".toList, [], "Question:".toList, question.toList])) ≠
          [] := List.cons_ne_nil _ _
  rw [stateBlock, evidenceBlock, ← intercalate_append some more]
  unfold buildUserPrompt
  rw [String.toList_ofList]
  cases beliefState <;> simp [stateLines]

/-- The blank line and the marker of the sources begin it. -/
theorem isPrefix_evidenceBlock (chunks : List (RetrievedChunk Score))
    (question : String) (includeProjectId : Bool) :
    "\n<sources>\n".toList <+:
      evidenceBlock chunks question includeProjectId := by
  have more : (sourceLines includeProjectId 1 chunks ++
      ["</sources>".toList, [], "Question:".toList, question.toList]) ≠ [] :=
    List.append_ne_nil_of_right_ne_nil _ (List.cons_ne_nil _ _)
  rw [evidenceBlock, intercalate_append (List.cons_ne_nil _ _) more]
  exact ⟨_, rfl⟩

end Prompt

/-! ## Both arms -/

section Arms

variable {Content Dense Sparse Score : Type} [LinearOrder Score]

/-- The service with `_deterministic_retrieve` in place. -/
def Backend.pinned (backend : Backend Score Content Dense Sparse)
    (realRetrieve : Nat → Uuid → String → List Uuid → Nat →
      Except HttpError (List (RetrievedChunk Score))) :
    Backend Score Content Dense Sparse :=
  { backend with retrieve := deterministicRetrieve realRetrieve }

variable {backend : Backend Score Content Dense Sparse}
  {realRetrieve : Nat → Uuid → String → List Uuid → Nat →
    Except HttpError (List (RetrievedChunk Score))}
  {projectId : Uuid} {accessibleIds : List Uuid} {topK : Nat}
  {question : Question} {world between after : World Score}

/-- The cache replays what the first arm retrieved. -/
theorem same_chunks {latest other : Option (BeliefStateRecord Content)}
    {text : String} {cag rag : Answered Score}
    (first : Answers (backend.pinned realRetrieve) latest text projectId
      accessibleIds topK world cag between)
    (second : Answers (backend.pinned realRetrieve) other text projectId
      accessibleIds topK between rag after) :
    rag.chunks = cag.chunks := by
  have stored := stored_of_replay first.retrieved
  have replayed := (replay_of_stored stored _).symm.trans second.retrieved
  exact (Except.ok.inj (Prod.mk.inj replayed).1).symm

theorem same_sources {latest other : Option (BeliefStateRecord Content)}
    {text : String} {cag rag : Answered Score}
    (first : Answers (backend.pinned realRetrieve) latest text projectId
      accessibleIds topK world cag between)
    (second : Answers (backend.pinned realRetrieve) other text projectId
      accessibleIds topK between rag after) :
    cag.response.sources = rag.response.sources := by
  rw [first.sources, second.sources, same_chunks first second]

/-- The arms of a question rest on the same evidence. -/
structure SameEvidence (backend : Backend Score Content Dense Sparse)
    (projectId : Uuid) (run : ArmsRun Content Score) : Prop where
  latest : ∃ number, run.latest = latestState backend number projectId
  chunks : run.cag.chunks = run.rag.chunks
  retrieved : run.cagAnswered.chunks = run.ragAnswered.chunks
  prompts : run.cagAnswered.chunks ≠ [] →
    ∃ cagCall ragCall evidence, run.cagAnswered.call = some cagCall ∧
      run.ragAnswered.call = some ragCall ∧
      "\n<sources>\n".toList <+: evidence ∧
      cagCall.userPrompt.toList =
        stateBlock (run.latest.map fun record =>
          backend.schema.dump record.state) ++ '\n' :: evidence ∧
      ragCall.userPrompt.toList = stateBlock none ++ '\n' :: evidence

theorem sameEvidence_of_runsArms {run : ArmsRun Content Score}
    (arms : RunsArms (backend.pinned realRetrieve) projectId accessibleIds topK
      question world run between after) :
    SameEvidence (backend.pinned realRetrieve) projectId run := by
  have same := same_chunks arms.cag arms.rag
  refine ⟨⟨_, arms.latest⟩, ?_, same.symm, fun some => ?_⟩
  · rw [arms.cagResult, arms.ragResult, toArmResult, toArmResult,
      same_sources arms.cag arms.rag]
  · obtain ⟨cagResult, cagCall, _⟩ := arms.cag.called fun none => some none.1
    obtain ⟨ragResult, ragCall, _⟩ := arms.rag.called fun none =>
      some (same ▸ none.1)
    refine ⟨_, _, evidenceBlock run.cagAnswered.chunks question.questionText
      false, cagCall, ragCall, isPrefix_evidenceBlock _ _ _,
      buildUserPrompt_eq _ _ _ _, ?_⟩
    rw [same]
    exact buildUserPrompt_eq _ _ _ _

/-- However the store answers, a run with the cache in place never finds the
arms apart, and the arms of every question that returns rest on the same
evidence. -/
theorem runArms_sameEvidence (backend : Backend Score Content Dense Sparse)
    (realRetrieve : Nat → Uuid → String → List Uuid → Nat →
      Except HttpError (List (RetrievedChunk Score)))
    (projectId : Uuid) (accessibleIds : List Uuid) (topK : Nat)
    (questions : List Question) (world : World Score) :
    (∀ message, (runArms (backend.pinned realRetrieve) projectId accessibleIds
      topK questions world).failure ≠ some (.invariant message)) ∧
    ∀ run ∈ (runArms (backend.pinned realRetrieve) projectId accessibleIds
      topK questions world).completed,
      SameEvidence (backend.pinned realRetrieve) projectId run := by
  constructor
  · intro message failed
    obtain ⟨question, before, after, raised⟩ := exists_failed failed
    obtain ⟨cag, rag, between, first, second, different⟩ :=
      runTwoArms_invariant raised
    rw [chunkKeys, chunkKeys, same_sources first second] at different
    exact different rfl
  · refine forall_completed ?_ questions world
    intro question before run after returned
    obtain ⟨between, arms⟩ := runTwoArms_ok returned
    exact sameEvidence_of_runsArms arms

end Arms

end ProjectMemory.Eval
