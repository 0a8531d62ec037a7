import ProjectMemory.Cag.Drain
import ProjectMemory.Cag.Jobs

/-!
# When updates go on

An update puts the oldest pending summaries into one prompt, and a prompt over
the budget is refused.  Nothing sets such a batch aside: whatever is ingested
later, no update of the project stores a state again.
-/

namespace ProjectMemory.Cag

open Foundation

section Exceeding

variable {Memory Content : Type} {synthesizer : Synthesizer Memory Content}
  {texts : LogTexts} {base : Option Content}

/-- The prompt of an update is over the budget. -/
def Synthesizer.Exceeds (synthesizer : Synthesizer Memory Content)
    (texts : LogTexts) (base : Option Content)
    (batch : List DocumentSummary) : Prop :=
  ∃ prompt,
    formatUpdatePrompt synthesizer.schema base (batch.map texts.logged) =
      .ok prompt ∧
    synthesizer.cagMaxPromptTokens < estimatedTokens prompt

theorem length_windowText (window : List LoggedSummary) :
    (windowText window).length =
      (window.map fun summary => (formatSummary summary).length).sum +
        2 * (window.length - 1) := by
  have separator : ("\n\n").length = 2 := rfl
  rw [windowText, length_intercalate, List.map_map, List.length_map,
    separator]
  simp only [Function.comp_def]

theorem length_windowText_le {short long : List LoggedSummary}
    (isPrefix : short <+: long) :
    (windowText short).length ≤ (windowText long).length := by
  obtain ⟨rest, rfl⟩ := isPrefix
  rw [length_windowText, length_windowText, List.map_append, List.sum_append,
    List.length_append]
  omega

/-- What a prompt has besides its summaries. -/
theorem exists_frame (schema : Schema Content) (base : Option Content) :
    ∃ before after : String, ∀ window,
      formatUpdatePrompt schema base window =
          .ok (before ++ windowText window ++ after) ∨
        window = [] ∧ ∃ message,
          formatUpdatePrompt schema base window = .error message := by
  cases base with
  | none =>
      refine ⟨initialHeader, "\n\nOutput JSON:", fun window => ?_⟩
      cases window with
      | nil => exact Or.inr ⟨rfl, _, rfl⟩
      | cons first rest => exact Or.inl rfl
  | some state =>
      refine ⟨incrementalHeader ++
        String.ofList ((schema.dump state).dumpsIndent 0) ++
        "\n\nNew document summaries to integrate:\n", incrementalFooter,
        fun window => ?_⟩
      cases window with
      | nil => exact Or.inr ⟨rfl, _, rfl⟩
      | cons first rest => exact Or.inl rfl

theorem Synthesizer.Exceeds.mono {short long : List DocumentSummary}
    (isPrefix : short <+: long)
    (exceeds : synthesizer.Exceeds texts base short) :
    synthesizer.Exceeds texts base long := by
  obtain ⟨prompt, formatted, exceeding⟩ := exceeds
  obtain ⟨before, after, frames⟩ := exists_frame synthesizer.schema base
  have longer := length_windowText_le (isPrefix.map texts.logged)
  rcases frames (short.map texts.logged) with
    isShort | ⟨_, message, refused⟩
  · cases isShort.symm.trans formatted
    rcases frames (long.map texts.logged) with isLong | ⟨none, _⟩
    · refine ⟨_, isLong, Nat.lt_of_lt_of_le exceeding ?_⟩
      rw [estimatedTokens, estimatedTokens]
      refine Nat.div_le_div_right ?_
      simp only [String.length_append]
      omega
    · have empty : short.map texts.logged = [] :=
        List.prefix_nil.mp (none ▸ isPrefix.map texts.logged)
      rw [empty] at isShort exceeding
      refine ⟨_, ?_, exceeding⟩
      rw [none]
      exact isShort
  · cases refused.symm.trans formatted

theorem takeBatch_monotone {size : BatchSize}
    {short long : List DocumentSummary} (isPrefix : short <+: long) :
    (takeBatch size short).1 <+: (takeBatch size long).1 := by
  obtain ⟨rest, rfl⟩ := isPrefix
  rw [takeBatch_eq, takeBatch_eq, List.take_append]
  exact List.prefix_append _ _

end Exceeding

/-! ## Updates of one project only -/

section System

variable {Memory Content : Type}

/-- No rebuild of the project is asked for, and what is ingested for it comes
later than what is pending. -/
def Label.Continues (projectId : Uuid) (pending : List DocumentSummary) :
    Label Content → Prop
  | .commitSummary row =>
      row.projectId = projectId → ∀ old ∈ pending, old.createdAt < row.createdAt
  | .invoke _ other call =>
      other = projectId → ∀ mode size, call ≠ .rebuild mode size
  | .advance _ _ => True

/-- The steps of the jobs, with updates only for the project. -/
def updatesStep (hashtext : String → BitVec 32)
    (synthesizer : Synthesizer Memory Content) (texts : LogTexts)
    (projectId : Uuid) (pending : List DocumentSummary)
    (source : State Content) (label : Label Content)
    (target : State Content) : Prop :=
  (jobs hashtext synthesizer texts).step source label target ∧
    label.Continues projectId pending

/-- The rows the next update of the project may cover. -/
def pendingOf (tables : Tables) (projectId : Uuid)
    (latest : Option (BeliefStateRecord Content)) : List DocumentSummary :=
  pendingRows tables.summaries projectId
    (latest.map BeliefStateRecord.lastSummaryCreatedAt)

/-- The rows the next update of the project covers. -/
def oldestBatch (tables : Tables) (projectId : Uuid)
    (latest : Option (BeliefStateRecord Content)) : List DocumentSummary :=
  (takeBatch rebuildBatchSize
    ((OrderBy.stable DocumentSummary.createdAt).sort
      (pendingOf tables projectId latest))).1

/-- A job of the project that will store nothing. -/
def Phase.Stalled (synthesizer : Synthesizer Memory Content)
    (texts : LogTexts) (latest : Option (BeliefStateRecord Content)) :
    Phase Content → Prop
  | .invoked call => call = .synthesizeAndInsert rebuildBatchSize.val
  | .running request pc =>
      request = .synthesizeAndInsert rebuildBatchSize ∧
        match pc with
        | .lock | .getLatest => True
        | .getWindow _ base => base = latest
        | .callback _ plan =>
            plan.base = latest ∧
              synthesizer.Exceeds texts (latest.map BeliefStateRecord.state)
                plan.batch
        | _ => False
  | .returned _ | .raised _ => True

/-- The project is as it was, but for later summaries. -/
structure Stalled (synthesizer : Synthesizer Memory Content)
    (texts : LogTexts) (projectId : Uuid)
    (latest : Option (BeliefStateRecord Content)) (start state : State Content) :
    Prop where
  beliefs : beliefsOf state.tables.beliefs projectId =
    beliefsOf start.tables.beliefs projectId
  pending : ∃ later, pendingOf state.tables projectId latest =
      pendingOf start.tables projectId latest ++ later ∧
    ∀ old ∈ pendingOf start.tables projectId latest, ∀ row ∈ later,
      old.createdAt < row.createdAt
  calls : ∀ caller phase, state.calls caller = some (projectId, phase) →
    phase.Stalled synthesizer texts latest

end System

/-! ## A batch over the budget -/

section Stalling

variable {Memory Content : Type} {hashtext : String → BitVec 32}
  {synthesizer : Synthesizer Memory Content} {texts : LogTexts}
  {projectId : Uuid} {latest : Option (BeliefStateRecord Content)}
  {start state target : State Content}

theorem getLatest_congr {first second : Tables}
    (same : beliefsOf first.beliefs projectId =
      beliefsOf second.beliefs projectId) :
    getLatest synthesizer.schema first projectId =
      getLatest synthesizer.schema second projectId := by
  rw [getLatest, getLatest, latestRow, latestRow, same]

/-- Later summaries leave the prompt over the budget. -/
theorem exceeds_of_plan
    (distinct : ((pendingOf start.tables projectId latest).map
      DocumentSummary.createdAt).Nodup)
    (exceeds : synthesizer.Exceeds texts (latest.map BeliefStateRecord.state)
      (oldestBatch start.tables projectId latest))
    (stalled : Stalled synthesizer texts projectId latest start state)
    {order : OrderBy DocumentSummary.createdAt} {plan : Plan Content}
    (planned : incrementalPlan order state.tables.summaries projectId
      rebuildBatchSize latest = some plan) :
    synthesizer.Exceeds texts (latest.map BeliefStateRecord.state)
      plan.batch := by
  obtain ⟨later, pending, after⟩ := stalled.pending
  obtain ⟨isBase, isBatch, _⟩ := incrementalPlan_eq_some planned
  have window : getWindowSince order state.tables.summaries projectId
      plan.since =
        order.sort (pendingOf start.tables projectId latest ++ later) := by
    rw [getWindowSince, Plan.since, isBase, ← pending]
    rfl
  rw [isBatch, window]
  exact exceeds.mono (takeBatch_monotone
    (order.sort_prefix (OrderBy.stable _) distinct after))

/-- The next phase of a job that will store nothing. -/
theorem stalled_next
    (read : getLatest synthesizer.schema start.tables projectId = .ok latest)
    (distinct : ((pendingOf start.tables projectId latest).map
      DocumentSummary.createdAt).Nodup)
    (exceeds : synthesizer.Exceeds texts (latest.map BeliefStateRecord.state)
      (oldestBatch start.tables projectId latest))
    (stalled : Stalled synthesizer texts projectId latest start state)
    {phase : Phase Content} {choice : Choice Content}
    (asks : ∀ request latest plan,
      phase = .running request (.callback latest plan) →
      ∃ memory, request.callback (synthesizer.context projectId) texts plan
        memory = some choice.answer)
    (isStalled : phase.Stalled synthesizer texts latest) :
    (phase.next synthesizer.schema choice state.tables projectId).Stalled
      synthesizer texts latest := by
  cases phase with
  | returned reply => trivial
  | raised error => trivial
  | invoked call =>
      have isUpdate : call = .synthesizeAndInsert rebuildBatchSize.val :=
        isStalled
      subst isUpdate
      exact ⟨rfl, trivial⟩
  | running request pc =>
      obtain ⟨isUpdate, isStalled⟩ := isStalled
      subst isUpdate
      rw [Phase.next]
      cases choice.fault.bind pc.fault with
      | some failure => trivial
      | none =>
          cases pc with
          | lock => exact ⟨rfl, trivial⟩
          | getLatest =>
              simp only [Request.statement, getLatest_congr stalled.beliefs,
                read]
              exact ⟨rfl, rfl⟩
          | getWindow before base =>
              have isBase : base = latest := isStalled
              subst isBase
              simp only [Request.statement, Request.plan]
              cases planned : incrementalPlan choice.order
                  state.tables.summaries projectId rebuildBatchSize base with
              | none => trivial
              | some plan =>
                  exact ⟨rfl, (incrementalPlan_eq_some planned).1,
                    exceeds_of_plan distinct exceeds stalled planned⟩
          | callback before plan =>
              obtain ⟨memory, answered⟩ := asks _ before plan rfl
              obtain ⟨isBase, prompt, formatted, exceeding⟩ := isStalled
              rw [← isBase] at formatted
              obtain ⟨message, isError⟩ :=
                callback_of_exceeds formatted exceeding answered
              simp only [Request.statement, isError]
              trivial
          | _ => cases isStalled

theorem commits_of_stalled {phase : Phase Content} {choice : Choice Content}
    (isStalled : phase.Stalled synthesizer texts latest) :
    phase.commits choice = none := by
  cases phase with
  | running request pc =>
      cases pc with
      | commit pending row => cases isStalled.2
      | _ => rfl
  | _ => rfl

theorem pendingOf_append (tables : Tables) (row : DocumentSummary) :
    pendingOf { tables with summaries := tables.summaries ++ [row] } projectId
        latest =
      pendingOf tables projectId latest ++
        pendingRows [row] projectId
          (latest.map BeliefStateRecord.lastSummaryCreatedAt) :=
  List.filter_append ..

theorem Stalled.commitSummary
    (stalled : Stalled synthesizer texts projectId latest start state)
    {row : DocumentSummary}
    (continues : (Label.commitSummary row : Label Content).Continues projectId
      (pendingOf start.tables projectId latest)) :
    Stalled synthesizer texts projectId latest start { state with
      tables := { state.tables with
        summaries := state.tables.summaries ++ [row] } } := by
  obtain ⟨later, pending, after⟩ := stalled.pending
  refine ⟨stalled.beliefs, ⟨later ++ pendingRows [row] projectId
    (latest.map BeliefStateRecord.lastSummaryCreatedAt), ?_, ?_⟩,
    stalled.calls⟩
  · rw [pendingOf_append, pending, List.append_assoc]
  · intro old isOld new isNew
    rcases List.mem_append.mp isNew with before | added
    · exact after old isOld new before
    · obtain ⟨isRow, ofProject, _⟩ := mem_pendingRows.mp added
      rw [List.mem_singleton] at isRow
      subst isRow
      exact continues ofProject old isOld

theorem Stalled.invoke
    (stalled : Stalled synthesizer texts projectId latest start state)
    {caller : Nat} {other : Uuid} {call : Call Content}
    (ofJobs : (Label.invoke caller other call).OfJobs synthesizer texts state)
    (continues : (Label.invoke caller other call).Continues projectId
      (pendingOf start.tables projectId latest)) :
    Stalled synthesizer texts projectId latest start { state with
      calls := Function.update state.calls caller
        (some (other, .invoked call)) } := by
  refine ⟨stalled.beliefs, stalled.pending, ?_⟩
  intro otherCaller phase present
  rcases update_some_cases present with ⟨_, new⟩ | ⟨_, old⟩
  · cases new
    rcases ofJobs with isUpdate | ⟨mode, isRebuild⟩
    · exact isUpdate
    · exact absurd isRebuild (continues rfl mode _)
  · exact stalled.calls otherCaller phase old

theorem beliefsOf_move {caller : Nat} {other : Uuid} {phase : Phase Content}
    {choice : Choice Content} (versions : VersionInvariant state)
    (present : state.calls caller = some (other, phase))
    (different : other ≠ projectId) :
    beliefsOf (state.move hashtext synthesizer.schema caller other phase
        choice).tables.beliefs projectId =
      beliefsOf state.tables.beliefs projectId := by
  cases committed : phase.commits choice with
  | none =>
      rw [(move_of_commits_none hashtext synthesizer.schema state caller
        other committed).1]
  | some written =>
      obtain ⟨row, pending⟩ := written
      obtain ⟨request, phaseIs, _⟩ :=
        commits_cases synthesizer.schema other committed
      subst phaseIs
      have ready := versions.ready caller other _ present
      rw [(move_of_commits_some hashtext synthesizer.schema state caller
        other committed).1, beliefsOf_append_other]
      rw [ready.1]
      exact different

theorem Stalled.advance
    (read : getLatest synthesizer.schema start.tables projectId = .ok latest)
    (distinct : ((pendingOf start.tables projectId latest).map
      DocumentSummary.createdAt).Nodup)
    (exceeds : synthesizer.Exceeds texts (latest.map BeliefStateRecord.state)
      (oldestBatch start.tables projectId latest))
    (stalled : Stalled synthesizer texts projectId latest start state)
    (versions : VersionInvariant state)
    {caller : Nat} {other : Uuid} {phase : Phase Content}
    {choice : Choice Content}
    (present : state.calls caller = some (other, phase))
    (ofJobs : (Label.advance caller choice).OfJobs synthesizer texts state) :
    Stalled synthesizer texts projectId latest start
      (state.move hashtext synthesizer.schema caller other phase choice) := by
  have pending : pendingOf (state.move hashtext synthesizer.schema caller
      other phase choice).tables projectId latest =
        pendingOf state.tables projectId latest := by
    rw [pendingOf, pendingOf, move_summaries]
  have others : ∀ otherCaller otherPhase,
      Function.update state.calls caller (some (other,
        phase.next synthesizer.schema choice state.tables other)) otherCaller =
          some (projectId, otherPhase) →
      otherPhase.Stalled synthesizer texts latest := by
    intro otherCaller otherPhase otherPresent
    rcases update_some_cases otherPresent with ⟨_, new⟩ | ⟨_, old⟩
    · cases new
      refine stalled_next read distinct exceeds stalled ?_
        (stalled.calls caller phase present)
      intro request latest plan isCallback
      exact ofJobs projectId request latest plan (isCallback ▸ present)
    · exact stalled.calls otherCaller otherPhase old
  refine ⟨?_, pending ▸ stalled.pending, others⟩
  by_cases same : other = projectId
  · subst same
    have quiet := @commits_of_stalled _ _ synthesizer texts latest phase choice
      (stalled.calls caller phase present)
    rw [(move_of_commits_none hashtext synthesizer.schema state caller other
      quiet).1]
    exact stalled.beliefs
  · rw [beliefsOf_move versions present same]
    exact stalled.beliefs

theorem Stalled.step
    (read : getLatest synthesizer.schema start.tables projectId = .ok latest)
    (distinct : ((pendingOf start.tables projectId latest).map
      DocumentSummary.createdAt).Nodup)
    (exceeds : synthesizer.Exceeds texts (latest.map BeliefStateRecord.state)
      (oldestBatch start.tables projectId latest))
    (stalled : Stalled synthesizer texts projectId latest start state)
    (reachable : Reachable (jobs hashtext synthesizer texts) state)
    {label : Label Content}
    (taken : updatesStep hashtext synthesizer texts projectId
      (pendingOf start.tables projectId latest) state label target) :
    Stalled synthesizer texts projectId latest start target := by
  obtain ⟨⟨ofJobs, stepped⟩, continues⟩ := taken
  rcases step_cases stepped with
    ⟨row, rfl, _, rfl⟩ | ⟨caller, other, call, rfl, _, rfl⟩ |
      ⟨caller, choice, other, phase, rfl, present, _, _, rfl⟩
  · exact stalled.commitSummary continues
  · exact stalled.invoke ofJobs continues
  · exact stalled.advance read distinct exceeds
      (versionInvariant_reachable (reachable_writers_of_synthesizers
        (reachable_synthesizers_of_jobs reachable))) present ofJobs

end Stalling

/-! ## A batch within the budget -/

section Going

variable {Memory Content : Type} {hashtext : String → BitVec 32}
  {synthesizer : Synthesizer Memory Content} {texts : LogTexts}
  {projectId : Uuid} {latest : Option (BeliefStateRecord Content)}
  {pending : List DocumentSummary}

/-- The statements of one job with nothing in between, up to some tables. -/
inductive Working (synthesizer : Synthesizer Memory Content)
    (texts : LogTexts) (projectId : Uuid) :
    Tables → Phase Content → Tables → Prop
  | stop {tables : Tables} {phase : Phase Content} :
      Working synthesizer texts projectId tables phase tables
  | advance {tables final : Tables} {phase : Phase Content}
      (choice : Choice Content) :
      phase.finished = false →
      (∀ request latest plan,
        phase = .running request (.callback latest plan) →
        ∃ memory, request.callback (synthesizer.context projectId) texts plan
          memory = some choice.answer) →
      Working synthesizer texts projectId (committed tables phase choice)
        (phase.next synthesizer.schema choice tables projectId) final →
      Working synthesizer texts projectId tables phase final

/-- One statement that commits nothing, does not ask the LLM and leads to a
known phase. -/
theorem Working.quiet {tables final : Tables} {request : Request}
    {pc : Pc Content} {after : Phase Content} (choice : Choice Content)
    (nextIs : (Phase.running request pc).next synthesizer.schema choice tables
      projectId = after)
    (quiet : (Phase.running request pc).commits choice = none)
    (asksNot : ∀ latest plan, pc ≠ .callback latest plan)
    (rest : Working synthesizer texts projectId tables after final) :
    Working synthesizer texts projectId tables (.running request pc)
      final := by
  subst nextIs
  refine Working.advance choice rfl ?_ ?_
  · intro other latest plan isCallback
    cases isCallback
    exact absurd rfl (asksNot latest plan)
  · rw [committed, quiet]
    exact rest

end Going

/-! ## Enough and too little -/

section Sample

end Sample

end ProjectMemory.Cag
