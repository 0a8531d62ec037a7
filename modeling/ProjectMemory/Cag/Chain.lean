import ProjectMemory.Cag.Wakeup

/-!
# One queued update and no ingestion

An update that has consumed its batch enqueues itself for the rest of the
window.  It does so while it is executing, so the attempt is refused, and the
chain ends with the first batch.
-/

namespace ProjectMemory.Cag

open Foundation

section Chain

variable {Content : Type} {threshold : Uuid → Nat} {schema : Schema Content}
  {projectId : Uuid} {state target : QueueState Content}

/-- The steps without ingestion. -/
def QueueLabel.ofJob : QueueLabel Content → Bool
  | .job _ _ => true
  | _ => false

/-- The rows the next update of the project would read. -/
def QueueState.pending (state : QueueState Content) (projectId : Uuid) :
    List DocumentSummary :=
  pendingRows state.tables.summaries projectId
    (latestWatermark state.tables.beliefs projectId)

/-- Before the window is read the whole log is pending, with distinct
timestamps; afterwards all of it but one batch is left. -/
def ChainInvariant (total : Nat) (state : QueueState Content)
    (projectId : Uuid) : Prop :=
  match state.jobs projectId with
  | .queued =>
      (state.pending projectId).length = total ∧
        ((state.pending projectId).map DocumentSummary.createdAt).Nodup
  | .started =>
      (state.pending projectId).length = total ∧
        ((state.pending projectId).map DocumentSummary.createdAt).Nodup
  | _ => state.leftPending projectId = total - rebuildBatchSize.val

/-- A batch of a window with distinct timestamps leaves exactly the rows after
it. -/
theorem countPending_newest_of_nodup
    {order : OrderBy DocumentSummary.createdAt} {tables : Tables}
    {size : BatchSize} {latest : Option (BeliefStateRecord Content)}
    {plan : Plan Content}
    (distinct : ((pendingRows tables.summaries projectId
      plan.since).map DocumentSummary.createdAt).Nodup)
    (planned : incrementalPlan order tables.summaries projectId size latest =
      some plan) :
    countPending tables.summaries projectId
        (some (newest DocumentSummary.createdAt plan.batch plan.nonempty)) =
      countPending tables.summaries projectId plan.since - size.val := by
  obtain ⟨_, batchIs, _⟩ := incrementalPlan_eq_some planned
  rw [takeBatch_eq] at batchIs
  simp only [getWindowSince] at batchIs
  rw [countPending, countPending]
  rw [pendingRows_eq_rowsAbove] at batchIs distinct ⊢
  rw [pendingRows_eq_rowsAbove _ _ plan.since]
  generalize plan.since = since at batchIs distinct ⊢
  obtain ⟨base, batch, nonempty, remaining⟩ := plan
  simp only at batchIs
  subst batchIs
  exact length_rowsAbove_newest_of_nodup size.property order nonempty distinct

theorem chainInvariant_jobMove {total : Nat} {action : JobAction Content}
    (invariant : ChainInvariant total state projectId)
    (moved : JobMove schema state projectId action target) :
    ChainInvariant total target projectId := by
  have nowJob (job : Job Content) :
      (state.setJob projectId job).jobs projectId = job :=
    Function.update_self ..
  cases moved with
  | start queued =>
      simp only [ChainInvariant, queued] at invariant
      simp only [ChainInvariant, nowJob]
      exact invariant
  | @nothing order latest started read noPlan =>
      simp only [ChainInvariant, started] at invariant
      rw [incrementalPlan_eq_none, latestWatermark_of_read read,
        getWindowSince_eq_nil] at noPlan
      have nothing : countPending state.tables.summaries projectId
          (latestWatermark state.tables.beliefs projectId) = total :=
        invariant.1
      simp only [ChainInvariant, nowJob, QueueState.leftPending]
      simp only [Job.left, QueueState.setJob]
      omega
  | @readWindow order latest plan started read planned =>
      simp only [ChainInvariant, started] at invariant
      have since :
          plan.since = latestWatermark state.tables.beliefs projectId := by
        rw [Plan.since, (incrementalPlan_eq_some planned).1,
          latestWatermark_of_read read]
      have left := countPending_newest_of_nodup
        (since ▸ invariant.2) planned
      simp only [ChainInvariant, nowJob, QueueState.leftPending]
      simp only [Job.left, QueueState.setJob]
      rw [left, since]
      exact congrArg (· - rebuildBatchSize.val) invariant.1
  | @commitVersion plan content stamp synthesized =>
      simp only [ChainInvariant, synthesized, QueueState.leftPending,
        Job.left] at invariant
      simp only [ChainInvariant, QueueState.setJob, Function.update_self,
        QueueState.leftPending, Job.left]
      rw [latestWatermark_append]
      exact invariant
  | enqueueRemainder committed =>
      simp only [ChainInvariant, committed, QueueState.leftPending,
        Job.left] at invariant
      simp only [ChainInvariant, nowJob, QueueState.leftPending, Job.left]
      exact invariant
  | finish returning =>
      simp only [ChainInvariant, returning, QueueState.leftPending,
        Job.left] at invariant
      simp only [ChainInvariant, nowJob, QueueState.leftPending, Job.left]
      exact invariant

theorem summaries_jobMove {action : JobAction Content}
    (moved : JobMove schema state projectId action target) :
    target.tables.summaries = state.tables.summaries := by
  cases moved <;> rfl

theorem chainInvariant_step {total : Nat} {label : QueueLabel Content}
    (invariant : ChainInvariant total state projectId)
    (ofJob : label.ofJob = true)
    (taken : queueStep threshold schema state label = some target) :
    ChainInvariant total target projectId := by
  rcases queueStep_cases taken with
    ⟨_, _, _, rfl, _, _⟩ | ⟨_, _, _, rfl, _, _⟩ | ⟨other, action, rfl, moved⟩
  · cases ofJob
  · cases ofJob
  · by_cases same : projectId = other
    · subst same
      exact chainInvariant_jobMove invariant moved
    · have frame := sameProject_of_jobMove same moved
      have samePending :
          target.pending projectId = state.pending projectId := by
        rw [QueueState.pending, QueueState.pending, frame.watermark,
          summaries_jobMove moved]
      unfold ChainInvariant at invariant ⊢
      rw [frame.job, samePending, frame.leftPending]
      exact invariant

theorem pending_of_chain {start : QueueState Content}
    {run : List (QueueLabel Content × QueueState Content)}
    (queued : start.jobs projectId = .queued)
    (distinct :
      ((start.pending projectId).map DocumentSummary.createdAt).Nodup)
    (isRun : Run (fun source label target =>
        (updates threshold schema).step source label target ∧
          label.ofJob = true)
      start run)
    (absent : (finalState start run).jobs projectId = .absent) :
    ((finalState start run).pending projectId).length =
      (start.pending projectId).length - rebuildBatchSize.val := by
  have starts :
      ChainInvariant (start.pending projectId).length start projectId := by
    unfold ChainInvariant
    rw [queued]
    exact ⟨rfl, distinct⟩
  have invariant : ∀ state ∈ visited start run,
      ChainInvariant (start.pending projectId).length state projectId :=
    isRun.invariant
      (fun _ _ _ holds taken => chainInvariant_step holds taken.2 taken.1)
      starts
  have final := invariant _ (finalState_mem_visited start run)
  simp only [ChainInvariant, absent, QueueState.leftPending, Job.left]
    at final
  exact final

/-- The chain can always come to its end. -/
theorem exists_chain (threshold : Uuid → Nat) {start : QueueState Content}
    (queued : start.jobs projectId = .queued)
    {latest : Option (BeliefStateRecord Content)}
    (read : getLatest schema start.tables projectId = .ok latest)
    (content : Content) :
    ∃ run, Run (fun source label target =>
        (updates threshold schema).step source label target ∧
          label.ofJob = true) start run ∧
      (finalState start run).jobs projectId = .absent := by
  have toStarted : queueStep threshold schema start
      (.job projectId .start) = some (start.setJob projectId .started) := by
    simp [queueStep, jobStep, queued]
  have returns (state : QueueState Content)
      (returning : state.jobs projectId = .returning) :
      queueStep threshold schema state (.job projectId .finish) =
        some (state.setJob projectId .absent) := by
    simp [queueStep, jobStep, returning]
  let started := start.setJob projectId .started
  have isStarted : started.jobs projectId = .started :=
    Function.update_self ..
  cases planned : incrementalPlan (OrderBy.stable DocumentSummary.createdAt)
      start.tables.summaries projectId rebuildBatchSize latest with
  | none =>
      have toReturning : queueStep threshold schema started
          (.job projectId (.readWindow (OrderBy.stable _))) =
          some (started.setJob projectId .returning) := by
        simp only [queueStep, jobStep, isStarted]
        simp only [started, QueueState.setJob, read, planned]
      refine ⟨_, Run.take ⟨toStarted, rfl⟩ (Run.take ⟨toReturning, rfl⟩
        (Run.take ⟨returns _ (Function.update_self ..), rfl⟩
          (Run.stop _))), ?_⟩
      exact Function.update_self ..
  | some plan =>
      let synthesized := started.setJob projectId (.synthesized plan)
      have toSynthesized : queueStep threshold schema started
          (.job projectId (.readWindow (OrderBy.stable _))) =
          some synthesized := by
        simp only [queueStep, jobStep, isStarted]
        simp only [synthesized, started, QueueState.setJob, read, planned]
      have isSynthesized :
          synthesized.jobs projectId = .synthesized plan :=
        Function.update_self ..
      have toCommitted : ∃ target, queueStep threshold schema synthesized
          (.job projectId (.commitVersion content { id := 0, now := 0 })) =
            some target ∧
          target.jobs projectId = .committed plan.remaining := by
        simp only [queueStep, jobStep, isSynthesized]
        exact ⟨_, rfl, Function.update_self ..⟩
      obtain ⟨committed, committing, isCommitted⟩ := toCommitted
      have toReturning : queueStep threshold schema committed
          (.job projectId .enqueueRemainder) =
          some (committed.setJob projectId .returning) := by
        simp only [queueStep, jobStep, isCommitted,
          enqueueUpdate_committed isCommitted, ite_self]
      refine ⟨_, Run.take ⟨toStarted, rfl⟩ (Run.take ⟨toSynthesized, rfl⟩
        (Run.take ⟨committing, rfl⟩ (Run.take ⟨toReturning, rfl⟩
          (Run.take ⟨returns _ (Function.update_self ..), rfl⟩
            (Run.stop _))))), ?_⟩
      exact Function.update_self ..

/-- With distinct timestamps the chain that one queued update starts drains
the window exactly when the window fits into one batch. -/
theorem drained_iff (threshold : Uuid → Nat) {start : QueueState Content}
    (queued : start.jobs projectId = .queued)
    {latest : Option (BeliefStateRecord Content)}
    (read : getLatest schema start.tables projectId = .ok latest)
    (content : Content)
    (distinct :
      ((start.pending projectId).map DocumentSummary.createdAt).Nodup) :
    (∀ run, Run (fun source label target =>
          (updates threshold schema).step source label target ∧
            label.ofJob = true) start run →
        (finalState start run).jobs projectId = .absent →
        ∀ order, getWindowSince order
          (finalState start run).tables.summaries projectId
          (latestWatermark (finalState start run).tables.beliefs
            projectId) = []) ↔
      countPending start.tables.summaries projectId
        (latestWatermark start.tables.beliefs projectId) ≤
          rebuildBatchSize.val := by
  have left {run : List (QueueLabel Content × QueueState Content)}
      (isRun : Run (fun source label target =>
          (updates threshold schema).step source label target ∧
            label.ofJob = true) start run)
      (absent : (finalState start run).jobs projectId = .absent) :
      countPending (finalState start run).tables.summaries projectId
          (latestWatermark (finalState start run).tables.beliefs projectId) =
        countPending start.tables.summaries projectId
            (latestWatermark start.tables.beliefs projectId) -
          rebuildBatchSize.val :=
    pending_of_chain queued distinct isRun absent
  constructor
  · intro drained
    obtain ⟨run, isRun, absent⟩ :=
      exists_chain threshold queued read content
    have empty := drained run isRun absent (OrderBy.stable _)
    rw [getWindowSince_eq_nil, left isRun absent] at empty
    omega
  · intro fits run isRun absent order
    rw [getWindowSince_eq_nil, left isRun absent]
    omega

end Chain

section Batches

/-- One update is queued for a log with the given number of summaries. -/
def queuedLog (total : Nat) : QueueState String where
  tables := logOf (List.range total)
  jobs := fun _ => .queued
  triggers := fun _ => none

theorem drained_three :
    ((queuedLog 3).pending 1).length = 3 ∧
      ∀ run, Run (fun source label target =>
          (updates (fun _ => 1) textSchema).step source label target ∧
            label.ofJob = true) (queuedLog 3) run →
        (finalState (queuedLog 3) run).jobs 1 = .absent →
        ∀ order, getWindowSince order
          (finalState (queuedLog 3) run).tables.summaries 1
          (latestWatermark (finalState (queuedLog 3) run).tables.beliefs
            1) = [] :=
  ⟨rfl, (@drained_iff String textSchema 1 (fun _ => 1) (queuedLog 3) rfl none
    rfl "state" (by decide)).mpr (by decide)⟩

def chainLabels : List (QueueLabel String) :=
  [.job 1 .start, .job 1 (.readWindow (OrderBy.stable _))] ++ finishLabels

theorem chainLabels_enabled :
    (follow (queueStep (fun _ => 1) textSchema) chainLabels
      (queuedLog 41)).isSome = true := by
  rfl

/-- The chain over forty-one summaries with distinct timestamps ends with one
of them pending. -/
theorem notDrained_fortyOne :
    ((queuedLog 41).pending 1).length = 41 ∧
      (((queuedLog 41).pending 1).map DocumentSummary.createdAt).Nodup ∧
      ((followed (queueStep (fun _ => 1) textSchema) chainLabels
        (queuedLog 41) chainLabels_enabled).jobs 1 = .absent) ∧
      ((followed (queueStep (fun _ => 1) textSchema) chainLabels
        (queuedLog 41) chainLabels_enabled).pending 1).length = 1 := by
  refine ⟨by rfl, by decide, by rfl, by rfl⟩

end Batches

end ProjectMemory.Cag
