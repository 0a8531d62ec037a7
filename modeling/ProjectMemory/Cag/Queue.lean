import ProjectMemory.Cag.Drain
import ProjectMemory.Foundation.Transition

/-!
# The update jobs and the runs that trigger them

After its summary is committed an ingestion run reads the latest belief state,
counts the summaries above its watermark and enqueues `cag_update` when there
are enough of them.  The job reads its window under the lock, commits one
batch and enqueues itself for the rest.

Both enqueue under the job id of the project.  The queue accepts a job only
while none with its id is queued or executing, and an executing job keeps its
id until its function has returned.

Here every synthesis succeeds and every stored state is readable: a read that
would raise is not enabled.  Nothing is assumed of the timestamps.
-/

namespace ProjectMemory.Cag

open Foundation

section System

variable {Content : Type}

inductive Job (Content : Type) where
  | absent
  | queued
  | started
  | synthesized (plan : Plan Content)
  | committed (remaining : Nat)
  | returning

/-- `enqueue_job` with a fixed job id; `none` where nothing is added. -/
def Job.enqueue : Job Content → Option (Job Content)
  | .absent => some .queued
  | _ => none

/-- What is left to do of an ingestion run. -/
inductive TriggerPc (Content : Type) where
  | running
  | committed
  | gotLatest (latest : Option (BeliefStateRecord Content))
  | enqueue
  | done

structure Trigger (Content : Type) where
  documentId : Uuid
  projectId : Uuid
  pc : TriggerPc Content

/-- The tables, the jobs by project and the ingestion runs. -/
structure QueueState (Content : Type) where
  tables : Tables
  jobs : Uuid → Job Content
  triggers : Nat → Option (Trigger Content)

/-- The statements of an ingestion run from its summary on. -/
inductive TriggerAction where
  | commitSummary (id : Uuid) (rawTextFallback : Option Bool)
      (createdAt : Timestamp)
  | getLatest
  | countPending
  | enqueue

inductive JobAction (Content : Type) where
  | start
  | readWindow (order : OrderBy DocumentSummary.createdAt)
  | commitVersion (content : Content) (stamp : Stamp)
  | enqueueRemainder
  | finish

inductive QueueLabel (Content : Type) where
  | startIngest (run : Nat) (documentId projectId : Uuid)
  | ingest (run : Nat) (action : TriggerAction)
  | job (projectId : Uuid) (action : JobAction Content)

def shouldEnqueue (latest : Option (BeliefStateRecord Content))
    (pending threshold : Nat) : Bool :=
  (latest.isNone && decide (1 ≤ pending)) || decide (threshold ≤ pending)

def QueueState.setPc (state : QueueState Content) (run : Nat)
    (trigger : Trigger Content) (pc : TriggerPc Content) :
    QueueState Content :=
  { state with
    triggers :=
      Function.update state.triggers run (some { trigger with pc := pc }) }

def QueueState.setJob (state : QueueState Content) (projectId : Uuid)
    (job : Job Content) : QueueState Content :=
  { state with jobs := Function.update state.jobs projectId job }

/-- The queue after an attempt to enqueue the update of a project. -/
def QueueState.enqueueUpdate (state : QueueState Content)
    (projectId : Uuid) : QueueState Content :=
  match (state.jobs projectId).enqueue with
  | some job => state.setJob projectId job
  | none => state

/-- The summaries after an insert that does nothing on a conflict. -/
def insertSummary (summaries : List DocumentSummary)
    (row : DocumentSummary) : List DocumentSummary :=
  if summaries.any fun other => other.documentId = row.documentId then
    summaries
  else
    summaries ++ [row]

/-- The summaries of `_maybe_enqueue_cag_update` since a record. -/
def pendingCount (tables : Tables) (projectId : Uuid)
    (latest : Option (BeliefStateRecord Content)) : Nat :=
  countPending tables.summaries projectId
    (latest.map BeliefStateRecord.lastSummaryCreatedAt)

/-- One step of an ingestion run; `none` where it is not enabled. -/
def triggerStep (threshold : Uuid → Nat) (schema : Schema Content)
    (state : QueueState Content) (run : Nat) (trigger : Trigger Content) :
    TriggerAction → Option (QueueState Content)
  | .commitSummary id rawTextFallback createdAt =>
      match trigger.pc with
      | .running =>
          some { state.setPc run trigger .committed with
            tables := { state.tables with
              summaries := insertSummary state.tables.summaries {
                id := id
                documentId := trigger.documentId
                projectId := trigger.projectId
                rawTextFallback := rawTextFallback
                createdAt := createdAt } } }
      | _ => none
  | .getLatest =>
      match trigger.pc, getLatest schema state.tables trigger.projectId with
      | .committed, .ok latest =>
          some (state.setPc run trigger (.gotLatest latest))
      | _, _ => none
  | .countPending =>
      match trigger.pc with
      | .gotLatest latest =>
          if shouldEnqueue latest
              (pendingCount state.tables trigger.projectId latest)
              (threshold trigger.projectId) then
            some (state.setPc run trigger .enqueue)
          else
            some (state.setPc run trigger .done)
      | _ => none
  | .enqueue =>
      match trigger.pc with
      | .enqueue =>
          some ((state.enqueueUpdate trigger.projectId).setPc run trigger
            .done)
      | _ => none

/-- One step of the update job of a project; `none` where it is not
enabled. -/
def jobStep (schema : Schema Content) (state : QueueState Content)
    (projectId : Uuid) : JobAction Content → Option (QueueState Content)
  | .start =>
      match state.jobs projectId with
      | .queued => some (state.setJob projectId .started)
      | _ => none
  | .readWindow order =>
      match state.jobs projectId, getLatest schema state.tables projectId with
      | .started, .ok latest =>
          match incrementalPlan order state.tables.summaries projectId
              rebuildBatchSize latest with
          | none => some (state.setJob projectId .returning)
          | some plan => some (state.setJob projectId (.synthesized plan))
      | _, _ => none
  | .commitVersion content stamp =>
      match state.jobs projectId with
      | .synthesized plan =>
          some { state.setJob projectId (.committed plan.remaining) with
            tables := { state.tables with
              beliefs := state.tables.beliefs ++
                [(plan.draft schema .incremental content).row projectId
                  (nextVersion state.tables projectId) stamp] } }
      | _ => none
  | .enqueueRemainder =>
      match state.jobs projectId with
      | .committed remaining =>
          -- the job that executes this still holds its own id
          some ((if 0 < remaining then state.enqueueUpdate projectId
            else state).setJob projectId .returning)
      | _ => none
  | .finish =>
      match state.jobs projectId with
      | .returning => some (state.setJob projectId .absent)
      | _ => none

/-- One step; `none` where the label is not enabled. -/
def queueStep (threshold : Uuid → Nat) (schema : Schema Content)
    (state : QueueState Content) :
    QueueLabel Content → Option (QueueState Content)
  | .startIngest run documentId projectId =>
      match state.triggers run with
      | some _ => none
      | none =>
          some (state.setPc run
            { documentId := documentId, projectId := projectId,
              pc := .running } .running)
  | .ingest run action =>
      (state.triggers run).bind fun trigger =>
        triggerStep threshold schema state run trigger action
  | .job projectId action => jobStep schema state projectId action

def QueueState.empty : QueueState Content where
  tables := { summaries := [], beliefs := [] }
  jobs := fun _ => .absent
  triggers := fun _ => none

def updates (threshold : Uuid → Nat) (schema : Schema Content) :
    TransitionSystem (QueueState Content) (QueueLabel Content) :=
  TransitionSystem.ofNext (fun state => state = QueueState.empty)
    (queueStep threshold schema)

end System

section Frame

variable {Content : Type} {state : QueueState Content} {projectId : Uuid}

@[simp]
theorem enqueueUpdate_tables :
    (state.enqueueUpdate projectId).tables = state.tables := by
  unfold QueueState.enqueueUpdate
  cases (state.jobs projectId).enqueue <;> rfl

@[simp]
theorem enqueueUpdate_triggers :
    (state.enqueueUpdate projectId).triggers = state.triggers := by
  unfold QueueState.enqueueUpdate
  cases (state.jobs projectId).enqueue <;> rfl

theorem enqueueUpdate_jobs_of_ne {other : Uuid}
    (different : other ≠ projectId) :
    (state.enqueueUpdate projectId).jobs other = state.jobs other := by
  unfold QueueState.enqueueUpdate
  cases (state.jobs projectId).enqueue with
  | none => rfl
  | some job => exact Function.update_of_ne different _ _

/-- The queue accepts the update of a project whose job is absent and leaves
every other job as it is. -/
theorem enqueueUpdate_jobs (state : QueueState Content)
    (projectId : Uuid) :
    (state.jobs projectId = .absent ∧
        (state.enqueueUpdate projectId).jobs projectId = .queued) ∨
      (state.jobs projectId ≠ .absent ∧
        state.enqueueUpdate projectId = state) := by
  unfold QueueState.enqueueUpdate
  cases jobIs : state.jobs projectId with
  | absent => exact Or.inl ⟨rfl, Function.update_self ..⟩
  | _ => exact Or.inr ⟨by simp, rfl⟩

variable {summaries : List DocumentSummary} {row : DocumentSummary}

theorem countPending_insertSummary_of_ne
    (different : row.projectId ≠ projectId)
    (watermark : Option Timestamp) :
    countPending (insertSummary summaries row) projectId watermark =
      countPending summaries projectId watermark := by
  unfold insertSummary
  split
  · rfl
  · simp [countPending, pendingRows, different]

theorem countPending_le_insertSummary (watermark : Option Timestamp) :
    countPending summaries projectId watermark ≤
      countPending (insertSummary summaries row) projectId watermark := by
  unfold insertSummary
  split
  · exact le_refl _
  · rw [countPending, countPending, pendingRows, pendingRows,
      List.filter_append, List.length_append]
    exact Nat.le_add_right _ _

end Frame

/-! ## What one step can do -/

section Moves

variable {Content : Type}

inductive TriggerMove (threshold : Uuid → Nat) (schema : Schema Content)
    (state : QueueState Content) (run : Nat) (trigger : Trigger Content) :
    TriggerAction → QueueState Content → Prop
  | commitSummary (row : DocumentSummary) :
      trigger.pc = .running →
      row.projectId = trigger.projectId →
      TriggerMove threshold schema state run trigger
        (.commitSummary row.id row.rawTextFallback row.createdAt)
        { state.setPc run trigger .committed with
          tables := { state.tables with
            summaries := insertSummary state.tables.summaries row } }
  | getLatest {latest : Option (BeliefStateRecord Content)} :
      trigger.pc = .committed →
      Cag.getLatest schema state.tables trigger.projectId = .ok latest →
      TriggerMove threshold schema state run trigger .getLatest
        (state.setPc run trigger (.gotLatest latest))
  | decide {latest : Option (BeliefStateRecord Content)} :
      trigger.pc = .gotLatest latest →
      shouldEnqueue latest
        (pendingCount state.tables trigger.projectId latest)
        (threshold trigger.projectId) = true →
      TriggerMove threshold schema state run trigger .countPending
        (state.setPc run trigger .enqueue)
  | decline {latest : Option (BeliefStateRecord Content)} :
      trigger.pc = .gotLatest latest →
      shouldEnqueue latest
        (pendingCount state.tables trigger.projectId latest)
        (threshold trigger.projectId) = false →
      TriggerMove threshold schema state run trigger .countPending
        (state.setPc run trigger .done)
  | enqueue :
      trigger.pc = .enqueue →
      TriggerMove threshold schema state run trigger .enqueue
        ((state.enqueueUpdate trigger.projectId).setPc run trigger .done)

inductive JobMove (schema : Schema Content) (state : QueueState Content)
    (projectId : Uuid) : JobAction Content → QueueState Content → Prop
  | start :
      state.jobs projectId = .queued →
      JobMove schema state projectId .start
        (state.setJob projectId .started)
  | nothing {order : OrderBy DocumentSummary.createdAt}
      {latest : Option (BeliefStateRecord Content)} :
      state.jobs projectId = .started →
      getLatest schema state.tables projectId = .ok latest →
      incrementalPlan order state.tables.summaries projectId
        rebuildBatchSize latest = none →
      JobMove schema state projectId (.readWindow order)
        (state.setJob projectId .returning)
  | readWindow {order : OrderBy DocumentSummary.createdAt}
      {latest : Option (BeliefStateRecord Content)} {plan : Plan Content} :
      state.jobs projectId = .started →
      getLatest schema state.tables projectId = .ok latest →
      incrementalPlan order state.tables.summaries projectId
        rebuildBatchSize latest = some plan →
      JobMove schema state projectId (.readWindow order)
        (state.setJob projectId (.synthesized plan))
  | commitVersion {plan : Plan Content} {content : Content} {stamp : Stamp} :
      state.jobs projectId = .synthesized plan →
      JobMove schema state projectId (.commitVersion content stamp)
        { state.setJob projectId (.committed plan.remaining) with
          tables := { state.tables with
            beliefs := state.tables.beliefs ++
              [(plan.draft schema .incremental content).row projectId
                (nextVersion state.tables projectId) stamp] } }
  | enqueueRemainder {remaining : Nat} :
      state.jobs projectId = .committed remaining →
      JobMove schema state projectId .enqueueRemainder
        (state.setJob projectId .returning)
  | finish :
      state.jobs projectId = .returning →
      JobMove schema state projectId .finish
        (state.setJob projectId .absent)

variable {threshold : Uuid → Nat} {schema : Schema Content}
  {state target : QueueState Content}

theorem triggerMove_of_step {run : Nat} {trigger : Trigger Content}
    {action : TriggerAction}
    (taken :
      triggerStep threshold schema state run trigger action =
        some target) :
    TriggerMove threshold schema state run trigger action target := by
  cases action with
  | commitSummary id rawTextFallback createdAt =>
      simp only [triggerStep] at taken
      split at taken
      · rename_i running
        rw [Option.some.injEq] at taken
        rw [← taken]
        exact TriggerMove.commitSummary {
          id := id, documentId := trigger.documentId,
          projectId := trigger.projectId,
          rawTextFallback := rawTextFallback, createdAt := createdAt }
          running rfl
      · cases taken
  | getLatest =>
      simp only [triggerStep] at taken
      split at taken
      · rename_i latest committed read
        rw [Option.some.injEq] at taken
        rw [← taken]
        exact TriggerMove.getLatest committed read
      · cases taken
  | countPending =>
      simp only [triggerStep] at taken
      split at taken
      · rename_i latest got
        split at taken
        · rename_i enough
          rw [Option.some.injEq] at taken
          rw [← taken]
          exact TriggerMove.decide got enough
        · rename_i tooFew
          rw [Option.some.injEq] at taken
          rw [← taken]
          exact TriggerMove.decline got (Bool.not_eq_true _ ▸ tooFew)
      · cases taken
  | enqueue =>
      simp only [triggerStep] at taken
      split at taken
      · rename_i decided
        rw [Option.some.injEq] at taken
        rw [← taken]
        exact TriggerMove.enqueue decided
      · cases taken

theorem enqueueUpdate_committed {projectId : Uuid} {remaining : Nat}
    (executing : state.jobs projectId = .committed remaining) :
    state.enqueueUpdate projectId = state := by
  unfold QueueState.enqueueUpdate
  rw [executing]
  rfl

theorem jobMove_of_step {projectId : Uuid} {action : JobAction Content}
    (taken : jobStep schema state projectId action = some target) :
    JobMove schema state projectId action target := by
  cases action with
  | start =>
      simp only [jobStep] at taken
      split at taken
      · rename_i queued
        rw [Option.some.injEq] at taken
        rw [← taken]
        exact JobMove.start queued
      · cases taken
  | readWindow order =>
      simp only [jobStep] at taken
      split at taken
      · rename_i latest started read
        split at taken
        · rename_i noPlan
          rw [Option.some.injEq] at taken
          rw [← taken]
          exact JobMove.nothing started read noPlan
        · rename_i plan planned
          rw [Option.some.injEq] at taken
          rw [← taken]
          exact JobMove.readWindow started read planned
      · cases taken
  | commitVersion content stamp =>
      simp only [jobStep] at taken
      split at taken
      · rename_i plan synthesized
        rw [Option.some.injEq] at taken
        rw [← taken]
        exact JobMove.commitVersion synthesized
      · cases taken
  | enqueueRemainder =>
      simp only [jobStep] at taken
      split at taken
      · rename_i remaining committed
        rw [enqueueUpdate_committed committed, ite_self,
          Option.some.injEq] at taken
        rw [← taken]
        exact JobMove.enqueueRemainder committed
      · cases taken
  | finish =>
      simp only [jobStep] at taken
      split at taken
      · rename_i returning
        rw [Option.some.injEq] at taken
        rw [← taken]
        exact JobMove.finish returning
      · cases taken

/-- Every step starts an ingestion run, moves one, or moves a job. -/
theorem queueStep_cases {label : QueueLabel Content}
    (taken : queueStep threshold schema state label = some target) :
    (∃ run documentId projectId,
      label = .startIngest run documentId projectId ∧
      state.triggers run = none ∧
      target = state.setPc run
        { documentId := documentId, projectId := projectId,
          pc := .running } .running) ∨
    (∃ run action trigger, label = .ingest run action ∧
      state.triggers run = some trigger ∧
      TriggerMove threshold schema state run trigger action target) ∨
    (∃ projectId action, label = .job projectId action ∧
      JobMove schema state projectId action target) := by
  cases label with
  | startIngest run documentId projectId =>
      simp only [queueStep] at taken
      split at taken
      · cases taken
      · rename_i unused
        rw [Option.some.injEq] at taken
        exact Or.inl
          ⟨run, documentId, projectId, rfl, unused, taken.symm⟩
  | ingest run action =>
      obtain ⟨trigger, present, moved⟩ := Option.bind_eq_some_iff.mp taken
      exact Or.inr (Or.inl
        ⟨run, action, trigger, rfl, present, triggerMove_of_step moved⟩)
  | job projectId action =>
      exact Or.inr (Or.inr
        ⟨projectId, action, rfl, jobMove_of_step taken⟩)

end Moves

end ProjectMemory.Cag
