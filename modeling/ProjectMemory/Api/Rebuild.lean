import ProjectMemory.Api.Endpoints
import ProjectMemory.Cag.Writers

/-!
# Rebuild requests

An admin's request and the weekly cron enqueue `cag_rebuild` under one job id
for each project.  The queue keeps at most one job with an id, whatever its
arguments are, and the endpoint answers `queued` either way.
-/

namespace ProjectMemory.Api

open Foundation ProjectMemory.Core

/-! ## The queue -/

section Queue

/-- A `cag_rebuild` job that is queued or executing. -/
structure RebuildJob where
  projectId : Uuid
  mode : Cag.Mode
  executing : Bool
  deriving DecidableEq, Repr

/-- The jobs that are queued or executing, by job id. -/
abbrev RebuildJobs := String → Option RebuildJob

def rebuildJobId (projectId : Uuid) : String :=
  "cag-rebuild-" ++ projectId.str

/-- `enqueue_job("cag_rebuild", project_id, mode, _job_id=...)`; `none` where
it returns `None`. -/
def enqueueRebuild (jobs : RebuildJobs) (projectId : Uuid)
    (mode : Cag.Mode) : Option RebuildJobs :=
  match jobs (rebuildJobId projectId) with
  | some _ => none
  | none =>
      some (Function.update jobs (rebuildJobId projectId)
        (some { projectId := projectId, mode := mode, executing := false }))

structure RebuildResponse where
  queued : Bool
  deduplicated : Bool
  deriving DecidableEq, Repr

/-- What `rebuild_cag` checks: the role its user must have, then the scope. -/
def authorizeRebuild (decodeSubject : String → Option String)
    (authorization : Option String) (accounts : Accounts)
    (projectId : Uuid) : Except HttpError Unit := do
  let user ← getCurrentUser decodeSubject authorization accounts
  requireRole .admin user
  checkAccess projectId (getAccessibleProjectIds user accounts)
    "Access denied"

def rebuildCag (decodeSubject : String → Option String)
    (authorization : Option String) (accounts : Accounts)
    (projectId : Uuid) (mode : Cag.Mode) (jobs : RebuildJobs) :
    Except HttpError (RebuildResponse × RebuildJobs) := do
  authorizeRebuild decodeSubject authorization accounts projectId
  let result := enqueueRebuild jobs projectId mode
  return ({ queued := true, deduplicated := result.isNone },
    result.getD jobs)

end Queue

/-! ## The system -/

section System

/-- The queue, and the request that was answered by the last step, if that was
one. -/
structure RebuildQueue where
  jobs : RebuildJobs
  answered : Option (Uuid × Cag.Mode × RebuildResponse)

inductive RebuildLabel where
  | request (authorization : Option String) (accounts : Accounts)
      (projectId : Uuid) (mode : Cag.Mode)
  /-- `cag_weekly_rebuild` enqueues the next of its projects. -/
  | cron (projectId : Uuid)
  | start (projectId : Uuid)
  | finish (projectId : Uuid)

/-- One step; `none` where the label is not enabled. -/
def rebuildQueueStep (decodeSubject : String → Option String)
    (state : RebuildQueue) : RebuildLabel → Option RebuildQueue
  | .request authorization accounts projectId mode =>
      match rebuildCag decodeSubject authorization accounts projectId mode
          state.jobs with
      | .error _ => some { state with answered := none }
      | .ok (response, jobs) =>
          some { jobs := jobs, answered := some (projectId, mode, response) }
  | .cron projectId =>
      some {
        jobs := (enqueueRebuild state.jobs projectId .compaction).getD
          state.jobs
        answered := none }
  | .start projectId =>
      match state.jobs (rebuildJobId projectId) with
      | some { executing := false, projectId := owner, mode := mode } =>
          some {
            jobs := Function.update state.jobs (rebuildJobId projectId)
              (some { projectId := owner, mode := mode, executing := true })
            answered := none }
      | _ => none
  | .finish projectId =>
      match state.jobs (rebuildJobId projectId) with
      | some { executing := true, .. } =>
          some {
            jobs := Function.update state.jobs (rebuildJobId projectId) none
            answered := none }
      | _ => none

def RebuildQueue.empty : RebuildQueue where
  jobs := fun _ => none
  answered := none

def rebuilds (decodeSubject : String → Option String) :
    TransitionSystem RebuildQueue RebuildLabel :=
  TransitionSystem.ofNext (fun state => state = RebuildQueue.empty)
    (rebuildQueueStep decodeSubject)

/-- A request that was answered as queued has its job: one of its project and
with its mode is queued or executing. -/
def Acknowledged (state : RebuildQueue) : Prop :=
  ∀ projectId mode response,
    state.answered = some (projectId, mode, response) →
    response.queued = true →
    ∃ jobId job, state.jobs jobId = some job ∧
      job.projectId = projectId ∧ job.mode = mode

/-- The condition on a step: a request that is let through finds no rebuild of
its project, or one in its own mode. -/
def findsOwnMode (decodeSubject : String → Option String)
    (state : RebuildQueue) : RebuildLabel → Bool
  | .request authorization accounts projectId mode =>
      match authorizeRebuild decodeSubject authorization accounts
          projectId with
      | .error _ => true
      | .ok _ =>
          (state.jobs (rebuildJobId projectId)).all fun job =>
            job.mode = mode
  | _ => true

end System

/-! ## What a step does -/

section Steps

variable {decodeSubject : String → Option String} {jobs : RebuildJobs}
  {projectId : Uuid} {mode : Cag.Mode} {source target : RebuildQueue}
  {label : RebuildLabel}

theorem rebuildJobId_injective {first second : Uuid}
    (same : rebuildJobId first = rebuildJobId second) : first = second :=
  Uuid.str_injective ((String.append_right_inj "cag-rebuild-").mp same)

/-- Every job is kept under the job id of its project. -/
def Keyed (jobs : RebuildJobs) : Prop :=
  ∀ jobId job, jobs jobId = some job → jobId = rebuildJobId job.projectId

theorem keyed_empty : Keyed RebuildQueue.empty.jobs := by
  intro jobId job found
  cases found

theorem Keyed.update (keyed : Keyed jobs) {jobId : String}
    {entry : Option RebuildJob}
    (own : ∀ job, entry = some job → jobId = rebuildJobId job.projectId) :
    Keyed (Function.update jobs jobId entry) := by
  intro other job found
  by_cases same : other = jobId
  · rw [same, Function.update_self] at found
    rw [same]
    exact own job found
  · rw [Function.update_of_ne same] at found
    exact keyed other job found

theorem Keyed.enqueue (keyed : Keyed jobs) :
    Keyed ((enqueueRebuild jobs projectId mode).getD jobs) := by
  unfold enqueueRebuild
  cases jobs (rebuildJobId projectId) with
  | some job => exact keyed
  | none =>
      refine keyed.update ?_
      intro job isJob
      cases isJob
      rfl

/-- After an attempt to enqueue there is a job under the id: the one that was
there, or the new one. -/
theorem enqueueRebuild_own :
    ((enqueueRebuild jobs projectId mode).getD jobs)
        (rebuildJobId projectId) =
      some ((jobs (rebuildJobId projectId)).getD
        { projectId := projectId, mode := mode, executing := false }) := by
  unfold enqueueRebuild
  cases found : jobs (rebuildJobId projectId) with
  | some job => exact found
  | none =>
      simp only [Option.getD_some, Option.getD_none, Function.update_self]

theorem rebuildCag_eq (authorization : Option String) (accounts : Accounts) :
    rebuildCag decodeSubject authorization accounts projectId mode jobs =
      (authorizeRebuild decodeSubject authorization accounts projectId).map
        fun _ => ({ queued := true
                    deduplicated :=
                      (enqueueRebuild jobs projectId mode).isNone },
          (enqueueRebuild jobs projectId mode).getD jobs) := by
  unfold rebuildCag
  cases authorizeRebuild decodeSubject authorization accounts projectId <;>
    rfl

theorem Keyed.step (keyed : Keyed source.jobs)
    (taken : rebuildQueueStep decodeSubject source label = some target) :
    Keyed target.jobs := by
  cases label with
  | request authorization accounts projectId mode =>
      rw [rebuildQueueStep, rebuildCag_eq] at taken
      cases authorized : authorizeRebuild decodeSubject authorization
          accounts projectId with
      | error failure =>
          rw [authorized] at taken
          cases taken
          exact keyed
      | ok _ =>
          simp only [authorized, Except.map, Option.some.injEq] at taken
          subst taken
          exact keyed.enqueue
  | cron projectId =>
      simp only [rebuildQueueStep, Option.some.injEq] at taken
      subst taken
      exact keyed.enqueue
  | start projectId =>
      rw [rebuildQueueStep] at taken
      split at taken
      · rename_i owner mode found
        have sameId : rebuildJobId projectId = rebuildJobId owner :=
          keyed _ ⟨owner, mode, false⟩ found
        cases taken
        refine keyed.update ?_
        intro job isJob
        cases isJob
        exact sameId
      · cases taken
  | finish projectId =>
      rw [rebuildQueueStep] at taken
      split at taken
      · cases taken
        refine keyed.update ?_
        intro job isJob
        cases isJob
      · cases taken

theorem acknowledged_of_unanswered (unanswered : source.answered = none) :
    Acknowledged source := by
  intro projectId mode response answered
  rw [unanswered] at answered
  cases answered

/-- An answered request has its job exactly when the job under the id of its
project is in its mode. -/
theorem acknowledged_iff_own (keyed : Keyed source.jobs)
    {deduplicated : Bool}
    (answered : source.answered =
      some (projectId, mode, ⟨true, deduplicated⟩)) {job : RebuildJob}
    (own : source.jobs (rebuildJobId projectId) = some job) :
    Acknowledged source ↔ job.mode = mode := by
  constructor
  · intro acknowledged
    obtain ⟨jobId, other, found, ofProject, inMode⟩ :=
      acknowledged projectId mode _ answered rfl
    have sameId := keyed jobId other found
    rw [sameId, ofProject, own] at found
    cases found
    exact inMode
  · intro inMode requested requestedMode response isAnswer _
    rw [answered] at isAnswer
    cases isAnswer
    have isKeyed := keyed _ _ own
    exact ⟨_, job, own, (rebuildJobId_injective isKeyed).symm, inMode⟩

theorem acknowledged_step_iff (keyed : Keyed source.jobs)
    (taken : rebuildQueueStep decodeSubject source label = some target) :
    Acknowledged target ↔ findsOwnMode decodeSubject source label = true := by
  cases label with
  | request authorization accounts projectId mode =>
      have keyedAfter := keyed.step taken
      rw [rebuildQueueStep, rebuildCag_eq] at taken
      rw [findsOwnMode]
      cases authorized : authorizeRebuild decodeSubject authorization
          accounts projectId with
      | error failure =>
          rw [authorized] at taken
          cases taken
          exact iff_of_true (acknowledged_of_unanswered rfl) rfl
      | ok _ =>
          simp only [authorized, Except.map, Option.some.injEq] at taken
          subst taken
          rw [acknowledged_iff_own keyedAfter rfl enqueueRebuild_own]
          cases source.jobs (rebuildJobId projectId) with
          | none => exact iff_of_true rfl rfl
          | some job =>
              rw [Option.getD_some, Option.all_some, decide_eq_true_iff]
  | cron projectId =>
      simp only [rebuildQueueStep, Option.some.injEq] at taken
      subst taken
      exact iff_of_true (acknowledged_of_unanswered rfl) rfl
  | start projectId =>
      rw [rebuildQueueStep] at taken
      split at taken
      · cases taken
        exact iff_of_true (acknowledged_of_unanswered rfl) rfl
      · cases taken
  | finish projectId =>
      rw [rebuildQueueStep] at taken
      split at taken
      · cases taken
        exact iff_of_true (acknowledged_of_unanswered rfl) rfl
      · cases taken

/-- In a run of the queue every request answered as queued has its job exactly
when every request finds no rebuild of its project, or one in its own
mode. -/
theorem acknowledged_iff_findsOwnMode
    {run : List (RebuildLabel × RebuildQueue)}
    (isRun : Run (rebuilds decodeSubject).step RebuildQueue.empty run) :
    (∀ state ∈ visited RebuildQueue.empty run, Acknowledged state) ↔
      Run (fun source label target =>
          (rebuilds decodeSubject).step source label target ∧
            findsOwnMode decodeSubject source label = true)
        RebuildQueue.empty run := by
  refine Run.all_visited_iff_guarded (fun state => Keyed state.jobs)
    Acknowledged ?_ ?_ ?_ ?_ isRun ?_ ?_
  · exact fun _ _ _ keyed taken => keyed.step taken
  · exact fun _ acknowledged => acknowledged
  · exact fun _ _ _ keyed _ taken => acknowledged_step_iff keyed taken
  · exact fun _ _ _ _ _ _ acknowledged => acknowledged
  · exact keyed_empty
  · exact acknowledged_of_unanswered rfl

end Steps

section Sample

def adminAccounts : Accounts where
  users := Table.single { id := 5, role := "admin" }
  members := []
  projects := Table.single {
    id := 1, name := "Apollo", description := none, teamId := 3,
    config := [], createdAt := 0 }

/-- The one token that is valid is the admin's. -/
def decodeAdmin (token : String) : Option String :=
  if token = "token" then some "00000000-0000-0000-0000-000000000005"
  else none

def adminRequest (mode : Cag.Mode) : RebuildLabel :=
  .request (some "Bearer token") adminAccounts 1 mode

theorem admin_authorized :
    authorizeRebuild decodeAdmin (some "Bearer token") adminAccounts 1 =
      .ok () := by
  rfl

theorem acknowledged_oneAfterTheOther :
    ∃ run, Run (rebuilds decodeAdmin).step RebuildQueue.empty run ∧
      run.length = 5 ∧
      ∀ state ∈ visited RebuildQueue.empty run, Acknowledged state := by
  have isRun := run_trace (rebuildQueueStep decodeAdmin)
    [.cron 1, adminRequest .compaction, .start 1, .finish 1,
      adminRequest .genesis] RebuildQueue.empty
  refine ⟨_, isRun, by decide +kernel, ?_⟩
  refine (acknowledged_iff_findsOwnMode isRun).mpr ?_
  exact run_trace_meets (findsOwnMode decodeAdmin) _ _ _ (by decide +kernel)

def cronQueued : RebuildQueue where
  jobs := (enqueueRebuild (fun _ => none) 1 .compaction).getD fun _ => none
  answered := none

/-- The cron has enqueued a compaction when the admin asks for a genesis
rebuild. -/
theorem genesis_acknowledged_and_dropped :
    ∃ state, Reachable (rebuilds decodeAdmin) state ∧
      state.answered = some (1, .genesis, ⟨true, true⟩) ∧
      ¬ Acknowledged state := by
  have cron : rebuildQueueStep decodeAdmin RebuildQueue.empty (.cron 1) =
      some cronQueued := rfl
  have keyed : Keyed cronQueued.jobs := Keyed.step keyed_empty cron
  have taken : rebuildQueueStep decodeAdmin cronQueued
      (adminRequest .genesis) = some {
        jobs := cronQueued.jobs
        answered := some (1, .genesis, ⟨true, true⟩) } := by
    have found : cronQueued.jobs (rebuildJobId 1) =
        some { projectId := 1, mode := .compaction, executing := false } :=
      @enqueueRebuild_own (fun _ => none) 1 .compaction
    rw [adminRequest, rebuildQueueStep, rebuildCag_eq, admin_authorized]
    simp only [Except.map, enqueueRebuild, found, Option.isNone_none,
      Option.getD_none]
  refine ⟨_, Reachable.step (Reachable.step (Reachable.initial rfl) cron)
    taken, rfl, ?_⟩
  rw [acknowledged_step_iff keyed taken]
  decide +kernel

end Sample

end ProjectMemory.Api
