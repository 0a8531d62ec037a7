import ProjectMemory.Api.Erasure

/-!
# Ingestion jobs between the table and the queue

An upload commits the row of its job and enqueues the job afterwards; what
fails in between leaves a pending row that nobody works on.  Every five
minutes a sweep enqueues the pending jobs that are older than ten minutes.

API requests, sweeps and workers take turns statement by statement.  The
arguments of a queued job are always those of its row.  Whatever has happened
before, a sweep leaves every stale job queued or executing, unless its run
has ended and the result is still kept: it passes such a job over.
-/

namespace ProjectMemory.Api

open Foundation Ingestion ProjectMemory.Core Retrieval

/-! ## The sweep -/

section Sweep

variable {Content Dense Sparse Score : Type}

/-- Ten minutes. -/
def staleAfter : Nat := 600000000

def isStale (time : Timestamp) (job : IngestionJob) : Bool :=
  job.status = .pending && job.createdAt + staleAfter < time

/-- The arguments that `upload` and the sweep give to `enqueue_job`. -/
def callOf (job : IngestionJob) : IngestCall where
  jobId := job.id
  documentId := job.documentId
  projectId := job.projectId

/-- The order in which a query without `ORDER BY` returns the rows, and which
calls to Redis fail. -/
structure SweepChance where
  arrange : List IngestionJob → List IngestionJob
  arrange_perm : ∀ rows, (arrange rows).Perm rows
  redisDown : Nat → Bool

structure SweepCounts where
  scanned : Nat
  enqueued : Nat
  deriving DecidableEq, Repr

/-- `enqueue_job`, which says whether the job is new. -/
def enqueueStale (redisDown : Bool) (job : IngestionJob) :
    Action Dense Sparse Bool :=
  Script.transaction fun platform =>
    if redisDown then .error (internal "ConnectionError")
    else
      .ok ({ platform with
        ingestJobs := platform.ingestJobs.offer (ingestJobId job.id)
          (callOf job) }, (platform.ingestJobs (ingestJobId job.id)).isNone)

def sweepFrom (redisDown : Nat → Bool) (counts : SweepCounts) :
    List IngestionJob → Action Dense Sparse SweepCounts
  | [] => return counts
  | job :: jobs => do
      let isNew ← enqueueStale (redisDown counts.scanned) job
      sweepFrom redisDown {
        scanned := counts.scanned + 1
        enqueued := counts.enqueued + if isNew then 1 else 0 } jobs

/-- `sweep_pending_jobs`. -/
def sweepPendingJobs (chance : SweepChance) :
    Action Dense Sparse SweepCounts := do
  let time ← now
  let jobs ← select fun rows =>
    chance.arrange (rows.jobs.filter (isStale time))
  sweepFrom chance.redisDown { scanned := 0, enqueued := 0 } jobs

/-! ## Workers -/

/-- What a run of `ingest_document` commits to the row of its job. -/
inductive Report where
  | running
  | complete (now : Timestamp)
  | failed (failure : Workers.Failure)

def Report.change : Report → IngestionJob → IngestionJob
  | .running => Workers.setRunning
  | .complete now => Workers.setComplete now
  | .failed failure => failure.setFailed

def Rows.updateJob (rows : Rows) (jobId : Uuid)
    (change : IngestionJob → IngestionJob) : Rows :=
  { rows with
    jobs := rows.jobs.map fun job =>
      if job.id = jobId then change job else job }

/-- What becomes of a queued job. -/
inductive QueueMove where
  | take
  | giveBack
  | finish
  | expire

def QueueMove.apply (queue : JobQueue String IngestCall) (id : String) :
    QueueMove → Option (JobQueue String IngestCall)
  | .take => queue.start id
  | .giveBack => queue.requeue id
  | .finish => queue.finish id
  | .expire => queue.expire id

/-- The queue moves a job on, where it can. -/
def moveJob (jobId : Uuid) (step : QueueMove) : Action Dense Sparse Unit :=
  Script.transaction fun platform =>
    .ok ({ platform with
      ingestJobs := (step.apply platform.ingestJobs
        (ingestJobId jobId)).getD platform.ingestJobs }, ())

inductive Work where
  | api (event : Event)
  | sweep (chance : SweepChance)
  | move (jobId : Uuid) (step : QueueMove)
  | report (jobId : Uuid) (written : Report)

inductive WorkAnswer (Content Score : Type) where
  | api (answer : Answer Content Score)
  | swept (counts : SweepCounts)
  | done

def Work.script [LinearOrder Score]
    (server : Server Content Dense Sparse Score) :
    Work → Action Dense Sparse (WorkAnswer Content Score)
  | .api event => do return .api (← event.script server)
  | .sweep chance => do return .swept (← sweepPendingJobs chance)
  | .move jobId step => do
      moveJob jobId step
      return .done
  | .report jobId written => do
      commit (Rows.updateJob · jobId written.change)
      return .done

/-- What is drawn for the uploads: the job, the document and the project. -/
def uploading (uploads : Uuid → Uuid → Uuid → Prop) : Powers where
  privileged := True
  reach := fun _ => True
  drawn := fun _ => True
  uploads := uploads
  updates := fun _ _ => True

def Work.Allowed (uploads : Uuid → Uuid → Uuid → Prop) : Work → Prop
  | .api event => event.Allowed (uploading uploads)
  | _ => True

end Sweep

/-! ## A run reports to its row -/

section Reports

variable {Content Dense Sparse : Type} {libraries : Libraries Dense Sparse}
  {schema : Schema Content} {arguments : Workers.Arguments}
  {store target : Workers.Store Dense Sparse} {choice : Workers.Choice}
  {pc next : Workers.Pc Content Dense Sparse}

/-- A statement of `ingest_document` leaves the jobs as they are, or reports to
its own. -/
theorem advance_reports
    (taken : Workers.advance libraries schema arguments store choice pc =
      some (target, next)) :
    target.jobs = store.jobs ∨ ∃ report : Report,
      target.jobs = Function.update store.jobs arguments.jobId
        ((store.jobs arguments.jobId).map report.change) := by
  rcases Workers.advance_cases taken with
    ⟨stage, fault, _, rfl, rfl⟩ | ⟨_, executes⟩ | handles
  · cases pc with
    | commitRunning =>
        rw [Workers.afterFault]
        split
        · exact Or.inr ⟨.running, rfl⟩
        · exact Or.inl rfl
    | commitComplete =>
        rw [Workers.afterFault]
        split
        · exact Or.inr ⟨.complete choice.now, rfl⟩
        · exact Or.inl rfl
    | commitSummary config row =>
        rw [Workers.afterFault]
        split <;> exact Or.inl rfl
    | _ => exact Or.inl rfl
  · cases executes with
    | commitRunning => exact Or.inr ⟨.running, rfl⟩
    | commitComplete => exact Or.inr ⟨.complete choice.now, rfl⟩
    | _ => exact Or.inl rfl
  · cases handles with
    | @commitLanded failure | @committed failure =>
        exact Or.inr ⟨.failed failure, rfl⟩
    | _ => exact Or.inl rfl

theorem Report.same (report : Report) (job : IngestionJob) :
    callOf (report.change job) = callOf job := by
  cases report <;> rfl

/-- What a report does to the table is what it does to a run's store. -/
theorem find_updateJob (rows : Rows) (jobId : Uuid) (report : Report) :
    (fun id => (rows.updateJob jobId report.change).jobs.find? fun job =>
        job.id = id) =
      Function.update (fun id => rows.jobs.find? fun job => job.id = id)
        jobId ((rows.jobs.find? fun job => job.id = jobId).map
          report.change) := by
  have sameId (job : IngestionJob) :
      (if job.id = jobId then report.change job else job).id = job.id := by
    split
    · exact congrArg IngestCall.jobId (report.same job)
    · rfl
  funext id
  rw [Rows.updateJob]
  dsimp only
  rw [List.find?_map]
  have samePredicate : ((fun job : IngestionJob => decide (job.id = id)) ∘
      fun job => if job.id = jobId then report.change job else job) =
      fun job => decide (job.id = id) := by
    funext job
    simp only [Function.comp, sameId]
  rw [samePredicate]
  by_cases own : id = jobId
  · subst own
    rw [Function.update_self]
    cases found : rows.jobs.find? fun job => job.id = id with
    | none => rfl
    | some job =>
        have isOwn := (find_key_eq_some found).2
        rw [Option.map_some, Option.map_some, if_pos isOwn]
  · rw [Function.update_of_ne own]
    cases found : rows.jobs.find? fun job => job.id = id with
    | none => rfl
    | some job =>
        have isOther := (find_key_eq_some found).2
        rw [Option.map_some, if_neg (isOther ▸ own)]

end Reports

/-! ## The queue says what the rows say -/

section Agreement

variable {Content Dense Sparse Score : Type}
  {uploads : Uuid → Uuid → Uuid → Prop} {platform : Platform Dense Sparse}

/-- The call is for the document and the project that were drawn with the
job. -/
def Describes (uploads : Uuid → Uuid → Uuid → Prop) (call : IngestCall) :
    Prop :=
  ∃ documentId, call.documentId = some documentId ∧
    uploads call.jobId documentId call.projectId

def Addressed (uploads : Uuid → Uuid → Uuid → Prop) (id : String)
    (call : IngestCall) : Prop :=
  id = ingestJobId call.jobId ∧ Describes uploads call

structure Delivers (uploads : Uuid → Uuid → Uuid → Prop)
    (platform : Platform Dense Sparse) : Prop where
  coherent : platform.rows.Coherent
  jobs : ∀ job ∈ platform.rows.jobs, Describes uploads (callOf job)
  calls : platform.ingestJobs.Holds (Addressed uploads)

/-- A step from one state to the other keeps what is known. -/
def KeepsDelivers (uploads : Uuid → Uuid → Uuid → Prop)
    (before after : Platform Dense Sparse) : Prop :=
  Delivers uploads before → Delivers uploads after

theorem Delivers.write (delivers : Delivers uploads platform)
    {database : Database}
    (change : RowChange (uploading uploads) platform.rows database.rows) :
    Delivers uploads { platform with database := database } := by
  have coherent := change.coherent platform.database.constraints
    database.constraints delivers.coherent
  refine ⟨coherent, ?_, delivers.calls⟩
  change ∀ job ∈ database.rows.jobs, Describes uploads (callOf job)
  generalize database.rows = changed at change
  cases change with
  | insertUpload document job _ sameProject ofDocument _ _ isUpload =>
      intro other isJob
      rcases List.mem_append.mp isJob with old | new
      · exact delivers.jobs other old
      · rw [List.mem_singleton.mp new]
        refine ⟨document.id, ofDocument, ?_⟩
        rw [callOf, sameProject]
        exact isUpload
  | deleteProject admin projectId =>
      intro dropped isJob
      obtain ⟨job, isKept, rfl⟩ := List.mem_map.mp isJob
      obtain ⟨isOld, other⟩ := List.mem_filter.mp isKept
      rw [dropDocument_eq delivers.coherent isOld (of_decide_eq_true other)]
      exact delivers.jobs job isOld
  | _ => exact delivers.jobs

theorem Delivers.offer (delivers : Delivers uploads platform)
    {id : String} {call : IngestCall} (isId : id = ingestJobId call.jobId)
    (describes : Describes uploads call) :
    Delivers uploads { platform with
      ingestJobs := platform.ingestJobs.offer id call } :=
  { delivers with calls := delivers.calls.offer ⟨isId, describes⟩ }

theorem delivers_admits : Admits (uploading uploads)
    (@KeepsDelivers Dense Sparse uploads) where
  refl _ delivers := delivers
  trans _ _ _ left right delivers := right (left delivers)
  executes now after executed := by
    intro delivers
    cases executed with
    | write database change => exact delivers.write change
    | enqueueIngest arguments documentId ofDocument _ isUpload =>
        exact delivers.offer rfl ⟨documentId, ofDocument, isUpload⟩
    | _ => exact { delivers with }

theorem enqueueStale_keeps {job : IngestionJob}
    (describes : Describes uploads (callOf job)) (redisDown : Bool) :
    Script.Keeps (@KeepsDelivers Dense Sparse uploads)
      (enqueueStale redisDown job) := by
  refine Script.keeps_transaction delivers_admits.refl ?_
  intro now after isNew returned delivers
  split at returned
  · cases returned
  · cases returned
    exact delivers.offer rfl describes

theorem sweepFrom_keeps {jobs : List IngestionJob}
    (describes : ∀ job ∈ jobs, Describes uploads (callOf job))
    (redisDown : Nat → Bool) (counts : SweepCounts) :
    Script.Keeps (@KeepsDelivers Dense Sparse uploads)
      (sweepFrom redisDown counts jobs) := by
  induction jobs generalizing counts with
  | nil => exact Script.keeps_finish _
  | cons job jobs inductionHypothesis =>
      obtain ⟨here, later⟩ := List.forall_mem_cons.mp describes
      exact delivers_admits.bind (enqueueStale_keeps here _) fun _ =>
        inductionHypothesis later _

/-- A sweep enqueues what it has read, which may be out of date. -/
theorem sweepPendingJobs_meets (delivers : Delivers uploads platform)
    (chance : SweepChance) :
    (sweepPendingJobs chance).Meets (KeepsDelivers uploads)
      (fun _ _ => True) platform := by
  have admits := @delivers_admits Dense Sparse uploads
  refine Script.Meets.bind _ admits.refl admits.trans
    (admits.read Platform.clock platform) ?_ fun _ _ _ _ => trivial
  intro now time moved _
  refine Script.Meets.bind
    (fun _ result => ∀ jobs, result = .ok jobs →
      ∀ job ∈ jobs, Describes uploads (callOf job))
    admits.refl admits.trans ?_ ?_ fun _ _ _ _ => trivial
  · refine Script.meets_read admits.refl ?_
    rintro later further jobs ⟨⟩ job isJob
    have isStale := (chance.arrange_perm _).mem_iff.mp isJob
    exact (further (moved delivers)).jobs job (List.mem_filter.mp isStale).1
  · intro later jobs _ describes
    exact sweepFrom_keeps (describes jobs rfl) _ _ later

theorem Delivers.move (delivers : Delivers uploads platform) (jobId : Uuid)
    (step : QueueMove) :
    Delivers uploads { platform with
      ingestJobs := (step.apply platform.ingestJobs
        (ingestJobId jobId)).getD platform.ingestJobs } := by
  refine { delivers with calls := ?_ }
  cases outcome : step.apply platform.ingestJobs (ingestJobId jobId) with
  | none => exact delivers.calls
  | some queue =>
      cases step with
      | take => exact delivers.calls.start outcome
      | giveBack => exact delivers.calls.requeue outcome
      | finish => exact delivers.calls.finish outcome
      | expire => exact delivers.calls.expire outcome

theorem Delivers.report (delivers : Delivers uploads platform) (jobId : Uuid)
    (written : Report) {database : Database}
    (isChange : database.rows =
      platform.rows.updateJob jobId written.change) :
    Delivers uploads { platform with database := database } := by
  have sameCall (job : IngestionJob) :
      callOf (if job.id = jobId then written.change job else job) =
        callOf job := by
    split
    · exact written.same job
    · rfl
  constructor
  · change database.rows.Coherent
    rw [isChange]
    refine ⟨?_, delivers.coherent.summaries⟩
    intro changed isJob document isDocument ofDocument
    obtain ⟨job, isOld, rfl⟩ := List.mem_map.mp isJob
    have sameDocument := congrArg IngestCall.documentId (sameCall job)
    have sameProject := congrArg IngestCall.projectId (sameCall job)
    exact sameProject.trans (delivers.coherent.jobs job isOld document
      isDocument (sameDocument.symm.trans ofDocument))
  · change ∀ job ∈ database.rows.jobs, Describes uploads (callOf job)
    rw [isChange]
    intro changed isJob
    obtain ⟨job, isOld, rfl⟩ := List.mem_map.mp isJob
    rw [sameCall]
    exact delivers.jobs job isOld
  · exact delivers.calls

/-- What is kept under the id of a job is the call of its row. -/
theorem Delivers.agrees (delivers : Delivers uploads platform)
    (once : ∀ jobId first second project other,
      uploads jobId first project → uploads jobId second other →
      first = second ∧ project = other)
    {id : String} {entry : QueuedJob IngestCall}
    (queued : platform.ingestJobs id = some entry) :
    id = ingestJobId entry.arguments.jobId ∧
      ∀ job ∈ platform.rows.jobs, job.id = entry.arguments.jobId →
        entry.arguments = callOf job ∧
          job.projectId ∈ platform.rows.projectIds ∧
          ∃ document ∈ platform.rows.documents,
            job.documentId = some document.id ∧
              document.projectId = job.projectId := by
  obtain ⟨isId, documentId, ofCall, uploaded⟩ := delivers.calls id entry queued
  refine ⟨isId, fun job isJob sameJob => ?_⟩
  obtain ⟨other, ofJob, described⟩ := delivers.jobs job isJob
  have references := platform.database.constraints.references
  have ofDocument : job.documentId = some other := ofJob
  have isDescribed : uploads job.id other job.projectId := described
  rw [sameJob] at isDescribed
  obtain ⟨sameDocument, sameProject⟩ :=
    once _ _ _ _ _ uploaded isDescribed
  have known : other ∈ platform.rows.documentIds :=
    references.jobDocument (List.mem_filterMap.mpr ⟨job, isJob, ofDocument⟩)
  obtain ⟨document, isDocument, isOther⟩ := List.mem_map.mp known
  rw [← isOther] at ofDocument
  refine ⟨?_, references.jobProject (List.mem_map_of_mem isJob), document,
    isDocument, ofDocument, ?_⟩
  · have parts : entry.arguments = ⟨entry.arguments.jobId,
        entry.arguments.documentId, entry.arguments.projectId⟩ := rfl
    rw [parts, ofCall, sameDocument, sameProject, ← sameJob]
    exact congrArg (IngestCall.mk job.id · job.projectId) ofJob.symm
  · exact (delivers.coherent.jobs job isJob document isDocument ofDocument).symm

variable [LinearOrder Score] {server : Server Content Dense Sparse Score}

theorem work_meets {work : Work} (allowed : work.Allowed uploads)
    (delivers : Delivers uploads platform) :
    (work.script server).Meets (KeepsDelivers uploads) (fun _ _ => True)
      platform := by
  have admits := @delivers_admits Dense Sparse uploads
  cases work with
  | api event =>
      exact admits.answered
        (admits.event trivial (fun _ => trivial) allowed) _ platform
  | sweep chance =>
      exact (sweepPendingJobs_meets delivers chance).bind _ admits.refl
        admits.trans (fun _ _ _ _ => trivial) fun _ _ _ _ => trivial
  | move jobId step =>
      refine admits.bind (Script.keeps_transaction admits.refl ?_)
        (fun _ => Script.keeps_finish _) platform
      intro now after _ returned delivered
      cases returned
      exact delivered.move jobId step
  | report jobId written =>
      refine admits.bind (keeps_commit admits.refl ?_)
        (fun _ => Script.keeps_finish _) platform
      intro now database isChange delivered
      exact delivered.report jobId written isChange

abbrev WorkPool (Content Dense Sparse Score : Type) :=
  Pool Work (Platform Dense Sparse) HttpError (WorkAnswer Content Score)

theorem delivers_of_reachable {start : Platform Dense Sparse}
    (delivers : Delivers uploads start)
    {pool : WorkPool Content Dense Sparse Score}
    (reachable : Reachable
      (served (Work.script server) (Work.Allowed uploads) start) pool) :
    Delivers uploads pool.state := by
  have admits := @delivers_admits Dense Sparse uploads
  have kept : PromisesKept (KeepsDelivers uploads) (fun _ _ _ => True) start
      pool := by
    refine promisesKept_of_reachable admits.refl admits.trans
      (fun _ _ _ _ _ _ => trivial) ?_ reachable
    intro work state allowed moved
    exact work_meets allowed (moved delivers)
  exact kept.state delivers

/-- Whatever is enqueued, executing or kept under the id of a job is what the
row of the job says, and the document and the project are still there. -/
theorem calls_agree
    (once : ∀ jobId first second project other,
      uploads jobId first project → uploads jobId second other →
      first = second ∧ project = other)
    {start : Platform Dense Sparse} (delivers : Delivers uploads start)
    {pool : WorkPool Content Dense Sparse Score}
    (reachable : Reachable
      (served (Work.script server) (Work.Allowed uploads) start) pool)
    {id : String} {entry : QueuedJob IngestCall}
    (queued : pool.state.ingestJobs id = some entry) :
    id = ingestJobId entry.arguments.jobId ∧
      ∀ job ∈ pool.state.rows.jobs, job.id = entry.arguments.jobId →
        entry.arguments = callOf job ∧
          job.projectId ∈ pool.state.rows.projectIds ∧
          ∃ document ∈ pool.state.rows.documents,
            job.documentId = some document.id ∧
              document.projectId = job.projectId :=
  (delivers_of_reachable delivers reachable).agrees once queued

end Agreement

/-! ## Nothing is left behind -/

section Delivery

variable {Content Dense Sparse Score : Type}
  {uploads : Uuid → Uuid → Uuid → Prop} {platform : Platform Dense Sparse}
  {chance : SweepChance}

/-- What a sweep offers to the queue. -/
def entryOf (job : IngestionJob) : String × IngestCall :=
  (ingestJobId job.id, callOf job)

def staleJobs (platform : Platform Dense Sparse) : List IngestionJob :=
  platform.rows.jobs.filter (isStale platform.clock)

def Platform.offered (platform : Platform Dense Sparse)
    (jobs : List IngestionJob) : Platform Dense Sparse :=
  { platform with
    ingestJobs := platform.ingestJobs.offerAll (jobs.map entryOf) }

theorem ingestJobId_injective {left right : Uuid}
    (same : ingestJobId left = ingestJobId right) : left = right := by
  have characters := congrArg String.toList same
  rw [ingestJobId, ingestJobId, String.toList_append, String.toList_append]
    at characters
  exact Uuid.str_injective
    (String.toList_inj.mp (List.append_cancel_left characters))

theorem distinct_stale {jobs : List IngestionJob}
    (arranged : jobs.Perm (staleJobs platform)) :
    ((jobs.map entryOf).map Prod.fst).Nodup := by
  have distinct : (platform.rows.jobs.map IngestionJob.id).Nodup :=
    platform.database.constraints.unique.jobs
  have kept : (staleJobs platform).Sublist platform.rows.jobs :=
    List.filter_sublist
  have ofStale := distinct.sublist (kept.map IngestionJob.id)
  have ofJobs := ((arranged.map IngestionJob.id).nodup_iff).mpr ofStale
  have sameIds : (jobs.map entryOf).map Prod.fst =
      (jobs.map IngestionJob.id).map ingestJobId := by
    rw [List.map_map, List.map_map]
    rfl
  rw [sameIds]
  exact ofJobs.map fun _ _ same => ingestJobId_injective same

/-- A sweep offers its jobs in order, up to the first call that fails. -/
theorem run_sweepFrom (redisDown : Nat → Bool) (counts : SweepCounts)
    (jobs : List IngestionJob) (platform : Platform Dense Sparse) :
    ∃ result part, part <+: jobs ∧
      (sweepFrom redisDown counts jobs).run platform =
        (result, platform.offered part) ∧
      ((∀ position, redisDown position = false) →
        part = jobs ∧ result = .ok {
          scanned := counts.scanned + jobs.length
          enqueued := counts.enqueued +
            platform.ingestJobs.newCount (jobs.map entryOf) }) := by
  induction jobs generalizing counts platform with
  | nil => exact ⟨_, [], List.nil_prefix, rfl, fun _ => ⟨rfl, rfl⟩⟩
  | cons job jobs inductionHypothesis =>
      rw [sweepFrom]
      cases isDown : redisDown counts.scanned with
      | true =>
          refine ⟨.error (internal "ConnectionError"), [],
            List.nil_prefix, ?_, fun up => ?_⟩
          · rw [Script.run_bind, enqueueStale, Script.run_transaction]
            rfl
          · rw [up] at isDown
            cases isDown
      | false =>
          obtain ⟨result, part, isPrefix, runs, complete⟩ :=
            inductionHypothesis {
              scanned := counts.scanned + 1
              enqueued := counts.enqueued +
                if (platform.ingestJobs (ingestJobId job.id)).isNone then 1
                else 0 } (platform.offered [job])
          refine ⟨result, job :: part,
            (List.prefix_cons_inj job).mpr isPrefix, ?_, fun up => ?_⟩
          · rw [Script.run_bind, enqueueStale, Script.run_transaction]
            exact runs
          · obtain ⟨isAll, isResult⟩ := complete up
            refine ⟨by rw [isAll], ?_⟩
            rw [isResult, List.length_cons, List.map_cons,
              JobQueue.newCount]
            congr 2
            · exact Nat.add_right_comm _ _ _
            · exact Nat.add_assoc _ _ _

/-- Alone, a sweep offers the stale jobs, or the first of them. -/
theorem run_sweepPendingJobs (chance : SweepChance)
    (platform : Platform Dense Sparse) :
    ∃ result part, part <+: chance.arrange (staleJobs platform) ∧
      (sweepPendingJobs chance).run platform =
        (result, platform.offered part) ∧
      ((∀ position, chance.redisDown position = false) →
        part = chance.arrange (staleJobs platform) ∧ result = .ok {
          scanned := (staleJobs platform).length
          enqueued := ((staleJobs platform).filter fun job =>
            (platform.ingestJobs (ingestJobId job.id)).isNone).length }) := by
  have arranged := chance.arrange_perm (staleJobs platform)
  obtain ⟨result, part, isPrefix, runs, complete⟩ :=
    run_sweepFrom chance.redisDown { scanned := 0, enqueued := 0 }
      (chance.arrange (staleJobs platform)) platform
  refine ⟨result, part, isPrefix, runs, fun up => ?_⟩
  obtain ⟨isAll, isResult⟩ := complete up
  refine ⟨isAll, ?_⟩
  have isNew : ((chance.arrange (staleJobs platform)).map entryOf).filter
      (fun entry => (platform.ingestJobs entry.1).isNone) =
      ((chance.arrange (staleJobs platform)).filter fun job =>
        (platform.ingestJobs (ingestJobId job.id)).isNone).map entryOf :=
    List.filter_map
  rw [isResult, JobQueue.newCount_eq (distinct_stale arranged), isNew,
    List.length_map, (arranged.filter _).length_eq, arranged.length_eq]
  simp only [Nat.zero_add]

/-- The queue after the jobs have been offered, id by id. -/
theorem offered_eq {jobs : List IngestionJob}
    (arranged : jobs.Perm (staleJobs platform)) {job : IngestionJob}
    (isStale : job ∈ staleJobs platform)
    (queue : JobQueue String IngestCall) :
    queue.offerAll (jobs.map entryOf) (ingestJobId job.id) =
      some ((queue (ingestJobId job.id)).getD
        { arguments := callOf job, phase := .queued }) := by
  have isEntry : (ingestJobId job.id, callOf job) ∈ jobs.map entryOf :=
    List.mem_map.mpr ⟨job, arranged.mem_iff.mpr isStale, rfl⟩
  exact JobQueue.offerAll_of_mem (distinct_stale arranged) isEntry

theorem offered_of_other {jobs : List IngestionJob} {id : String}
    (contained : ∀ job ∈ jobs, job ∈ staleJobs platform)
    (other : ∀ job ∈ staleJobs platform, id ≠ ingestJobId job.id)
    (queue : JobQueue String IngestCall) :
    queue.offerAll (jobs.map entryOf) id = queue id := by
  refine JobQueue.offerAll_of_not_mem fun isEntry => ?_
  obtain ⟨entry, isOffered, rfl⟩ := List.mem_map.mp isEntry
  obtain ⟨job, isJob, rfl⟩ := List.mem_map.mp isOffered
  exact other job (contained job isJob) rfl

/-- A sweep that was cut short, and then one that was not, enqueue what the
latter alone does. -/
theorem offered_twice {first second : List IngestionJob}
    (part : ∀ job ∈ first, job ∈ staleJobs platform)
    (distinct : ((first.map entryOf).map Prod.fst).Nodup)
    (arranged : second.Perm (staleJobs platform))
    (queue : JobQueue String IngestCall) :
    (queue.offerAll (first.map entryOf)).offerAll (second.map entryOf) =
      queue.offerAll (second.map entryOf) := by
  funext id
  by_cases isStale : ∃ job ∈ staleJobs platform, id = ingestJobId job.id
  · obtain ⟨job, isJob, rfl⟩ := isStale
    rw [offered_eq arranged isJob, offered_eq arranged isJob]
    congr 1
    by_cases isFirst : job ∈ first
    · have isEntry : (ingestJobId job.id, callOf job) ∈
          first.map entryOf := List.mem_map.mpr ⟨job, isFirst, rfl⟩
      rw [JobQueue.offerAll_of_mem distinct isEntry, Option.getD_some]
    · rw [JobQueue.offerAll_of_not_mem]
      intro isEntry
      obtain ⟨entry, isOffered, same⟩ := List.mem_map.mp isEntry
      obtain ⟨other, isOther, rfl⟩ := List.mem_map.mp isOffered
      have sameId := ingestJobId_injective same
      have unique : (platform.rows.jobs.map IngestionJob.id).Nodup :=
        platform.database.constraints.unique.jobs
      have sameJob := List.inj_on_of_nodup_map unique
        (List.mem_filter.mp (part other isOther)).1
        (List.mem_filter.mp isJob).1 sameId
      exact isFirst (sameJob ▸ isOther)
  · have other : ∀ job ∈ staleJobs platform, id ≠ ingestJobId job.id :=
      fun job isJob same => isStale ⟨job, isJob, same⟩
    have contained : ∀ job ∈ second, job ∈ staleJobs platform :=
      fun job isJob => arranged.mem_iff.mp isJob
    rw [offered_of_other contained other, offered_of_other part other,
      offered_of_other contained other]

/-- A second sweep finds the id of every stale job taken. -/
theorem sweep_again {jobs : List IngestionJob}
    (arranged : jobs.Perm (staleJobs platform)) (again : SweepChance)
    (up : ∀ position, again.redisDown position = false) :
    (sweepPendingJobs again).run (platform.offered jobs) =
      (.ok { scanned := (staleJobs platform).length, enqueued := 0 },
        platform.offered jobs) := by
  obtain ⟨result, part, _, runs, complete⟩ :=
    run_sweepPendingJobs again (platform.offered jobs)
  obtain ⟨rfl, rfl⟩ := complete up
  have sameStale : staleJobs (platform.offered jobs) = staleJobs platform :=
    rfl
  rw [sameStale] at runs
  have taken : ∀ job ∈ staleJobs platform,
      ((platform.offered jobs).ingestJobs (ingestJobId job.id)).isSome =
        true := by
    intro job isJob
    dsimp only [Platform.offered]
    rw [offered_eq arranged isJob]
    rfl
  have noneNew : (staleJobs platform).filter (fun job =>
      ((platform.offered jobs).ingestJobs (ingestJobId job.id)).isNone) =
      [] := by
    refine List.filter_eq_nil_iff.mpr fun job isJob => ?_
    rw [Bool.not_eq_true, Option.isNone_eq_false_iff]
    exact taken job isJob
  have unchanged : (platform.offered jobs).ingestJobs.offerAll
      ((again.arrange (staleJobs platform)).map entryOf) =
      (platform.offered jobs).ingestJobs := by
    refine (JobQueue.offerAll_of_taken ?_).1
    intro entry isEntry
    obtain ⟨job, isJob, rfl⟩ := List.mem_map.mp isEntry
    exact taken job ((again.arrange_perm _).mem_iff.mp isJob)
  rw [runs, noneNew]
  refine Prod.ext rfl ?_
  exact congrArg (fun queue => { platform with ingestJobs := queue })
    unchanged

/-- A sweep that was cut short makes no difference to the next. -/
theorem sweep_after_broken (chance broken : SweepChance)
    (up : ∀ position, chance.redisDown position = false) :
    ((sweepPendingJobs chance).run
      ((sweepPendingJobs broken).run platform).2).2 =
        platform.offered (chance.arrange (staleJobs platform)) := by
  obtain ⟨_, first, isPrefix, runsFirst, _⟩ :=
    run_sweepPendingJobs broken platform
  have brokenArranged := broken.arrange_perm (staleJobs platform)
  have isPart : ∀ job ∈ first, job ∈ staleJobs platform :=
    fun job isJob => brokenArranged.mem_iff.mp (isPrefix.subset isJob)
  have distinct := (distinct_stale brokenArranged).sublist
    ((isPrefix.sublist.map entryOf).map Prod.fst)
  obtain ⟨_, second, _, runsSecond, complete⟩ :=
    run_sweepPendingJobs chance (platform.offered first)
  obtain ⟨rfl, _⟩ := complete up
  rw [runsFirst, runsSecond]
  exact congrArg (fun queue => { platform with ingestJobs := queue })
    (offered_twice isPart distinct
      (chance.arrange_perm (staleJobs platform)) _)

/-- What a sweep that Redis answers has done when it ends. -/
structure Delivered (platform : Platform Dense Sparse)
    (queue : JobQueue String IngestCall) : Prop where
  /-- Where an id was free, the job is queued. -/
  queued : ∀ job ∈ staleJobs platform,
    platform.ingestJobs (ingestJobId job.id) = none →
      queue (ingestJobId job.id) =
        some { arguments := callOf job, phase := .queued }
  /-- A worker has the job or will take it, unless only its result is kept. -/
  underWay : ∀ job ∈ staleJobs platform,
    queue.isUnderWay (ingestJobId job.id) = true ↔
      platform.ingestJobs.isKept (ingestJobId job.id) = false
  arguments : ∀ job ∈ staleJobs platform, ∃ phase,
    queue (ingestJobId job.id) =
      some { arguments := callOf job, phase := phase }
  others : ∀ id, (∀ job ∈ staleJobs platform, id ≠ ingestJobId job.id) →
    queue id = platform.ingestJobs id
  taken : ∀ id entry, platform.ingestJobs id = some entry →
    queue id = some entry

variable [LinearOrder Score] {server : Server Content Dense Sparse Score}

/-- Whatever requests, sweeps and workers have done, and wherever they have
failed, a sweep leaves every stale job queued or executing with the arguments
of its row, except where the result of an ended run is still kept under its
id; everything else stays as it is.  Another sweep finds nothing to do, and
one that was cut short before makes no difference. -/
theorem sweep_delivers
    (once : ∀ jobId first second project other,
      uploads jobId first project → uploads jobId second other →
      first = second ∧ project = other)
    {start : Platform Dense Sparse} (delivers : Delivers uploads start)
    {pool : WorkPool Content Dense Sparse Score}
    (reachable : Reachable
      (served (Work.script server) (Work.Allowed uploads) start) pool)
    (chance : SweepChance)
    (up : ∀ position, chance.redisDown position = false) :
    ∃ queue, Delivered pool.state queue ∧
      (sweepPendingJobs chance).run pool.state =
        (.ok {
          scanned := (staleJobs pool.state).length
          enqueued := ((staleJobs pool.state).filter fun job =>
            (pool.state.ingestJobs (ingestJobId job.id)).isNone).length },
          { pool.state with ingestJobs := queue }) ∧
      (∀ again : SweepChance,
        (∀ position, again.redisDown position = false) →
        (sweepPendingJobs again).run { pool.state with ingestJobs := queue } =
          (.ok { scanned := (staleJobs pool.state).length, enqueued := 0 },
            { pool.state with ingestJobs := queue })) ∧
      ∀ broken : SweepChance,
        ((sweepPendingJobs chance).run
          ((sweepPendingJobs broken).run pool.state).2).2 =
            { pool.state with ingestJobs := queue } := by
  have arranged := chance.arrange_perm (staleJobs pool.state)
  have contained : ∀ job ∈ chance.arrange (staleJobs pool.state),
      job ∈ staleJobs pool.state := fun job isJob =>
    arranged.mem_iff.mp isJob
  obtain ⟨result, part, _, runs, complete⟩ :=
    run_sweepPendingJobs chance pool.state
  obtain ⟨rfl, rfl⟩ := complete up
  refine ⟨_, ⟨?_, ?_, ?_, ?_, ?_⟩, runs, ?_, ?_⟩
  · intro job isJob isFree
    rw [offered_eq arranged isJob, isFree, Option.getD_none]
  · intro job isJob
    rw [JobQueue.isUnderWay_of_getD (offered_eq arranged isJob _),
      Bool.not_eq_true']
  · intro job isJob
    rw [offered_eq arranged isJob]
    cases taken : pool.state.ingestJobs (ingestJobId job.id) with
    | none => exact ⟨.queued, rfl⟩
    | some entry =>
        obtain ⟨isId, agrees⟩ :=
          (delivers_of_reachable delivers reachable).agrees once taken
        have same := (agrees job (List.mem_filter.mp isJob).1
          (ingestJobId_injective isId)).1
        refine ⟨entry.phase, ?_⟩
        rw [← same]
        rfl
  · exact fun id other => offered_of_other contained other _
  · exact fun id entry found => JobQueue.offerAll_of_some found
  · exact fun again upAgain => sweep_again arranged again upAgain
  · exact fun broken => sweep_after_broken chance broken up

end Delivery

/-! ## An upload whose job was not enqueued -/

section Sample

/-- What the upload of the sample draws. -/
def sampleUploads (jobId documentId projectId : Uuid) : Prop :=
  jobId = 9 ∧ documentId = 8 ∧ projectId = 1

theorem sampleUploads_once (jobId first second project other : Uuid)
    (left : sampleUploads jobId first project)
    (right : sampleUploads jobId second other) :
    first = second ∧ project = other :=
  ⟨left.2.1.trans right.2.1.symm, left.2.2.trans right.2.2.symm⟩

def stableSweep : SweepChance where
  arrange := id
  arrange_perm := fun _ => List.Perm.refl _
  redisDown := fun _ => false

/-- Redis is down during the upload; eleven minutes pass. -/
def stranding : List (PoolLabel Work) :=
  .arrive (.api (.request sampleHeader
    (.uploadDocument 1 (some "notes.md") ByteArray.empty)
      { sampleChance with redisDown := true })) ::
    List.replicate 6 (.advance 0) ++
    [.arrive (.api (.elapse 660000000)), .advance 1]

/-- A sweep, and a worker that takes the job up. -/
def rescuing : List (PoolLabel Work) :=
  .arrive (.sweep stableSweep) :: List.replicate 3 (.advance 2) ++
    [.arrive (.move 9 .take), .advance 3]

/-- The worker has ended the run without having reached the row. -/
def unreported : List (PoolLabel Work) :=
  [.arrive (.move 9 .finish), .advance 4]

def idlePool : WorkPool String Unit Unit Nat where
  state := samplePlatform
  calls := []

def worked (labels : List (PoolLabel Work)) :
    WorkPool String Unit Unit Nat :=
  finalState idlePool
    (trace (poolStep (Work.script sampleServer)) labels idlePool)

theorem worked_reachable {labels : List (PoolLabel Work)}
    (allowed : ∀ work, PoolLabel.arrive work ∈ labels →
      work.Allowed sampleUploads) :
    Reachable
      (served (Work.script sampleServer) (Work.Allowed sampleUploads)
        samplePlatform) (worked labels) :=
  (served_trace allowed idlePool).reachable (Reachable.initial rfl) _
    (finalState_mem_visited _ _)

theorem samplePlatform_delivers :
    Delivers sampleUploads samplePlatform where
  coherent := by
    constructor
    · intro job isJob
      cases isJob
    · intro summary isSummary
      cases isSummary
  jobs := by
    intro job isJob
    cases isJob
  calls := JobQueue.holds_empty

theorem stranding_allowed (work : Work)
    (arrives : PoolLabel.arrive work ∈
      stranding ++ rescuing ++ unreported) :
    work.Allowed sampleUploads := by
  simp only [stranding, rescuing, unreported, List.replicate, List.cons_append,
    List.nil_append, List.mem_cons, PoolLabel.arrive.injEq, reduceCtorEq,
    List.not_mem_nil, or_false, false_or] at arrives
  rcases arrives with rfl | rfl | rfl | rfl | rfl
  · refine ⟨trivial, ?_, fun _ _ _ _ => trivial⟩
    rintro projectId filename content ⟨⟩
    exact ⟨rfl, rfl, rfl⟩
  all_goals trivial

set_option maxRecDepth 20000 in
theorem rescued_entry :
    (worked (stranding ++ rescuing)).state.ingestJobs (ingestJobId 9) =
      some ⟨⟨9, some 8, 1⟩, .executing⟩ := rfl

set_option maxRecDepth 20000 in
/-- The worker is called with the document and the project of the upload. -/
theorem rescued_agrees :
    (worked (stranding ++ rescuing)).state.rows.jobs.map callOf =
        [⟨9, some 8, 1⟩] ∧
      ∀ job ∈ (worked (stranding ++ rescuing)).state.rows.jobs,
        job.id = 9 → ⟨9, some 8, 1⟩ = callOf job := by
  refine ⟨rfl, fun job isJob isOwn => ?_⟩
  exact ((calls_agree sampleUploads_once samplePlatform_delivers
    (worked_reachable fun work arrives => stranding_allowed work
      (List.mem_append_left _ arrives)) rescued_entry).2 job isJob isOwn).1

def strandedJob : IngestionJob where
  id := 9
  projectId := 1
  documentId := some 8
  status := .pending
  errorMessage := none
  createdAt := 0
  completedAt := none

set_option maxRecDepth 20000 in
theorem stranded_stale :
    staleJobs (worked stranding).state = [strandedJob] ∧
      (worked stranding).state.ingestJobs
        (ingestJobId strandedJob.id) = none :=
  ⟨rfl, rfl⟩

set_option maxRecDepth 20000 in
theorem unreported_stale :
    staleJobs (worked (stranding ++ rescuing ++ unreported)).state =
        [strandedJob] ∧
      (worked (stranding ++ rescuing ++ unreported)).state.ingestJobs
        (ingestJobId strandedJob.id) =
          some { arguments := callOf strandedJob, phase := .kept } :=
  ⟨rfl, rfl⟩

/-- The stranded job is queued; once its result is kept, it is passed over. -/
theorem stranded_delivered :
    (∃ queue, Delivered (worked stranding).state queue ∧
      queue (ingestJobId strandedJob.id) =
        some { arguments := callOf strandedJob, phase := .queued } ∧
      ((sweepPendingJobs stableSweep).run (worked stranding).state).1 =
        .ok { scanned := 1, enqueued := 1 }) ∧
    ∃ queue,
      Delivered (worked (stranding ++ rescuing ++ unreported)).state queue ∧
      queue.isUnderWay (ingestJobId strandedJob.id) = false ∧
      ((sweepPendingJobs stableSweep).run
        (worked (stranding ++ rescuing ++ unreported)).state).1 =
          .ok { scanned := 1, enqueued := 0 } := by
  constructor
  · obtain ⟨stale, isFree⟩ := stranded_stale
    obtain ⟨queue, delivered, runs, _⟩ := sweep_delivers sampleUploads_once
      samplePlatform_delivers
      (worked_reachable fun work arrives => stranding_allowed work
        (List.mem_append_left _ (List.mem_append_left _ arrives)))
      stableSweep fun _ => rfl
    generalize worked stranding = pool at stale isFree delivered runs ⊢
    have isStale : strandedJob ∈ staleJobs pool.state := by
      rw [stale]
      exact List.mem_cons_self
    refine ⟨queue, delivered, delivered.queued _ isStale isFree, ?_⟩
    simp [runs, stale, isFree]
  · obtain ⟨stale, kept⟩ := unreported_stale
    obtain ⟨queue, delivered, runs, _⟩ := sweep_delivers sampleUploads_once
      samplePlatform_delivers (worked_reachable stranding_allowed)
      stableSweep fun _ => rfl
    generalize worked (stranding ++ rescuing ++ unreported) = pool
      at stale kept delivered runs ⊢
    have isStale : strandedJob ∈ staleJobs pool.state := by
      rw [stale]
      exact List.mem_cons_self
    have isKept : pool.state.ingestJobs.isKept
        (ingestJobId strandedJob.id) = true := by
      rw [JobQueue.isKept, kept]
      rfl
    refine ⟨queue, delivered, ?_, ?_⟩
    · refine Bool.eq_false_iff.mpr fun underWay => ?_
      have notKept := (delivered.underWay _ isStale).mp underWay
      exact Bool.false_ne_true (notKept.symm.trans isKept)
    · simp [runs, stale, kept]

end Sample

end ProjectMemory.Api
