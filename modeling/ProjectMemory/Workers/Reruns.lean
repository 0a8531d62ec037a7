import ProjectMemory.Workers.Ingest

/-!
# Reruns of a job

A job is run again after a failure, after a crash, and when it is delivered
once more although it is complete.  A run writes the status of the row, the
error message where it fails and the completion time where it completes; no run
takes back what an earlier one wrote into the other two columns.
-/

namespace ProjectMemory.Workers

open Foundation Ingestion

/-! ## Coherent rows -/

section Rows

/-- The three columns that tell how far a job is. -/
def progress (job : IngestionJob) :
    JobStatus × Option String × Option Timestamp :=
  (job.status, job.errorMessage, job.completedAt)

/-- The other two columns agree with the status. -/
def Coherent (job : IngestionJob) : Prop :=
  match job.status with
  | .complete => job.completedAt.isSome = true ∧ job.errorMessage = none
  | .failed => job.errorMessage.isSome = true ∧ job.completedAt = none
  | .pending => job.errorMessage = none ∧ job.completedAt = none
  | .running => job.errorMessage = none ∧ job.completedAt = none

def CoherentRow (row : Option IngestionJob) : Prop :=
  ∀ job, row = some job → Coherent job

/-- The row as the upload commits it. -/
def Uploaded (row : Option IngestionJob) : Prop :=
  ∃ job, row = some job ∧ progress job = (.pending, none, none)

def unfinished (job : IngestionJob) : Bool :=
  job.status = .pending || job.status = .running

theorem coherent_congr {first second : IngestionJob}
    (same : progress first = progress second) :
    Coherent first ↔ Coherent second := by
  simp only [progress, Prod.mk.injEq] at same
  obtain ⟨status, error, completed⟩ := same
  unfold Coherent
  rw [status, error, completed]

theorem Uploaded.coherent {row : Option IngestionJob}
    (uploaded : Uploaded row) : CoherentRow row := by
  obtain ⟨job, isJob, fresh⟩ := uploaded
  intro other found
  rw [isJob, Option.some.injEq] at found
  subst found
  simp only [progress, Prod.mk.injEq] at fresh
  rw [Coherent, fresh.1]
  exact fresh.2

theorem Coherent.setRunning_iff {job : IngestionJob}
    (coherent : Coherent job) :
    Coherent (setRunning job) ↔ unfinished job = true := by
  have target : Coherent (setRunning job) ↔
      job.errorMessage = none ∧ job.completedAt = none := Iff.rfl
  rw [target]
  unfold Coherent at coherent
  unfold unfinished
  cases status : job.status with
  | pending | running =>
      rw [status] at coherent
      exact iff_of_true coherent rfl
  | complete =>
      rw [status] at coherent
      refine iff_of_false ?_ (by decide)
      intro bothMissing
      rw [bothMissing.2] at coherent
      cases coherent.1
  | failed =>
      rw [status] at coherent
      refine iff_of_false ?_ (by decide)
      intro bothMissing
      rw [bothMissing.1] at coherent
      cases coherent.1

theorem Coherent.setComplete {job : IngestionJob} (coherent : Coherent job)
    (running : job.status = .running) (now : Timestamp) :
    Coherent (setComplete now job) := by
  rw [Coherent, running] at coherent
  exact ⟨rfl, coherent.1⟩

/-- A failure keeps a row coherent unless it leaves a completion time. -/
theorem Coherent.setFailed_iff {job : IngestionJob} (coherent : Coherent job)
    {failure : Failure} :
    Coherent (failure.setFailed job) ↔
      failure.completedAt = none ∧ job.status ≠ .complete := by
  have target : Coherent (failure.setFailed job) ↔
      failure.completedAt.or job.completedAt = none := by
    simp [Coherent, Failure.setFailed]
  have completed : job.completedAt = none ↔ job.status ≠ .complete := by
    unfold Coherent at coherent
    cases status : job.status with
    | complete =>
        rw [status] at coherent
        refine iff_of_false ?_ fun different => different rfl
        intro missing
        rw [missing] at coherent
        cases coherent.1
    | pending | running | failed =>
        rw [status] at coherent
        exact iff_of_true coherent.2 (by decide)
  rw [target, Option.or_eq_none_iff, completed]

end Rows

/-! ## The system -/

section System

variable {Content Dense Sparse : Type}

/-- The store and the run of the job that is in progress or came last. -/
structure History (Content Dense Sparse : Type) where
  store : Store Dense Sparse
  run : Option (Pc Content Dense Sparse)

inductive RerunLabel (Dense Sparse : Type) where
  | start
  | advance (choice : Choice)
  | crash
  /-- Others change anything but how far the job is; they may delete it. -/
  | interfere (changed : Store Dense Sparse)

def Pc.ended : Pc Content Dense Sparse → Bool
  | .completed | .raised _ _ => true
  | _ => false

/-- One step; `none` where the label is not enabled. -/
def rerunStep (libraries : Libraries Dense Sparse) (schema : Schema Content)
    (arguments : Arguments) (history : History Content Dense Sparse) :
    RerunLabel Dense Sparse → Option (History Content Dense Sparse)
  | .start =>
      if history.run.all Pc.ended then
        some { history with run := some .fetchJob }
      else none
  | .advance choice =>
      history.run.bind fun pc =>
        (advance libraries schema arguments history.store choice pc).map
          fun reached => { store := reached.1, run := some reached.2 }
  | .crash => some { history with run := none }
  | .interfere changed =>
      if (changed.jobs arguments.jobId).isNone ||
          (changed.jobs arguments.jobId).map progress =
            (history.store.jobs arguments.jobId).map progress then
        some { history with store := changed }
      else none

/-- Any number of runs of one job, one after the other. -/
def reruns (libraries : Libraries Dense Sparse) (schema : Schema Content)
    (arguments : Arguments) (start : Store Dense Sparse) :
    TransitionSystem (History Content Dense Sparse)
      (RerunLabel Dense Sparse) :=
  TransitionSystem.ofNext
    (fun history => history = { store := start, run := none })
    (rerunStep libraries schema arguments)

/-- A commit that succeeds, or is reported to fail and takes effect. -/
def Choice.commits (choice : Choice) : Bool :=
  match choice.fault with
  | none => true
  | some fault => fault.landed

/-- The condition on a step: a run commits its start only to a job that is
pending or running, and its failure only to one that is not complete and not
about to get a completion time. -/
def overwritesUnfinished (arguments : Arguments)
    (history : History Content Dense Sparse) :
    RerunLabel Dense Sparse → Bool
  | .advance choice =>
      match history.run, history.store.jobs arguments.jobId with
      | some (.commitRunning _), some job =>
          !choice.commits || unfinished job
      | some (.markFailedCommit failure), some job =>
          !(choice.commits && storable failure.message) ||
            (failure.completedAt.isNone && job.status ≠ .complete)
      | _, _ => true
  | _ => true

end System

/-! ## What a statement does to the row -/

section Statement

variable {Content Dense Sparse : Type} {libraries : Libraries Dense Sparse}
  {schema : Schema Content} {arguments : Arguments}
  {store target : Store Dense Sparse} {choice : Choice}
  {pc next : Pc Content Dense Sparse}

/-- The change of the row a statement commits. -/
def rowChange (choice : Choice) :
    Pc Content Dense Sparse → IngestionJob → IngestionJob
  | .commitRunning read =>
      if choice.commits && read ≠ .running then setRunning else id
  | .commitComplete =>
      if choice.commits then setComplete choice.now else id
  | .markFailedCommit failure =>
      if choice.commits && storable failure.message then failure.setFailed
      else id
  | _ => id

theorem jobs_updateJob (change : IngestionJob → IngestionJob) :
    (store.updateJob arguments.jobId change).jobs arguments.jobId =
      (store.jobs arguments.jobId).map change :=
  Function.update_self ..

/-- A statement of the `try` block that commits a change of the row. -/
theorem row_of_commit {change : IngestionJob → IngestionJob} {stage : Stage}
    {following : Pc Content Dense Sparse} (isStage : pc.stage = some stage)
    (isStatement : statement libraries schema arguments store choice pc =
      some ((store.commitJob arguments.jobId change).map (·, following)))
    (isFault : ∀ fault, afterFault libraries arguments store fault choice.now
      pc = if fault.landed then store.updateJob arguments.jobId change
        else store)
    (taken : advance libraries schema arguments store choice pc =
      some (target, next)) :
    target.jobs arguments.jobId = (store.jobs arguments.jobId).map
      (if choice.commits then change else id) := by
  simp only [advance, isStage, attempt, isStatement] at taken
  cases failed : choice.fault with
  | some fault =>
      simp only [failed, Option.map_some, Option.some.injEq, settle,
        isFault, Prod.mk.injEq] at taken
      simp only [Choice.commits, failed]
      rw [← taken.1]
      split
      · exact jobs_updateJob change
      · rw [Option.map_id]
        rfl
  | none =>
      simp only [failed, Option.map_some, Option.some.injEq,
        Store.commitJob] at taken
      simp only [Choice.commits, failed, if_true]
      cases present : store.jobs arguments.jobId with
      | some job =>
          simp only [present, Except.map, settle, Prod.mk.injEq] at taken
          rw [← taken.1, jobs_updateJob, present]
      | none =>
          simp only [present, Except.map, settle, isFault, Prod.mk.injEq]
            at taken
          rw [← taken.1]
          exact present

theorem row_of_commitRunning {read : JobStatus}
    (taken : advance libraries schema arguments store choice
      (.commitRunning read) = some (target, next)) :
    target.jobs arguments.jobId = (store.jobs arguments.jobId).map
      (rowChange choice (.commitRunning read : Pc Content Dense Sparse)) := by
  by_cases isRunning : read = .running
  · have unchanged : target.jobs = store.jobs := by
      rcases advance_cases taken with
        ⟨stage, fault, _, rfl, _⟩ | ⟨_, executes⟩ | handles
      · rw [afterFault, isRunning, if_neg (by simp)]
      · cases executes with
        | staysRunning => rfl
        | commitRunning changes => exact absurd isRunning changes
      · cases handles
    rw [unchanged, rowChange, isRunning, if_neg (by simp), Option.map_id]
    rfl
  · have isStatement : statement libraries schema arguments store choice
        (.commitRunning read) =
          some ((store.commitJob arguments.jobId setRunning).map
            (·, .fetchDocument)) := by
      rw [statement, if_neg isRunning]
    have committed := row_of_commit rfl isStatement
      (fun fault => by simp [afterFault, isRunning]) taken
    rw [committed, rowChange]
    simp [isRunning]

theorem row_of_handle {failure : Failure}
    (taken : advance libraries schema arguments store choice
      (.markFailedCommit failure) = some (target, next)) :
    target.jobs arguments.jobId = (store.jobs arguments.jobId).map
      (if choice.commits && storable failure.message then failure.setFailed
        else id) := by
  have handled : handle arguments store choice (.markFailedCommit failure) =
      some (target, next) := taken
  rw [handle] at handled
  cases isStorable : storable failure.message with
  | false =>
      simp only [isStorable, Bool.false_eq_true, if_false, Option.some.injEq,
        Prod.mk.injEq] at handled
      rw [← handled.1, Bool.and_false, if_neg Bool.false_ne_true,
        Option.map_id]
      rfl
  | true =>
      rw [isStorable, if_pos rfl] at handled
      rw [Bool.and_true]
      cases failed : choice.fault with
      | some fault =>
          simp only [failed, Option.some.injEq, Prod.mk.injEq] at handled
          simp only [Choice.commits, failed]
          rw [← handled.1]
          split
          · exact jobs_updateJob failure.setFailed
          · rw [Option.map_id]
            rfl
      | none =>
          simp only [failed] at handled
          simp only [Choice.commits, failed, if_true]
          cases present : store.jobs arguments.jobId with
          | none =>
              simp only [present, Option.some.injEq, Prod.mk.injEq]
                at handled
              rw [← handled.1]
              exact present
          | some job =>
              simp only [present, Option.some.injEq, Prod.mk.injEq]
                at handled
              rw [← handled.1, ← present]
              exact jobs_updateJob failure.setFailed

def Pc.writesRow : Pc Content Dense Sparse → Bool
  | .commitRunning _ | .commitComplete | .markFailedCommit _ => true
  | _ => false

theorem jobs_of_other (other : pc.writesRow = false)
    (taken : advance libraries schema arguments store choice pc =
      some (target, next)) :
    target.jobs = store.jobs := by
  rcases advance_cases taken with
    ⟨stage, fault, isStage, rfl, _⟩ | ⟨_, executes⟩ | handles
  · cases pc with
    | commitRunning | commitComplete => cases other
    | commitSummary config row =>
        rw [afterFault]
        split <;> rfl
    | _ => rfl
  · cases executes with
    | commitRunning | commitComplete => cases other
    | _ => rfl
  · cases handles with
    | commitLanded | committed => cases other
    | _ => rfl

/-- Only the commits of a run change the row. -/
theorem row_of_advance
    (taken : advance libraries schema arguments store choice pc =
      some (target, next)) :
    target.jobs arguments.jobId =
      (store.jobs arguments.jobId).map (rowChange choice pc) := by
  cases pc with
  | commitRunning read => exact row_of_commitRunning taken
  | commitComplete => exact row_of_commit rfl rfl (fun _ => rfl) taken
  | markFailedCommit failure => exact row_of_handle taken
  | _ =>
      rw [jobs_of_other rfl taken]
      exact (congrFun Option.map_id _).symm

/-- The status of the row as a run knows it: the one it has read until it has
committed its start, and running from then on. -/
def Pc.status : Pc Content Dense Sparse → Option JobStatus
  | .commitRunning read => some read
  | .fetchDocument | .fetchProject _ | .index _ _ | .collectionExists _ _
  | .createCollection _ _ | .upsert _ _ | .summarize _ | .insertSummary _ _
  | .commitSummary _ _ | .getLatest _ | .countPending _ _ | .enqueue
  | .commitComplete => some .running
  | _ => none

/-- The row has the status that the run knows. -/
def Knows (row : Option IngestionJob) (pc : Pc Content Dense Sparse) : Prop :=
  ∀ status, pc.status = some status →
    ∀ job, row = some job → job.status = status

theorem Knows.advance (knows : Knows (store.jobs arguments.jobId) pc)
    (taken : advance libraries schema arguments store choice pc =
      some (target, next)) :
    Knows (target.jobs arguments.jobId) next := by
  intro status isStatus
  rcases advance_cases taken with
    ⟨stage, fault, _, _, rfl⟩ | ⟨_, executes⟩ | handles
  · cases isStatus
  · cases executes with
    | fetchJob present =>
        intro job found
        rw [present, Option.some.injEq] at found
        rw [← found]
        exact Option.some.inj isStatus
    | commitComplete => cases isStatus
    | commitRunning =>
        intro job found
        rw [jobs_updateJob] at found
        obtain ⟨old, _, rfl⟩ := Option.map_eq_some_iff.mp found
        exact Option.some.inj isStatus
    | _ => exact knows status isStatus
  · cases handles <;> cases isStatus

end Statement

/-! ## Histories -/

section Histories

variable {Content Dense Sparse : Type} {libraries : Libraries Dense Sparse}
  {schema : Schema Content} {arguments : Arguments}
  {start : Store Dense Sparse}
  {source target : History Content Dense Sparse}
  {label : RerunLabel Dense Sparse}

/-- What one step is: a run starts or is cut off, others act without telling
how far the job is, or the run executes a statement. -/
theorem rerunStep_cases
    (taken : rerunStep libraries schema arguments source label =
      some target) :
    (label = .start ∧ target = { source with run := some .fetchJob }) ∨
    (label = .crash ∧ target = { source with run := none }) ∨
    (∃ changed, label = .interfere changed ∧
      (changed.jobs arguments.jobId = none ∨
        (changed.jobs arguments.jobId).map progress =
          (source.store.jobs arguments.jobId).map progress) ∧
      target = { source with store := changed }) ∨
    (∃ choice pc store next, label = .advance choice ∧
      source.run = some pc ∧
      advance libraries schema arguments source.store choice pc =
        some (store, next) ∧
      target = { store := store, run := some next }) := by
  cases label with
  | start =>
      simp only [rerunStep, Option.ite_none_right_eq_some,
        Option.some.injEq] at taken
      exact Or.inl ⟨rfl, taken.2.symm⟩
  | crash =>
      cases taken
      exact Or.inr (Or.inl ⟨rfl, rfl⟩)
  | interfere changed =>
      simp only [rerunStep, Option.ite_none_right_eq_some,
        Option.some.injEq, Bool.or_eq_true, Option.isNone_iff_eq_none,
        decide_eq_true_eq] at taken
      exact Or.inr (Or.inr (Or.inl ⟨changed, rfl, taken.1, taken.2.symm⟩))
  | advance choice =>
      obtain ⟨pc, current, moved⟩ := Option.bind_eq_some_iff.mp taken
      obtain ⟨⟨store, next⟩, advanced, rfl⟩ := Option.map_eq_some_iff.mp moved
      exact Or.inr (Or.inr (Or.inr
        ⟨choice, pc, store, next, rfl, current, advanced, rfl⟩))

def Truthful (arguments : Arguments) (history : History Content Dense Sparse) :
    Prop :=
  ∀ pc, history.run = some pc →
    Knows (history.store.jobs arguments.jobId) pc

theorem progress_of_map_eq {first second : Option IngestionJob}
    (same : first.map progress = second.map progress) {job : IngestionJob}
    (found : first = some job) :
    ∃ other, second = some other ∧ progress job = progress other := by
  rw [found] at same
  obtain ⟨other, isOther, agree⟩ := Option.map_eq_some_iff.mp same.symm
  exact ⟨other, isOther, agree.symm⟩

theorem Truthful.step (truthful : Truthful arguments source)
    (taken : rerunStep libraries schema arguments source label =
      some target) :
    Truthful arguments target := by
  rcases rerunStep_cases taken with
    ⟨_, rfl⟩ | ⟨_, rfl⟩ | ⟨changed, _, allowed, rfl⟩ |
    ⟨choice, pc, store, next, _, current, advanced, rfl⟩
  · intro pc current status isStatus
    cases current
    cases isStatus
  · intro pc current
    cases current
  · intro pc current status isStatus job found
    rcases allowed with gone | same
    · have isGone : changed.jobs arguments.jobId = some job := found
      rw [gone] at isGone
      cases isGone
    · obtain ⟨old, isOld, agree⟩ := progress_of_map_eq same found
      have isOldStatus := truthful pc current status isStatus old isOld
      exact (congrArg Prod.fst agree).trans isOldStatus
  · intro other isNext
    cases isNext
    exact Knows.advance (truthful pc current) advanced

theorem coherentRow_map {row : Option IngestionJob}
    {change : IngestionJob → IngestionJob} {job : IngestionJob}
    (found : row = some job) :
    CoherentRow (row.map change) ↔ Coherent (change job) := by
  rw [found]
  constructor
  · intro coherent
    exact coherent _ rfl
  · intro coherent other isOther
    cases isOther
    exact coherent

/-- The row is coherent after a statement exactly when the statement meets the
condition. -/
theorem coherent_advance_iff {choice : Choice}
    {pc : Pc Content Dense Sparse} {row : Option IngestionJob}
    (knows : Knows row pc) (coherent : CoherentRow row)
    {history : History Content Dense Sparse}
    (current : history.run = some pc)
    (isRow : history.store.jobs arguments.jobId = row) :
    CoherentRow (row.map (rowChange choice pc)) ↔
      overwritesUnfinished arguments history (.advance choice) = true := by
  cases row with
  | none =>
      refine iff_of_true (by rintro _ ⟨⟩) ?_
      simp only [overwritesUnfinished, current, isRow]
  | some job =>
      rw [coherentRow_map rfl]
      have coherentJob := coherent job rfl
      cases pc with
      | commitRunning read =>
          have isRead : job.status = read := knows read rfl job rfl
          simp only [overwritesUnfinished, current, isRow, rowChange]
          cases choice.commits with
          | false => exact iff_of_true coherentJob rfl
          | true =>
              by_cases isRunning : read = .running
              · refine iff_of_true ?_ ?_
                · rw [isRunning]
                  exact coherentJob
                · simp [unfinished, isRead, isRunning]
              · simp only [ne_eq, isRunning, not_false_eq_true, decide_true,
                  Bool.and_true, Bool.not_true, Bool.false_or, if_true]
                exact coherentJob.setRunning_iff
      | commitComplete =>
          refine iff_of_true ?_ ?_
          · rw [rowChange]
            split
            · exact coherentJob.setComplete (knows _ rfl job rfl) choice.now
            · exact coherentJob
          · simp only [overwritesUnfinished, current, isRow]
      | markFailedCommit failure =>
          simp only [overwritesUnfinished, current, isRow, rowChange]
          cases choice.commits && storable failure.message with
          | false => exact iff_of_true coherentJob rfl
          | true =>
              simp only [if_true, Bool.not_true, Bool.false_or,
                Bool.and_eq_true, Option.isNone_iff_eq_none,
                decide_eq_true_eq]
              exact coherentJob.setFailed_iff
      | _ =>
          refine iff_of_true coherentJob ?_
          simp only [overwritesUnfinished, current, isRow]

theorem coherent_step_iff (truthful : Truthful arguments source)
    (coherent : CoherentRow (source.store.jobs arguments.jobId))
    (taken : rerunStep libraries schema arguments source label =
      some target) :
    CoherentRow (target.store.jobs arguments.jobId) ↔
      overwritesUnfinished arguments source label = true := by
  rcases rerunStep_cases taken with
    ⟨rfl, rfl⟩ | ⟨rfl, rfl⟩ | ⟨changed, rfl, allowed, rfl⟩ |
    ⟨choice, pc, store, next, rfl, current, advanced, rfl⟩
  · exact iff_of_true coherent rfl
  · exact iff_of_true coherent rfl
  · refine iff_of_true ?_ rfl
    intro job found
    rcases allowed with gone | same
    · have isGone : changed.jobs arguments.jobId = some job := found
      rw [gone] at isGone
      cases isGone
    · obtain ⟨old, isOld, agree⟩ := progress_of_map_eq same found
      exact (coherent_congr agree).mpr (coherent old isOld)
  · have changed : store.jobs arguments.jobId =
        (source.store.jobs arguments.jobId).map (rowChange choice pc) :=
      row_of_advance advanced
    rw [changed]
    exact coherent_advance_iff (truthful pc current) coherent current rfl

/-- Over any sequence of runs of an uploaded job its row stays coherent exactly
when no run commits its start to a job that has failed or completed before, and
none commits its failure to a job that has completed or is about to get a
completion time. -/
theorem coherent_iff_overwritesUnfinished
    (uploaded : Uploaded (start.jobs arguments.jobId))
    {run : List (RerunLabel Dense Sparse × History Content Dense Sparse)}
    (isRun : Run (reruns libraries schema arguments start).step
      { store := start, run := none } run) :
    (∀ history ∈ visited { store := start, run := none } run,
        CoherentRow (history.store.jobs arguments.jobId)) ↔
      Run (fun source label target =>
          (reruns libraries schema arguments start).step source label target ∧
            overwritesUnfinished arguments source label = true)
        { store := start, run := none } run := by
  refine Run.all_visited_iff_guarded (Truthful arguments)
    (fun history => CoherentRow (history.store.jobs arguments.jobId))
    ?_ ?_ ?_ ?_ isRun ?_ uploaded.coherent
  · exact fun _ _ _ truthful taken => truthful.step taken
  · exact fun _ coherent => coherent
  · exact fun _ _ _ truthful coherent taken =>
      coherent_step_iff truthful coherent taken
  · exact fun _ _ _ _ _ _ kept => kept
  · intro pc current
    cases current

def rerunOf (labels : List Choice) : List (RerunLabel Unit Unit) :=
  .start :: labels.map .advance

def sampleHistory : History String Unit Unit where
  store := sampleStore
  run := none

/-- A run crashes before it upserts, and the next one completes. -/
theorem coherent_redelivered :
    ∃ run, Run (reruns sampleLibraries Cag.textSchema sampleArguments
        sampleStore).step sampleHistory run ∧
      run.length = 24 ∧
      ∀ history ∈ visited sampleHistory run,
        CoherentRow (history.store.jobs sampleArguments.jobId) := by
  have isRun := run_trace
    (rerunStep sampleLibraries Cag.textSchema sampleArguments)
    (rerunOf (List.replicate 7 quiet) ++
      .crash :: rerunOf (List.replicate 14 quiet)) sampleHistory
  refine ⟨_, isRun, rfl, ?_⟩
  refine (coherent_iff_overwritesUnfinished ⟨sampleJob, rfl, rfl⟩ isRun).mpr
    ?_
  exact run_trace_meets (overwritesUnfinished sampleArguments) _ _ _ rfl

/-- A run fails to parse the document, and the next one completes the job: the
message of the failure is still there. -/
theorem incoherent_retried :
    ∃ history job,
      Reachable (reruns sampleLibraries Cag.textSchema sampleArguments
        sampleStore) history ∧
      Uploaded (sampleStore.jobs sampleArguments.jobId) ∧
      history.run = some .completed ∧
      history.store.jobs sampleArguments.jobId = some job ∧
      job.status = .complete ∧ job.errorMessage = some "no text" ∧
      ¬ CoherentRow (history.store.jobs sampleArguments.jobId) := by
  refine ⟨_, _, @reachable_of_follow _ _ _ _
    (rerunOf (List.replicate 4 quiet ++
        failing "no text" false :: List.replicate 2 quiet) ++
      rerunOf (List.replicate 15 quiet)) _ _
    (Reachable.initial rfl) rfl, ⟨sampleJob, rfl, rfl⟩, rfl, rfl, rfl, rfl,
    ?_⟩
  intro coherent
  have kept := (coherent _ rfl).2
  cases kept

end Histories

end ProjectMemory.Workers
