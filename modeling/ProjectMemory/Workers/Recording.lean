import ProjectMemory.Workers.Ingest

/-!
# Recording a failed run

The handler looks the job up and updates it on the session the failing
statement ran on.  It records the failure where that session still accepts
statements and the text of the exception can be stored; otherwise the job
stays as it was and another exception takes the place of the first.
-/

namespace ProjectMemory.Workers

open Foundation Ingestion

section Law

/-- The job row says that the run failed and how, and the exception that
propagates is the one that was raised. -/
def Recorded (row : Option IngestionJob) (failure : Failure)
    (replacement : Option HandlerError) : Prop :=
  replacement.isNone = true ∧
    ∃ job, row = some job ∧ job.status = .failed ∧
      job.errorMessage = some failure.message

/-- The failing statement left the session usable, and the text of its
exception can be stored. -/
def Recordable (failure : Failure) : Prop :=
  (failure.stage.usesSession = true → failure.fault.aborts = false) ∧
    storable failure.message = true

/-- The condition on a step: a statement of the handler that the session and
the text of the exception allow does not fail for a reason of its own. -/
def undisturbed {Content Dense Sparse : Type} :
    Store Dense Sparse × Pc Content Dense Sparse → RunLabel → Bool
  | (_, .markFailedFetch failure), .advance choice =>
      failure.aborted || choice.fault.isNone
  | (_, .markFailedCommit failure), .advance choice =>
      !storable failure.message || choice.fault.isNone
  | _, _ => true

end Law

/-! ## Failures of the handler -/

section Disturbance

variable {Content Dense Sparse : Type} {libraries : Libraries Dense Sparse}
  {schema : Schema Content} {arguments : Arguments}
  {start store target : Store Dense Sparse} {choice : Choice}
  {pc next : Pc Content Dense Sparse}

/-- The run has ended with a failure of the handler's own. -/
def Pc.disturbed : Pc Content Dense Sparse → Prop
  | .raised _ (some (.fault _)) => True
  | _ => False

theorem Executes.not_disturbed
    (executes :
      Executes libraries schema arguments store choice pc target next) :
    ¬ next.disturbed := by
  intro disturbed
  cases executes <;> exact disturbed

theorem Executes.undisturbed
    (executes :
      Executes libraries schema arguments store choice pc target next) :
    undisturbed (store, pc) (.advance choice) = true := by
  cases executes <;> rfl

theorem Handles.disturbed_iff
    (handles : Handles arguments store choice pc target next) :
    ¬ next.disturbed ↔ undisturbed (store, pc) (.advance choice) = true := by
  cases handles with
  | refused aborted => simp [Pc.disturbed, Workers.undisturbed, aborted]
  | fetchFailed usable failed =>
      simp [Pc.disturbed, Workers.undisturbed, usable, failed]
  | rejected notStorable =>
      simp [Pc.disturbed, Workers.undisturbed, notStorable]
  | commitFailed isStorable failed | commitLanded isStorable failed =>
      simp [Pc.disturbed, Workers.undisturbed, isStorable, failed]
  | fetchMissing healthy | commitMissing healthy =>
      simp [Pc.disturbed, Workers.undisturbed, healthy]
  | fetched _ healthy | committed _ healthy =>
      simp [Pc.disturbed, Workers.undisturbed, healthy]

theorem advance_disturbed_iff
    (taken : advance libraries schema arguments store choice pc =
      some (target, next)) :
    ¬ next.disturbed ↔ undisturbed (store, pc) (.advance choice) = true := by
  rcases advance_cases taken with
    ⟨stage, fault, isStage, _, rfl⟩ | ⟨_, executes⟩ | handles
  · refine iff_of_true id ?_
    cases pc with
    | markFailedFetch failure | markFailedCommit failure => cases isStage
    | _ => rfl
  · exact iff_of_true executes.not_disturbed executes.undisturbed
  · exact handles.disturbed_iff

theorem not_advance_of_disturbed (disturbed : pc.disturbed) :
    advance libraries schema arguments store choice pc = none := by
  unfold Pc.disturbed at disturbed
  split at disturbed
  · rfl
  · cases disturbed

/-- A run ends without a failure of the handler's own exactly when no
statement of the handler fails for a reason of its own. -/
theorem not_disturbed_iff
    {run : List (RunLabel × Store Dense Sparse × Pc Content Dense Sparse)}
    (isRun : Run (ingestDocument libraries schema arguments start).step
      (start, .fetchJob) run) :
    ¬ (finalState (start, .fetchJob) run).2.disturbed ↔
      Run (fun source label target =>
          (ingestDocument libraries schema arguments start).step source label
            target ∧ undisturbed source label = true)
        (start, .fetchJob) run := by
  refine @Run.final_iff_guarded _ _ _
    (fun state : Store Dense Sparse × Pc Content Dense Sparse =>
      state.2.disturbed)
    (fun source label => undisturbed source label = true)
    ?_ ?_ _ _ isRun id
  · rintro ⟨store, pc⟩ label ⟨target, next⟩ disturbed taken
    cases label with
    | advance choice =>
        have stuck : advance libraries schema arguments store choice pc =
            none := not_advance_of_disturbed disturbed
        have moved : advance libraries schema arguments store choice pc =
            some (target, next) := taken
        rw [stuck] at moved
        cases moved
    | interfere jobs tables updates =>
        cases taken
        exact disturbed
  · rintro ⟨store, pc⟩ label ⟨target, next⟩ well taken
    cases label with
    | advance choice => exact advance_disturbed_iff taken
    | interfere jobs tables updates =>
        cases taken
        refine iff_of_true well ?_
        cases pc <;> rfl

end Disturbance

section Proof

variable {Content Dense Sparse : Type} {libraries : Libraries Dense Sparse}
  {schema : Schema Content} {arguments : Arguments}

theorem aborted_eq_false {failure : Failure} :
    failure.aborted = false ↔
      (failure.stage.usesSession = true → failure.fault.aborts = false) := by
  unfold Failure.aborted
  cases failure.stage.usesSession <;> simp

/-- What is known while a failure is handled and once it has been. -/
def Handled (row : Option IngestionJob) : Pc Content Dense Sparse → Prop
  | .markFailedCommit failure => failure.aborted = false
  | .raised failure none =>
      failure.aborted = false ∧ storable failure.message = true ∧
        Recorded row failure none
  | .raised failure (some .session) => failure.aborted = true
  | .raised failure (some .rejected) => storable failure.message = false
  | .raised _ (some .missing) => False
  | _ => True

theorem Executes.handled {store target : Store Dense Sparse}
    {choice : Choice} {pc next : Pc Content Dense Sparse}
    (executes :
      Executes libraries schema arguments store choice pc target next)
    (row : Option IngestionJob) : Handled row next := by
  cases executes <;> trivial

theorem recordFailure_recorded {store : Store Dense Sparse} {jobId : Uuid}
    {failure : Failure} (present : (store.jobs jobId).isSome = true) :
    Recorded ((store.recordFailure jobId failure).jobs jobId) failure none := by
  obtain ⟨job, found⟩ := Option.isSome_iff_exists.mp present
  refine ⟨rfl, failure.setFailed job, ?_, rfl, rfl⟩
  simp [Store.recordFailure, Store.updateJob, Store.commitSummary, found]

theorem Handles.handled {store target : Store Dense Sparse} {choice : Choice}
    {pc next : Pc Content Dense Sparse}
    (handles : Handles arguments store choice pc target next)
    (present : (store.jobs arguments.jobId).isSome = true)
    (handled : Handled (store.jobs arguments.jobId) pc) :
    Handled (target.jobs arguments.jobId) next := by
  cases handles with
  | refused aborted => exact aborted
  | fetched usable _ => exact usable
  | rejected notStorable => exact notStorable
  | committed isStorable _ =>
      exact ⟨handled, isStorable, recordFailure_recorded present⟩
  | fetchMissing _ missing | commitMissing _ missing =>
      rw [missing] at present
      cases present
  | _ => trivial

/-- While a run is in progress its job row exists, and what is known of a
failure holds. -/
theorem handled_of_reachable {start : Store Dense Sparse}
    (exists_job : (start.jobs arguments.jobId).isSome = true)
    {state : Store Dense Sparse × Pc Content Dense Sparse}
    (reachable :
      Reachable (ingestDocument libraries schema arguments start) state) :
    (state.1.jobs arguments.jobId).isSome = true ∧
      Handled (state.1.jobs arguments.jobId) state.2 := by
  refine @invariant_of_step _ _ _
    (fun state => (state.1.jobs arguments.jobId).isSome = true ∧
      Handled (state.1.jobs arguments.jobId) state.2) ?_ ?_ state reachable
  · rintro _ rfl
    exact ⟨exists_job, trivial⟩
  · rintro ⟨store, pc⟩ label ⟨target, next⟩ ⟨present, handled⟩ taken
    cases label with
    | advance choice =>
        have effect := advance_effect taken
        refine ⟨effect.jobs_isSome present, ?_⟩
        rcases advance_cases taken with
          ⟨stage, fault, _, _, rfl⟩ | ⟨_, executes⟩ | handles
        · trivial
        · exact executes.handled _
        · exact handles.handled present handled
    | interfere jobs tables updates =>
        cases taken
        change (Function.update jobs arguments.jobId
            (store.jobs arguments.jobId) arguments.jobId).isSome = true ∧
          Handled (Function.update jobs arguments.jobId
            (store.jobs arguments.jobId) arguments.jobId) pc
        rw [Function.update_self]
        exact ⟨present, handled⟩

/-- A failed run is recorded on its job and its exception propagates exactly
when the failing statement left the session usable and the text of its
exception can be stored, and no statement of the handler fails for a reason
of its own. -/
theorem recorded_iff_recordable {start : Store Dense Sparse}
    (exists_job : (start.jobs arguments.jobId).isSome = true)
    {run : List (RunLabel × Store Dense Sparse × Pc Content Dense Sparse)}
    (isRun : Run (ingestDocument libraries schema arguments start).step
      (start, .fetchJob) run)
    {store : Store Dense Sparse} {failure : Failure}
    {replacement : Option HandlerError}
    (ended : finalState (start, .fetchJob) run =
      (store, .raised failure replacement)) :
    Recorded (store.jobs arguments.jobId) failure replacement ↔
      Recordable failure ∧
        Run (fun source label target =>
            (ingestDocument libraries schema arguments start).step source
              label target ∧ undisturbed source label = true)
          (start, .fetchJob) run := by
  have reachable := isRun.reachable (Reachable.initial rfl) _
    (finalState_mem_visited _ run)
  rw [← not_disturbed_iff isRun]
  rw [ended] at reachable ⊢
  have known := (handled_of_reachable exists_job reachable).2
  cases replacement with
  | none =>
      obtain ⟨usable, isStorable, recorded⟩ := known
      have recordable : Recordable failure :=
        ⟨aborted_eq_false.mp usable, isStorable⟩
      exact iff_of_true recorded ⟨recordable, id⟩
  | some error =>
      have notRecorded :
          ¬ Recorded (store.jobs arguments.jobId) failure (some error) := by
        intro recorded
        cases recorded.1
      refine iff_of_false notRecorded ?_
      rintro ⟨⟨usable, isStorable⟩, undisturbed⟩
      cases error with
      | session =>
          have aborted : failure.aborted = true := known
          rw [aborted_eq_false.mpr usable] at aborted
          cases aborted
      | missing => exact known
      | rejected =>
          have notStorable : storable failure.message = false := known
          rw [isStorable] at notStorable
          cases notStorable
      | fault fault => exact undisturbed trivial

theorem parse_failure_recorded :
    ∃ store failure,
      finalState (sampleStore, .fetchJob)
          (trace (runStep sampleLibraries Cag.textSchema sampleArguments)
            (failingAfter 4
              (failing "Failed to extract text from PDF" false) 2)
            (sampleStore, .fetchJob)) = (store, .raised failure none) ∧
        failure.stage = .index ∧
        Recorded (store.jobs sampleArguments.jobId) failure none := by
  refine ⟨_, _, rfl, rfl, ?_⟩
  refine (recorded_iff_recordable rfl
    (run_trace (runStep sampleLibraries Cag.textSchema sampleArguments)
      (failingAfter 4 (failing "Failed to extract text from PDF" false) 2)
      (sampleStore, .fetchJob)) rfl).mpr ⟨⟨fun _ => rfl, by decide⟩, ?_⟩
  exact run_trace_meets undisturbed _ _ _ rfl

/-- A summary that Postgres cannot store fails its insert.  The handler's own
`SELECT` is then refused, the job stays `running`, and what propagates is the
refusal. -/
theorem failed_insert_not_recorded :
    ∃ store failure replacement,
      Reachable (ingestDocument sampleLibraries Cag.textSchema
        sampleArguments sampleStore) (store, .raised failure replacement) ∧
      (sampleStore.jobs sampleArguments.jobId).isSome = true ∧
      failure.stage = .insertSummary ∧
      (store.jobs sampleArguments.jobId).map IngestionJob.status =
        some .running ∧
      ¬ Recorded (store.jobs sampleArguments.jobId) failure
        replacement := by
  refine ⟨_, _, _, @reachable_of_follow _ _ _ _
    (failingAfter 9
      (failing "unsupported Unicode escape sequence" true) 1) _ _
    (Reachable.initial rfl) rfl, rfl, rfl, rfl, ?_⟩
  intro recorded
  cases recorded.1

end Proof

end ProjectMemory.Workers
