import ProjectMemory.Cag.Queue
import ProjectMemory.Ingestion.VectorStore

/-!
# The ingestion run

`ingest_document` statement by statement.  Every statement may raise; the
handler then records the failure through the session the failing statement
used, and raises the exception again.

A session whose transaction was aborted refuses every further statement.  A
session that was not may still hold what the failing step left uncommitted,
and the commit of the handler commits that too.
-/

namespace ProjectMemory.Workers

open Foundation Ingestion

section Machine

variable {Content Dense Sparse : Type}

structure Arguments where
  jobId : Uuid
  documentId : Uuid
  projectId : Uuid

/-- What is stored outside the run. -/
structure Store (Dense Sparse : Type) where
  jobs : Uuid → Option IngestionJob
  documents : Uuid → Option Document
  projects : Uuid → Option ProjectConfig
  tables : Cag.Tables
  collections : Uuid → Option (Collection Dense Sparse)
  /-- The projects whose `cag_update` is queued or executing. -/
  updates : Uuid → Bool

/-- An exception and what the statement that raised it left behind. -/
structure Fault where
  message : String
  /-- The session accepts no statement until it is rolled back. -/
  aborts : Bool
  /-- A commit that was reported to fail took effect. -/
  landed : Bool
  /-- The points a failing upsert stored nevertheless. -/
  stored : String → Bool

def Fault.plain (message : String) : Fault where
  message := message
  aborts := false
  landed := false
  stored := fun _ => false

/-- The `StaleDataError` of a flush that finds its row gone. -/
def Fault.stale : Fault where
  message := "UPDATE statement on table 'ingestion_jobs' expected to update 1 row(s); 0 were matched."
  aborts := true
  landed := false
  stored := fun _ => false

/-- The statements of `ingest_document`. -/
inductive Stage where
  | fetchJob
  | commitRunning
  | fetchDocument
  | fetchProject
  | index
  | collectionExists
  | createCollection
  | upsert
  | summarize
  | insertSummary
  | commitSummary
  | getLatest
  | countPending
  | enqueue
  | commitComplete
  deriving DecidableEq, Repr

/-- The statement is executed on the database session. -/
def Stage.usesSession : Stage → Bool
  | .index | .collectionExists | .createCollection | .upsert | .summarize
  | .enqueue => false
  | _ => true

/-- What `str` of the exception says: the vector store raises a `QdrantError`
of its own from every exception. -/
def Stage.describe (projectId : Uuid) (message : String) : Stage → String
  | .collectionExists | .createCollection =>
      "Failed to ensure collection for project " ++ projectId.str ++ ": " ++
        message
  | .upsert =>
      "Failed to upsert vectors for project " ++ projectId.str ++ ": " ++
        message
  | _ => message

/-- An exception that reached the handler, with what the session holds
uncommitted. -/
structure Failure where
  stage : Stage
  fault : Fault
  /-- `str(exc)`. -/
  message : String
  /-- The summary that was inserted and not committed. -/
  pending : Option DocumentSummary
  /-- The `completed_at` that was assigned and not committed. -/
  completedAt : Option Timestamp

/-- The failing statement aborted the transaction of the session. -/
def Failure.aborted (failure : Failure) : Bool :=
  failure.stage.usesSession && failure.fault.aborts

/-- An exception the handler raises in place of the one it was given. -/
inductive HandlerError where
  /-- The session refused the statement. -/
  | session
  /-- `_fetch_job` found no row. -/
  | missing
  /-- The text of the exception could not be stored. -/
  | rejected
  /-- A statement of the handler failed for a reason of its own. -/
  | fault (fault : Fault)

/-- What is left to do of a run, with the local variables it still needs. -/
inductive Pc (Content Dense Sparse : Type) where
  | fetchJob
  | commitRunning (read : JobStatus)
  | fetchDocument
  | fetchProject (document : Document)
  | index (document : Document) (config : ProjectConfig)
  | collectionExists (config : ProjectConfig) (indexed : Indexed Dense Sparse)
  | createCollection (config : ProjectConfig) (indexed : Indexed Dense Sparse)
  | upsert (config : ProjectConfig) (indexed : Indexed Dense Sparse)
  | summarize (config : ProjectConfig)
  | insertSummary (config : ProjectConfig) (rawTextFallback : Option Bool)
  | commitSummary (config : ProjectConfig) (row : Option DocumentSummary)
  | getLatest (config : ProjectConfig)
  | countPending (config : ProjectConfig)
      (latest : Option (BeliefStateRecord Content))
  | enqueue
  | commitComplete
  | completed
  | markFailedFetch (failure : Failure)
  | markFailedCommit (failure : Failure)
  | raised (failure : Failure) (replacement : Option HandlerError)

/-- The statement a run executes next, if it is one of the `try` block. -/
def Pc.stage : Pc Content Dense Sparse → Option Stage
  | .fetchJob => some .fetchJob
  | .commitRunning _ => some .commitRunning
  | .fetchDocument => some .fetchDocument
  | .fetchProject _ => some .fetchProject
  | .index _ _ => some .index
  | .collectionExists _ _ => some .collectionExists
  | .createCollection _ _ => some .createCollection
  | .upsert _ _ => some .upsert
  | .summarize _ => some .summarize
  | .insertSummary _ _ => some .insertSummary
  | .commitSummary _ _ => some .commitSummary
  | .getLatest _ => some .getLatest
  | .countPending _ _ => some .countPending
  | .enqueue => some .enqueue
  | .commitComplete => some .commitComplete
  | _ => none

/-- The summary a run has inserted and not committed. -/
def Pc.pending : Pc Content Dense Sparse → Option DocumentSummary
  | .commitSummary _ row => row
  | .markFailedFetch failure => failure.pending
  | .markFailedCommit failure => failure.pending
  | _ => none

/-- What the outside contributes to a statement. -/
structure Choice where
  fault : Option Fault
  now : Timestamp
  /-- `uuid4` of a new row. -/
  id : Uuid
  /-- What the LLM's summary says under `raw_text_fallback`. -/
  rawTextFallback : Option Bool
  /-- What Qdrant answers to a request it refuses. -/
  refusal : String
  /-- The `ValidationError` for the stored state of a version. -/
  validationError : Uuid → Nat → String

/-! ## Effects on the store -/

def Store.updateJob (store : Store Dense Sparse) (jobId : Uuid)
    (change : IngestionJob → IngestionJob) : Store Dense Sparse :=
  { store with
    jobs := Function.update store.jobs jobId
      ((store.jobs jobId).map change) }

def Store.commitJob (store : Store Dense Sparse) (jobId : Uuid)
    (change : IngestionJob → IngestionJob) :
    Except Fault (Store Dense Sparse) :=
  match store.jobs jobId with
  | some _ => .ok (store.updateJob jobId change)
  | none => .error .stale

def Store.commitSummary (store : Store Dense Sparse)
    (row : Option DocumentSummary) : Store Dense Sparse :=
  { store with
    tables := { store.tables with
      summaries := store.tables.summaries ++ row.toList } }

def Store.putPoints (store : Store Dense Sparse) (projectId : Uuid)
    (points : List (String × Point Dense Sparse)) : Store Dense Sparse :=
  { store with
    collections := Function.update store.collections projectId
      ((store.collections projectId).map fun collection =>
        Foundation.upsert collection points) }

def setRunning (job : IngestionJob) : IngestionJob :=
  { job with status := .running }

def setComplete (now : Timestamp) (job : IngestionJob) : IngestionJob :=
  { job with status := .complete, completedAt := some now }

/-- The updates the handler commits. -/
def Failure.setFailed (failure : Failure) (job : IngestionJob) :
    IngestionJob :=
  { job with
    status := .failed
    errorMessage := some failure.message
    completedAt := failure.completedAt.or job.completedAt }

/-- What the commit of the handler makes durable. -/
def Store.recordFailure (store : Store Dense Sparse) (jobId : Uuid)
    (failure : Failure) : Store Dense Sparse :=
  (store.commitSummary failure.pending).updateJob jobId failure.setFailed

def defaultRebuildThreshold : Nat := 50

/-! ## Statements -/

def summaryRow (arguments : Arguments) (choice : Choice)
    (rawTextFallback : Option Bool) : DocumentSummary where
  id := choice.id
  documentId := arguments.documentId
  projectId := arguments.projectId
  rawTextFallback := rawTextFallback
  createdAt := choice.now

/-- A statement of the `try` block that is not made to fail; `none` where it
never returns. -/
def statement (libraries : Libraries Dense Sparse) (schema : Schema Content)
    (arguments : Arguments) (store : Store Dense Sparse) (choice : Choice) :
    Pc Content Dense Sparse →
      Option (Except Fault (Store Dense Sparse × Pc Content Dense Sparse))
  | .fetchJob =>
      match store.jobs arguments.jobId with
      | some job => some (.ok (store, .commitRunning job.status))
      | none =>
          some (.error (.plain
            ("IngestionJob " ++ arguments.jobId.str ++ " not found")))
  | .commitRunning read =>
      -- a status that stays what it is is not written
      if read = .running then some (.ok (store, .fetchDocument))
      else
        some ((store.commitJob arguments.jobId setRunning).map
          (·, .fetchDocument))
  | .fetchDocument =>
      match store.documents arguments.documentId with
      | some document => some (.ok (store, .fetchProject document))
      | none =>
          some (.error (.plain
            ("Document " ++ arguments.documentId.str ++ " not found")))
  | .fetchProject document =>
      match store.projects arguments.projectId with
      | some config => some (.ok (store, .index document config))
      | none =>
          some (.error (.plain
            ("Project " ++ arguments.projectId.str ++ " not found")))
  | .index document config =>
      (indexDocument libraries document config).map fun
        | .error message => .error (.plain message)
        | .ok indexed => .ok (store, .collectionExists config indexed)
  | .collectionExists config indexed =>
      match store.collections arguments.projectId with
      | some _ => some (.ok (store, .upsert config indexed))
      | none => some (.ok (store, .createCollection config indexed))
  | .createCollection config indexed =>
      match store.collections arguments.projectId with
      | some _ => some (.error (.plain choice.refusal))
      | none =>
          some (.ok ({ store with
            collections := Function.update store.collections
              arguments.projectId (some fun _ => none) },
            .upsert config indexed))
  | .upsert config indexed =>
      let points := pointsOf libraries arguments.projectId
        arguments.documentId indexed choice.now
      match store.collections arguments.projectId with
      | some _ =>
          -- Qdrant refuses an upsert without points
          if points.isEmpty then some (.error (.plain choice.refusal))
          else
            some (.ok (store.putPoints arguments.projectId points,
              .summarize config))
      | none => some (.error (.plain choice.refusal))
  | .summarize config =>
      some (.ok (store, .insertSummary config choice.rawTextFallback))
  | .insertSummary config rawTextFallback =>
      -- `on_conflict_do_nothing`
      if store.tables.summaries.any fun row =>
          row.documentId = arguments.documentId then
        some (.ok (store, .commitSummary config none))
      else
        some (.ok (store, .commitSummary config
          (some (summaryRow arguments choice rawTextFallback))))
  | .commitSummary config row =>
      some (.ok (store.commitSummary row, .getLatest config))
  | .getLatest config =>
      match Cag.getLatest schema store.tables arguments.projectId with
      | .error failure =>
          some (.error (.plain (failure.message choice.validationError)))
      | .ok latest => some (.ok (store, .countPending config latest))
  | .countPending config latest =>
      if Cag.shouldEnqueue latest
          (Cag.pendingCount store.tables arguments.projectId latest)
          (config.cagRebuildThreshold.getD defaultRebuildThreshold) then
        some (.ok (store, .enqueue))
      else
        some (.ok (store, .commitComplete))
  | .enqueue =>
      some (.ok ({ store with
        updates := Function.update store.updates arguments.projectId true },
        .commitComplete))
  | .commitComplete =>
      some ((store.commitJob arguments.jobId
        (setComplete choice.now)).map (·, .completed))
  | _ => none

/-- A statement of the `try` block, which may be made to fail. -/
def attempt (libraries : Libraries Dense Sparse) (schema : Schema Content)
    (arguments : Arguments) (store : Store Dense Sparse) (choice : Choice)
    (pc : Pc Content Dense Sparse) :
    Option (Except Fault (Store Dense Sparse × Pc Content Dense Sparse)) :=
  match choice.fault with
  | some fault => some (.error fault)
  | none => statement libraries schema arguments store choice pc

/-- What a failing statement leaves in the store. -/
def afterFault (libraries : Libraries Dense Sparse) (arguments : Arguments)
    (store : Store Dense Sparse) (fault : Fault) (now : Timestamp) :
    Pc Content Dense Sparse → Store Dense Sparse
  | .commitRunning read =>
      if fault.landed && read ≠ .running then
        store.updateJob arguments.jobId setRunning
      else store
  | .upsert _ indexed =>
      store.putPoints arguments.projectId
        ((pointsOf libraries arguments.projectId arguments.documentId indexed
          now).filter fun point => fault.stored point.1)
  | .commitSummary _ row =>
      if fault.landed then store.commitSummary row else store
  | .commitComplete =>
      if fault.landed then
        store.updateJob arguments.jobId (setComplete now)
      else store
  | _ => store

/-- The exception as it reaches the handler. -/
def Pc.failure (pc : Pc Content Dense Sparse) (stage : Stage)
    (projectId : Uuid) (fault : Fault) (now : Timestamp) : Failure where
  stage := stage
  fault := fault
  message := stage.describe projectId fault.message
  pending :=
    if stage.usesSession && fault.aborts || fault.landed then none
    else pc.pending
  completedAt := if stage = .commitComplete then some now else none

/-- A statement of `_mark_job_failed`, and the `raise` after it. -/
def handle (arguments : Arguments) (store : Store Dense Sparse)
    (choice : Choice) :
    Pc Content Dense Sparse →
      Option (Store Dense Sparse × Pc Content Dense Sparse)
  | .markFailedFetch failure =>
      if failure.aborted then
        some (store, .raised failure (some .session))
      else
        match choice.fault with
        | some fault => some (store, .raised failure (some (.fault fault)))
        | none =>
            match store.jobs arguments.jobId with
            | none => some (store, .raised failure (some .missing))
            | some _ => some (store, .markFailedCommit failure)
  | .markFailedCommit failure =>
      if storable failure.message then
        match choice.fault with
        | some fault =>
            some (if fault.landed then
                store.recordFailure arguments.jobId failure
              else store, .raised failure (some (.fault fault)))
        | none =>
            match store.jobs arguments.jobId with
            | none => some (store, .raised failure (some .missing))
            | some _ =>
                some (store.recordFailure arguments.jobId failure,
                  .raised failure none)
      else
        some (store, .raised failure (some .rejected))
  | _ => none

def settle (libraries : Libraries Dense Sparse) (arguments : Arguments)
    (store : Store Dense Sparse) (now : Timestamp)
    (pc : Pc Content Dense Sparse) (stage : Stage) :
    Except Fault (Store Dense Sparse × Pc Content Dense Sparse) →
      Store Dense Sparse × Pc Content Dense Sparse
  | .ok next => next
  | .error fault =>
      (afterFault libraries arguments store fault now pc,
        .markFailedFetch (pc.failure stage arguments.projectId fault now))

/-- The next statement of a run; `none` where the run has ended or the
statement never returns. -/
def advance (libraries : Libraries Dense Sparse) (schema : Schema Content)
    (arguments : Arguments) (store : Store Dense Sparse) (choice : Choice)
    (pc : Pc Content Dense Sparse) :
    Option (Store Dense Sparse × Pc Content Dense Sparse) :=
  match pc.stage with
  | none => handle arguments store choice pc
  | some stage =>
      (attempt libraries schema arguments store choice pc).map
        (settle libraries arguments store choice.now pc stage)

/-! ## One run among others -/

/-- A statement of the run, or what others commit between two of them: they
leave the job, the document, the project and the vectors of the run alone. -/
inductive RunLabel where
  | advance (choice : Choice)
  | interfere (jobs : Uuid → Option IngestionJob) (tables : Cag.Tables)
      (updates : Uuid → Bool)

def runStep (libraries : Libraries Dense Sparse) (schema : Schema Content)
    (arguments : Arguments) :
    Store Dense Sparse × Pc Content Dense Sparse → RunLabel →
      Option (Store Dense Sparse × Pc Content Dense Sparse)
  | (store, pc), .advance choice =>
      advance libraries schema arguments store choice pc
  | (store, pc), .interfere jobs tables updates =>
      some ({ store with
        jobs := Function.update jobs arguments.jobId
          (store.jobs arguments.jobId)
        tables := tables
        updates := updates }, pc)

/-- The run of `ingest_document` that starts in a given store. -/
def ingestDocument (libraries : Libraries Dense Sparse)
    (schema : Schema Content) (arguments : Arguments)
    (start : Store Dense Sparse) :
    TransitionSystem (Store Dense Sparse × Pc Content Dense Sparse)
      RunLabel :=
  TransitionSystem.ofNext (fun state => state = (start, .fetchJob))
    (runStep libraries schema arguments)

end Machine

/-! ## What one statement can do -/

section Inversion

variable {Content Dense Sparse : Type} {libraries : Libraries Dense Sparse}
  {schema : Schema Content} {arguments : Arguments}
  {store target : Store Dense Sparse} {choice : Choice}
  {pc next : Pc Content Dense Sparse}

/-- The statements of the `try` block that succeed, in their order. -/
inductive Executes (libraries : Libraries Dense Sparse)
    (schema : Schema Content) (arguments : Arguments)
    (store : Store Dense Sparse) (choice : Choice) :
    Pc Content Dense Sparse → Store Dense Sparse →
      Pc Content Dense Sparse → Prop
  | fetchJob {job : IngestionJob} :
      store.jobs arguments.jobId = some job →
      Executes libraries schema arguments store choice .fetchJob store
        (.commitRunning job.status)
  | staysRunning :
      Executes libraries schema arguments store choice
        (.commitRunning .running) store .fetchDocument
  | commitRunning {read : JobStatus} :
      read ≠ .running →
      (store.jobs arguments.jobId).isSome = true →
      Executes libraries schema arguments store choice (.commitRunning read)
        (store.updateJob arguments.jobId setRunning) .fetchDocument
  | fetchDocument {document : Document} :
      store.documents arguments.documentId = some document →
      Executes libraries schema arguments store choice .fetchDocument store
        (.fetchProject document)
  | fetchProject {document : Document} {config : ProjectConfig} :
      store.projects arguments.projectId = some config →
      Executes libraries schema arguments store choice
        (.fetchProject document) store (.index document config)
  | index {document : Document} {config : ProjectConfig}
      {indexed : Indexed Dense Sparse} :
      indexDocument libraries document config = some (.ok indexed) →
      Executes libraries schema arguments store choice
        (.index document config) store (.collectionExists config indexed)
  | collectionExists {config : ProjectConfig}
      {indexed : Indexed Dense Sparse} :
      (store.collections arguments.projectId).isSome = true →
      Executes libraries schema arguments store choice
        (.collectionExists config indexed) store (.upsert config indexed)
  | collectionMissing {config : ProjectConfig}
      {indexed : Indexed Dense Sparse} :
      Executes libraries schema arguments store choice
        (.collectionExists config indexed) store
        (.createCollection config indexed)
  | createCollection {config : ProjectConfig}
      {indexed : Indexed Dense Sparse} :
      store.collections arguments.projectId = none →
      Executes libraries schema arguments store choice
        (.createCollection config indexed)
        { store with
          collections := Function.update store.collections
            arguments.projectId (some fun _ => none) }
        (.upsert config indexed)
  | upsert {config : ProjectConfig} {indexed : Indexed Dense Sparse} :
      (store.collections arguments.projectId).isSome = true →
      indexed.results ≠ [] →
      Executes libraries schema arguments store choice
        (.upsert config indexed)
        (store.putPoints arguments.projectId
          (pointsOf libraries arguments.projectId arguments.documentId
            indexed choice.now))
        (.summarize config)
  | summarize {config : ProjectConfig} :
      Executes libraries schema arguments store choice (.summarize config)
        store (.insertSummary config choice.rawTextFallback)
  | conflict {config : ProjectConfig} {rawTextFallback : Option Bool} :
      (∃ row ∈ store.tables.summaries,
        row.documentId = arguments.documentId) →
      Executes libraries schema arguments store choice
        (.insertSummary config rawTextFallback) store
        (.commitSummary config none)
  | insertSummary {config : ProjectConfig} {rawTextFallback : Option Bool} :
      (∀ row ∈ store.tables.summaries,
        row.documentId ≠ arguments.documentId) →
      Executes libraries schema arguments store choice
        (.insertSummary config rawTextFallback) store
        (.commitSummary config
          (some (summaryRow arguments choice rawTextFallback)))
  | commitSummary {config : ProjectConfig} {row : Option DocumentSummary} :
      Executes libraries schema arguments store choice
        (.commitSummary config row) (store.commitSummary row)
        (.getLatest config)
  | getLatest {config : ProjectConfig}
      {latest : Option (BeliefStateRecord Content)} :
      Cag.getLatest schema store.tables arguments.projectId = .ok latest →
      Executes libraries schema arguments store choice (.getLatest config)
        store (.countPending config latest)
  | decide {config : ProjectConfig}
      {latest : Option (BeliefStateRecord Content)} :
      Executes libraries schema arguments store choice
        (.countPending config latest) store .enqueue
  | decline {config : ProjectConfig}
      {latest : Option (BeliefStateRecord Content)} :
      Executes libraries schema arguments store choice
        (.countPending config latest) store .commitComplete
  | enqueue :
      Executes libraries schema arguments store choice .enqueue
        { store with
          updates := Function.update store.updates arguments.projectId true }
        .commitComplete
  | commitComplete :
      (store.jobs arguments.jobId).isSome = true →
      Executes libraries schema arguments store choice .commitComplete
        (store.updateJob arguments.jobId (setComplete choice.now))
        .completed

/-- The statements of the handler: it looks the job up, commits the failure
and raises. -/
inductive Handles (arguments : Arguments) (store : Store Dense Sparse)
    (choice : Choice) :
    Pc Content Dense Sparse → Store Dense Sparse →
      Pc Content Dense Sparse → Prop
  | refused {failure : Failure} :
      failure.aborted = true →
      Handles arguments store choice (.markFailedFetch failure)
        store (.raised failure (some .session))
  | fetchFailed {failure : Failure} {fault : Fault} :
      failure.aborted = false →
      choice.fault = some fault →
      Handles arguments store choice (.markFailedFetch failure)
        store (.raised failure (some (.fault fault)))
  | fetchMissing {failure : Failure} :
      choice.fault = none →
      store.jobs arguments.jobId = none →
      Handles arguments store choice (.markFailedFetch failure)
        store (.raised failure (some .missing))
  | fetched {failure : Failure} :
      failure.aborted = false →
      choice.fault = none →
      Handles arguments store choice (.markFailedFetch failure)
        store (.markFailedCommit failure)
  | rejected {failure : Failure} :
      storable failure.message = false →
      Handles arguments store choice (.markFailedCommit failure)
        store (.raised failure (some .rejected))
  | commitFailed {failure : Failure} {fault : Fault} :
      storable failure.message = true →
      choice.fault = some fault →
      Handles arguments store choice (.markFailedCommit failure)
        store (.raised failure (some (.fault fault)))
  | commitLanded {failure : Failure} {fault : Fault} :
      storable failure.message = true →
      choice.fault = some fault →
      Handles arguments store choice (.markFailedCommit failure)
        (store.recordFailure arguments.jobId failure)
        (.raised failure (some (.fault fault)))
  | commitMissing {failure : Failure} :
      choice.fault = none →
      store.jobs arguments.jobId = none →
      Handles arguments store choice (.markFailedCommit failure)
        store (.raised failure (some .missing))
  | committed {failure : Failure} :
      storable failure.message = true →
      choice.fault = none →
      Handles arguments store choice (.markFailedCommit failure)
        (store.recordFailure arguments.jobId failure)
        (.raised failure none)

theorem commitJob_ok {change : IngestionJob → IngestionJob}
    {reached : Store Dense Sparse}
    {following : Store Dense Sparse → Pc Content Dense Sparse}
    (committed : (store.commitJob arguments.jobId change).map
      (fun committed => (committed, following committed)) =
        .ok (reached, next)) :
    (store.jobs arguments.jobId).isSome = true ∧
      reached = store.updateJob arguments.jobId change ∧
      next = following reached := by
  unfold Store.commitJob at committed
  split at committed
  · rename_i job present
    simp only [Except.map, Except.ok.injEq, Prod.mk.injEq] at committed
    refine ⟨by rw [present]; rfl, committed.1.symm, ?_⟩
    rw [← committed.2, committed.1]
  · cases committed

theorem executes_of_statement
    (executed : statement libraries schema arguments store choice pc =
      some (.ok (target, next))) :
    Executes libraries schema arguments store choice pc target next := by
  cases pc with
  | fetchJob =>
      rw [statement] at executed
      split at executed
      · rename_i job present
        cases executed
        exact Executes.fetchJob present
      · cases executed
  | commitRunning read =>
      rw [statement] at executed
      split at executed
      · rename_i isRunning
        subst isRunning
        cases executed
        exact Executes.staysRunning
      · rename_i changes
        rw [Option.some.injEq] at executed
        obtain ⟨present, rfl, rfl⟩ := commitJob_ok executed
        exact Executes.commitRunning changes present
  | fetchDocument =>
      rw [statement] at executed
      split at executed
      · rename_i document found
        cases executed
        exact Executes.fetchDocument found
      · cases executed
  | fetchProject document =>
      rw [statement] at executed
      split at executed
      · rename_i config found
        cases executed
        exact Executes.fetchProject found
      · cases executed
  | index document config =>
      rw [statement] at executed
      obtain ⟨outcome, indexedAs, same⟩ := Option.map_eq_some_iff.mp executed
      cases outcome with
      | error message => cases same
      | ok indexed =>
          cases same
          exact Executes.index indexedAs
  | collectionExists config indexed =>
      rw [statement] at executed
      split at executed
      · rename_i collection present
        cases executed
        exact Executes.collectionExists (by rw [present]; rfl)
      · cases executed
        exact Executes.collectionMissing
  | createCollection config indexed =>
      rw [statement] at executed
      split at executed
      · cases executed
      · rename_i absent
        cases executed
        exact Executes.createCollection absent
  | upsert config indexed =>
      rw [statement] at executed
      split at executed
      · rename_i collection present
        split at executed
        · cases executed
        · rename_i nonempty
          cases executed
          refine Executes.upsert (by rw [present]; rfl) ?_
          rwa [pointsOf_isEmpty] at nonempty
      · cases executed
  | summarize config =>
      cases executed
      exact Executes.summarize
  | insertSummary config rawTextFallback =>
      rw [statement] at executed
      split at executed
      · rename_i taken
        cases executed
        exact Executes.conflict (by simpa using taken)
      · rename_i free
        cases executed
        exact Executes.insertSummary (by simpa using free)
  | commitSummary config row =>
      cases executed
      exact Executes.commitSummary
  | getLatest config =>
      rw [statement] at executed
      split at executed
      · cases executed
      · rename_i latest read
        cases executed
        exact Executes.getLatest read
  | countPending config latest =>
      rw [statement] at executed
      split at executed
      · cases executed
        exact Executes.decide
      · cases executed
        exact Executes.decline
  | enqueue =>
      cases executed
      exact Executes.enqueue
  | commitComplete =>
      rw [statement, Option.some.injEq] at executed
      obtain ⟨present, rfl, rfl⟩ := commitJob_ok executed
      exact Executes.commitComplete present
  | completed | markFailedFetch | markFailedCommit | raised =>
      cases executed

theorem handles_of_handle
    (handled : handle arguments store choice pc = some (target, next)) :
    Handles arguments store choice pc target next := by
  cases pc with
  | markFailedFetch failure =>
      rw [handle] at handled
      split at handled
      · rename_i aborted
        cases handled
        exact Handles.refused aborted
      · rename_i usable
        rw [Bool.not_eq_true] at usable
        split at handled
        · rename_i fault failed
          cases handled
          exact Handles.fetchFailed usable failed
        · rename_i healthy
          split at handled
          · rename_i missing
            cases handled
            exact Handles.fetchMissing healthy missing
          · cases handled
            exact Handles.fetched usable healthy
  | markFailedCommit failure =>
      rw [handle] at handled
      split at handled
      · rename_i isStorable
        split at handled
        · -- a commit that is reported to fail may have taken effect
          rename_i fault failed
          cases handled
          split
          · exact Handles.commitLanded isStorable failed
          · exact Handles.commitFailed isStorable failed
        · rename_i healthy
          split at handled
          · rename_i missing
            cases handled
            exact Handles.commitMissing healthy missing
          · cases handled
            exact Handles.committed isStorable healthy
      · rename_i notStorable
        cases handled
        exact Handles.rejected (Bool.eq_false_of_not_eq_true notStorable)
  | _ => cases handled

/-- A step of a run raises, executes its statement, or is one of the
handler. -/
theorem advance_cases
    (taken : advance libraries schema arguments store choice pc =
      some (target, next)) :
    (∃ stage fault, pc.stage = some stage ∧
      target = afterFault libraries arguments store fault choice.now pc ∧
      next = .markFailedFetch
        (pc.failure stage arguments.projectId fault choice.now)) ∨
    (choice.fault = none ∧
      Executes libraries schema arguments store choice pc target next) ∨
    Handles arguments store choice pc target next := by
  unfold advance at taken
  split at taken
  · exact Or.inr (Or.inr (handles_of_handle taken))
  · rename_i stage isStage
    obtain ⟨outcome, happened, settled⟩ := Option.map_eq_some_iff.mp taken
    cases outcome with
    | ok reached =>
        have same : reached = (target, next) := settled
        unfold attempt at happened
        split at happened
        · cases happened
        · rename_i healthy
          rw [same] at happened
          exact Or.inr (Or.inl ⟨healthy, executes_of_statement happened⟩)
    | error fault =>
        simp only [settle, Prod.mk.injEq] at settled
        exact Or.inl
          ⟨stage, fault, isStage, settled.1.symm, settled.2.symm⟩

inductive Effect (libraries : Libraries Dense Sparse)
    (arguments : Arguments) (store : Store Dense Sparse) :
    Pc Content Dense Sparse → Store Dense Sparse → Prop
  | none {pc : Pc Content Dense Sparse} :
      Effect libraries arguments store pc store
  | job {pc : Pc Content Dense Sparse}
      (change : IngestionJob → IngestionJob) :
      Effect libraries arguments store pc
        (store.updateJob arguments.jobId change)
  | create {config : ProjectConfig} {indexed : Indexed Dense Sparse} :
      store.collections arguments.projectId = none →
      Effect libraries arguments store (.createCollection config indexed)
        { store with
          collections := Function.update store.collections
            arguments.projectId (some fun _ => none) }
  | put {config : ProjectConfig} {indexed : Indexed Dense Sparse}
      (now : Timestamp) (kept : String → Bool) :
      Effect libraries arguments store (.upsert config indexed)
        (store.putPoints arguments.projectId
          ((pointsOf libraries arguments.projectId arguments.documentId
            indexed now).filter fun point => kept point.1))
  | summary {config : ProjectConfig} {row : Option DocumentSummary} :
      Effect libraries arguments store (.commitSummary config row)
        (store.commitSummary row)
  | record {failure : Failure} :
      Effect libraries arguments store (.markFailedCommit failure)
        (store.recordFailure arguments.jobId failure)
  | enqueue :
      Effect libraries arguments store .enqueue
        { store with
          updates := Function.update store.updates arguments.projectId true }

theorem Executes.effect
    (executes :
      Executes libraries schema arguments store choice pc target next) :
    Effect libraries arguments store pc target := by
  cases executes with
  | commitRunning => exact Effect.job setRunning
  | commitComplete => exact Effect.job (setComplete choice.now)
  | createCollection absent => exact Effect.create absent
  | @upsert config indexed present _ =>
      have everything : Effect libraries arguments store
          (.upsert config indexed : Pc Content Dense Sparse)
          (store.putPoints arguments.projectId
            ((pointsOf libraries arguments.projectId arguments.documentId
              indexed choice.now).filter fun _ => true)) :=
        Effect.put choice.now fun _ => true
      rw [List.filter_true] at everything
      exact everything
  | commitSummary => exact Effect.summary
  | enqueue => exact Effect.enqueue
  | _ => exact Effect.none

theorem afterFault_effect (fault : Fault) (now : Timestamp) :
    Effect libraries arguments store pc
      (afterFault libraries arguments store fault now pc) := by
  cases pc with
  | commitRunning read =>
      rw [afterFault]
      split
      · exact Effect.job setRunning
      · exact Effect.none
  | commitComplete =>
      rw [afterFault]
      split
      · exact Effect.job (setComplete now)
      · exact Effect.none
  | commitSummary config row =>
      rw [afterFault]
      split
      · exact Effect.summary
      · exact Effect.none
  | upsert config indexed => exact Effect.put now fault.stored
  | _ => exact Effect.none

theorem Handles.effect
    (handles : Handles arguments store choice pc target next) :
    Effect libraries arguments store pc target := by
  cases handles with
  | commitLanded | committed => exact Effect.record
  | _ => exact Effect.none

theorem advance_effect
    (taken : advance libraries schema arguments store choice pc =
      some (target, next)) :
    Effect libraries arguments store pc target := by
  rcases advance_cases taken with
    ⟨stage, fault, _, rfl, _⟩ | ⟨_, executes⟩ | handles
  · exact afterFault_effect fault choice.now
  · exact executes.effect
  · exact handles.effect

theorem Effect.documents
    (effect : Effect libraries arguments store pc target) :
    target.documents = store.documents := by
  cases effect <;> rfl

theorem Effect.projects
    (effect : Effect libraries arguments store pc target) :
    target.projects = store.projects := by
  cases effect <;> rfl

theorem Effect.jobs_isSome
    (effect : Effect libraries arguments store pc target)
    (present : (store.jobs arguments.jobId).isSome = true) :
    (target.jobs arguments.jobId).isSome = true := by
  cases effect with
  | none | create | put | summary | enqueue => exact present
  | job change =>
      simpa only [Store.updateJob, Function.update_self, Option.isSome_map]
        using present
  | record =>
      simpa only [Store.recordFailure, Store.updateJob, Store.commitSummary,
        Function.update_self, Option.isSome_map] using present

end Inversion

/-! ## A small instance -/

section Sample

def sampleLibraries : Libraries Unit Unit where
  decodeError := fun _ => "invalid start byte"
  extractPdfText := fun _ => .ok "alpha beta"
  embed := fun texts => .ok (texts.map fun _ => ())
  sparseEmbed := fun texts => .ok (texts.map fun _ => ())
  uuid5 := fun name => BitVec.ofNat 128 name.length

def sampleArguments : Arguments where
  jobId := 1
  documentId := 2
  projectId := 3

def sampleJob : IngestionJob where
  id := 1
  projectId := 3
  documentId := some 2
  status := .pending
  errorMessage := none
  createdAt := 0
  completedAt := none

def sampleDocument : Document where
  filename := "notes.pdf"
  fileType := "pdf"
  rawBytes := ByteArray.empty

def sampleConfig : ProjectConfig where
  chunkSize := none
  chunkOverlap := none
  chunkingStrategy := none
  cagRebuildThreshold := none

def sampleStore : Store Unit Unit where
  jobs := fun id => if id = 1 then some sampleJob else none
  documents := fun id => if id = 2 then some sampleDocument else none
  projects := fun id => if id = 3 then some sampleConfig else none
  tables := { summaries := [], beliefs := [] }
  collections := fun _ => none
  updates := fun _ => false

def quiet : Choice where
  fault := none
  now := 5
  id := 4
  rawTextFallback := none
  refusal := "already exists"
  validationError := fun _ _ => "validation error"

def failing (message : String) (aborts : Bool) : Choice :=
  { quiet with fault := some { Fault.plain message with aborts := aborts } }

/-- The labels of a run that executes some statements undisturbed, makes one
fail and executes some statements of the handler. -/
def failingAfter (statements : Nat) (last : Choice) (handler : Nat) :
    List RunLabel :=
  List.replicate statements (.advance quiet) ++
    .advance last :: List.replicate handler (.advance quiet)

end Sample

end ProjectMemory.Workers
