import ProjectMemory.Workers.Reindexed

/-!
# A reindex among ingestions

One reindex of a project runs while documents are uploaded to it and ingested.
The reindex knows the documents of its snapshot only: what a run has stored of
another document before the collection is deleted is lost, and everything else
is there once all of them have finished.
-/

namespace ProjectMemory.Workers

open Foundation Ingestion

section System

variable {Content Dense Sparse : Type}

structure IngestionRun (Content Dense Sparse : Type) where
  arguments : Arguments
  pc : Pc Content Dense Sparse

/-- The tables and collections with the jobs at work on one project. -/
structure Site (Content Dense Sparse : Type) where
  store : Store Dense Sparse
  rows : List StoredDocument
  reindex : ReindexPc Dense Sparse
  runs : List (IngestionRun Content Dense Sparse)

inductive SiteLabel where
  /-- `DocumentService.upload`. -/
  | upload (row : StoredDocument) (jobId : Uuid) (now : Timestamp)
  /-- A worker takes up an ingestion job. -/
  | start (jobId : Uuid)
  | advance (index : Nat) (choice : Choice)
  | reindex (choice : ReindexChoice)
  /-- Other jobs change the log, the belief states and the queue. -/
  | others (tables : Cag.Tables) (updates : Uuid → Bool)

def uploadedJob (row : StoredDocument) (jobId : Uuid) (now : Timestamp) :
    IngestionJob where
  id := jobId
  projectId := row.projectId
  documentId := some row.id
  status := .pending
  errorMessage := none
  createdAt := now
  completedAt := none

def Store.upload (store : Store Dense Sparse) (row : StoredDocument)
    (jobId : Uuid) (now : Timestamp) : Store Dense Sparse :=
  { store with
    documents := Function.update store.documents row.id (some row.document)
    jobs := Function.update store.jobs jobId
      (some (uploadedJob row jobId now)) }

/-- One step; `none` where the label is not enabled. -/
def siteStep (libraries : Libraries Dense Sparse) (schema : Schema Content)
    (projectId : Uuid) (site : Site Content Dense Sparse) :
    SiteLabel → Option (Site Content Dense Sparse)
  | .upload row jobId now =>
      if row.projectId = projectId ∧ (∀ other ∈ site.rows, other.id ≠ row.id) ∧
          (site.store.jobs jobId).isNone = true then
        some { site with
          store := site.store.upload row jobId now
          rows := site.rows ++ [row] }
      else none
  | .start jobId =>
      match site.store.jobs jobId with
      | none => none
      | some job =>
          match job.documentId with
          | none => none
          | some documentId =>
              if job.projectId = projectId then
                some { site with
                  runs := site.runs ++
                    [⟨⟨jobId, documentId, projectId⟩, .fetchJob⟩] }
              else none
  | .advance index choice =>
      site.runs[index]?.bind fun run =>
        (advance libraries schema run.arguments site.store choice
          run.pc).map fun reached =>
            { site with
              store := reached.1
              runs := site.runs.set index { run with pc := reached.2 } }
  | .reindex choice =>
      (reindexAdvance libraries projectId site.rows site.store choice
        site.reindex).map fun reached =>
          { site with store := reached.1, reindex := reached.2 }
  | .others tables updates =>
      some { site with
        store := { site.store with tables := tables, updates := updates } }

/-- The condition on a step: when the collection is deleted, every run that
has stored its points is one of a document of the snapshot. -/
def coversRuns (site : Site Content Dense Sparse) : SiteLabel → Bool
  | .reindex choice =>
      match site.reindex with
      | .deleteCollection _ rest =>
          choice.fault.isSome || site.runs.all fun run =>
            !run.pc.upserted ||
              rest.any fun row => row.id = run.arguments.documentId
      | _ => true
  | _ => true

/-- The reindex and every ingestion have finished successfully. -/
def Finished (site : Site Content Dense Sparse) : Prop :=
  (∃ config done, site.reindex = .completed config done) ∧
    ∀ run ∈ site.runs, run.pc = .completed

def argumentsOf (projectId documentId : Uuid) : Arguments where
  jobId := 0
  documentId := documentId
  projectId := projectId

/-- The names of the chunks of all documents of the project. -/
def siteNames (libraries : Libraries Dense Sparse) (projectId : Uuid)
    (site : Site Content Dense Sparse) : Set String :=
  { name | ∃ row ∈ site.rows, ∃ chunk ∈
      storedChunks libraries (argumentsOf projectId row.id) site.store,
      name = pointName row.id chunk.index }

/-- A document has all its chunks in the collection of its project. -/
def HasChunks (libraries : Libraries Dense Sparse) (projectId documentId : Uuid)
    (store : Store Dense Sparse) : Prop :=
  ∃ document config chunks, store.documents documentId = some document ∧
    store.projects projectId = some config ∧
    documentChunks libraries document config = some (.ok chunks) ∧
    ∀ chunk ∈ chunks, ∃ point,
      store.points projectId (pointId libraries documentId chunk.index) =
          some point ∧
        Represents (argumentsOf projectId documentId) chunk point

/-- Every document whose job is complete has all its chunks. -/
def NoneLost (libraries : Libraries Dense Sparse) (projectId : Uuid)
    (site : Site Content Dense Sparse) : Prop :=
  ∀ jobId job documentId, site.store.jobs jobId = some job →
    job.status = .complete → job.projectId = projectId →
    job.documentId = some documentId →
    HasChunks libraries projectId documentId site.store

/-- Every document is found under its key, and the jobs of the project refer
to documents of it. -/
structure Registered (projectId : Uuid) (site : Site Content Dense Sparse) :
    Prop where
  documents : ∀ row ∈ site.rows,
    site.store.documents row.id = some row.document
  jobs : ∀ jobId job documentId, site.store.jobs jobId = some job →
    job.projectId = projectId → job.documentId = some documentId →
    ∃ row ∈ site.rows, row.id = documentId ∧ row.projectId = projectId

/-- The reindex has not begun, and no ingestion is under way. -/
structure Begins (projectId : Uuid) (site : Site Content Dense Sparse) :
    Prop where
  registered : Registered projectId site
  reindex : site.reindex = .fetchProject
  runs : site.runs = []

end System

/-! ## What a document's row decides -/

section Congruence

variable {Content Dense Sparse : Type} {libraries : Libraries Dense Sparse}
  {arguments : Arguments} {projectId : Uuid}
  {store target : Store Dense Sparse} {indexed : Indexed Dense Sparse}
  {points others : Collection Dense Sparse}

/-- Two stores agree on the document and the project of a run. -/
def Agree (arguments : Arguments) (store target : Store Dense Sparse) :
    Prop :=
  target.documents arguments.documentId =
      store.documents arguments.documentId ∧
    target.projects arguments.projectId = store.projects arguments.projectId

theorem agree_of_tables (documents : target.documents = store.documents)
    (projects : target.projects = store.projects) (arguments : Arguments) :
    Agree arguments store target := by
  rw [Agree, documents, projects]
  exact ⟨rfl, rfl⟩

theorem Agree.indexedFrom (agree : Agree arguments store target)
    (indexedFrom : IndexedFrom libraries arguments store indexed) :
    IndexedFrom libraries arguments target indexed := by
  unfold IndexedFrom at indexedFrom ⊢
  rw [agree.1, agree.2]
  exact indexedFrom

theorem Agree.storedChunks (agree : Agree arguments store target) :
    storedChunks libraries arguments target =
      storedChunks libraries arguments store := by
  unfold Workers.storedChunks
  rw [agree.1, agree.2]

theorem Agree.known (agree : Agree arguments store target)
    {pc : Pc Content Dense Sparse}
    (known : Known libraries arguments store pc) :
    Known libraries arguments target pc := by
  cases pc with
  | fetchProject document =>
      rw [Known, agree.1]
      exact known
  | index document config =>
      rw [Known, agree.1, agree.2]
      exact known
  | collectionExists config indexed | createCollection config indexed
  | upsert config indexed => exact agree.indexedFrom known
  | _ => trivial

/-- A document keeps its points while the collection only grows. -/
theorem Agree.present (agree : Agree arguments store target)
    (grows : ∀ id, (points id).isSome = true → (others id).isSome = true)
    (present : Present libraries arguments store points) :
    Present libraries arguments target others := by
  obtain ⟨⟨indexed, indexedFrom⟩, all⟩ := present
  refine ⟨⟨indexed, agree.indexedFrom indexedFrom⟩, ?_⟩
  rw [agree.storedChunks]
  exact fun chunk isChunk => grows _ (all chunk isChunk)

/-- Every stored point is the point of a chunk of one of the documents. -/
def Attributed (libraries : Libraries Dense Sparse) (projectId : Uuid)
    (rows : List StoredDocument) (store : Store Dense Sparse) : Prop :=
  ∀ id point, store.points projectId id = some point →
    ∃ row ∈ rows, ∃ chunk ∈
      storedChunks libraries (argumentsOf projectId row.id) store,
      id = pointId libraries row.id chunk.index ∧
        Represents (argumentsOf projectId row.id) chunk point

theorem Attributed.of_same {rows more : List StoredDocument}
    (attributed : Attributed libraries projectId rows store)
    (samePoints : target.points projectId = store.points projectId)
    (contained : ∀ row ∈ rows, row ∈ more ∧
      Agree (argumentsOf projectId row.id) store target) :
    Attributed libraries projectId more target := by
  intro id point found
  rw [samePoints] at found
  obtain ⟨row, isRow, chunk, isChunk, isId, represents⟩ :=
    attributed id point found
  obtain ⟨isMore, agree⟩ := contained row isRow
  refine ⟨row, isMore, chunk, ?_, isId, represents⟩
  rw [agree.storedChunks]
  exact isChunk

/-- Writing points of a document of the table. -/
theorem Attributed.upsert {rows : List StoredDocument}
    {row : StoredDocument} {now : Timestamp} {kept : String → Bool}
    (attributed : Attributed libraries projectId rows store)
    (isRow : row ∈ rows)
    (indexedFrom :
      IndexedFrom libraries (argumentsOf projectId row.id) store indexed)
    (documents : target.documents = store.documents)
    (projects : target.projects = store.projects)
    (written : target.points projectId =
      Foundation.upsert (store.points projectId)
        ((pointsOf libraries projectId row.id indexed now).filter
          fun point => kept point.1)) :
    Attributed libraries projectId rows target := by
  intro id point found
  rw [written] at found
  have agree := agree_of_tables documents projects
  rcases upsert_cases (store.points projectId)
      ((pointsOf libraries projectId row.id indexed now).filter
        fun point => kept point.1) id with
    same | ⟨stored, member, isStored⟩
  · rw [same] at found
    obtain ⟨other, isOther, chunk, isChunk, isId, represents⟩ :=
      attributed id point found
    refine ⟨other, isOther, chunk, ?_, isId, represents⟩
    rw [(agree (argumentsOf projectId other.id)).storedChunks]
    exact isChunk
  · rw [isStored, Option.some.injEq] at found
    subst found
    obtain ⟨chunk, isChunk, isId, document, project, index, text,
      filename⟩ := mem_pointsOf (List.mem_filter.mp member).1
    rw [indexedFrom.chunks] at isChunk
    refine ⟨row, isRow, chunk, ?_, isId, document, project, index, text,
      filename⟩
    rw [(agree (argumentsOf projectId row.id)).storedChunks]
    exact isChunk

end Congruence

/-! ## The invariant -/

section Invariant

variable {Content Dense Sparse : Type}

/-- The documents of the snapshot, as those done and the rest. -/
def ReindexPc.work : ReindexPc Dense Sparse →
    Option (ProjectConfig × List StoredDocument × List StoredDocument)
  | .deleteExists config rest | .deleteCollection config rest
  | .ensureExists config rest | .ensureCreate config rest =>
      some (config, [], rest)
  | .index config done rest => some (config, done, rest)
  | .upsertExists config done row rest _
  | .upsertCreate config done row rest _
  | .upsert config done row rest _ => some (config, done, row :: rest)
  | .completed config done => some (config, done, [])
  | _ => none

/-- The collection has been deleted, and the reindex goes on. -/
def ReindexPc.cleared : ReindexPc Dense Sparse → Bool
  | .fetchProject | .fetchDocuments _ | .deleteExists _ _
  | .deleteCollection _ _ | .raised _ _ _ => false
  | _ => true

/-- The document that is written next, once it is indexed. -/
def ReindexPc.writing : ReindexPc Dense Sparse →
    Option (ProjectConfig × StoredDocument × Indexed Dense Sparse)
  | .upsertExists config _ row _ indexed
  | .upsertCreate config _ row _ indexed
  | .upsert config _ row _ indexed => some (config, row, indexed)
  | _ => none

/-- The run has raised, or is about to. -/
def Pc.failing : Pc Content Dense Sparse → Bool
  | .markFailedFetch _ | .markFailedCommit _ | .raised _ _ => true
  | _ => false

/-- A run works on the document of its job. -/
structure Engaged (libraries : Libraries Dense Sparse) (projectId : Uuid)
    (store : Store Dense Sparse) (run : IngestionRun Content Dense Sparse) :
    Prop where
  project : run.arguments.projectId = projectId
  job : ∃ job, store.jobs run.arguments.jobId = some job ∧
    job.projectId = projectId ∧
    job.documentId = some run.arguments.documentId
  known : Known libraries run.arguments store run.pc

/-- A complete job is one of a document that was there from the start, or a
run has stored its points. -/
def Accountable (projectId : Uuid) (first : List StoredDocument)
    (site : Site Content Dense Sparse) : Prop :=
  ∀ jobId job documentId, site.store.jobs jobId = some job →
    job.status = .complete → job.projectId = projectId →
    job.documentId = some documentId →
    (∃ row ∈ first, row.id = documentId ∧ row.projectId = projectId) ∨
      ∃ run ∈ site.runs, run.arguments.documentId = documentId ∧
        (run.pc.upserted = true ∨ run.pc.failing = true)

structure Snapshotted (projectId : Uuid) (first : List StoredDocument)
    (site : Site Content Dense Sparse) (config : ProjectConfig)
    (done rest : List StoredDocument) : Prop where
  config : site.store.projects projectId = some config
  covers : ∀ row ∈ first, row.projectId = projectId →
    row ∈ done ∨ row ∈ rest
  rows : ∀ row, row ∈ done ∨ row ∈ rest → row ∈ site.rows

/-- After the deletion: what is done is stored, and what the runs have stored
is stored or will be written again. -/
structure Restored (libraries : Libraries Dense Sparse) (projectId : Uuid)
    (site : Site Content Dense Sparse) (done rest : List StoredDocument) :
    Prop where
  done : ∀ row ∈ done, Present libraries (argumentsOf projectId row.id)
    site.store (site.store.points projectId)
  runs : ∀ run ∈ site.runs, run.pc.upserted = true →
    (∃ row ∈ rest, row.id = run.arguments.documentId) ∨
      Present libraries run.arguments site.store
        (site.store.points projectId)
  attributed : Attributed libraries projectId site.rows site.store

structure Sound (libraries : Libraries Dense Sparse) (projectId : Uuid)
    (first : List StoredDocument) (site : Site Content Dense Sparse) :
    Prop where
  registered : Registered projectId site
  known : ∀ row ∈ first, row ∈ site.rows
  engaged : ∀ run ∈ site.runs, Engaged libraries projectId site.store run
  accountable : Accountable projectId first site
  fetched : ∀ config, site.reindex = .fetchDocuments config →
    site.store.projects projectId = some config
  snapshotted : ∀ config done rest,
    site.reindex.work = some (config, done, rest) →
    Snapshotted projectId first site config done rest
  writing : ∀ config row indexed,
    site.reindex.writing = some (config, row, indexed) →
    indexDocument libraries row.document config = some (.ok indexed)
  stored : site.reindex.running = true → site.reindex.cleared = false →
    ∀ run ∈ site.runs, run.pc.upserted = true →
      (site.store.collections projectId).isSome = true
  restored : site.reindex.cleared = true → ∀ config done rest,
    site.reindex.work = some (config, done, rest) →
    Restored libraries projectId site done rest

end Invariant

section Frame

variable {Content Dense Sparse : Type} {libraries : Libraries Dense Sparse}
  {projectId : Uuid} {first : List StoredDocument}
  {site target : Site Content Dense Sparse}

/-- What has been stored stays stored by a step that leaves the points. -/
theorem Restored.of_same {done rest : List StoredDocument}
    (restored : Restored libraries projectId site done rest)
    (points : target.store.points projectId = site.store.points projectId)
    (agreeDone : ∀ row ∈ done,
      Agree (argumentsOf projectId row.id) site.store target.store)
    (rows : ∀ row ∈ site.rows, row ∈ target.rows ∧
      Agree (argumentsOf projectId row.id) site.store target.store)
    (runs : ∀ run ∈ target.runs, run.pc.upserted = true →
      run ∈ site.runs ∧ Agree run.arguments site.store target.store) :
    Restored libraries projectId target done rest := by
  have grows : ∀ id, (site.store.points projectId id).isSome = true →
      (target.store.points projectId id).isSome = true := by
    intro id present
    rw [points]
    exact present
  constructor
  case done =>
    intro row isDone
    exact (agreeDone row isDone).present grows (restored.done row isDone)
  case runs =>
    intro run isRun upserted
    obtain ⟨before, agree⟩ := runs run isRun upserted
    exact (restored.runs run before upserted).imp_right (agree.present grows)
  case attributed => exact restored.attributed.of_same points rows

/-- A step that neither moves the reindex nor touches the collection, and
after which the runs that had stored points are the same. -/
theorem Sound.extend (sound : Sound libraries projectId first site)
    (registered : Registered projectId target)
    (accountable : Accountable projectId first target)
    (engaged : ∀ run ∈ target.runs,
      Engaged libraries projectId target.store run)
    (reindex : target.reindex = site.reindex)
    (collections : target.store.collections = site.store.collections)
    (projects : target.store.projects = site.store.projects)
    (rows : ∀ row ∈ site.rows, row ∈ target.rows ∧
      target.store.documents row.id = site.store.documents row.id)
    (runs : ∀ run ∈ target.runs, run.pc.upserted = true →
      run ∈ site.runs) :
    Sound libraries projectId first target := by
  have samePoints : target.store.points projectId =
      site.store.points projectId := by
    rw [Store.points, collections, Store.points]
  have agree : ∀ row ∈ site.rows,
      Agree (argumentsOf projectId row.id) site.store target.store :=
    fun row isRow => ⟨(rows row isRow).2, by rw [projects]⟩
  have agreeRun : ∀ run ∈ site.runs,
      Agree run.arguments site.store target.store := by
    intro run isRun
    obtain ⟨job, isJob, ofProject, ofDocument⟩ := (sound.engaged run isRun).job
    obtain ⟨row, isRow, sameId, _⟩ :=
      sound.registered.jobs _ job _ isJob ofProject ofDocument
    refine ⟨?_, by rw [projects]⟩
    rw [← sameId]
    exact (rows row isRow).2
  constructor
  case registered => exact registered
  case known => exact fun row isFirst => (rows row (sound.known row isFirst)).1
  case engaged => exact engaged
  case accountable => exact accountable
  case fetched =>
    rw [reindex, projects]
    exact sound.fetched
  case snapshotted =>
    rw [reindex]
    intro config done rest work
    have snapshotted := sound.snapshotted config done rest work
    refine ⟨?_, snapshotted.covers, fun row isRow =>
      (rows row (snapshotted.rows row isRow)).1⟩
    rw [projects]
    exact snapshotted.config
  case writing =>
    rw [reindex]
    exact sound.writing
  case stored =>
    rw [reindex, collections]
    exact fun running notCleared run isRun upserted =>
      sound.stored running notCleared run (runs run isRun upserted) upserted
  case restored =>
    rw [reindex]
    intro cleared config done rest work
    have restored := sound.restored cleared config done rest work
    have snapshotted := sound.snapshotted config done rest work
    refine restored.of_same samePoints ?_ ?_ ?_
    · exact fun row isDone =>
        agree row (snapshotted.rows row (Or.inl isDone))
    · exact fun row isRow => ⟨(rows row isRow).1, agree row isRow⟩
    · intro run isRun upserted
      have before := runs run isRun upserted
      exact ⟨before, agreeRun run before⟩

theorem Engaged.exists_row {run : IngestionRun Content Dense Sparse}
    (registered : Registered projectId site)
    (engaged : Engaged libraries projectId site.store run) :
    ∃ row ∈ site.rows, row.id = run.arguments.documentId ∧
      row.projectId = projectId := by
  obtain ⟨job, isJob, ofProject, ofDocument⟩ := engaged.job
  exact registered.jobs _ job _ isJob ofProject ofDocument

theorem Sound.upload (sound : Sound libraries projectId first site)
    {row : StoredDocument} {jobId : Uuid} {now : Timestamp}
    (ofProject : row.projectId = projectId)
    (newRow : ∀ other ∈ site.rows, other.id ≠ row.id)
    (newJob : site.store.jobs jobId = none) :
    Sound libraries projectId first
      { site with
        store := site.store.upload row jobId now
        rows := site.rows ++ [row] } := by
  have documents : ∀ other ∈ site.rows,
      (site.store.upload row jobId now).documents other.id =
        site.store.documents other.id :=
    fun other isRow => Function.update_of_ne (newRow other isRow) _ _
  have jobs : ∀ {other : Uuid} {job : IngestionJob},
      (site.store.upload row jobId now).jobs other = some job →
      (other = jobId ∧ job = uploadedJob row jobId now) ∨
        (other ≠ jobId ∧ site.store.jobs other = some job) :=
    fun found => update_some_cases found
  refine sound.extend ?_ ?_ ?_ rfl rfl rfl ?_ fun run isRun _ => isRun
  · constructor
    · intro other isRow
      rcases List.mem_append.mp isRow with old | new
      · rw [documents other old]
        exact sound.registered.documents other old
      · rw [List.mem_singleton.mp new]
        exact Function.update_self row.id _ _
    · intro other job documentId found isProject ofDocument
      rcases jobs found with ⟨rfl, rfl⟩ | ⟨_, old⟩
      · cases ofDocument
        exact ⟨row, List.mem_append_right _ List.mem_cons_self, rfl,
          ofProject⟩
      · obtain ⟨oldRow, isRow, isOf⟩ :=
          sound.registered.jobs other job documentId old isProject ofDocument
        exact ⟨oldRow, List.mem_append_left _ isRow, isOf⟩
  · intro other job documentId found complete isProject ofDocument
    rcases jobs found with ⟨rfl, rfl⟩ | ⟨_, old⟩
    · cases complete
    · exact sound.accountable other job documentId old complete isProject
        ofDocument
  · intro run isRun
    have engaged := sound.engaged run isRun
    obtain ⟨job, isJob, isOf⟩ := engaged.job
    obtain ⟨oldRow, isRow, sameId, _⟩ := engaged.exists_row sound.registered
    have different : run.arguments.jobId ≠ jobId := by
      intro same
      rw [same, newJob] at isJob
      cases isJob
    refine ⟨engaged.project, ⟨job, ?_, isOf⟩, ?_⟩
    · rw [← isJob]
      exact Function.update_of_ne different _ _
    · have agree : Agree run.arguments site.store
          (site.store.upload row jobId now) := by
        refine ⟨?_, rfl⟩
        rw [← sameId]
        exact documents oldRow isRow
      exact agree.known engaged.known
  · exact fun other isRow => ⟨List.mem_append_left _ isRow, documents other isRow⟩

theorem Sound.start (sound : Sound libraries projectId first site)
    {jobId documentId : Uuid} {job : IngestionJob}
    (isJob : site.store.jobs jobId = some job)
    (ofProject : job.projectId = projectId)
    (ofDocument : job.documentId = some documentId) :
    Sound libraries projectId first
      { site with
        runs := site.runs ++
          [⟨⟨jobId, documentId, projectId⟩, .fetchJob⟩] } := by
  have runCases : ∀ {run : IngestionRun Content Dense Sparse},
      run ∈ site.runs ++ [⟨⟨jobId, documentId, projectId⟩, .fetchJob⟩] →
      run ∈ site.runs ∨
        run = ⟨⟨jobId, documentId, projectId⟩, .fetchJob⟩ := by
    intro run isRun
    exact (List.mem_append.mp isRun).imp_right List.mem_singleton.mp
  refine sound.extend ⟨sound.registered.documents, sound.registered.jobs⟩
    ?_ ?_ rfl rfl rfl (fun row isRow => ⟨isRow, rfl⟩) ?_
  · intro other found isOther same complete isProject ofOther
    rcases sound.accountable other found isOther same complete isProject
      ofOther with old | ⟨run, isRun, isOf⟩
    · exact Or.inl old
    · exact Or.inr ⟨run, List.mem_append_left _ isRun, isOf⟩
  · intro run isRun
    rcases runCases isRun with old | rfl
    · exact sound.engaged run old
    · exact ⟨rfl, ⟨job, isJob, ofProject, ofDocument⟩, trivial⟩
  · intro run isRun upserted
    rcases runCases isRun with old | rfl
    · exact old
    · cases upserted

theorem Sound.others (sound : Sound libraries projectId first site)
    (tables : Cag.Tables) (updates : Uuid → Bool) :
    Sound libraries projectId first
      { site with
        store := { site.store with
          tables := tables, updates := updates } } := by
  refine sound.extend ⟨sound.registered.documents, sound.registered.jobs⟩
    sound.accountable ?_ rfl rfl rfl (fun row isRow => ⟨isRow, rfl⟩)
    fun run isRun _ => isRun
  intro run isRun
  have engaged := sound.engaged run isRun
  exact ⟨engaged.project, engaged.job, Agree.known ⟨rfl, rfl⟩ engaged.known⟩

end Frame

/-! ## A statement of an ingestion -/

section Ingestion

variable {Content Dense Sparse : Type} {libraries : Libraries Dense Sparse}
  {schema : Schema Content} {arguments : Arguments}
  {store target : Store Dense Sparse} {choice : Choice}
  {pc next : Pc Content Dense Sparse}

/-- What a statement does to the jobs: it leaves them, or changes the status
of its own, and that to complete only once its points are stored. -/
theorem advance_jobs
    (taken : advance libraries schema arguments store choice pc =
      some (target, next)) :
    target.jobs = store.jobs ∨
      ∃ change : IngestionJob → IngestionJob,
        target.jobs = Function.update store.jobs arguments.jobId
          ((store.jobs arguments.jobId).map change) ∧
        ∀ job, (change job).documentId = job.documentId ∧
          (change job).projectId = job.projectId ∧
          ((change job).status = .complete →
            next.upserted = true ∨ next.failing = true) := by
  rcases advance_cases taken with
    ⟨stage, fault, _, rfl, rfl⟩ | ⟨_, executes⟩ | handles
  · cases pc with
    | commitRunning =>
        rw [afterFault]
        split
        · exact Or.inr ⟨setRunning, rfl, fun _ =>
            ⟨rfl, rfl, fun _ => Or.inr rfl⟩⟩
        · exact Or.inl rfl
    | commitComplete =>
        rw [afterFault]
        split
        · exact Or.inr ⟨setComplete choice.now, rfl, fun _ =>
            ⟨rfl, rfl, fun _ => Or.inr rfl⟩⟩
        · exact Or.inl rfl
    | commitSummary config row =>
        rw [afterFault]
        split <;> exact Or.inl rfl
    | _ => exact Or.inl rfl
  · cases executes with
    | commitRunning =>
        refine Or.inr ⟨setRunning, rfl, fun _ => ⟨rfl, rfl, fun complete => ?_⟩⟩
        cases complete
    | commitComplete =>
        exact Or.inr ⟨setComplete choice.now, rfl, fun _ =>
          ⟨rfl, rfl, fun _ => Or.inl rfl⟩⟩
    | _ => exact Or.inl rfl
  · cases handles with
    | @commitLanded failure | @committed failure =>
        exact Or.inr ⟨failure.setFailed, rfl, fun _ =>
          ⟨rfl, rfl, fun _ => Or.inr rfl⟩⟩
    | _ => exact Or.inl rfl

theorem advance_upserted
    (taken : advance libraries schema arguments store choice pc =
      some (target, next))
    (upserted : next.upserted = true) :
    pc.upserted = true ∨ ∃ config indexed, pc = .upsert config indexed ∧
      (store.collections arguments.projectId).isSome = true ∧
      target = store.putPoints arguments.projectId
        (pointsOf libraries arguments.projectId arguments.documentId indexed
          choice.now) := by
  rcases advance_cases taken with
    ⟨stage, fault, _, _, rfl⟩ | ⟨_, executes⟩ | handles
  · cases upserted
  · exact executes.upserted upserted
  · rw [handles.not_upserted] at upserted
    cases upserted

/-- A run that has stored its points has still stored them after its next
statement, or it fails. -/
theorem upserted_or_failing
    (taken : advance libraries schema arguments store choice pc =
      some (target, next))
    (before : pc.upserted = true ∨ pc.failing = true) :
    next.upserted = true ∨ next.failing = true := by
  rcases advance_cases taken with
    ⟨stage, fault, _, _, rfl⟩ | ⟨_, executes⟩ | handles
  · exact Or.inr rfl
  · cases executes with
    | fetchJob | staysRunning | commitRunning | fetchDocument | fetchProject
    | index | collectionExists | collectionMissing | createCollection =>
        rcases before with impossible | impossible <;> cases impossible
    | _ => exact Or.inl rfl
  · cases handles <;> exact Or.inr rfl

/-- The jobs of a store after a statement, one by one. -/
theorem job_of_advance
    (taken : advance libraries schema arguments store choice pc =
      some (target, next))
    {jobId : Uuid} {job : IngestionJob}
    (found : target.jobs jobId = some job) :
    ∃ old, store.jobs jobId = some old ∧
      job.documentId = old.documentId ∧ job.projectId = old.projectId ∧
      (job.status = .complete →
        old = job ∨ (jobId = arguments.jobId ∧
          (next.upserted = true ∨ next.failing = true))) := by
  rcases advance_jobs taken with same | ⟨change, changed, keeps⟩
  · rw [same] at found
    exact ⟨job, found, rfl, rfl, fun _ => Or.inl rfl⟩
  · rw [changed] at found
    by_cases own : jobId = arguments.jobId
    · subst own
      rw [Function.update_self] at found
      obtain ⟨old, isOld, rfl⟩ := Option.map_eq_some_iff.mp found
      obtain ⟨sameDocument, sameProject, complete⟩ := keeps old
      exact ⟨old, isOld, sameDocument, sameProject,
        fun isComplete => Or.inr ⟨rfl, complete isComplete⟩⟩
    · rw [Function.update_of_ne own] at found
      exact ⟨job, found, rfl, rfl, fun _ => Or.inl rfl⟩

/-- A job that is there stays, with its document. -/
theorem job_advanced
    (taken : advance libraries schema arguments store choice pc =
      some (target, next))
    {jobId : Uuid} {old : IngestionJob}
    (found : store.jobs jobId = some old) :
    ∃ job, target.jobs jobId = some job ∧
      job.documentId = old.documentId ∧ job.projectId = old.projectId := by
  rcases advance_jobs taken with same | ⟨change, changed, keeps⟩
  · rw [same]
    exact ⟨old, found, rfl, rfl⟩
  · rw [changed]
    by_cases own : jobId = arguments.jobId
    · subst own
      rw [Function.update_self, found]
      exact ⟨change old, rfl, (keeps old).1, (keeps old).2.1⟩
    · rw [Function.update_of_ne own]
      exact ⟨old, found, rfl, rfl⟩

end Ingestion

section Advance

variable {Content Dense Sparse : Type} {libraries : Libraries Dense Sparse}
  {schema : Schema Content} {projectId : Uuid}
  {first : List StoredDocument} {site : Site Content Dense Sparse}
  {index : Nat} {choice : Choice} {run : IngestionRun Content Dense Sparse}
  {store : Store Dense Sparse} {next : Pc Content Dense Sparse}

/-- The site after a statement of one of its runs. -/
def Site.advanced (site : Site Content Dense Sparse) (index : Nat)
    (run : IngestionRun Content Dense Sparse)
    (store : Store Dense Sparse) (next : Pc Content Dense Sparse) :
    Site Content Dense Sparse :=
  { site with
    store := store
    runs := site.runs.set index { run with pc := next } }

/-- A run of the site is the one that moved, or was there before. -/
theorem mem_advanced {other : IngestionRun Content Dense Sparse}
    (member : other ∈ (site.advanced index run store next).runs) :
    other = { run with pc := next } ∨ other ∈ site.runs :=
  (List.mem_or_eq_of_mem_set member).symm

/-- A run that was there has moved, or is still there. -/
theorem eq_or_mem_advanced (isRun : site.runs[index]? = some run)
    {other : IngestionRun Content Dense Sparse}
    (member : other ∈ site.runs) :
    other = run ∨ other ∈ (site.advanced index run store next).runs := by
  obtain ⟨position, isOther⟩ := List.mem_iff_getElem?.mp member
  by_cases same : index = position
  · subst same
    rw [isRun, Option.some.injEq] at isOther
    exact Or.inl isOther.symm
  · refine Or.inr (List.mem_iff_getElem?.mpr ⟨position, ?_⟩)
    rw [Site.advanced, List.getElem?_set_ne same]
    exact isOther

theorem Sound.registered_advanced
    (sound : Sound libraries projectId first site)
    (taken : advance libraries schema run.arguments site.store choice run.pc =
      some (store, next)) :
    Registered projectId (site.advanced index run store next) := by
  constructor
  · intro row isRow
    have documents : store.documents = site.store.documents :=
      (advance_effect taken).documents
    have found := sound.registered.documents row isRow
    rw [← documents] at found
    exact found
  · intro jobId job documentId found ofProject ofDocument
    obtain ⟨old, isOld, sameDocument, sameProject, _⟩ :=
      job_of_advance taken found
    exact sound.registered.jobs jobId old documentId isOld
      (sameProject.symm.trans ofProject)
      (sameDocument.symm.trans ofDocument)

theorem Sound.engaged_advanced
    (sound : Sound libraries projectId first site)
    (isRun : run ∈ site.runs)
    (taken : advance libraries schema run.arguments site.store choice run.pc =
      some (store, next)) :
    ∀ other ∈ (site.advanced index run store next).runs,
      Engaged libraries projectId store other := by
  have effect := advance_effect taken
  have documents : store.documents = site.store.documents := effect.documents
  have projects : store.projects = site.store.projects := effect.projects
  have keptJob : ∀ arguments : Arguments,
      (∃ job, site.store.jobs arguments.jobId = some job ∧
        job.projectId = projectId ∧
        job.documentId = some arguments.documentId) →
      ∃ job, store.jobs arguments.jobId = some job ∧
        job.projectId = projectId ∧
        job.documentId = some arguments.documentId := by
    rintro arguments ⟨old, isOld, ofProject, ofDocument⟩
    obtain ⟨job, isJob, sameDocument, sameProject⟩ :=
      job_advanced taken isOld
    exact ⟨job, isJob, sameProject.trans ofProject,
      sameDocument.trans ofDocument⟩
  have agree := agree_of_tables documents projects
  intro other isOther
  rcases mem_advanced isOther with rfl | old
  · have engaged := sound.engaged run isRun
    have known := advance_known taken rfl rfl engaged.known
    exact ⟨engaged.project, keptJob _ engaged.job, (agree _).known known⟩
  · have engaged := sound.engaged other old
    exact ⟨engaged.project, keptJob _ engaged.job,
      (agree _).known engaged.known⟩

theorem Sound.accountable_advanced
    (sound : Sound libraries projectId first site)
    (isRun : site.runs[index]? = some run)
    (taken : advance libraries schema run.arguments site.store choice run.pc =
      some (store, next)) :
    Accountable projectId first (site.advanced index run store next) := by
  have moved : { run with pc := next } ∈
      (site.advanced index run store next).runs :=
    List.mem_set (List.getElem?_eq_some_iff.mp isRun).1 _
  intro jobId job documentId found complete ofProject ofDocument
  obtain ⟨old, isOld, sameDocument, sameProject, cause⟩ :=
    job_of_advance taken found
  rcases cause complete with rfl | ⟨own, stored⟩
  · rcases sound.accountable jobId old documentId isOld complete ofProject
      ofDocument with isFirst | ⟨other, isOther, ofOther, before⟩
    · exact Or.inl isFirst
    · rcases eq_or_mem_advanced isRun isOther with rfl | still
      · exact Or.inr ⟨_, moved, ofOther, upserted_or_failing taken before⟩
      · exact Or.inr ⟨other, still, ofOther, before⟩
  · -- the run has completed the job, which is one of its document
    subst own
    obtain ⟨engagedJob, isJob, _, ofRun⟩ :=
      (sound.engaged run (List.mem_of_getElem? isRun)).job
    rw [isOld, Option.some.injEq] at isJob
    subst isJob
    rw [sameDocument, ofRun, Option.some.injEq] at ofDocument
    exact Or.inr ⟨_, moved, ofDocument, stored⟩

theorem Attributed.advanced {rows : List StoredDocument}
    {row : StoredDocument}
    (attributed : Attributed libraries projectId rows site.store)
    (isRow : row ∈ rows) (ofRow : row.id = run.arguments.documentId)
    (engaged : Engaged libraries projectId site.store run)
    (effect : Effect libraries run.arguments site.store run.pc store) :
    Attributed libraries projectId rows store := by
  have ofProject := engaged.project
  have unwritten (same : store.points run.arguments.projectId =
      site.store.points run.arguments.projectId) :
      Attributed libraries projectId rows store := by
    rw [ofProject] at same
    exact attributed.of_same same fun other isOther =>
      ⟨isOther, agree_of_tables effect.documents effect.projects _⟩
  by_cases isUpsert : run.pc.stage = some .upsert
  · obtain ⟨config, indexed, isPc⟩ := Pc.eq_upsert isUpsert
    have known := engaged.known
    rw [isPc] at effect known
    cases effect with
    | none => exact unwritten rfl
    | job change => exact unwritten rfl
    | put now kept =>
        cases found : site.store.collections run.arguments.projectId with
        | none => exact unwritten (putPoints_of_none _ found)
        | some collection =>
            have written := putPoints_points
              ((pointsOf libraries run.arguments.projectId
                run.arguments.documentId indexed now).filter
                  fun point => kept point.1)
              (by rw [found]; rfl)
            have indexedFrom : IndexedFrom libraries
                (argumentsOf projectId row.id) site.store indexed := by
              unfold IndexedFrom argumentsOf
              rw [ofRow, ← ofProject]
              exact known
            rw [ofProject, ← ofRow] at written ⊢
            exact attributed.upsert isRow indexedFrom rfl rfl written
  · exact unwritten (effect.points isUpsert)

theorem Sound.restored_advanced
    (sound : Sound libraries projectId first site)
    (isRun : run ∈ site.runs)
    (taken : advance libraries schema run.arguments site.store choice run.pc =
      some (store, next))
    {done rest : List StoredDocument}
    (restored : Restored libraries projectId site done rest) :
    Restored libraries projectId (site.advanced index run store next) done
      rest := by
  have effect := advance_effect taken
  have engaged := sound.engaged run isRun
  have agree := agree_of_tables effect.documents effect.projects
  have grows : ∀ id, (site.store.points projectId id).isSome = true →
      (store.points projectId id).isSome = true := by
    rw [← engaged.project]
    exact fun id => effect.points_isSome
  obtain ⟨row, isRow, ofRow, _⟩ := engaged.exists_row sound.registered
  refine ⟨?_, ?_, ?_⟩
  · exact fun other isDone =>
      (agree _).present grows (restored.done other isDone)
  · intro other isOther upserted
    rcases mem_advanced isOther with rfl | old
    · rcases advance_upserted taken upserted with
        before | ⟨config, indexed, isPc, present, rfl⟩
      · exact (restored.runs run isRun before).imp_right
          ((agree _).present grows)
      · have known := engaged.known
        rw [isPc] at known
        refine Or.inr ((agree run.arguments).present
          (fun _ isSome => isSome) ?_)
        have written := putPoints_points
          (pointsOf libraries run.arguments.projectId
            run.arguments.documentId indexed choice.now) present
        rw [← engaged.project]
        exact written ▸ present_upsert known _ _
    · exact (restored.runs other old upserted).imp_right
        ((agree _).present grows)
  · exact restored.attributed.advanced isRow ofRow engaged effect

theorem Sound.advanced (sound : Sound libraries projectId first site)
    (isRun : site.runs[index]? = some run)
    (taken : advance libraries schema run.arguments site.store choice run.pc =
      some (store, next)) :
    Sound libraries projectId first (site.advanced index run store next) := by
  have effect := advance_effect taken
  have member := List.mem_of_getElem? isRun
  have engaged := sound.engaged run member
  have projects : store.projects = site.store.projects := effect.projects
  constructor
  case registered => exact sound.registered_advanced taken
  case known => exact sound.known
  case engaged => exact sound.engaged_advanced member taken
  case accountable => exact sound.accountable_advanced isRun taken
  case fetched =>
    intro config isFetch
    have found := sound.fetched config isFetch
    rw [← projects] at found
    exact found
  case snapshotted =>
    intro config done rest work
    have snapshotted := sound.snapshotted config done rest work
    refine ⟨?_, snapshotted.covers, snapshotted.rows⟩
    have found := snapshotted.config
    rw [← projects] at found
    exact found
  case writing => exact sound.writing
  case stored =>
    intro running notCleared other isOther upserted
    have kept : (site.store.collections projectId).isSome = true →
        (store.collections projectId).isSome = true := by
      rw [← engaged.project]
      exact effect.collections_isSome
    rcases mem_advanced isOther with rfl | old
    · rcases advance_upserted taken upserted with
        before | ⟨config, indexed, _, present, rfl⟩
      · exact kept (sound.stored running notCleared run member before)
      · rw [engaged.project] at present
        exact kept present
    · exact kept (sound.stored running notCleared other old upserted)
  case restored =>
    intro cleared config done rest work
    exact sound.restored_advanced member taken
      (sound.restored cleared config done rest work)

end Advance

/-! ## A statement of the reindex -/

section Reindex

variable {Content Dense Sparse : Type} {libraries : Libraries Dense Sparse}
  {projectId : Uuid} {rows first : List StoredDocument} {now : Timestamp}
  {store target : Store Dense Sparse} {choice : ReindexChoice}
  {pc next : ReindexPc Dense Sparse} {site : Site Content Dense Sparse}

/-- A reindex changes nothing but collections. -/
def SameTables (store target : Store Dense Sparse) : Prop :=
  target.jobs = store.jobs ∧ target.documents = store.documents ∧
    target.projects = store.projects

theorem Reindexes.sameTables
    (reindexes :
      Reindexes libraries projectId rows store now pc target next) :
    SameTables store target := by
  cases reindexes <;> exact ⟨rfl, rfl, rfl⟩

theorem sameTables_afterFault (fault : Fault) :
    SameTables store
      (reindexAfterFault libraries projectId store fault now pc) := by
  cases pc with
  | deleteCollection config rest =>
      rw [reindexAfterFault]
      split <;> exact ⟨rfl, rfl, rfl⟩
  | _ => exact ⟨rfl, rfl, rfl⟩

theorem SameTables.agree (same : SameTables store target)
    (arguments : Arguments) : Agree arguments store target :=
  agree_of_tables same.2.1 same.2.2 arguments

/-- The work of a reindex stays the same but for the snapshot and for the
document that is written. -/
theorem Reindexes.work
    (reindexes :
      Reindexes libraries projectId rows store now pc target next) :
    next.work = pc.work ∨
      (∃ config documents,
        pc = .fetchDocuments config ∧
        documents.Perm (rows.filter fun row => row.projectId = projectId) ∧
        next.work = some (config, [], documents)) ∨
      ∃ config done row rest indexed,
        pc = .upsert config done row rest indexed ∧
        (store.collections projectId).isSome = true ∧
        target = store.putPoints projectId
          (pointsOf libraries projectId row.id indexed now) ∧
        next.work = some (config, done ++ [row], rest) := by
  cases reindexes with
  | fetchDocuments isSnapshot =>
      exact Or.inr (Or.inl ⟨_, _, rfl, isSnapshot, rfl⟩)
  | upsert present _ =>
      exact Or.inr (Or.inr ⟨_, _, _, _, _, rfl, present, rfl, rfl⟩)
  | _ => exact Or.inl rfl

/-- The site after a statement of the reindex. -/
def Site.reindexed (site : Site Content Dense Sparse)
    (store : Store Dense Sparse) (next : ReindexPc Dense Sparse) :
    Site Content Dense Sparse :=
  { site with store := store, reindex := next }

theorem Restored.of_points {done rest : List StoredDocument}
    (restored : Restored libraries projectId site done rest)
    (same : SameTables site.store store)
    (points : store.points projectId = site.store.points projectId) :
    Restored libraries projectId (site.reindexed store next) done rest := by
  refine restored.of_same points ?_ ?_ ?_
  · exact fun row _ => same.agree _
  · exact fun row isRow => ⟨isRow, same.agree _⟩
  · exact fun run isRun _ => ⟨isRun, same.agree _⟩

/-- Right after the deletion nothing is stored, and every run that had stored
its points is one of a document that will be written again. -/
theorem restored_of_empty {rest : List StoredDocument}
    (points : store.points projectId = fun _ => none)
    (covered : ∀ run ∈ site.runs, run.pc.upserted = true →
      ∃ row ∈ rest, row.id = run.arguments.documentId) :
    Restored libraries projectId (site.reindexed store next) [] rest := by
  refine ⟨?_, ?_, ?_⟩
  · intro row isDone
    cases isDone
  · exact fun run isRun upserted => Or.inl (covered run isRun upserted)
  · intro id point found
    rw [show (site.reindexed store next).store.points projectId =
      fun _ => none from points] at found
    cases found

theorem Present.of_same {arguments other : Arguments}
    {points : Collection Dense Sparse}
    (sameDocument : arguments.documentId = other.documentId)
    (sameProject : arguments.projectId = other.projectId)
    (present : Present libraries arguments store points) :
    Present libraries other store points := by
  unfold Present IndexedFrom storedChunks at present ⊢
  rw [← sameDocument, ← sameProject]
  exact present

/-- A document of the snapshot is written. -/
theorem Sound.restored_upsert
    (sound : Sound libraries projectId first site)
    {config : ProjectConfig} {done rest : List StoredDocument}
    {row : StoredDocument} {indexed : Indexed Dense Sparse}
    (isPc : site.reindex = .upsert config done row rest indexed)
    (present : (site.store.collections projectId).isSome = true) :
    Restored libraries projectId
      (site.reindexed
        (site.store.putPoints projectId
          (pointsOf libraries projectId row.id indexed now)) next)
      (done ++ [row]) rest := by
  have work : site.reindex.work = some (config, done, row :: rest) := by
    rw [isPc]
    rfl
  have restored := sound.restored (by rw [isPc]; rfl) _ _ _ work
  have snapshotted := sound.snapshotted _ _ _ work
  have isRow := snapshotted.rows row (Or.inr List.mem_cons_self)
  have written := putPoints_points
    (pointsOf libraries projectId row.id indexed now) present
  have same : SameTables site.store (site.store.putPoints projectId
      (pointsOf libraries projectId row.id indexed now)) := ⟨rfl, rfl, rfl⟩
  have indexedFrom : IndexedFrom libraries (argumentsOf projectId row.id)
      site.store indexed :=
    ⟨row.document, config, sound.registered.documents row isRow,
      snapshotted.config, sound.writing config row indexed (by
        rw [isPc]
        rfl)⟩
  have grows : ∀ id, (site.store.points projectId id).isSome = true →
      ((site.store.putPoints projectId
        (pointsOf libraries projectId row.id indexed now)).points
          projectId id).isSome = true := by
    intro id isThere
    rw [written]
    exact upsert_isSome isThere _
  have rowPresent : Present libraries (argumentsOf projectId row.id)
      (site.store.putPoints projectId
        (pointsOf libraries projectId row.id indexed now))
      ((site.store.putPoints projectId
        (pointsOf libraries projectId row.id indexed now)).points
          projectId) := by
    rw [written]
    exact (same.agree _).present (fun _ isSome => isSome)
      (present_upsert indexedFrom _ _)
  refine ⟨?_, ?_, ?_⟩
  · intro other isDone
    rcases List.mem_append.mp isDone with before | last
    · exact (same.agree _).present grows (restored.done other before)
    · rw [List.mem_singleton.mp last]
      exact rowPresent
  · intro run isRun upserted
    rcases restored.runs run isRun upserted with
      ⟨other, isRest, sameId⟩ | before
    · rcases List.mem_cons.mp isRest with rfl | later
      · exact Or.inr (rowPresent.of_same sameId
          (sound.engaged run isRun).project.symm)
      · exact Or.inl ⟨other, later, sameId⟩
    · exact Or.inr ((same.agree _).present grows before)
  · refine @Attributed.upsert _ _ libraries projectId site.store _ indexed
      site.rows row now (fun _ => true) restored.attributed isRow indexedFrom
      rfl rfl ?_
    rw [List.filter_true]
    exact written

/-- The conditions that only concern the tables. -/
theorem Sound.tables_reindexed
    (sound : Sound libraries projectId first site)
    (same : SameTables site.store store) :
    Registered projectId (site.reindexed store next) ∧
      (∀ run ∈ site.runs, Engaged libraries projectId store run) ∧
      Accountable projectId first (site.reindexed store next) := by
  refine ⟨⟨?_, ?_⟩, ?_, ?_⟩
  · intro row isRow
    have found := sound.registered.documents row isRow
    rw [← same.2.1] at found
    exact found
  · intro jobId job documentId found
    rw [show (site.reindexed store next).store.jobs = site.store.jobs from
      same.1] at found
    exact sound.registered.jobs jobId job documentId found
  · intro run isRun
    have engaged := sound.engaged run isRun
    refine ⟨engaged.project, ?_, (same.agree _).known engaged.known⟩
    rw [same.1]
    exact engaged.job
  · intro jobId job documentId found
    rw [show (site.reindexed store next).store.jobs = site.store.jobs from
      same.1] at found
    exact sound.accountable jobId job documentId found

theorem Sound.raised (sound : Sound libraries projectId first site)
    (same : SameTables site.store store) {failing : ReindexPc Dense Sparse}
    {fault : Fault} {message : String} :
    Sound libraries projectId first
      (site.reindexed store (.raised failing fault message)) := by
  obtain ⟨registered, engaged, accountable⟩ := sound.tables_reindexed same
  constructor
  case registered => exact registered
  case known => exact sound.known
  case engaged => exact engaged
  case accountable => exact accountable
  case fetched =>
    intro config isFetch
    cases isFetch
  case snapshotted =>
    intro config done rest work
    cases work
  case writing =>
    intro config row indexed writing
    cases writing
  case stored =>
    intro running
    cases running
  case restored =>
    intro cleared
    cases cleared

theorem Sound.snapshotted_reindexed
    (sound : Sound libraries projectId first site)
    (reindexes : Reindexes libraries projectId site.rows site.store now
      site.reindex store next)
    {config : ProjectConfig} {done rest : List StoredDocument}
    (work : next.work = some (config, done, rest)) :
    Snapshotted projectId first (site.reindexed store next) config done
      rest := by
  have projects : store.projects = site.store.projects :=
    reindexes.sameTables.2.2
  have located : ∀ {current : ProjectConfig},
      site.store.projects projectId = some current →
      (site.reindexed store next).store.projects projectId =
        some current := by
    intro current found
    rw [← projects] at found
    exact found
  rcases reindexes.work with
    same | ⟨current, documents, isPc, isSnapshot, isWork⟩ |
      ⟨current, before, row, later, indexed, isPc, _, _, isWork⟩
  · rw [same] at work
    have snapshotted := sound.snapshotted _ _ _ work
    exact ⟨located snapshotted.config, snapshotted.covers, snapshotted.rows⟩
  · rw [isWork] at work
    cases work
    refine ⟨located (sound.fetched config isPc), ?_, ?_⟩
    · intro row isFirst ofProject
      refine Or.inr (isSnapshot.mem_iff.mpr (List.mem_filter.mpr
        ⟨sound.known row isFirst, decide_eq_true ofProject⟩))
    · rintro row (isDone | isRest)
      · cases isDone
      · exact (List.mem_filter.mp (isSnapshot.mem_iff.mp isRest)).1
  · rw [isWork] at work
    cases work
    have snapshotted := sound.snapshotted config before (row :: rest) (by
      rw [isPc]
      rfl)
    have moved : ∀ other, (other ∈ before ++ [row] ∨ other ∈ rest) ↔
        (other ∈ before ∨ other ∈ row :: rest) := by
      intro other
      simp only [List.mem_append, List.mem_cons, List.not_mem_nil, or_false,
        or_assoc]
    refine ⟨located snapshotted.config, ?_, ?_⟩
    · intro other isFirst ofProject
      exact (moved other).mpr (snapshotted.covers other isFirst ofProject)
    · intro other isWork
      exact snapshotted.rows other ((moved other).mp isWork)

theorem Sound.restored_reindexed
    (sound : Sound libraries projectId first site)
    (reindexes : Reindexes libraries projectId site.rows site.store now
      site.reindex store next)
    (covered : ∀ config rest, site.reindex = .deleteCollection config rest →
      ∀ run ∈ site.runs, run.pc.upserted = true →
        ∃ row ∈ rest, row.id = run.arguments.documentId)
    (cleared : next.cleared = true)
    {config : ProjectConfig} {done rest : List StoredDocument}
    (work : next.work = some (config, done, rest)) :
    Restored libraries projectId (site.reindexed store next) done rest := by
  have untouched : ∀ {current : Store Dense Sparse},
      site.reindex.cleared = true →
      site.reindex.work = some (config, done, rest) →
      SameTables site.store current →
      current.points projectId = site.store.points projectId →
      Restored libraries projectId (site.reindexed current next) done
        rest :=
    fun wasCleared before same points =>
      (sound.restored wasCleared _ _ _ before).of_points same points
  generalize isPc : site.reindex = pc at reindexes
  cases reindexes with
  | fetchProject | fetchDocuments | deleteExists => cases cleared
  | deleteMissing absent =>
      cases work
      refine restored_of_empty (by simp [Store.points, absent]) ?_
      intro run isRun upserted
      have present := sound.stored (by rw [isPc]; rfl) (by rw [isPc]; rfl) run
        isRun upserted
      rw [absent] at present
      cases present
  | deleteCollection =>
      cases work
      exact restored_of_empty (points_putCollection projectId none)
        (covered _ _ isPc)
  | ensureExists | ensureMissing | complete | index | upsertExists
  | upsertMissing =>
      exact untouched (by rw [isPc]; rfl) (by rw [isPc]; exact work)
        ⟨rfl, rfl, rfl⟩ rfl
  | ensureCreate absent | upsertCreate absent =>
      refine untouched (by rw [isPc]; rfl) (by rw [isPc]; exact work)
        ⟨rfl, rfl, rfl⟩ ?_
      rw [points_putCollection]
      simp [Store.points, absent]
  | upsert present _ =>
      cases work
      exact sound.restored_upsert isPc present

theorem Sound.reindexed (sound : Sound libraries projectId first site)
    (reindexes : Reindexes libraries projectId site.rows site.store now
      site.reindex store next)
    (covered : ∀ config rest, site.reindex = .deleteCollection config rest →
      ∀ run ∈ site.runs, run.pc.upserted = true →
        ∃ row ∈ rest, row.id = run.arguments.documentId) :
    Sound libraries projectId first (site.reindexed store next) := by
  have same := reindexes.sameTables
  obtain ⟨registered, engaged, accountable⟩ := sound.tables_reindexed same
  constructor
  case registered => exact registered
  case known => exact sound.known
  case engaged => exact engaged
  case accountable => exact accountable
  case fetched =>
    intro config isFetch
    have isNext : next = .fetchDocuments config := isFetch
    subst isNext
    generalize site.reindex = pc at reindexes
    cases reindexes with
    | fetchProject found => exact found
  case snapshotted =>
    intro config done rest work
    exact sound.snapshotted_reindexed reindexes work
  case writing =>
    intro config row indexed writing
    have isWriting : next.writing = some (config, row, indexed) := writing
    generalize isPc : site.reindex = pc at reindexes
    cases reindexes with
    | index indexedAs =>
        cases isWriting
        exact indexedAs
    | upsertExists | upsertMissing | upsertCreate =>
        refine sound.writing config row indexed ?_
        rw [isPc]
        exact isWriting
    | _ => cases isWriting
  case stored =>
    intro running notCleared run isRun upserted
    have isRunning : next.running = true := running
    have isNotCleared : next.cleared = false := notCleared
    generalize isPc : site.reindex = pc at reindexes
    cases reindexes with
    | fetchProject | fetchDocuments | deleteExists =>
        exact sound.stored (by rw [isPc]; rfl) (by rw [isPc]; rfl) run isRun
          upserted
    | _ => cases isNotCleared
  case restored =>
    intro cleared config done rest work
    exact sound.restored_reindexed reindexes covered cleared work

end Reindex

/-! ## The law -/

section Proof

variable {Content Dense Sparse : Type} {libraries : Libraries Dense Sparse}
  {schema : Schema Content} {projectId : Uuid}
  {first : List StoredDocument} {site target start : Site Content Dense Sparse}

theorem Sound.step (sound : Sound libraries projectId first site)
    {label : SiteLabel}
    (taken : siteStep libraries schema projectId site label = some target)
    (covers : coversRuns site label = true) :
    Sound libraries projectId first target := by
  cases label with
  | upload row jobId now =>
      obtain ⟨⟨ofProject, newRow, newJob⟩, same⟩ :=
        Option.ite_none_right_eq_some.mp taken
      cases same
      exact sound.upload ofProject newRow (Option.isNone_iff_eq_none.mp newJob)
  | start jobId =>
      simp only [siteStep] at taken
      split at taken
      · cases taken
      · rename_i job isJob
        split at taken
        · cases taken
        · rename_i documentId ofDocument
          obtain ⟨ofProject, same⟩ := Option.ite_none_right_eq_some.mp taken
          cases same
          exact sound.start isJob ofProject ofDocument
  | advance index choice =>
      obtain ⟨run, isRun, moved⟩ := Option.bind_eq_some_iff.mp taken
      obtain ⟨⟨store, next⟩, advanced, same⟩ :=
        Option.map_eq_some_iff.mp moved
      cases same
      exact sound.advanced isRun advanced
  | reindex choice =>
      obtain ⟨⟨store, next⟩, advanced, same⟩ :=
        Option.map_eq_some_iff.mp taken
      cases same
      rcases reindexAdvance_cases advanced with
        ⟨fault, _, rfl, rfl⟩ | ⟨noFault, reindexes⟩
      · exact sound.raised (sameTables_afterFault fault)
      · refine sound.reindexed reindexes ?_
        intro config rest isPc run isRun upserted
        have all : ∀ run ∈ site.runs, (!run.pc.upserted ||
            rest.any fun row => row.id = run.arguments.documentId) = true := by
          simpa [coversRuns, isPc, noFault] using covers
        have covered := all run isRun
        rw [upserted, Bool.not_true, Bool.false_or, List.any_eq_true]
          at covered
        obtain ⟨row, isRow, sameId⟩ := covered
        exact ⟨row, isRow, of_decide_eq_true sameId⟩
  | others tables updates =>
      cases taken
      exact sound.others tables updates

theorem sound_of_begins (begins : Begins projectId start) :
    Sound libraries projectId start.rows start where
  registered := begins.registered
  known := fun _ isFirst => isFirst
  engaged := by
    rw [begins.runs]
    intro run isRun
    cases isRun
  accountable := by
    intro jobId job documentId found _ ofProject ofDocument
    exact Or.inl
      (begins.registered.jobs jobId job documentId found ofProject ofDocument)
  fetched := by
    rw [begins.reindex]
    intro config isFetch
    cases isFetch
  snapshotted := by
    rw [begins.reindex]
    intro config done rest work
    cases work
  writing := by
    rw [begins.reindex]
    intro config row indexed writing
    cases writing
  stored := by
    rw [begins.runs]
    intro _ _ run isRun
    cases isRun
  restored := by
    rw [begins.reindex]
    intro cleared
    cases cleared

/-- A document of the project whose points are all there has its chunks. -/
theorem hasChunks_of_present {row : StoredDocument} (isRow : row ∈ site.rows)
    (attributed : Attributed libraries projectId site.rows site.store)
    (injective :
      Set.InjOn libraries.uuid5 (siteNames libraries projectId site))
    (present : Present libraries (argumentsOf projectId row.id) site.store
      (site.store.points projectId)) :
    HasChunks libraries projectId row.id site.store := by
  obtain ⟨⟨indexed, document, config, isDocument, isConfig, indexedAs⟩, all⟩ :=
    present
  have indexedFrom : IndexedFrom libraries (argumentsOf projectId row.id)
      site.store indexed := ⟨document, config, isDocument, isConfig, indexedAs⟩
  have cut := documentChunks_of_indexDocument indexedAs
  have chunksAre := indexedFrom.chunks
  refine ⟨document, config, _, isDocument, isConfig, cut, ?_⟩
  rw [chunksAre]
  intro chunk isChunk
  obtain ⟨point, found⟩ := Option.isSome_iff_exists.mp (all chunk isChunk)
  refine ⟨point, found, ?_⟩
  obtain ⟨other, isOther, otherChunk, isOtherChunk, sameId, represents⟩ :=
    attributed _ point found
  obtain ⟨sameRow, sameIndex⟩ := pointId_injective injective
    ⟨row, isRow, chunk, isChunk, rfl⟩
    ⟨other, isOther, otherChunk, isOtherChunk, rfl⟩ sameId
  rw [← sameRow] at isOtherChunk represents
  rw [indexedFrom.eq_of_index isChunk isOtherChunk sameIndex]
  exact represents

/-- Once everything has finished, no document is lost. -/
theorem Sound.noneLost (sound : Sound libraries projectId first site)
    (finished : Finished site)
    (injective :
      Set.InjOn libraries.uuid5 (siteNames libraries projectId site)) :
    NoneLost libraries projectId site := by
  obtain ⟨⟨config, done, isCompleted⟩, allCompleted⟩ := finished
  have work : site.reindex.work = some (config, done, []) := by
    rw [isCompleted]
    rfl
  have restored := sound.restored (by rw [isCompleted]; rfl) _ _ _ work
  have snapshotted := sound.snapshotted _ _ _ work
  intro jobId job documentId found complete ofProject ofDocument
  rcases sound.accountable jobId job documentId found complete ofProject
    ofDocument with ⟨row, isFirst, rfl, ofRow⟩ | ⟨run, isRun, rfl, stored⟩
  · have isDone : row ∈ done :=
      (snapshotted.covers row isFirst ofRow).resolve_right List.not_mem_nil
    exact hasChunks_of_present (sound.known row isFirst) restored.attributed
      injective (restored.done row isDone)
  · have engaged := sound.engaged run isRun
    rw [allCompleted run isRun] at stored
    have upserted : run.pc.upserted = true := by
      rw [allCompleted run isRun]
      rfl
    obtain ⟨row, isRow, sameId, _⟩ := engaged.exists_row sound.registered
    rcases restored.runs run isRun upserted with ⟨_, isRest, _⟩ | present
    · cases isRest
    · rw [← sameId]
      exact hasChunks_of_present isRow restored.attributed injective
        (present.of_same sameId.symm engaged.project)

/-- In every run in which the snapshot covers the documents whose points are
stored when the collection is deleted, no document is lost once everything has
finished. -/
theorem noneLost_of_coversRuns (begins : Begins projectId start)
    {run : List (SiteLabel × Site Content Dense Sparse)}
    (isRun : Run (fun source label target =>
        siteStep libraries schema projectId source label = some target ∧
          coversRuns source label = true) start run) :
    ∀ site ∈ visited start run, Finished site →
      Set.InjOn libraries.uuid5 (siteNames libraries projectId site) →
      NoneLost libraries projectId site := by
  have sound : ∀ site ∈ visited start run,
      Sound libraries projectId start.rows site := by
    refine isRun.invariant ?_ (sound_of_begins begins)
    rintro source label target holds ⟨taken, covers⟩
    exact holds.step taken covers
  intro site member finished injective
  exact (sound site member).noneLost finished injective

/-- A project without documents, with an empty collection. -/
def emptySite : Site String Unit Unit where
  store := { sampleStore with
    jobs := fun _ => none
    documents := fun _ => none
    collections := fun id => if id = 3 then some fun _ => none else none }
  rows := []
  reindex := .fetchProject
  runs := []

theorem emptySite_begins : Begins 3 emptySite where
  registered := {
    documents := by
      intro row isRow
      cases isRow
    jobs := by
      intro jobId job documentId found
      cases found }
  reindex := rfl
  runs := rfl

/-- A document is uploaded and its job completes. -/
def ingestion : List SiteLabel :=
  .upload sampleRow 1 0 :: .start 1 ::
    List.replicate 14 (.advance 0 quiet)

def reindexing (steps documents : Nat) : List SiteLabel :=
  List.replicate steps (.reindex (undisturbedChoice documents))

def sampleStep : Site String Unit Unit → SiteLabel →
    Option (Site String Unit Unit) :=
  siteStep sampleLibraries Cag.textSchema 3

/-- The document is ingested before the snapshot is taken. -/
theorem noneLost_ingestedBefore :
    traceMeets coversRuns sampleStep (ingestion ++ reindexing 10 1)
      emptySite = true ∧
    Finished (finalState emptySite
      (trace sampleStep (ingestion ++ reindexing 10 1) emptySite)) ∧
    NoneLost sampleLibraries 3 (finalState emptySite
      (trace sampleStep (ingestion ++ reindexing 10 1) emptySite)) := by
  have meets : traceMeets coversRuns sampleStep
      (ingestion ++ reindexing 10 1) emptySite = true := rfl
  have finished : Finished (finalState emptySite
      (trace sampleStep (ingestion ++ reindexing 10 1) emptySite)) := by
    refine ⟨⟨_, _, rfl⟩, ?_⟩
    intro run isRun
    have only : run = ⟨sampleArguments, .completed⟩ :=
      List.mem_singleton.mp isRun
    rw [only]
  refine ⟨meets, finished, ?_⟩
  refine noneLost_of_coversRuns emptySite_begins
    (run_trace_meets coversRuns sampleStep _ emptySite meets) _
    (finalState_mem_visited _ _) finished ?_
  apply injOn_of_only
  rintro name ⟨row, isRow, chunk, isChunk, rfl⟩
  have isSample : row = sampleRow := List.mem_singleton.mp isRow
  subst isSample
  have isOnly : chunk = sampleChunk := List.mem_singleton.mp isChunk
  rw [isOnly]

/-- The document is uploaded and ingested between the snapshot and the
deletion. -/
theorem documentLost_betweenSnapshotAndDeletion :
    ∃ run, Run (fun source label target =>
        sampleStep source label = some target) emptySite run ∧
      Finished (finalState emptySite run) ∧
      ¬ NoneLost sampleLibraries 3 (finalState emptySite run) := by
  refine ⟨_, run_trace sampleStep
    (reindexing 3 0 ++ ingestion ++ reindexing 4 0) emptySite,
    ⟨⟨_, _, rfl⟩, ?_⟩, ?_⟩
  · intro run isRun
    have only : run = ⟨sampleArguments, .completed⟩ :=
      List.mem_singleton.mp isRun
    rw [only]
  · intro noneLost
    obtain ⟨document, config, chunks, isDocument, isConfig, cut, all⟩ :=
      noneLost 1 _ 2 rfl rfl rfl rfl
    have isSample : sampleDocument = document := Option.some.inj isDocument
    have isCurrent : sampleConfig = config := Option.some.inj isConfig
    subst isSample isCurrent
    have isCut : some (Except.ok [sampleChunk]) = some (.ok chunks) := cut
    rw [Option.some.injEq, Except.ok.injEq] at isCut
    obtain ⟨point, found, _⟩ := all sampleChunk (by simp [← isCut])
    cases found

end Proof

end ProjectMemory.Workers
