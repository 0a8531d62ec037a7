import ProjectMemory.Api.Database
import ProjectMemory.Cag.Rebuild
import ProjectMemory.Eval.Harness
import ProjectMemory.Workers.Ingest

/-!
# The throwaway project

An evaluation creates a team and a project, ingests the fixtures into it,
builds a belief state, asks its questions and deletes everything again,
whatever has failed in between.

The fixtures are indexed by code of the harness.  It writes the points that
the ingestion jobs of the product would write.
-/

namespace ProjectMemory.Eval

open Foundation Ingestion Workers

/-- A fixture with the name of its file. -/
structure Fixture extends FixtureDoc where
  filename : String

section Lifecycle

variable {Content Dense Sparse Result : Type}

/-- The tables and the collections that an evaluation works on. -/
structure Bench (Dense Sparse : Type) where
  database : Api.Database
  collections : Uuid → Option (Collection Dense Sparse)

def Bench.rows (bench : Bench Dense Sparse) : Api.Rows :=
  bench.database.rows

/-- The points of a project; a collection that does not exist has none. -/
def Bench.points (bench : Bench Dense Sparse) (projectId : Uuid) :
    Collection Dense Sparse :=
  (bench.collections projectId).getD fun _ => none

/-- The statements up to a commit.  They are refused where they would break a
constraint or store a NUL character; a commit that is reported to fail may have taken effect. -/
def Bench.transact (bench : Bench Dense Sparse)
    (change : Api.Rows → Api.Rows) (fault : Option Fault) :
    Except String Unit × Bench Dense Sparse :=
  match Api.Database.commit (change bench.rows) with
  | .error failure => (.error failure.detail, bench)
  | .ok database =>
      let after := { bench with database := database }
      match fault with
      | none => (.ok (), after)
      | some fault =>
          (.error fault.message, if fault.landed then after else bench)

/-! ## Setting up -/

/-- What ingestion reads of the configuration of `run_eval`. -/
def evalConfig (chunkSize chunkOverlap : Int) : ProjectConfig where
  chunkSize := some chunkSize
  chunkOverlap := some chunkOverlap
  chunkingStrategy := some "naive"
  cagRebuildThreshold := some 1

/-- The configuration as `run_eval` writes it. -/
def evalConfigJson (generationModel contextModel : String)
    (chunkSize chunkOverlap : Int) : List (String × Json) :=
  [("query_model", .str generationModel),
    ("context_model", .str contextModel),
    ("cag_rebuild_threshold", .num 1 0),
    ("chunk_size", .num chunkSize 0),
    ("chunk_overlap", .num chunkOverlap 0),
    ("chunking_strategy", .str "naive")]

/-- `setup_project`. -/
def setupProject (projectId teamId : Uuid) (name : String)
    (config : List (String × Json)) (began : Timestamp)
    (fault : Option Fault) (bench : Bench Dense Sparse) :
    Except String Unit × Bench Dense Sparse :=
  bench.transact (fun rows =>
    (rows.insertTeam {
      id := teamId
      name := name ++ "-team"
      createdAt := began }).insertProject {
        id := projectId
        name := name
        description :=
          some "CAG eval throwaway project — delete after the run"
        teamId := teamId
        config := config
        createdAt := began }) fault

/-! ## Ingesting the fixtures -/

/-- What the outside contributes to a fixture. -/
structure FixtureChance where
  documentId : Uuid
  summaryId : Uuid
  /-- `now()` of the transaction. -/
  began : Timestamp
  /-- The time the points are written at. -/
  now : Timestamp
  /-- What `summarize_document` says under `raw_text_fallback`. -/
  summary : Except String (Option Bool)
  /-- What Qdrant answers to an upsert without points. -/
  refusal : String
  flush : Option Fault
  ensure : Option Fault
  upsert : Option Fault
  commit : Option Fault

def Fixture.document (fixture : Fixture) : Document where
  filename := fixture.filename
  fileType := "markdown"
  rawBytes := fixture.text.toUTF8

/-- The row of a fixture. -/
def Fixture.file (fixture : Fixture) (projectId : Uuid)
    (chance : FixtureChance) : Api.StoredFile where
  id := chance.documentId
  projectId := projectId
  filename := fixture.filename
  fileType := "markdown"
  createdAt := chance.began
  rawBytes := fixture.text.toUTF8

/-- `_CONTRADICTION_PAIR_IDS`. -/
def contradictionPairIds : List String :=
  ["05_sync-interval-5min", "06_sync-interval-60sec"]

/-- `_CONTRADICTION_TS`: noon of 15 March 2025. -/
def contradictionTs : Timestamp :=
  1742040000000000

/-- The two fixtures that contradict each other are summarized at the same
time. -/
def Fixture.summaryRow (fixture : Fixture) (projectId : Uuid)
    (chance : FixtureChance) (rawTextFallback : Option Bool) :
    DocumentSummary where
  id := chance.summaryId
  documentId := chance.documentId
  projectId := projectId
  rawTextFallback := rawTextFallback
  createdAt :=
    if fixture.id ∈ contradictionPairIds then contradictionTs
    else chance.began

def insertDocument (document : Api.StoredFile) (rows : Api.Rows) :
    Api.Rows :=
  { rows with documents := rows.documents ++ [document] }

def insertSummary (summary : DocumentSummary) (rows : Api.Rows) : Api.Rows :=
  { rows with
    tables := { rows.tables with
      summaries := rows.tables.summaries ++ [summary] } }

/-- The harness parses, cuts and embeds a fixture; `none` where the chunking
never returns. -/
def indexFixture (libraries : Libraries Dense Sparse)
    (chunkSize chunkOverlap : Int) (fixture : Fixture) :
    Option (Except String (Indexed Dense Sparse)) :=
  match parseFile libraries fixture.text.toUTF8 "markdown" with
  | .error message => some (.error message)
  | .ok parsed =>
      (chunkText parsed .naive chunkSize chunkOverlap).map fun result => do
        let bare ← result
        let chunks := bare.map fun chunk =>
          { chunk with filename := some fixture.filename }
        let texts := chunks.map Chunk.text
        let vectors ← libraries.embed texts
        let dense ← zipStrict chunks vectors
        let sparseVectors ← libraries.sparseEmbed texts
        let sparse ← zipStrict chunks sparseVectors
        return { results := dense, sparseResults := sparse }

def Bench.putPoints (bench : Bench Dense Sparse) (projectId : Uuid)
    (points : List (String × Point Dense Sparse)) : Bench Dense Sparse :=
  { bench with
    collections := Function.update bench.collections projectId
      (some (Foundation.upsert (bench.points projectId) points)) }

/-- `VectorStore.upsert`, which ensures the collection first.  Qdrant refuses
an upsert without points. -/
def Bench.upsert (bench : Bench Dense Sparse) (projectId : Uuid)
    (points : List (String × Point Dense Sparse))
    (refusal : String) (ensure upsert : Option Fault) :
    Except String Unit × Bench Dense Sparse :=
  match ensure, upsert with
  | some fault, _ =>
      (.error (Stage.describe projectId fault.message .collectionExists),
        if fault.landed then bench.putPoints projectId [] else bench)
  | none, some fault =>
      (.error (Stage.describe projectId fault.message .upsert),
        bench.putPoints projectId
          (points.filter fun point => fault.stored point.1))
  | none, none =>
      let written := bench.putPoints projectId points
      if points.isEmpty then
        (.error (Stage.describe projectId refusal .upsert), written)
      else
        (.ok (), written)

/-- An exception rolls back the document of the fixture, not its points. -/
def ingestFixture (libraries : Libraries Dense Sparse) (projectId : Uuid)
    (chunkSize chunkOverlap : Int) (chance : FixtureChance)
    (fixture : Fixture) (bench : Bench Dense Sparse) :
    Option (Except String Unit × Bench Dense Sparse) :=
  let document := fixture.file projectId chance
  match (bench.transact (insertDocument document) chance.flush).1 with
  | .error message => some (.error message, bench)
  | .ok () =>
      (indexFixture libraries chunkSize chunkOverlap fixture).map fun
        | .error message => (.error message, bench)
        | .ok indexed =>
            match bench.upsert projectId
                (pointsOf libraries projectId chance.documentId indexed
                  chance.now) chance.refusal chance.ensure
                chance.upsert with
            | (.error message, after) => (.error message, after)
            | (.ok (), written) =>
                match chance.summary with
                | .error message => (.error message, written)
                | .ok rawTextFallback =>
                    written.transact
                      (insertSummary (fixture.summaryRow projectId chance
                        rawTextFallback) ∘ insertDocument document)
                      chance.commit

/-- `ingest_fixtures`. -/
def ingestFixtures (libraries : Libraries Dense Sparse) (projectId : Uuid)
    (chunkSize chunkOverlap : Int) :
    (Nat → FixtureChance) → List Fixture → Bench Dense Sparse →
      Option (Except String Unit × Bench Dense Sparse)
  | _, [], bench => some (.ok (), bench)
  | chances, fixture :: corpus, bench =>
      match ingestFixture libraries projectId chunkSize chunkOverlap
          (chances 0) fixture bench with
      | none => none
      | some (.error message, after) => some (.error message, after)
      | some (.ok (), after) =>
          ingestFixtures libraries projectId chunkSize chunkOverlap
            (fun index => chances (index + 1)) corpus after

/-! ## Building the belief state -/

/-- `run_cag_rebuild`; a failing commit may have inserted the state. -/
def runCagRebuild (schema : Schema Content)
    (environment : Cag.Environment Content) (projectId : Uuid)
    (validationError : Uuid → Nat → String) (fault : Option Fault)
    (bench : Bench Dense Sparse) :
    Except String Unit × Bench Dense Sparse :=
  let (tables, result) := Cag.rebuild schema environment bench.rows.tables
    projectId .genesis Cag.rebuildBatchSize
  match bench.transact (fun rows => { rows with tables := tables }) fault with
  | (.error message, after) => (.error message, after)
  | (.ok (), after) =>
      match result with
      | .error failure => (.error (failure.message validationError), after)
      | .ok _ => (.ok (), after)

/-! ## Tearing down -/

/-- `DELETE FROM documents`, with what the foreign keys do. -/
def deleteDocuments (projectId : Uuid) (rows : Api.Rows) : Api.Rows :=
  { rows with
    documents := rows.documents.filter fun row => row.projectId ≠ projectId
    jobs := rows.jobs.map
      (Api.Rows.dropDocument (rows.isDocumentOf projectId))
    tables := { rows.tables with
      summaries := rows.tables.summaries.filter fun row =>
        rows.isDocumentOf projectId row.documentId = false } }

/-- `DELETE FROM teams`, with what the foreign keys do. -/
def deleteTeam (teamId : Uuid) (rows : Api.Rows) : Api.Rows :=
  let projects := rows.projects.filter fun row => row.teamId = teamId
  let without := projects.foldl
    (fun current row => current.deleteProject row.id) rows
  { without with
    teams := without.teams.filter fun row => row.id ≠ teamId
    members := without.members.filter fun row => row.teamId ≠ teamId }

def deleteBeliefs (projectId : Uuid) (rows : Api.Rows) : Api.Rows :=
  { rows with
    tables := { rows.tables with
      beliefs := rows.tables.beliefs.filter fun row =>
        row.projectId ≠ projectId } }

def deleteSummaries (projectId : Uuid) (rows : Api.Rows) : Api.Rows :=
  { rows with
    tables := { rows.tables with
      summaries := rows.tables.summaries.filter fun row =>
        row.projectId ≠ projectId } }

def deleteJobs (projectId : Uuid) (rows : Api.Rows) : Api.Rows :=
  { rows with
    jobs := rows.jobs.filter fun row => row.projectId ≠ projectId }

/-- The statements of `teardown`, in their order. -/
def teardownRows (projectId teamId : Uuid) (rows : Api.Rows) : Api.Rows :=
  deleteTeam teamId <|
    Api.Rows.deleteProject (deleteDocuments projectId <|
      deleteJobs projectId <| deleteSummaries projectId <|
      deleteBeliefs projectId rows) projectId

/-- `delete_collection`, which may have deleted it where it fails. -/
def Bench.deleteCollection (bench : Bench Dense Sparse) (projectId : Uuid)
    (fault : Option Fault) : Bench Dense Sparse :=
  if fault.all Fault.landed then
    { bench with
      collections := Function.update bench.collections projectId none }
  else bench

/-- `teardown`; a failing deletion of the collection is logged only. -/
def teardown (projectId teamId : Uuid) (drop commit : Option Fault)
    (bench : Bench Dense Sparse) : Bench Dense Sparse :=
  ((bench.deleteCollection projectId drop).transact
    (teardownRows projectId teamId) commit).2

/-! ## The run -/

/-- What the outside contributes to an evaluation. -/
structure EvalChance where
  projectId : Uuid
  teamId : Uuid
  began : Timestamp
  fixtures : Nat → FixtureChance
  setup : Option Fault
  /-- The `ValidationError` for the stored state of a version. -/
  validationError : Uuid → Nat → String
  rebuild : Option Fault
  drop : Option Fault
  teardown : Option Fault

/-- The settings of an evaluation. -/
structure EvalSettings where
  generationModel : String
  contextModel : String
  chunkSize : Int
  chunkOverlap : Int

/-- The `try` block after the project was created.  The arms and the judge
read the tables and the collection. -/
def evaluate (libraries : Libraries Dense Sparse) (schema : Schema Content)
    (environment : Cag.Environment Content)
    (ask : Bench Dense Sparse → Except String Result)
    (settings : EvalSettings) (chance : EvalChance) (corpus : List Fixture)
    (bench : Bench Dense Sparse) :
    Option (Except String Result × Bench Dense Sparse) :=
  match ingestFixtures libraries chance.projectId settings.chunkSize
      settings.chunkOverlap chance.fixtures corpus bench with
  | none => none
  | some (.error message, after) => some (.error message, after)
  | some (.ok (), ingested) =>
      match runCagRebuild schema environment chance.projectId
          chance.validationError chance.rebuild ingested with
      | (.error message, after) => some (.error message, after)
      | (.ok (), rebuilt) => some (ask rebuilt, rebuilt)

/-- `run_eval`; `none` where a fixture is never cut.  A project whose creation
is reported to fail is not torn down. -/
def runEval (libraries : Libraries Dense Sparse) (schema : Schema Content)
    (environment : Cag.Environment Content)
    (ask : Bench Dense Sparse → Except String Result)
    (settings : EvalSettings) (chance : EvalChance) (corpus : List Fixture)
    (bench : Bench Dense Sparse) :
    Option (Except String Result × Bench Dense Sparse) :=
  match setupProject chance.projectId chance.teamId "cag-eval"
      (evalConfigJson settings.generationModel settings.contextModel
        settings.chunkSize settings.chunkOverlap) chance.began chance.setup
      bench with
  | (.error message, after) => some (.error message, after)
  | (.ok (), created) =>
      (evaluate libraries schema environment ask settings chance corpus
        created).map fun (outcome, after) =>
          (outcome, teardown chance.projectId chance.teamId chance.drop
            chance.teardown after)

/-! ## What an evaluation may have added -/

/-- The rows of the throwaway team and project are all that was added. -/
structure Throwaway (projectId teamId : Uuid) (start rows : Api.Rows) :
    Prop where
  freshProject : projectId ∉ start.projectIds
  freshTeam : teamId ∉ start.teamIds
  users : rows.users = start.users
  members : rows.members = start.members
  jobs : rows.jobs = start.jobs
  teams : AddedTo (fun row => row.id = teamId) start.teams rows.teams
  projects : AddedTo (fun row => row.id = projectId ∧ row.teamId = teamId)
    start.projects rows.projects
  documents : AddedTo (fun row => row.projectId = projectId)
    start.documents rows.documents
  summaries : AddedTo (fun row => row.projectId = projectId)
    start.tables.summaries rows.tables.summaries
  beliefs : AddedTo (fun row => row.projectId = projectId)
    start.tables.beliefs rows.tables.beliefs

/-- Nothing but the throwaway rows and the collection of the project was
touched. -/
structure Confined (projectId teamId : Uuid)
    (start bench : Bench Dense Sparse) : Prop where
  rows : Throwaway projectId teamId start.rows bench.rows
  collections : ∀ other, other ≠ projectId →
    bench.collections other = start.collections other

end Lifecycle

section Teardown

variable {projectId teamId : Uuid} {start rows : Api.Rows}

theorem map_dropDocument {gone : Uuid → Bool} {jobs : List IngestionJob}
    (kept : ∀ job ∈ jobs, ∀ documentId, job.documentId = some documentId →
      gone documentId = false) :
    jobs.map (Api.Rows.dropDocument gone) = jobs := by
  refine (List.map_congr_left fun job isJob => ?_).trans (List.map_id jobs)
  have same : (job.documentId.filter fun id => !gone id) =
      job.documentId := by
    cases document : job.documentId with
    | none => rfl
    | some documentId =>
        rw [Option.filter_some, kept job isJob documentId document]
        rfl
  rw [Api.Rows.dropDocument, same]
  rfl

/-- Where nothing refers to a project, only its own row is deleted. -/
theorem deleteProject_of_unused
    (documents : ∀ row ∈ rows.documents, row.projectId ≠ projectId)
    (jobs : ∀ row ∈ rows.jobs, row.projectId ≠ projectId)
    (summaries : ∀ row ∈ rows.tables.summaries, row.projectId ≠ projectId)
    (beliefs : ∀ row ∈ rows.tables.beliefs, row.projectId ≠ projectId) :
    rows.deleteProject projectId =
      { rows with
        projects := rows.projects.filter fun row => row.id ≠ projectId } := by
  have noDocument (documentId : Uuid) :
      rows.isDocumentOf projectId documentId = false := by
    refine List.any_eq_false.mpr fun row isRow isDocument => ?_
    rw [Bool.and_eq_true, decide_eq_true_eq, decide_eq_true_eq] at isDocument
    exact documents row isRow isDocument.2
  have sameDocuments := List.filter_eq_self.mpr fun row isRow =>
    decide_eq_true (documents row isRow)
  have sameJobs := List.filter_eq_self.mpr fun row isRow =>
    decide_eq_true (jobs row isRow)
  have sameSummaries := List.filter_eq_self.mpr fun row isRow =>
    decide_eq_true (And.intro (summaries row isRow)
      (noDocument row.documentId))
  have sameBeliefs := List.filter_eq_self.mpr fun row isRow =>
    decide_eq_true (beliefs row isRow)
  rw [Api.Rows.deleteProject, sameDocuments, sameJobs, sameSummaries,
    sameBeliefs, map_dropDocument fun _ _ documentId _ =>
      noDocument documentId]

/-- No document that was there is one of the throwaway project. -/
theorem Throwaway.noDocument (valid : start.Constraints)
    (unique : rows.Unique) (thrown : Throwaway projectId teamId start rows)
    {documentId : Uuid} (known : documentId ∈ start.documentIds) :
    rows.isDocumentOf projectId documentId = false := by
  refine List.any_eq_false.mpr fun row isRow isDocument => ?_
  rw [Bool.and_eq_true, decide_eq_true_eq, decide_eq_true_eq] at isDocument
  obtain ⟨sameId, ofProject⟩ := isDocument
  obtain ⟨old, isOld, rfl⟩ := List.mem_map.mp known
  have stays : old ∈ rows.documents := by
    obtain ⟨added, _, isAll⟩ := thrown.documents
    rw [isAll]
    exact List.mem_append_left added isOld
  have same : row = old :=
    List.inj_on_of_nodup_map unique.documents isRow stays sameId
  apply thrown.freshProject
  rw [← ofProject, same]
  exact valid.references.documentProject (List.mem_map_of_mem isOld)

/-- The rows that were there have nothing to do with the throwaway ones. -/
structure Apart (projectId teamId : Uuid) (start : Api.Rows) : Prop where
  teams : ∀ row ∈ start.teams, row.id ≠ teamId
  projects : ∀ row ∈ start.projects, row.id ≠ projectId
  members : ∀ row ∈ start.members, row.teamId ≠ teamId
  projectTeams : ∀ row ∈ start.projects, row.teamId ≠ teamId
  documents : ∀ row ∈ start.documents, row.projectId ≠ projectId
  jobs : ∀ row ∈ start.jobs, row.projectId ≠ projectId
  summaries : ∀ row ∈ start.tables.summaries, row.projectId ≠ projectId
  beliefs : ∀ row ∈ start.tables.beliefs, row.projectId ≠ projectId

theorem Throwaway.apart (valid : start.Constraints)
    (thrown : Throwaway projectId teamId start rows) :
    Apart projectId teamId start where
  teams := ref_ne_of_fresh (List.Subset.refl start.teamIds) thrown.freshTeam
  projects :=
    ref_ne_of_fresh (List.Subset.refl start.projectIds) thrown.freshProject
  members := ref_ne_of_fresh valid.references.memberTeam thrown.freshTeam
  projectTeams :=
    ref_ne_of_fresh valid.references.projectTeam thrown.freshTeam
  documents :=
    ref_ne_of_fresh valid.references.documentProject thrown.freshProject
  jobs := ref_ne_of_fresh valid.references.jobProject thrown.freshProject
  summaries :=
    ref_ne_of_fresh valid.references.summaryProject thrown.freshProject
  beliefs :=
    ref_ne_of_fresh valid.references.beliefProject thrown.freshProject

/-- After the statements up to `DELETE FROM documents` only the rows of the
project and the team are left. -/
theorem Throwaway.deleteDocuments (valid : start.Constraints)
    (unique : rows.Unique) (thrown : Throwaway projectId teamId start rows) :
    deleteDocuments projectId (deleteJobs projectId
        (deleteSummaries projectId (deleteBeliefs projectId rows))) =
      { start with teams := rows.teams, projects := rows.projects } := by
  have apart := thrown.apart valid
  have references := valid.references
  have foreign : ∀ row : Uuid, row = projectId →
      decide (row ≠ projectId) = false := by
    rintro row rfl
    exact decide_eq_false (not_not_intro rfl)
  have beliefs := thrown.beliefs.filter_eq
    (fun row isRow => decide_eq_true (apart.beliefs row isRow))
    (fun row => foreign row.projectId)
  have summaries := thrown.summaries.filter_eq
    (fun row isRow => decide_eq_true (apart.summaries row isRow))
    (fun row => foreign row.projectId)
  have documents := thrown.documents.filter_eq
    (fun row isRow => decide_eq_true (apart.documents row isRow))
    (fun row => foreign row.projectId)
  have jobs := List.filter_eq_self.mpr fun row isRow =>
    decide_eq_true (apart.jobs row isRow)
  have keptSummaries := List.filter_eq_self.mpr fun row isRow =>
    decide_eq_true (thrown.noDocument valid unique
      (references.summaryDocument (List.mem_map_of_mem isRow)))
  have keptJobs : start.jobs.map
      (Api.Rows.dropDocument (rows.isDocumentOf projectId)) = start.jobs :=
    map_dropDocument fun job isJob documentId document =>
      thrown.noDocument valid unique (references.jobDocument
        (List.mem_filterMap.mpr ⟨job, isJob, document⟩))
  have isDocumentOf : (deleteJobs projectId (deleteSummaries projectId
      (deleteBeliefs projectId rows))).isDocumentOf projectId =
        rows.isDocumentOf projectId := rfl
  rw [Eval.deleteDocuments, isDocumentOf]
  simp only [deleteJobs, deleteSummaries, deleteBeliefs, beliefs, summaries,
    documents, thrown.jobs, jobs, keptSummaries, keptJobs, thrown.users,
    thrown.members]

/-- The teardown deletes what was added and nothing else. -/
theorem Throwaway.teardownRows (valid : start.Constraints)
    (unique : rows.Unique) (thrown : Throwaway projectId teamId start rows) :
    teardownRows projectId teamId rows = start := by
  have apart := thrown.apart valid
  have projects := thrown.projects.filter_eq
    (fun row isRow => decide_eq_true (apart.projects row isRow))
    (fun row isMine => decide_eq_false (not_not_intro isMine.1))
  have teams := thrown.teams.filter_eq
    (fun row isRow => decide_eq_true (apart.teams row isRow))
    (fun row isMine => decide_eq_false (not_not_intro isMine))
  have noProjects : (start.projects.filter fun row => row.teamId = teamId) =
      [] :=
    List.filter_eq_nil_iff.mpr fun row isRow ofTeam =>
      apart.projectTeams row isRow (of_decide_eq_true ofTeam)
  have members := List.filter_eq_self.mpr fun row isRow =>
    decide_eq_true (apart.members row isRow)
  have ownRow := @deleteProject_of_unused projectId
    { start with teams := rows.teams, projects := rows.projects }
    apart.documents apart.jobs apart.summaries apart.beliefs
  rw [Eval.teardownRows, thrown.deleteDocuments valid unique, ownRow,
    deleteTeam]
  simp only [projects, noProjects, List.foldl_nil, teams, members]

end Teardown

/-! ## One transaction -/

section Transaction

variable {Content Dense Sparse Result : Type} {bench after :
  Bench Dense Sparse} {change : Api.Rows → Api.Rows} {fault : Option Fault}
  {outcome : Except String Unit}

theorem transact_cases
    (ended : bench.transact change fault = (outcome, after)) :
    (after = bench ∧ outcome ≠ .ok ()) ∨
      after.rows = change bench.rows ∧
        after.collections = bench.collections ∧
        (outcome = .ok () ∨ ∃ reported ∈ fault, reported.landed = true) := by
  rw [Bench.transact] at ended
  split at ended
  · cases ended
    exact Or.inl ⟨rfl, nofun⟩
  · rename_i database committed
    have rows := Api.Database.rows_of_commit committed
    cases fault with
    | none =>
        cases ended
        exact Or.inr ⟨rows, rfl, Or.inl rfl⟩
    | some reported =>
        dsimp only at ended
        by_cases landed : reported.landed = true
        · rw [if_pos landed] at ended
          cases ended
          exact Or.inr ⟨rows, rfl, Or.inr ⟨reported, rfl, landed⟩⟩
        · rw [if_neg landed] at ended
          cases ended
          exact Or.inl ⟨rfl, nofun⟩

/-- A transaction that takes effect, whatever is reported of it. -/
theorem transact_of_landed (valid : (change bench.rows).Constraints)
    (landed : ∀ reported ∈ fault, reported.landed = true) :
    (bench.transact change fault).2 =
      { bench with database := ⟨change bench.rows, valid⟩ } := by
  rw [Bench.transact, Api.Database.commit_of_constraints valid]
  cases fault with
  | none => rfl
  | some reported =>
      dsimp only
      rw [if_pos (landed reported rfl)]

end Transaction

/-! ## Statement by statement -/

section Run

variable {Content Dense Sparse Result : Type} {projectId teamId : Uuid}
  {start bench after : Bench Dense Sparse} {outcome : Except String Unit}
  {libraries : Libraries Dense Sparse} {schema : Schema Content}
  {environment : Cag.Environment Content} {chunkSize chunkOverlap : Int}

theorem Confined.of_rows (confined : Confined projectId teamId start bench)
    (rows : Throwaway projectId teamId start.rows after.rows)
    (collections : after.collections = bench.collections) :
    Confined projectId teamId start after :=
  ⟨rows, collections ▸ confined.collections⟩

theorem setupProject_confined {name : String} {config : List (String × Json)}
    {began : Timestamp} {fault : Option Fault}
    (created : setupProject projectId teamId name config began fault start =
      (.ok (), bench)) : Confined projectId teamId start bench := by
  rcases transact_cases created with ⟨_, failed⟩ | ⟨rows, collections, _⟩
  · exact absurd rfl failed
  · have unique := bench.database.constraints.unique
    have teams : (start.rows.teamIds ++ [teamId]).Nodup := by
      have distinct : bench.rows.teamIds.Nodup := unique.teams
      rw [rows] at distinct
      rwa [Api.Rows.teamIds, Api.Rows.insertProject, Api.Rows.insertTeam,
        List.map_append] at distinct
    have projects : (start.rows.projectIds ++ [projectId]).Nodup := by
      have distinct : bench.rows.projectIds.Nodup := unique.projects
      rw [rows] at distinct
      rwa [Api.Rows.projectIds, Api.Rows.insertProject, Api.Rows.insertTeam,
        List.map_append] at distinct
    refine ⟨?_, fun other _ => congrFun collections other⟩
    rw [rows]
    exact {
      freshProject := fun taken =>
        (List.nodup_append.mp projects).2.2 _ taken _
          List.mem_cons_self rfl
      freshTeam := fun taken =>
        (List.nodup_append.mp teams).2.2 _ taken _ List.mem_cons_self rfl
      users := rfl
      members := rfl
      jobs := rfl
      teams := (AddedTo.refl _ _).snoc rfl
      projects := (AddedTo.refl _ _).snoc ⟨rfl, rfl⟩
      documents := AddedTo.refl _ _
      summaries := AddedTo.refl _ _
      beliefs := AddedTo.refl _ _ }

theorem Confined.putPoints (confined : Confined projectId teamId start bench)
    (points : List (String × Point Dense Sparse)) :
    Confined projectId teamId start (bench.putPoints projectId points) := by
  refine ⟨confined.rows, fun other isOther => ?_⟩
  rw [Bench.putPoints]
  exact (Function.update_of_ne isOther _ _).trans
    (confined.collections other isOther)

theorem Confined.upsert (confined : Confined projectId teamId start bench)
    {points : List (String × Point Dense Sparse)} {refusal : String}
    {ensure upsert : Option Fault}
    (ended : bench.upsert projectId points refusal ensure upsert =
      (outcome, after)) : Confined projectId teamId start after := by
  unfold Bench.upsert at ended
  split at ended
  · rename_i reported
    by_cases landed : reported.landed = true
    · rw [if_pos landed] at ended
      cases ended
      exact confined.putPoints []
    · rw [if_neg landed] at ended
      cases ended
      exact confined
  · cases ended
    exact confined.putPoints _
  · dsimp only at ended
    split at ended
    · cases ended
      exact confined.putPoints points
    · cases ended
      exact confined.putPoints points

theorem Confined.ingestFixture
    (confined : Confined projectId teamId start bench)
    {chance : FixtureChance} {fixture : Fixture}
    (ended : ingestFixture libraries projectId chunkSize chunkOverlap chance
      fixture bench = some (outcome, after)) :
    Confined projectId teamId start after := by
  unfold Eval.ingestFixture at ended
  dsimp only at ended
  split at ended
  · cases ended
    exact confined
  · obtain ⟨indexed, _, stored⟩ := Option.map_eq_some_iff.mp ended
    cases indexed with
    | error message =>
        cases stored
        exact confined
    | ok indexed =>
        dsimp only at stored
        split at stored
        · rename_i message written upserted
          cases stored
          exact confined.upsert upserted
        · rename_i written upserted
          have held := confined.upsert upserted
          split at stored
          · cases stored
            exact held
          · rcases transact_cases stored with
              ⟨rfl, _⟩ | ⟨rows, collections, _⟩
            · exact held
            · refine held.of_rows ?_ collections
              rw [rows]
              exact { held.rows with
                documents := held.rows.documents.snoc rfl
                summaries := held.rows.summaries.snoc rfl }

theorem Confined.ingestFixtures
    (confined : Confined projectId teamId start bench)
    {chances : Nat → FixtureChance} {corpus : List Fixture}
    (ended : ingestFixtures libraries projectId chunkSize chunkOverlap chances
      corpus bench = some (outcome, after)) :
    Confined projectId teamId start after := by
  induction corpus generalizing chances bench with
  | nil =>
      cases ended
      exact confined
  | cons fixture corpus inductionHypothesis =>
      rw [Eval.ingestFixtures] at ended
      split at ended
      · cases ended
      · rename_i failed
        cases ended
        exact confined.ingestFixture failed
      · rename_i next ingested
        exact inductionHypothesis (confined.ingestFixture ingested) ended

/-- A rebuild inserts at most one state of its project. -/
theorem rebuild_tables (tables : Cag.Tables) (mode : Cag.Mode)
    (batchSize : Nat) :
    (Cag.rebuild schema environment tables projectId mode batchSize).1 =
        tables ∨
      ∃ row : BeliefState, row.projectId = projectId ∧
        (Cag.rebuild schema environment tables projectId mode batchSize).1 =
          tables.insert row := by
  by_cases positive : 1 ≤ batchSize
  · cases read : Cag.getLatest schema tables projectId with
    | error failure =>
        rw [Cag.rebuild_of_error positive
          (Cag.rebuildTransaction_of_unreadable read)]
        exact Or.inl rfl
    | ok previous =>
        cases readBase : Cag.rebuildBase schema tables projectId mode with
        | error failure =>
            rw [Cag.rebuild_of_error positive
              (Cag.rebuildTransaction_of_unreadable_base read readBase)]
            exact Or.inl rfl
        | ok base =>
            cases planned : Cag.rebuildPlan environment.order
                tables.summaries projectId base with
            | none =>
                rw [Cag.rebuild_of_nothing positive
                  (Cag.rebuildTransaction_of_no_plan read readBase planned)]
                exact Or.inl rfl
            | some plan =>
                have ended := @Cag.rebuildTransaction_of_plan _ _
                  environment _ _ _ _ _ plan read readBase planned
                cases answered : environment.synthesize
                    (base.map BeliefStateRecord.state) plan.batch with
                | error message =>
                    rw [answered] at ended
                    rw [Cag.rebuild_of_error positive ended]
                    exact Or.inl rfl
                | ok content =>
                    rw [answered] at ended
                    rw [Cag.rebuild_of_insertion positive ended]
                    exact Or.inr ⟨_, rfl, rfl⟩
  · rw [Cag.rebuild, if_neg positive]
    exact Or.inl rfl

theorem Confined.runCagRebuild
    (confined : Confined projectId teamId start bench)
    {validationError : Uuid → Nat → String} {fault : Option Fault}
    (ended : runCagRebuild schema environment projectId validationError fault
      bench = (outcome, after)) : Confined projectId teamId start after := by
  have inserted : ∀ {reported : Except String Unit},
      bench.transact (fun rows => { rows with
        tables := (Cag.rebuild schema environment bench.rows.tables projectId
          .genesis Cag.rebuildBatchSize).1 }) fault = (reported, after) →
      Confined projectId teamId start after := by
    intro reported transacted
    rcases transact_cases transacted with ⟨rfl, _⟩ | ⟨rows, collections, _⟩
    · exact confined
    · refine confined.of_rows ?_ collections
      rw [rows]
      have tables := @rebuild_tables _ projectId schema environment
        bench.rows.tables .genesis Cag.rebuildBatchSize
      rcases tables with same | ⟨row, ofProject, isInserted⟩
      · rw [same]
        exact confined.rows
      · rw [isInserted]
        exact { confined.rows with
          beliefs := confined.rows.beliefs.snoc ofProject }
  rw [Eval.runCagRebuild] at ended
  dsimp only at ended
  split at ended
  · rename_i transacted
    cases ended
    exact inserted transacted
  · rename_i transacted
    split at ended
    · cases ended
      exact inserted transacted
    · cases ended
      exact inserted transacted

variable {ask : Bench Dense Sparse → Except String Result}
  {settings : EvalSettings} {chance : EvalChance} {corpus : List Fixture}
  {result : Except String Result} {final : Bench Dense Sparse}

theorem Confined.evaluate
    (confined : Confined chance.projectId teamId start bench)
    (ended : evaluate libraries schema environment ask settings chance corpus
      bench = some (result, after)) :
    Confined chance.projectId teamId start after := by
  rw [Eval.evaluate] at ended
  split at ended
  · cases ended
  · rename_i ingested
    cases ended
    exact confined.ingestFixtures ingested
  · rename_i ingested
    have held := confined.ingestFixtures ingested
    split at ended
    · rename_i rebuilt
      cases ended
      exact held.runCagRebuild rebuilt
    · rename_i rebuilt
      cases ended
      exact held.runCagRebuild rebuilt

/-- The teardown leaves the tables as they were. -/
theorem Confined.teardown
    (confined : Confined projectId teamId start bench)
    {drop commit : Option Fault}
    (cleaned : ∀ fault ∈ commit, fault.landed = true) :
    (teardown projectId teamId drop commit bench).rows = start.rows ∧
      (∀ other, other ≠ projectId →
        (teardown projectId teamId drop commit bench).collections other =
          start.collections other) ∧
      ((∀ fault ∈ drop, fault.landed = true) →
        (teardown projectId teamId drop commit bench).collections projectId =
          none) := by
  have sameRows : (bench.deleteCollection projectId drop).rows =
      bench.rows := by
    rw [Bench.deleteCollection]
    split <;> rfl
  have restored : teardownRows projectId teamId
      (bench.deleteCollection projectId drop).rows = start.rows := by
    rw [sameRows]
    exact confined.rows.teardownRows start.database.constraints
      bench.database.constraints.unique
  have valid : (teardownRows projectId teamId
      (bench.deleteCollection projectId drop).rows).Constraints := by
    rw [restored]
    exact start.database.constraints
  rw [Eval.teardown, transact_of_landed valid cleaned]
  refine ⟨restored, fun other isOther => ?_, fun dropped => ?_⟩
  · rw [← confined.collections other isOther]
    change (bench.deleteCollection projectId drop).collections other = _
    rw [Bench.deleteCollection]
    split
    · exact Function.update_of_ne isOther none bench.collections
    · rfl
  · change (bench.deleteCollection projectId drop).collections projectId = _
    rw [Bench.deleteCollection,
      if_pos ((Option.all_eq_true _ _).mpr fun fault isFault =>
        dropped fault isFault)]
    exact Function.update_self projectId none bench.collections

/-- An evaluation that ends, however it ends, leaves the tables as they were
and the collections of other projects alone, and its own collection is gone
if Qdrant has deleted it.  It is enough that no commit that creates the
project is reported to fail and that the teardown is committed. -/
theorem runEval_leaves_nothing
    (ended : runEval libraries schema environment ask settings chance corpus
      start = some (result, final))
    (known : ∀ fault ∈ chance.setup, fault.landed = false)
    (cleaned : ∀ fault ∈ chance.teardown, fault.landed = true) :
    final.rows = start.rows ∧
      (∀ other, other ≠ chance.projectId →
        final.collections other = start.collections other) ∧
      (start.collections chance.projectId = none →
        (∀ fault ∈ chance.drop, fault.landed = true) →
          final.collections chance.projectId = none) := by
  rw [runEval] at ended
  split at ended
  · rename_i failed
    cases ended
    rcases transact_cases failed with
      ⟨rfl, _⟩ | ⟨_, _, isOk | ⟨fault, isFault, landed⟩⟩
    · exact ⟨rfl, fun _ _ => rfl, fun absent _ => absent⟩
    · cases isOk
    · rw [known fault isFault] at landed
      cases landed
  · rename_i created isCreated
    obtain ⟨⟨inner, after⟩, evaluated, isFinal⟩ :=
      Option.map_eq_some_iff.mp ended
    cases isFinal
    have confined := (setupProject_confined isCreated).evaluate evaluated
    obtain ⟨rows, others, own⟩ := confined.teardown cleaned
    exact ⟨rows, others, fun _ dropped => own dropped⟩

end Run

/-- A team with a project that is not part of the evaluation. -/
def sampleBench : Bench Unit Unit where
  database := {
    rows := {
      users := []
      teams := [{ id := 1, name := "crew", createdAt := 0 }]
      members := []
      projects := [{
        id := 2, name := "notes", description := none, teamId := 1,
        config := [], createdAt := 0 }]
      documents := []
      jobs := []
      tables := { summaries := [], beliefs := [] } }
    constraints := by decide }
  collections := fun id => if id = 2 then some fun _ => none else none

def sampleFixture : Fixture where
  id := "05_sync-interval-5min"
  text := "Sync every five minutes."
  filename := "05_sync-interval-5min.md"

def sampleFixtureChance : FixtureChance where
  documentId := 12
  summaryId := 13
  began := 3
  now := 4
  summary := .ok none
  refusal := "Empty update request"
  flush := none
  ensure := none
  upsert := none
  commit := none

/-- The rebuild loses its connection with its commit. -/
def sampleEvalChance : EvalChance where
  projectId := 10
  teamId := 11
  began := 1
  fixtures := fun _ => sampleFixtureChance
  setup := none
  validationError := fun _ _ => "validation error"
  rebuild := some { Fault.plain "connection lost" with landed := true }
  drop := none
  teardown := none

def sampleSettings : EvalSettings where
  generationModel := "generation"
  contextModel := "context"
  chunkSize := 512
  chunkOverlap := 64

def sampleEval : Option (Except String Unit × Bench Unit Unit) :=
  runEval sampleLibraries Cag.textSchema Cag.retelling (fun _ => .ok ())
    sampleSettings sampleEvalChance [sampleFixture] sampleBench

theorem sampleEval_leaves_nothing :
    ∃ final, sampleEval = some (.error "connection lost", final) ∧
      final.rows = sampleBench.rows ∧
      (∀ other, other ≠ 10 →
        final.collections other = sampleBench.collections other) ∧
      final.collections 10 = none := by
  have outcome : sampleEval.map Prod.fst =
      some (.error "connection lost") := by decide +kernel
  obtain ⟨⟨_, final⟩, ended, rfl⟩ := Option.map_eq_some_iff.mp outcome
  obtain ⟨rows, others, own⟩ := runEval_leaves_nothing ended nofun nofun
  exact ⟨_, ended, rows, others, own rfl nofun⟩

end ProjectMemory.Eval
