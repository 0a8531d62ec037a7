import ProjectMemory.Eval.Throwaway
import ProjectMemory.Workers.Tables

/-!
# The points of the fixtures

The harness does not enqueue jobs for its fixtures: it parses, cuts and embeds
them itself.  The points it writes are those that `ingest_document` writes for
the same documents under the configuration of the evaluation.
-/

namespace ProjectMemory.Eval

open Foundation Ingestion Workers

variable {Content Dense Sparse : Type} {projectId teamId : Uuid}
  {start bench after : Bench Dense Sparse} {libraries : Libraries Dense Sparse}
  {schema : Schema Content} {chunkSize chunkOverlap : Int}
  {chance : FixtureChance} {fixture : Fixture}

/-- The documents of a project as the workers read them. -/
def storedDocuments (projectId : Uuid) (rows : Api.Rows) :
    List StoredDocument :=
  (rows.documents.filter fun row => row.projectId = projectId).map
    storedDocument

/-- The harness indexes a fixture as a worker indexes its document. -/
theorem indexFixture_eq (fixture : Fixture) :
    indexFixture libraries chunkSize chunkOverlap fixture =
      indexDocument libraries fixture.document
        (evalConfig chunkSize chunkOverlap) := by
  have sameFile : parseFile libraries fixture.document.rawBytes
      fixture.document.fileType =
        parseFile libraries fixture.text.toUTF8 "markdown" := rfl
  rw [indexFixture, indexDocument, documentChunks, sameFile]
  cases parsed : parseFile libraries fixture.text.toUTF8 "markdown" with
  | error message => rfl
  | ok text =>
      have naive : ChunkingStrategy.ofString "naive" = .ok .naive := rfl
      simp only [evalConfig, Option.getD_some, naive, Option.map_map]
      refine congrArg (Option.map · _) (funext fun result => ?_)
      cases result <;> rfl

theorem points_transact {change : Api.Rows → Api.Rows}
    {fault : Option Fault}
    (returned : bench.transact change fault = (.ok (), after)) :
    after.rows = change bench.rows ∧ after.points = bench.points := by
  rcases transact_cases returned with ⟨_, failed⟩ | ⟨rows, collections, _⟩
  · exact absurd rfl failed
  · refine ⟨rows, funext fun id => ?_⟩
    rw [Bench.points, Bench.points, collections]

theorem points_upsert {points : List (String × Point Dense Sparse)}
    {refusal : String} {ensure upsert : Option Fault}
    (returned : bench.upsert projectId points refusal ensure upsert =
      (.ok (), after)) :
    after.rows = bench.rows ∧
      after.points projectId =
        Foundation.upsert (bench.points projectId) points := by
  unfold Bench.upsert at returned
  split at returned
  · cases returned
  · cases returned
  · dsimp only at returned
    split at returned
    · cases returned
    · cases returned
      refine ⟨rfl, ?_⟩
      rw [Bench.points, Bench.putPoints]
      dsimp only
      rw [Function.update_self, Option.getD_some]

theorem ingestFixture_ok
    (returned : ingestFixture libraries projectId chunkSize chunkOverlap
      chance fixture bench = some (.ok (), after)) :
    ∃ indexed,
      indexDocument libraries fixture.document
          (evalConfig chunkSize chunkOverlap) = some (.ok indexed) ∧
        after.points projectId = Foundation.upsert (bench.points projectId)
          (pointsOf libraries projectId chance.documentId indexed
            chance.now) ∧
        after.rows.documents =
          bench.rows.documents ++ [fixture.file projectId chance] := by
  unfold ingestFixture at returned
  dsimp only at returned
  split at returned
  · cases returned
  · obtain ⟨result, isIndexed, stored⟩ := Option.map_eq_some_iff.mp returned
    cases result with
    | error message => cases stored
    | ok indexed =>
        refine ⟨indexed, (indexFixture_eq fixture).symm.trans isIndexed, ?_⟩
        dsimp only at stored
        split at stored
        · cases stored
        · rename_i written upserted
          obtain ⟨sameRows, points⟩ := points_upsert upserted
          split at stored
          · cases stored
          · obtain ⟨rows, samePoints⟩ := points_transact stored
            rw [samePoints, rows]
            refine ⟨points, ?_⟩
            rw [← sameRows]
            rfl

theorem storedDocuments_snoc {rows target : Api.Rows}
    (added : target.documents =
      rows.documents ++ [fixture.file projectId chance]) :
    storedDocuments projectId target =
      storedDocuments projectId rows ++
        [⟨chance.documentId, projectId, fixture.document⟩] := by
  have isOf : [fixture.file projectId chance].filter
      (fun row => row.projectId = projectId) =
        [fixture.file projectId chance] :=
    List.filter_cons_of_pos (decide_eq_true rfl)
  rw [storedDocuments, added, List.filter_append, isOf, List.map_append]
  rfl

theorem ingestFixtures_indexedAll {chances : Nat → FixtureChance}
    {corpus : List Fixture}
    (returned : ingestFixtures libraries projectId chunkSize chunkOverlap
      chances corpus bench = some (.ok (), after))
    (written : IndexedAll libraries projectId
      (evalConfig chunkSize chunkOverlap)
      (storedDocuments projectId bench.rows) (bench.points projectId)) :
    IndexedAll libraries projectId (evalConfig chunkSize chunkOverlap)
        (storedDocuments projectId after.rows) (after.points projectId) ∧
      (storedDocuments projectId after.rows).map StoredDocument.document =
        (storedDocuments projectId bench.rows).map StoredDocument.document ++
          corpus.map Fixture.document := by
  induction corpus generalizing chances bench with
  | nil =>
      cases returned
      exact ⟨written, (List.append_nil _).symm⟩
  | cons fixture corpus inductionHypothesis =>
      rw [ingestFixtures] at returned
      split at returned
      · cases returned
      · cases returned
      · rename_i next ingested
        obtain ⟨indexed, indexedAs, points, added⟩ :=
          ingestFixture_ok ingested
        have stored := storedDocuments_snoc added
        have nextWritten : IndexedAll libraries projectId
            (evalConfig chunkSize chunkOverlap)
            (storedDocuments projectId next.rows)
            (next.points projectId) := by
          rw [stored, points]
          exact written.snoc indexedAs
        obtain ⟨all, documents⟩ := inductionHypothesis returned nextWritten
        refine ⟨all, ?_⟩
        rw [documents, stored, List.map_append, List.append_assoc]
        rfl

theorem storedDocuments_distinct (database : Api.Database) :
    ((storedDocuments projectId database.rows).map
      StoredDocument.id).Nodup := by
  rw [storedDocuments, List.map_map]
  exact nodup_map_filter database.constraints.unique.documents _

/-- Ingesting the fixtures and ingesting their documents with the jobs of the
product, once or more and in any order, leave the same points up to their
times. -/
theorem fixtures_agree {name : String} {config : List (String × Json)}
    {began : Timestamp} {fault : Option Fault}
    {chances : Nat → FixtureChance} {corpus : List Fixture}
    (noCollection : start.collections projectId = none)
    (created : setupProject projectId teamId name config began fault start =
      (.ok (), bench))
    (returned : ingestFixtures libraries projectId chunkSize chunkOverlap
      chances corpus bench = some (.ok (), after))
    (injective : Set.InjOn libraries.uuid5
      (chunkNames libraries (evalConfig chunkSize chunkOverlap)
        (storedDocuments projectId after.rows))) :
    (storedDocuments projectId after.rows).map StoredDocument.document =
        corpus.map Fixture.document ∧
      ∀ {runs : List StoredDocument} {ingested : Store Dense Sparse},
        Ingested libraries schema projectId
            (evalConfig chunkSize chunkOverlap) runs ingested →
          (∀ row, row ∈ runs ↔ row ∈ storedDocuments projectId after.rows) →
            ∀ id, (after.points projectId id).map undated =
              (ingested.points projectId id).map undated := by
  have thrown := (setupProject_confined created).rows
  obtain ⟨rows, samePoints⟩ := points_transact created
  have noDocuments : storedDocuments projectId bench.rows = [] := by
    have apart := thrown.apart start.database.constraints
    rw [storedDocuments, rows, List.map_eq_nil_iff, List.filter_eq_nil_iff]
    intro row isRow ofProject
    exact apart.documents row isRow (of_decide_eq_true ofProject)
  have noPoints : bench.points projectId = fun _ => none := by
    rw [samePoints, Bench.points, noCollection]
    rfl
  have nothing : IndexedAll libraries projectId
      (evalConfig chunkSize chunkOverlap)
      (storedDocuments projectId bench.rows) (bench.points projectId) := by
    rw [noDocuments, noPoints]
    exact IndexedAll.nil
  obtain ⟨written, documents⟩ :=
    ingestFixtures_indexedAll returned nothing
  rw [noDocuments] at documents
  refine ⟨documents, fun ingested same id => ?_⟩
  refine IndexedAll.undated_unique written ingested.indexedAll same ?_
    injective id
  intro left isLeft right isRight sameId
  exact List.inj_on_of_nodup_map (storedDocuments_distinct after.database)
    isLeft isRight sameId

/-! ## Two fixtures of two chunks each -/

def fiveMinutes : Fixture where
  id := "05_sync-interval-5min"
  text := "Sync every\nfive minutes."
  filename := "05_sync-interval-5min.md"

def sixtySeconds : Fixture where
  id := "06_sync-interval-60sec"
  text := "Sync every\nsixty seconds."
  filename := "06_sync-interval-60sec.md"

def intervalConfig : ProjectConfig :=
  evalConfig 2 0

def intervalLibraries : Libraries Unit Unit :=
  { sampleLibraries with
    uuid5 := listedHash [pointName 12 0, pointName 12 1, pointName 13 0,
      pointName 13 1] }

def fiveMinutesRow : StoredDocument where
  id := 12
  projectId := 10
  document := fiveMinutes.document

def sixtySecondsRow : StoredDocument where
  id := 13
  projectId := 10
  document := sixtySeconds.document

/-- The project of the sample evaluation. -/
def intervalSetup : Except String Unit × Bench Unit Unit :=
  setupProject 10 11 "cag-eval"
    (evalConfigJson "generation" "context" 2 0) 1 none sampleBench

def intervalChances (index : Nat) : FixtureChance :=
  { sampleFixtureChance with
    documentId := BitVec.ofNat 128 (12 + index)
    summaryId := BitVec.ofNat 128 (22 + index) }

def intervalIngested : Option (Except String Unit × Bench Unit Unit) :=
  ingestFixtures intervalLibraries 10 2 0 intervalChances
    [fiveMinutes, sixtySeconds] intervalSetup.2

/-- The tables of a worker with the same documents. -/
def intervalStore : Store Unit Unit where
  jobs := fun id => if id = 1 then some { sampleJob with
    projectId := 10
    documentId := none } else none
  documents := fun id =>
    ([fiveMinutesRow, sixtySecondsRow].find? fun row => row.id = id).map
      StoredDocument.document
  projects := fun id => if id = 10 then some intervalConfig else none
  tables := { summaries := [], beliefs := [] }
  collections := fun _ => none
  updates := fun _ => false

/-- A whole ingestion of a document. -/
def intervalRun (documentId : Uuid) (store : Store Unit Unit) :
    Store Unit Unit × Pc String Unit Unit :=
  finalState (store, .fetchJob)
    (trace (runStep intervalLibraries Cag.textSchema ⟨1, documentId, 10⟩)
      (List.replicate 14 (.advance quiet)) (store, .fetchJob))

theorem intervalRun_reachable (documentId : Uuid) (store : Store Unit Unit) :
    Reachable (ingestDocument intervalLibraries Cag.textSchema
      ⟨1, documentId, 10⟩ store) (intervalRun documentId store) :=
  (run_trace _ _ _).reachable (Reachable.initial rfl) _
    (finalState_mem_visited _ _)

/-- The second document is ingested first and once more at the end. -/
def intervalsOnce : Store Unit Unit :=
  (intervalRun 13 intervalStore).1

def intervalsTwice : Store Unit Unit :=
  (intervalRun 12 intervalsOnce).1

def intervalsThrice : Store Unit Unit :=
  (intervalRun 13 intervalsTwice).1

theorem intervalsThrice_ingested :
    Ingested intervalLibraries Cag.textSchema 10 intervalConfig
      [sixtySecondsRow, fiveMinutesRow, sixtySecondsRow]
      intervalsThrice := by
  have once : Ingested intervalLibraries Cag.textSchema 10 intervalConfig
      [sixtySecondsRow] intervalsOnce :=
    Ingested.run (@Ingested.empty _ _ _ _ _ _ _ intervalStore rfl) rfl rfl
      rfl rfl rfl (intervalRun_reachable 13 intervalStore) (Or.inl rfl)
  have twice : Ingested intervalLibraries Cag.textSchema 10 intervalConfig
      [sixtySecondsRow, fiveMinutesRow] intervalsTwice :=
    Ingested.run once rfl rfl rfl rfl rfl
      (intervalRun_reachable 12 intervalsOnce) (Or.inl rfl)
  exact Ingested.run twice rfl rfl rfl rfl rfl
    (intervalRun_reachable 13 intervalsTwice) (Or.inl rfl)

theorem intervals_injective :
    Set.InjOn intervalLibraries.uuid5
      (chunkNames intervalLibraries intervalConfig
        [fiveMinutesRow, sixtySecondsRow]) := by
  refine (listedHash_injOn (by decide)).mono ?_
  rintro name ⟨row, isRow, chunks, chunk, cut, isChunk, rfl⟩
  have index_lt : chunk.index < chunks.length := by
    have numbered := index_documentChunks cut
    rw [← List.mem_range, ← numbered]
    exact List.mem_map_of_mem isChunk
  have two : chunks.length = 2 := by
    simp only [List.mem_cons, List.not_mem_nil, or_false] at isRow
    rcases isRow with rfl | rfl
    · cases cut
      rfl
    · cases cut
      rfl
  have isIndex : chunk.index = 0 ∨ chunk.index = 1 := by omega
  simp only [List.mem_cons, List.not_mem_nil, or_false] at isRow
  rcases isRow with rfl | rfl <;> rcases isIndex with isIndex | isIndex <;>
    simp [isIndex, fiveMinutesRow, sixtySecondsRow]

theorem intervals_agree :
    ∃ after, intervalIngested = some (.ok (), after) ∧
      storedDocuments 10 after.rows = [fiveMinutesRow, sixtySecondsRow] ∧
      Ingested intervalLibraries Cag.textSchema 10 intervalConfig
        [sixtySecondsRow, fiveMinutesRow, sixtySecondsRow] intervalsThrice ∧
      ∀ id, (after.points 10 id).map undated =
        (intervalsThrice.points 10 id).map undated := by
  have returned : intervalIngested =
      some (.ok (), (intervalIngested.get rfl).2) := rfl
  have stored : storedDocuments 10 (intervalIngested.get rfl).2.rows =
      [fiveMinutesRow, sixtySecondsRow] := rfl
  have created : intervalSetup = (.ok (), intervalSetup.2) := rfl
  have noCollection : sampleBench.collections 10 = none := rfl
  have injective : Set.InjOn intervalLibraries.uuid5
      (chunkNames intervalLibraries intervalConfig
        (storedDocuments 10 (intervalIngested.get rfl).2.rows)) := by
    rw [stored]
    exact intervals_injective
  obtain ⟨_, agrees⟩ :=
    fixtures_agree noCollection created returned injective
  refine ⟨_, returned, stored, intervalsThrice_ingested,
    agrees intervalsThrice_ingested fun row => ?_⟩
  rw [stored]
  simp only [List.mem_cons, List.not_mem_nil, or_false]
  tauto

end ProjectMemory.Eval
