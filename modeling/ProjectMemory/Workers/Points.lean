import ProjectMemory.Workers.Ingest

/-!
# The points a failed run leaves behind

A run writes the points of its document in one request and takes none of them
back.  What a run that raises leaves in the collection is therefore what that
request had stored by then: nothing before it, what Qdrant kept of a failing
one, and every chunk from then on.
-/

namespace ProjectMemory.Workers

open Foundation Ingestion

section Law

variable {Dense Sparse : Type}

/-- The points of a project; a collection that does not exist has none. -/
def Store.points (store : Store Dense Sparse) (projectId : Uuid) :
    Collection Dense Sparse :=
  (store.collections projectId).getD fun _ => none

/-- The second collection has no point of the document and otherwise the
points of the first. -/
def Clean (documentId : Uuid) (before after : Collection Dense Sparse) :
    Prop :=
  (∀ id point, after id = some point → ¬ point.IsOf documentId) ∧
    ∀ id point, ¬ point.IsOf documentId →
      (after id = some point ↔ before id = some point)

/-- The chunks of the stored document, if it can be parsed and cut. -/
def storedChunks (libraries : Libraries Dense Sparse)
    (arguments : Arguments) (store : Store Dense Sparse) : List Chunk :=
  match store.documents arguments.documentId,
      store.projects arguments.projectId with
  | some document, some config =>
      match documentChunks libraries document config with
      | some (.ok chunks) => chunks
      | _ => []
  | _, _ => []

/-- Where a statement stands relative to the upsert. -/
def Stage.relativeToUpsert : Stage → Ordering
  | .fetchJob | .commitRunning | .fetchDocument | .fetchProject | .index
  | .collectionExists | .createCollection => .lt
  | .upsert => .eq
  | .summarize | .insertSummary | .commitSummary | .getLatest
  | .countPending | .enqueue | .commitComplete => .gt

/-- The points that were stored when the exception was raised: none before
the upsert, those a failing upsert kept, and all of them after it. -/
def Failure.kept (failure : Failure) (id : String) : Bool :=
  match failure.stage.relativeToUpsert with
  | .lt => false
  | .eq => failure.fault.stored id
  | .gt => true

/-- The exception was raised before the upsert had stored a chunk of the
document, or the document has no chunks. -/
def RaisedBeforePoints (libraries : Libraries Dense Sparse)
    (arguments : Arguments) (start : Store Dense Sparse)
    (failure : Failure) : Prop :=
  ∀ chunk ∈ storedChunks libraries arguments start,
    failure.kept (pointId libraries arguments.documentId chunk.index) = false

end Law

/-! ## What a run knows of its document -/

section Known

variable {Content Dense Sparse : Type} {libraries : Libraries Dense Sparse}
  {schema : Schema Content} {arguments : Arguments}
  {start store target : Store Dense Sparse} {choice : Choice}
  {pc next : Pc Content Dense Sparse} {indexed : Indexed Dense Sparse}

def IndexedFrom (libraries : Libraries Dense Sparse) (arguments : Arguments)
    (start : Store Dense Sparse) (indexed : Indexed Dense Sparse) : Prop :=
  ∃ document config,
    start.documents arguments.documentId = some document ∧
      start.projects arguments.projectId = some config ∧
      indexDocument libraries document config = some (.ok indexed)

def Known (libraries : Libraries Dense Sparse) (arguments : Arguments)
    (start : Store Dense Sparse) : Pc Content Dense Sparse → Prop
  | .fetchProject document =>
      start.documents arguments.documentId = some document
  | .index document config =>
      start.documents arguments.documentId = some document ∧
        start.projects arguments.projectId = some config
  | .collectionExists _ indexed | .createCollection _ indexed
  | .upsert _ indexed => IndexedFrom libraries arguments start indexed
  | _ => True

theorem Executes.known
    (executes :
      Executes libraries schema arguments store choice pc target next)
    (documents : store.documents = start.documents)
    (projects : store.projects = start.projects)
    (known : Known libraries arguments start pc) :
    Known libraries arguments start next := by
  cases executes with
  | fetchDocument found =>
      rw [documents] at found
      exact found
  | fetchProject found =>
      rw [projects] at found
      exact ⟨known, found⟩
  | index indexedAs => exact ⟨_, _, known.1, known.2, indexedAs⟩
  | collectionExists present => exact known
  | collectionMissing => exact known
  | createCollection absent => exact known
  | _ => trivial

theorem Handles.known
    (handles : Handles arguments store choice pc target next) :
    Known libraries arguments start next := by
  cases handles <;> trivial

theorem advance_known
    (taken : advance libraries schema arguments store choice pc =
      some (target, next))
    (documents : store.documents = start.documents)
    (projects : store.projects = start.projects)
    (known : Known libraries arguments start pc) :
    Known libraries arguments start next := by
  rcases advance_cases taken with
    ⟨stage, fault, _, _, rfl⟩ | ⟨_, executes⟩ | handles
  · trivial
  · exact executes.known documents projects known
  · exact handles.known

theorem IndexedFrom.chunks
    (indexedFrom : IndexedFrom libraries arguments start indexed) :
    indexed.results.map Prod.fst = storedChunks libraries arguments start := by
  obtain ⟨document, config, isDocument, isConfig, indexedAs⟩ := indexedFrom
  simp only [storedChunks, isDocument, isConfig,
    documentChunks_of_indexDocument indexedAs]

/-- The chunks of one document carry different numbers. -/
theorem IndexedFrom.eq_of_index
    (indexedFrom : IndexedFrom libraries arguments start indexed)
    {left right : Chunk}
    (isLeft : left ∈ storedChunks libraries arguments start)
    (isRight : right ∈ storedChunks libraries arguments start)
    (same : left.index = right.index) : left = right := by
  rw [← indexedFrom.chunks] at isLeft isRight
  obtain ⟨document, config, _, _, indexedAs⟩ := indexedFrom
  have numbered :=
    index_documentChunks (documentChunks_of_indexDocument indexedAs)
  refine List.inj_on_of_nodup_map ?_ isLeft isRight same
  rw [numbered]
  exact List.nodup_range

theorem mem_pointsOf {projectId documentId : Uuid} {now : Timestamp}
    {id : String} {point : Point Dense Sparse}
    (member :
      (id, point) ∈ pointsOf libraries projectId documentId indexed now) :
    ∃ chunk ∈ indexed.results.map Prod.fst,
      id = pointId libraries documentId chunk.index ∧
      point.payload.documentId = documentId.str ∧
      point.payload.projectId = projectId.str ∧
      point.payload.chunkIndex = chunk.index ∧
      point.payload.text = chunk.text ∧
      point.payload.filename = chunk.filename.getD "" := by
  obtain ⟨⟨chunk, vector⟩, inResults, same⟩ := List.mem_map.mp member
  simp only [Prod.mk.injEq] at same
  obtain ⟨sameId, samePoint⟩ := same
  have isChunk : chunk ∈ indexed.results.map Prod.fst :=
    List.mem_map.mpr ⟨(chunk, vector), inResults, rfl⟩
  refine ⟨chunk, isChunk, sameId.symm, ?_⟩
  rw [← samePoint]
  exact ⟨rfl, rfl, rfl, rfl, rfl⟩

theorem pointId_mem_pointsOf {chunk : Chunk}
    (member : chunk ∈ indexed.results.map Prod.fst)
    (projectId documentId : Uuid) (now : Timestamp) :
    pointId libraries documentId chunk.index ∈
      (pointsOf libraries projectId documentId indexed now).map
        Prod.fst := by
  obtain ⟨⟨original, vector⟩, inResults, rfl⟩ := List.mem_map.mp member
  exact List.mem_map.mpr
    ⟨_, List.mem_map.mpr ⟨_, inResults, rfl⟩, rfl⟩

/-- Nothing is kept of the points of a document exactly when none of its chunks
is. -/
theorem IndexedFrom.filter_pointsOf_eq_nil
    (indexedFrom : IndexedFrom libraries arguments start indexed)
    (kept : String → Bool) (now : Timestamp) :
    ((pointsOf libraries arguments.projectId arguments.documentId indexed
        now).filter fun point => kept point.1) = [] ↔
      ∀ chunk ∈ storedChunks libraries arguments start,
        kept (pointId libraries arguments.documentId chunk.index) =
          false := by
  rw [List.filter_eq_nil_iff, ← indexedFrom.chunks]
  constructor
  · intro none chunk member
    have written := @pointId_mem_pointsOf _ _ libraries _ _ member
      arguments.projectId arguments.documentId now
    obtain ⟨point, isPoint, sameId⟩ := List.mem_map.mp written
    have notKept := none point isPoint
    rw [sameId, Bool.not_eq_true] at notKept
    exact notKept
  · rintro none ⟨id, point⟩ isPoint
    obtain ⟨chunk, member, sameId, _⟩ := mem_pointsOf isPoint
    rw [sameId, none chunk member]
    exact Bool.false_ne_true

end Known

/-! ## The invariant -/

section Proof

variable {Content Dense Sparse : Type} {libraries : Libraries Dense Sparse}
  {schema : Schema Content} {arguments : Arguments}
  {start store target : Store Dense Sparse} {choice : Choice}
  {pc next : Pc Content Dense Sparse}

/-- The points are those at the start, with the selected points of the
document written over them. -/
def Written (libraries : Libraries Dense Sparse) (arguments : Arguments)
    (start : Store Dense Sparse) (kept : String → Bool)
    (points : Collection Dense Sparse) : Prop :=
  (points = start.points arguments.projectId ∧ ∀ id, kept id = false) ∨
    ∃ indexed now, IndexedFrom libraries arguments start indexed ∧
      points = Foundation.upsert (start.points arguments.projectId)
        ((pointsOf libraries arguments.projectId arguments.documentId
          indexed now).filter fun point => kept point.1)

def Pc.kept : Pc Content Dense Sparse → String → Bool
  | .summarize _ | .insertSummary _ _ | .commitSummary _ _ | .getLatest _
  | .countPending _ _ | .enqueue | .commitComplete | .completed =>
      fun _ => true
  | .markFailedFetch failure | .markFailedCommit failure
  | .raised failure _ => failure.kept
  | _ => fun _ => false

theorem putPoints_points {projectId : Uuid}
    (points : List (String × Point Dense Sparse))
    (present : (store.collections projectId).isSome = true) :
    (store.putPoints projectId points).points projectId =
      Foundation.upsert (store.points projectId) points := by
  obtain ⟨collection, found⟩ := Option.isSome_iff_exists.mp present
  simp [Store.points, Store.putPoints, found]

theorem putPoints_of_none {projectId : Uuid}
    (points : List (String × Point Dense Sparse))
    (absent : store.collections projectId = none) :
    (store.putPoints projectId points).points projectId =
      store.points projectId := by
  simp [Store.points, Store.putPoints, absent]

theorem Effect.points
    (effect : Effect libraries arguments store pc target)
    (other : pc.stage ≠ some .upsert) :
    target.points arguments.projectId = store.points arguments.projectId := by
  cases effect with
  | none | job | summary | record | enqueue => rfl
  | create absent => simp [Store.points, absent]
  | put now kept => exact absurd rfl other

theorem kept_failure {stage : Stage} {fault : Fault} {now : Timestamp}
    (isStage : pc.stage = some stage) (other : pc.stage ≠ some .upsert)
    (projectId : Uuid) :
    (pc.failure stage projectId fault now).kept = pc.kept := by
  funext id
  cases pc <;> cases isStage <;>
    first
      | rfl
      | exact absurd rfl other

theorem Executes.kept
    (executes :
      Executes libraries schema arguments store choice pc target next)
    (other : pc.stage ≠ some .upsert) : next.kept = pc.kept := by
  cases executes with
  | upsert present => exact absurd rfl other
  | _ => rfl

theorem Handles.kept
    (handles : Handles arguments store choice pc target next) :
    next.kept = pc.kept := by
  cases handles <;> rfl

theorem Pc.eq_upsert (isUpsert : pc.stage = some .upsert) :
    ∃ config indexed, pc = .upsert config indexed := by
  cases pc with
  | upsert config indexed => exact ⟨config, indexed, rfl⟩
  | _ => cases isUpsert

theorem Written.eq_start {kept : String → Bool}
    {points : Collection Dense Sparse}
    (written : Written libraries arguments start kept points)
    (none : ∀ id, kept id = false) :
    points = start.points arguments.projectId := by
  rcases written with ⟨same, _⟩ | ⟨indexed, now, indexedFrom, same⟩
  · exact same
  · have empty := (indexedFrom.filter_pointsOf_eq_nil kept now).mpr
      fun _ _ => none _
    rw [same, empty, upsert_nil]

/-- A run knows its document, and the points are those it has written. -/
structure Progress (libraries : Libraries Dense Sparse)
    (arguments : Arguments) (start store : Store Dense Sparse)
    (pc : Pc Content Dense Sparse) : Prop where
  documents : store.documents = start.documents
  projects : store.projects = start.projects
  known : Known libraries arguments start pc
  written : Written libraries arguments start pc.kept
    (store.points arguments.projectId)
  exists_collection : pc.stage = some .upsert →
    (store.collections arguments.projectId).isSome = true

theorem Executes.exists_collection
    (executes :
      Executes libraries schema arguments store choice pc target next)
    (isUpsert : next.stage = some .upsert) :
    (target.collections arguments.projectId).isSome = true := by
  cases executes with
  | collectionExists present => exact present
  | createCollection absent => simp
  | _ => cases isUpsert

theorem Handles.stage
    (handles : Handles arguments store choice pc target next) :
    next.stage = none := by
  cases handles <;> rfl

theorem advance_exists_collection
    (taken : advance libraries schema arguments store choice pc =
      some (target, next))
    (isUpsert : next.stage = some .upsert) :
    (target.collections arguments.projectId).isSome = true := by
  rcases advance_cases taken with
    ⟨stage, fault, _, _, rfl⟩ | ⟨_, executes⟩ | handles
  · cases isUpsert
  · exact executes.exists_collection isUpsert
  · rw [handles.stage] at isUpsert
    cases isUpsert

theorem advance_written_of_ne
    (taken : advance libraries schema arguments store choice pc =
      some (target, next))
    (other : pc.stage ≠ some .upsert)
    (written : Written libraries arguments start pc.kept
      (store.points arguments.projectId)) :
    Written libraries arguments start next.kept
      (target.points arguments.projectId) := by
  have samePoints := (advance_effect taken).points other
  have sameKept : next.kept = pc.kept := by
    rcases advance_cases taken with
      ⟨stage, fault, isStage, _, rfl⟩ | ⟨_, executes⟩ | handles
    · exact kept_failure isStage other arguments.projectId
    · exact executes.kept other
    · exact handles.kept
  rw [samePoints, sameKept]
  exact written

/-- The upsert writes the points of the document, or those a failing one
kept. -/
theorem advance_written_of_upsert {config : ProjectConfig}
    {indexed : Indexed Dense Sparse}
    (taken : advance libraries schema arguments store choice
      (.upsert config indexed) = some (target, next))
    (progress : Progress libraries arguments start store
      (.upsert config indexed : Pc Content Dense Sparse)) :
    Written libraries arguments start next.kept
      (target.points arguments.projectId) := by
  have present := progress.exists_collection rfl
  have unwritten : store.points arguments.projectId =
      start.points arguments.projectId :=
    progress.written.eq_start fun _ => rfl
  rcases advance_cases taken with
    ⟨stage, fault, isStage, rfl, rfl⟩ | ⟨_, executes⟩ | handles
  · cases isStage
    refine Or.inr ⟨indexed, choice.now, progress.known, ?_⟩
    rw [← unwritten]
    exact putPoints_points _ present
  · cases executes
    refine Or.inr ⟨indexed, choice.now, progress.known, ?_⟩
    rw [← unwritten, putPoints_points _ present]
    simp only [Pc.kept, List.filter_true]
  · cases handles

theorem advance_progress
    (taken : advance libraries schema arguments store choice pc =
      some (target, next))
    (progress : Progress libraries arguments start store pc) :
    Progress libraries arguments start target next where
  documents := (advance_effect taken).documents.trans progress.documents
  projects := (advance_effect taken).projects.trans progress.projects
  known :=
    advance_known taken progress.documents progress.projects progress.known
  written := by
    by_cases isUpsert : pc.stage = some .upsert
    · obtain ⟨config, indexed, rfl⟩ := Pc.eq_upsert isUpsert
      exact advance_written_of_upsert taken progress
    · exact advance_written_of_ne taken isUpsert progress.written
  exists_collection := advance_exists_collection taken

theorem progress_of_reachable
    {state : Store Dense Sparse × Pc Content Dense Sparse}
    (reachable :
      Reachable (ingestDocument libraries schema arguments start) state) :
    Progress libraries arguments start state.1 state.2 := by
  refine @invariant_of_step _ _ _
    (fun state => Progress libraries arguments start state.1 state.2)
    ?_ ?_ state reachable
  · rintro _ rfl
    exact ⟨rfl, rfl, trivial, Or.inl ⟨rfl, fun _ => rfl⟩,
      fun isUpsert => by cases isUpsert⟩
  · rintro ⟨store, pc⟩ label ⟨target, next⟩ progress taken
    cases label with
    | advance choice => exact advance_progress taken progress
    | interfere jobs tables updates =>
        cases taken
        exact ⟨progress.documents, progress.projects, progress.known,
          progress.written, progress.exists_collection⟩

/-! ## The law -/

/-- Where nothing was written the collection is clean, and one written point
makes it unclean. -/
theorem clean_iff_of_written {kept : String → Bool}
    {points : Collection Dense Sparse}
    (first : ∀ id point, start.points arguments.projectId id = some point →
      ¬ point.IsOf arguments.documentId)
    (written : Written libraries arguments start kept points) :
    Clean arguments.documentId (start.points arguments.projectId) points ↔
      ∀ chunk ∈ storedChunks libraries arguments start,
        kept (pointId libraries arguments.documentId chunk.index) =
          false := by
  rcases written with ⟨rfl, none⟩ | ⟨indexed, now, indexedFrom, rfl⟩
  · refine iff_of_true ⟨first, fun _ _ _ => Iff.rfl⟩ fun _ _ => none _
  · rw [← indexedFrom.filter_pointsOf_eq_nil kept now]
    constructor
    · intro clean
      by_contra nonempty
      obtain ⟨point, isKept⟩ := List.exists_mem_of_ne_nil _ nonempty
      obtain ⟨stored, isStored, found⟩ := upsert_of_mem
        (start.points arguments.projectId)
        (List.mem_map.mpr ⟨point, isKept, rfl⟩)
      obtain ⟨_, _, _, isOf, _⟩ :=
        mem_pointsOf (List.mem_filter.mp isStored).1
      exact clean.1 _ _ found isOf
    · intro empty
      rw [empty, upsert_nil]
      exact ⟨first, fun _ _ _ => Iff.rfl⟩

/-- A first run that ends with its job failed leaves the collection as it was
exactly when it raised before a chunk of the document was stored. -/
theorem failed_clean_iff
    (first : ∀ id point, start.points arguments.projectId id = some point →
      ¬ point.IsOf arguments.documentId)
    {failure : Failure} {replacement : Option HandlerError}
    (reachable :
      Reachable (ingestDocument libraries schema arguments start)
        (store, .raised failure replacement)) :
    (store.jobs arguments.jobId).map IngestionJob.status = some .failed →
      (Clean arguments.documentId (start.points arguments.projectId)
          (store.points arguments.projectId) ↔
        RaisedBeforePoints libraries arguments start failure) := by
  intro _
  exact clean_iff_of_written first (progress_of_reachable reachable).written

theorem sampleStore_points (id : String) : sampleStore.points 3 id = none :=
  rfl

theorem parse_failure_clean :
    ∃ store failure,
      Reachable (ingestDocument sampleLibraries Cag.textSchema
        sampleArguments sampleStore) (store, .raised failure none) ∧
      Clean 2 (sampleStore.points 3) (store.points 3) := by
  have reachable := @reachable_of_follow _ _
    (fun state => state = (sampleStore, Pc.fetchJob))
    (runStep sampleLibraries Cag.textSchema sampleArguments)
    (failingAfter 4 (failing "Failed to extract text from PDF" false) 2)
    (sampleStore, Pc.fetchJob) _ (Reachable.initial rfl) rfl
  refine ⟨_, _, reachable, ?_⟩
  refine (failed_clean_iff ?_ reachable rfl).mpr fun _ _ => rfl
  intro id point found
  rw [show sampleArguments.projectId = 3 from rfl, sampleStore_points]
    at found
  cases found

/-- The queue is down when the run turns to it: the job fails, and the chunk
of the document stays in the collection. -/
theorem failed_enqueue_leaves_points :
    ∃ store failure,
      Reachable (ingestDocument sampleLibraries Cag.textSchema
        sampleArguments sampleStore) (store, .raised failure none) ∧
      (∀ id, sampleStore.points 3 id = none) ∧
      failure.stage = .enqueue ∧
      (store.jobs 1).map IngestionJob.status = some .failed ∧
      ¬ Clean 2 (sampleStore.points 3) (store.points 3) := by
  refine ⟨_, _, @reachable_of_follow _ _ _ _
    (failingAfter 13 (failing "Connection refused" false) 2) _ _
    (Reachable.initial rfl) rfl, sampleStore_points, rfl, rfl, ?_⟩
  intro clean
  exact clean.1 (pointId sampleLibraries 2 0) _ rfl rfl

end Proof

end ProjectMemory.Workers
