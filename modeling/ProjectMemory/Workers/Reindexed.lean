import ProjectMemory.Workers.Reindex
import ProjectMemory.Workers.Retry

/-!
# Reindexing and ingesting agree

Both jobs index a document in the same way and write its points under the same
identifiers.  So the collection depends only on which documents were indexed:
their order, repetitions and what was stored before do not matter.

Qdrant refuses an upsert without points.  An ingestion of a document without
chunks fails alone; a reindex stops there, and the documents behind it in the
snapshot are not indexed.
-/

namespace ProjectMemory.Workers

open Foundation Ingestion

section Law

variable {Content Dense Sparse : Type}

/-- A point without the time it was written at. -/
def undated (point : Point Dense Sparse) : Point Dense Sparse :=
  { point with payload := { point.payload with createdAt := 0 } }

/-- The document can be indexed and has no chunks. -/
def blank (libraries : Libraries Dense Sparse) (config : ProjectConfig)
    (row : StoredDocument) : Bool :=
  match indexDocument libraries row.document config with
  | some (.ok indexed) => indexed.results.isEmpty
  | _ => false

/-- No document without chunks comes before one with chunks. -/
def BlanksLast (libraries : Libraries Dense Sparse) (config : ProjectConfig)
    (documents : List StoredDocument) : Prop :=
  documents.Pairwise fun earlier later =>
    blank libraries config earlier = true →
      blank libraries config later = true

/-- The upsert of the run has failed. -/
def Pc.refused : Pc Content Dense Sparse → Bool
  | .markFailedFetch failure | .markFailedCommit failure
  | .raised failure _ => failure.stage = .upsert
  | _ => false

/-- The points of a store after runs of `ingest_document` for some documents,
one after the other, on an empty collection.  Each run has written its points,
or its document has none and Qdrant has refused them; what happens to the
other tables between the runs is left open. -/
inductive Ingested (libraries : Libraries Dense Sparse)
    (schema : Schema Content) (projectId : Uuid) (config : ProjectConfig) :
    List StoredDocument → Store Dense Sparse → Prop
  | empty {store : Store Dense Sparse} :
      (store.points projectId = fun _ => none) →
      Ingested libraries schema projectId config [] store
  | run {runs : List StoredDocument} {row : StoredDocument}
      {store start target : Store Dense Sparse} {arguments : Arguments}
      {pc : Pc Content Dense Sparse} :
      Ingested libraries schema projectId config runs store →
      start.points projectId = store.points projectId →
      start.documents row.id = some row.document →
      start.projects projectId = some config →
      arguments.documentId = row.id →
      arguments.projectId = projectId →
      Reachable (ingestDocument libraries schema arguments start)
        (target, pc) →
      (pc.upserted = true ∨
        pc.refused = true ∧ blank libraries config row = true) →
      Ingested libraries schema projectId config (runs ++ [row]) target

/-- The documents of a project. -/
def documentsOf (projectId : Uuid) (rows : List StoredDocument) :
    List StoredDocument :=
  rows.filter fun row => row.projectId = projectId

/-- The names of the chunks of some documents. -/
def chunkNames (libraries : Libraries Dense Sparse) (config : ProjectConfig)
    (rows : List StoredDocument) : Set String :=
  { name | ∃ row ∈ rows, ∃ chunks chunk,
      documentChunks libraries row.document config = some (.ok chunks) ∧
        chunk ∈ chunks ∧ name = pointName row.id chunk.index }

end Law

section Indexed

variable {Content Dense Sparse : Type} {libraries : Libraries Dense Sparse}
  {schema : Schema Content} {projectId : Uuid} {config : ProjectConfig}
  {store : Store Dense Sparse} {done runs : List StoredDocument}
  {points other : Collection Dense Sparse}

theorem Pc.kept_of_upserted {pc : Pc Content Dense Sparse}
    (upserted : pc.upserted = true) (id : String) : pc.kept id = true := by
  cases pc <;> first
    | rfl
    | cases upserted

theorem indexed_of_blank {row : StoredDocument}
    (isBlank : blank libraries config row = true) :
    ∃ indexed,
      indexDocument libraries row.document config = some (.ok indexed) ∧
        indexed.results = [] := by
  unfold blank at isBlank
  split at isBlank
  · rename_i indexed indexedAs
    exact ⟨indexed, indexedAs, List.isEmpty_iff.mp isBlank⟩
  · cases isBlank

theorem blank_iff {row : StoredDocument} {indexed : Indexed Dense Sparse}
    (indexedAs :
      indexDocument libraries row.document config = some (.ok indexed)) :
    blank libraries config row = true ↔ indexed.results = [] := by
  rw [blank, indexedAs]
  exact List.isEmpty_iff

theorem pointsOf_of_blank {row : StoredDocument}
    {indexed : Indexed Dense Sparse} {documentId : Uuid} {now : Timestamp}
    (isBlank : blank libraries config row = true)
    (indexedAs :
      indexDocument libraries row.document config = some (.ok indexed)) :
    pointsOf libraries projectId documentId indexed now = [] :=
  List.isEmpty_iff.mp
    (pointsOf_isEmpty.mpr ((blank_iff indexedAs).mp isBlank))

theorem chunkIds_eq_nil_iff {row : StoredDocument}
    {indexed : Indexed Dense Sparse}
    (indexedAs :
      indexDocument libraries row.document config = some (.ok indexed)) :
    chunkIds libraries config row = [] ↔
      blank libraries config row = true := by
  rw [blank_iff indexedAs, chunkIds,
    documentChunks_of_indexDocument indexedAs, List.map_eq_nil_iff,
    List.map_eq_nil_iff]

/-- A document without chunks adds nothing. -/
theorem IndexedAll.blank {row : StoredDocument}
    (written : IndexedAll libraries projectId config done points)
    (isBlank : blank libraries config row = true) :
    IndexedAll libraries projectId config (done ++ [row]) points := by
  obtain ⟨indexed, indexedAs, _⟩ := indexed_of_blank isBlank
  have added := @IndexedAll.snoc _ _ _ _ _ _ row _ _ 0 written indexedAs
  rw [pointsOf_of_blank isBlank indexedAs] at added
  exact added

theorem IndexedAll.blanks {rest : List StoredDocument}
    (written : IndexedAll libraries projectId config done points)
    (areBlank : ∀ row ∈ rest, Workers.blank libraries config row = true) :
    IndexedAll libraries projectId config (done ++ rest) points := by
  induction rest generalizing done with
  | nil =>
      rw [List.append_nil]
      exact written
  | cons row rest inductionHypothesis =>
      obtain ⟨here, later⟩ := List.forall_mem_cons.mp areBlank
      have further := inductionHypothesis (written.blank here) later
      rw [List.append_assoc] at further
      exact further

/-- A sequence of ingestions writes what it has indexed. -/
theorem Ingested.indexedAll
    (ingested :
      Ingested libraries schema projectId config runs store) :
    IndexedAll libraries projectId config runs (store.points projectId) := by
  induction ingested with
  | empty isEmpty =>
      rw [isEmpty]
      exact IndexedAll.nil
  | @run runs row store start target arguments pc _ samePoints isDocument
      isConfig ofDocument ofProject reachable ended inductionHypothesis =>
      subst ofProject
      have progress := progress_of_reachable reachable
      rcases ended with upserted | ⟨_, isBlank⟩
      · rcases progress.written with
          ⟨_, none⟩ | ⟨indexed, now, indexedFrom, written⟩
        · have noneKept := none ""
          rw [Pc.kept_of_upserted upserted] at noneKept
          cases noneKept
        · obtain ⟨document, found, documentIs, configIs, indexedAs⟩ :=
            indexedFrom
          rw [ofDocument, isDocument, Option.some.injEq] at documentIs
          rw [isConfig, Option.some.injEq] at configIs
          subst documentIs configIs
          simp only [Pc.kept_of_upserted upserted, List.filter_true,
            samePoints, ofDocument] at written
          rw [written]
          exact IndexedAll.snoc inductionHypothesis indexedAs
      · have unchanged : target.points arguments.projectId =
            store.points arguments.projectId := by
          rw [← samePoints]
          rcases progress.written with
            ⟨same, _⟩ | ⟨indexed, now, indexedFrom, written⟩
          · exact same
          · obtain ⟨document, found, documentIs, configIs, indexedAs⟩ :=
              indexedFrom
            rw [ofDocument, isDocument, Option.some.injEq] at documentIs
            rw [isConfig, Option.some.injEq] at configIs
            subst documentIs configIs
            rw [written, pointsOf_of_blank isBlank indexedAs]
            rfl
        rw [unchanged]
        exact inductionHypothesis.blank isBlank

/-- A stored point is the point of a chunk of one of the documents. -/
theorem IndexedAll.row_of_found
    (written : IndexedAll libraries projectId config done points)
    {id : String} {point : Point Dense Sparse}
    (found : points id = some point) :
    ∃ row ∈ done, ∃ indexed now,
      indexDocument libraries row.document config = some (.ok indexed) ∧
        (id, point) ∈ pointsOf libraries projectId row.id indexed now := by
  induction written with
  | nil => cases found
  | @snoc done row points indexed now written indexedAs
      inductionHypothesis =>
      rcases upsert_cases points
          (pointsOf libraries projectId row.id indexed now) id with
        same | ⟨stored, member, isStored⟩
      · rw [same] at found
        obtain ⟨earlier, isEarlier, rest⟩ := inductionHypothesis found
        exact ⟨earlier, List.mem_append_left _ isEarlier, rest⟩
      · rw [isStored, Option.some.injEq] at found
        subst found
        exact ⟨row, List.mem_append_right _ List.mem_cons_self, indexed, now,
          indexedAs, member⟩

/-- Two points of one document with the same number differ in their times
only. -/
theorem undated_eq {row : StoredDocument} {indexed : Indexed Dense Sparse}
    (indexedAs :
      indexDocument libraries row.document config = some (.ok indexed))
    {first second : Timestamp} {leftId rightId : String}
    {left right : Point Dense Sparse}
    (isLeft : (leftId, left) ∈
      pointsOf libraries projectId row.id indexed first)
    (isRight : (rightId, right) ∈
      pointsOf libraries projectId row.id indexed second)
    (sameIndex : left.payload.chunkIndex = right.payload.chunkIndex) :
    undated left = undated right := by
  have numbered :=
    index_documentChunks (documentChunks_of_indexDocument indexedAs)
  have distinct : (indexed.results.map fun pair => pair.1.index).Nodup := by
    rw [List.map_map] at numbered
    have isRange : (indexed.results.map fun pair => pair.1.index) =
        List.range (indexed.results.map Prod.fst).length := numbered
    rw [isRange]
    exact List.nodup_range
  obtain ⟨leftPair, leftMember, leftSame⟩ := List.mem_map.mp isLeft
  obtain ⟨rightPair, rightMember, rightSame⟩ := List.mem_map.mp isRight
  simp only [Prod.mk.injEq] at leftSame rightSame
  obtain ⟨_, isLeftPoint⟩ := leftSame
  obtain ⟨_, isRightPoint⟩ := rightSame
  rw [← isLeftPoint, ← isRightPoint] at sameIndex
  have samePair : leftPair = rightPair :=
    List.inj_on_of_nodup_map distinct leftMember rightMember sameIndex
  rw [← isLeftPoint, ← isRightPoint, samePair]
  simp only [undated]

/-- Where the hash tells the names of the chunks apart, the points depend on
the set of the documents alone. -/
theorem IndexedAll.undated_unique
    (written : IndexedAll libraries projectId config done points)
    (otherWritten : IndexedAll libraries projectId config runs other)
    (sameDocuments : ∀ row, row ∈ runs ↔ row ∈ done)
    (distinct : ∀ left ∈ done, ∀ right ∈ done,
      left.id = right.id → left = right)
    (injective :
      Set.InjOn libraries.uuid5 (chunkNames libraries config done))
    (id : String) :
    (points id).map undated = (other id).map undated := by
  have sameKeys : (points id).isSome = true ↔ (other id).isSome = true := by
    rw [written.isSome_iff, otherWritten.isSome_iff]
    simp only [List.mem_flatMap, sameDocuments]
  cases found : points id with
  | none =>
      rw [found] at sameKeys
      have absent : other id = none := by
        cases otherFound : other id with
        | none => rfl
        | some point =>
            rw [otherFound] at sameKeys
            cases sameKeys.mpr rfl
      rw [absent]
  | some point =>
      rw [found] at sameKeys
      obtain ⟨otherPoint, otherFound⟩ :=
        Option.isSome_iff_exists.mp (sameKeys.mp rfl)
      obtain ⟨row, isRow, indexed, now, indexedAs, member⟩ :=
        written.row_of_found found
      obtain ⟨otherRow, isOtherRow, otherIndexed, otherNow, otherIndexedAs,
        otherMember⟩ := otherWritten.row_of_found otherFound
      have otherDone := (sameDocuments otherRow).mp isOtherRow
      obtain ⟨chunk, isChunk, isId, _, _, isIndex, _⟩ := mem_pointsOf member
      obtain ⟨otherChunk, isOtherChunk, isOtherId, _, _, isOtherIndex, _⟩ :=
        mem_pointsOf otherMember
      have same := pointId_injective injective
        ⟨row, isRow, _, chunk, documentChunks_of_indexDocument indexedAs,
          isChunk, rfl⟩
        ⟨otherRow, otherDone, _, otherChunk,
          documentChunks_of_indexDocument otherIndexedAs, isOtherChunk, rfl⟩
        (isId.symm.trans isOtherId)
      have sameRow : row = otherRow :=
        distinct row isRow otherRow otherDone same.1
      subst sameRow
      rw [indexedAs, Option.some.injEq, Except.ok.injEq] at otherIndexedAs
      subst otherIndexedAs
      have sameIndex :
          point.payload.chunkIndex = otherPoint.payload.chunkIndex := by
        rw [isIndex, isOtherIndex, same.2]
      rw [otherFound, Option.map_some, Option.map_some,
        undated_eq indexedAs member otherMember sameIndex]

end Indexed

/-! ## The reindex -/

section Reindex

variable {Dense Sparse : Type} {libraries : Libraries Dense Sparse}
  {projectId : Uuid} {rows documents : List StoredDocument}
  {start store target : Store Dense Sparse} {config : ProjectConfig}
  {order : List Nat} {choice : ReindexChoice}
  {pc next : ReindexPc Dense Sparse}

/-- A `reindex_project` that nothing from outside makes fail, and the order in
which the query returns the documents. -/
def reindexAlone (libraries : Libraries Dense Sparse) (projectId : Uuid)
    (rows : List StoredDocument) (order : List Nat)
    (start : Store Dense Sparse) :
    TransitionSystem (Store Dense Sparse × ReindexPc Dense Sparse)
      ReindexChoice :=
  TransitionSystem.ofNext (fun state => state = (start, .fetchProject))
    fun state choice =>
      if choice.fault.isNone = true ∧ choice.order = order then
        reindexAdvance libraries projectId rows state.1 choice state.2
      else none

theorem reindexAlone_step {source next : Store Dense Sparse ×
      ReindexPc Dense Sparse} :
    (reindexAlone libraries projectId rows order start).step source choice
        next ↔
      (choice.fault = none ∧ choice.order = order) ∧
        reindexAdvance libraries projectId rows source.1 choice source.2 =
          some next := by
  rw [← Option.isNone_iff_eq_none]
  exact Option.ite_none_right_eq_some

theorem reachable_of_alone
    {state : Store Dense Sparse × ReindexPc Dense Sparse}
    (reachable :
      Reachable (reindexAlone libraries projectId rows order start) state) :
    Reachable (reindexProject libraries projectId rows start) state := by
  induction reachable with
  | initial isInitial => exact Reachable.initial isInitial
  | step _ taken inductionHypothesis =>
      exact Reachable.step inductionHypothesis
        (reindexAlone_step.mp taken).2

/-- The documents that were indexed all had chunks. -/
def NoneBlank (libraries : Libraries Dense Sparse) (config : ProjectConfig)
    (done : List StoredDocument) : Prop :=
  ∀ row ∈ done, blank libraries config row = false

/-- How far a reindex that nothing disturbs has come in its snapshot; it can
only be stopped by a document without chunks. -/
def Reads (libraries : Libraries Dense Sparse) (projectId : Uuid)
    (config : ProjectConfig) (documents : List StoredDocument)
    (store : Store Dense Sparse) : ReindexPc Dense Sparse → Prop
  | .fetchProject => True
  | .fetchDocuments current => current = config
  | .deleteExists current rest | .deleteCollection current rest
  | .ensureExists current rest | .ensureCreate current rest =>
      current = config ∧ rest = documents
  | .index current done rest =>
      current = config ∧ done ++ rest = documents ∧
        NoneBlank libraries config done
  | .upsertExists current done row rest _
  | .upsertCreate current done row rest _
  | .upsert current done row rest _ =>
      current = config ∧ done ++ row :: rest = documents ∧
        NoneBlank libraries config done
  | .completed current done =>
      current = config ∧ done = documents ∧ NoneBlank libraries config done
  | .raised _ _ _ =>
      ∃ done row rest, done ++ row :: rest = documents ∧
        NoneBlank libraries config done ∧
        blank libraries config row = true ∧
        IndexedAll libraries projectId config done (store.points projectId)

theorem Reindexes.projects {now : Timestamp}
    (reindexes :
      Reindexes libraries projectId rows store now pc target next) :
    target.projects = store.projects := by
  cases reindexes <;> rfl

theorem reindexAfterFault_projects {now : Timestamp} (fault : Fault) :
    (reindexAfterFault libraries projectId store fault now pc).projects =
      store.projects := by
  cases pc with
  | deleteCollection config rest =>
      rw [reindexAfterFault]
      split <;> rfl
  | _ => rfl

theorem projects_of_reachable
    {state : Store Dense Sparse × ReindexPc Dense Sparse}
    (reachable :
      Reachable (reindexProject libraries projectId rows start) state) :
    state.1.projects = start.projects := by
  refine @invariant_of_step _ _ _
    (fun state => state.1.projects = start.projects) ?_ ?_ state reachable
  · rintro _ rfl
    rfl
  · rintro ⟨store, pc⟩ choice ⟨target, next⟩ same taken
    rcases reindexAdvance_cases taken with
      ⟨fault, _, rfl, rfl⟩ | ⟨_, reindexes⟩
    · exact (reindexAfterFault_projects fault).trans same
    · exact reindexes.projects.trans same

/-- A statement that raises alone is the upsert of a document without
chunks. -/
theorem Refuses.reads {fault : Fault} {message : String} {now : Timestamp}
    (isProject : start.projects projectId = some config)
    (indexable : ∀ row ∈ documents, ∃ indexed,
      indexDocument libraries row.document config = some (.ok indexed))
    (sameProjects : store.projects = start.projects)
    (stands : Stands libraries projectId start store pc)
    (refuses : Refuses libraries projectId store pc)
    (reads : Reads libraries projectId config documents store pc) :
    Reads libraries projectId config documents
      (reindexAfterFault libraries projectId store fault now pc)
      (.raised pc fault message) := by
  cases refuses with
  | noProject missing =>
      rw [sameProjects, isProject] at missing
      cases missing
  | ensureExisting present =>
      rw [Stands] at stands
      rw [stands] at present
      cases present
  | @unindexable current done rest row message failed =>
      obtain ⟨rfl, isSnapshot, _⟩ := reads
      obtain ⟨indexed, indexedAs⟩ := indexable row
        (isSnapshot ▸ List.mem_append_right _ List.mem_cons_self)
      rw [indexedAs] at failed
      cases failed
  | createExisting => exact stands.elim
  | noCollection absent =>
      have present := stands.1.1
      rw [absent] at present
      cases present
  | @noPoints current done rest row indexed present isEmpty =>
      obtain ⟨rfl, isSnapshot, noneBlank⟩ := reads
      obtain ⟨⟨_, written⟩, indexedAs⟩ := stands
      have isBlank := (blank_iff indexedAs).mpr isEmpty
      refine ⟨done, row, rest, isSnapshot, noneBlank, isBlank, ?_⟩
      rw [reindexAfterFault, putPoints_points _ present,
        pointsOf_of_blank isBlank indexedAs]
      exact written

theorem Reads.advance
    (isProject : start.projects projectId = some config)
    (snapshot : arrange order (documentsOf projectId rows) = some documents)
    (indexable : ∀ row ∈ documents, ∃ indexed,
      indexDocument libraries row.document config = some (.ok indexed))
    (sameProjects : store.projects = start.projects)
    (stands : Stands libraries projectId start store pc)
    (healthy : choice.fault = none) (ordered : choice.order = order)
    (taken : reindexAdvance libraries projectId rows store choice pc =
      some (target, next))
    (reads : Reads libraries projectId config documents store pc) :
    Reads libraries projectId config documents target next := by
  rcases reindexAdvance_healthy_cases healthy taken with
    ⟨refuses, fault, rfl, rfl⟩ | reindexes
  · exact refuses.reads isProject indexable sameProjects stands reads
  · cases reindexes with
    | fetchProject found =>
        rw [sameProjects, isProject] at found
        exact (Option.some.inj found).symm
    | @fetchDocuments current fetched _ =>
        rw [reindexAdvance, healthy] at taken
        simp only [reindexStatement, ordered] at taken
        rw [documentsOf] at snapshot
        rw [snapshot] at taken
        cases taken
        exact ⟨reads, rfl⟩
    | deleteExists | deleteMissing | deleteCollection | ensureExists
    | ensureMissing =>
        first
          | exact reads
          | exact ⟨reads.1, reads.2, by rintro _ ⟨⟩⟩
    | ensureCreate => exact ⟨reads.1, reads.2, by rintro _ ⟨⟩⟩
    | complete => exact ⟨reads.1, by simpa using reads.2.1, reads.2.2⟩
    | index | upsertExists | upsertMissing | upsertCreate => exact reads
    | @upsert current done rest row indexed present nonempty =>
        obtain ⟨rfl, isSnapshot, noneBlank⟩ := reads
        refine ⟨rfl, by simpa using isSnapshot, ?_⟩
        intro other isDone
        rcases List.mem_append.mp isDone with earlier | isRow
        · exact noneBlank other earlier
        · rw [List.mem_singleton.mp isRow, Bool.eq_false_iff]
          intro isBlank
          exact nonempty ((blank_iff stands.2).mp isBlank)

theorem reads_of_reachable
    (isProject : start.projects projectId = some config)
    (snapshot : arrange order (documentsOf projectId rows) = some documents)
    (indexable : ∀ row ∈ documents, ∃ indexed,
      indexDocument libraries row.document config = some (.ok indexed))
    {state : Store Dense Sparse × ReindexPc Dense Sparse}
    (reachable :
      Reachable (reindexAlone libraries projectId rows order start) state) :
    Reads libraries projectId config documents state.1 state.2 := by
  refine @invariant_of_reachable_step _ _ _
    (fun state => Reads libraries projectId config documents state.1 state.2)
    ?_ ?_ state reachable
  · rintro _ rfl
    trivial
  · rintro ⟨store, pc⟩ choice ⟨target, next⟩ isReachable reads stepped
    obtain ⟨⟨healthy, ordered⟩, taken⟩ := reindexAlone_step.mp stepped
    have among := reachable_of_alone isReachable
    exact reads.advance isProject snapshot indexable
      (projects_of_reachable among) (stands_of_reachable among) healthy
      ordered taken

end Reindex

/-! ## It comes to an end -/

section Ending

variable {Dense Sparse : Type} {libraries : Libraries Dense Sparse}
  {projectId : Uuid} {rows done rest documents : List StoredDocument}
  {start store : Store Dense Sparse} {config : ProjectConfig}
  {order : List Nat}

/-- The choice under which no statement is made to fail. -/
def orderedChoice (order : List Nat) : ReindexChoice where
  fault := none
  now := 0
  order := order
  refusal := "Empty update request"

def undisturbedChoice (documents : Nat) : ReindexChoice :=
  orderedChoice (List.range documents)

theorem reachable_advance {pc : ReindexPc Dense Sparse}
    {next : Store Dense Sparse × ReindexPc Dense Sparse}
    (reachable :
      Reachable (reindexAlone libraries projectId rows order start)
        (store, pc))
    (taken : reindexAdvance libraries projectId rows store
      (orderedChoice order) pc = some next) :
    Reachable (reindexAlone libraries projectId rows order start) next :=
  Reachable.step reachable (reindexAlone_step.mpr ⟨⟨rfl, rfl⟩, taken⟩)

theorem reachable_statement {pc : ReindexPc Dense Sparse}
    {next : Store Dense Sparse × ReindexPc Dense Sparse}
    (reachable :
      Reachable (reindexAlone libraries projectId rows order start)
        (store, pc))
    (executed : reindexStatement libraries projectId rows store
      (orderedChoice order) pc = some (.ok next)) :
    Reachable (reindexAlone libraries projectId rows order start) next := by
  refine reachable_advance reachable ?_
  rw [reindexAdvance, executed]
  rfl

/-- A reindex that nothing disturbs works through the documents that are left,
or stops at the first without chunks. -/
theorem ends_from_index
    (reachable :
      Reachable (reindexAlone libraries projectId rows order start)
        (store, .index config done rest))
    (indexable : ∀ row ∈ rest, ∃ indexed,
      indexDocument libraries row.document config = some (.ok indexed)) :
    ∃ state, Reachable (reindexAlone libraries projectId rows order start)
      state ∧ state.2.running = false := by
  induction rest generalizing store done with
  | nil =>
      have completed : Reachable
          (reindexAlone libraries projectId rows order start)
          (store, .completed config done) :=
        reachable_statement reachable rfl
      exact ⟨_, completed, rfl⟩
  | cons row rest inductionHypothesis =>
      obtain ⟨indexed, indexedAs⟩ := indexable row List.mem_cons_self
      have stands := stands_of_reachable (reachable_of_alone reachable)
      obtain ⟨collection, found⟩ := Option.isSome_iff_exists.mp stands.1
      have atExists : Reachable
          (reindexAlone libraries projectId rows order start)
          (store, .upsertExists config done row rest indexed) := by
        refine reachable_statement reachable ?_
        rw [reindexStatement, indexedAs]
        rfl
      have atUpsert : Reachable
          (reindexAlone libraries projectId rows order start)
          (store, .upsert config done row rest indexed) := by
        refine reachable_statement atExists ?_
        rw [reindexStatement, found]
      let points := pointsOf libraries projectId row.id indexed 0
      by_cases isEmpty : points.isEmpty = true
      · have refused : reindexStatement libraries projectId rows store
            (orderedChoice order) (.upsert config done row rest indexed) =
              some (.error (.plain "Empty update request")) := by
          rw [reindexStatement, found]
          exact if_pos isEmpty
        have raised : ∃ state : Store Dense Sparse × ReindexPc Dense Sparse,
            reindexAdvance libraries projectId rows store
              (orderedChoice order) (.upsert config done row rest indexed) =
                some state ∧ state.2.running = false := by
          rw [reindexAdvance, refused]
          exact ⟨_, rfl, rfl⟩
        obtain ⟨state, taken, ended⟩ := raised
        exact ⟨state, reachable_advance atUpsert taken, ended⟩
      · have atNext : Reachable
            (reindexAlone libraries projectId rows order start)
            (store.putPoints projectId points,
              .index config (done ++ [row]) rest) := by
          refine reachable_statement atUpsert ?_
          rw [reindexStatement, found]
          exact if_neg isEmpty
        exact inductionHypothesis atNext
          fun other member => indexable other (List.mem_cons_of_mem _ member)

/-- A reindex that nothing disturbs gets to its loop. -/
theorem reaches_index (isProject : start.projects projectId = some config)
    (snapshot : arrange order (documentsOf projectId rows) =
      some documents) :
    ∃ store, Reachable (reindexAlone libraries projectId rows order start)
      (store, .index config [] documents) := by
  have atDocuments : Reachable
      (reindexAlone libraries projectId rows order start)
      (start, .fetchDocuments config) := by
    refine reachable_statement (Reachable.initial rfl) ?_
    rw [reindexStatement, isProject]
  have atDelete : Reachable
      (reindexAlone libraries projectId rows order start)
      (start, .deleteExists config documents) := by
    refine reachable_statement atDocuments ?_
    exact congrArg (Option.map _) snapshot
  have atEnsure : ∃ store, Reachable
      (reindexAlone libraries projectId rows order start)
        (store, .ensureExists config documents) := by
    cases found : start.collections projectId with
    | none =>
        refine ⟨start, reachable_statement atDelete ?_⟩
        rw [reindexStatement, found]
    | some collection =>
        have deleting : Reachable
            (reindexAlone libraries projectId rows order start)
            (start, .deleteCollection config documents) := by
          refine reachable_statement atDelete ?_
          rw [reindexStatement, found]
        exact ⟨_, reachable_statement deleting rfl⟩
  obtain ⟨store, ensured⟩ := atEnsure
  have absent : store.collections projectId = none :=
    stands_of_reachable (reachable_of_alone ensured)
  have atCreate : Reachable
      (reindexAlone libraries projectId rows order start)
      (store, .ensureCreate config documents) := by
    refine reachable_statement ensured ?_
    rw [reindexStatement, absent]
  refine ⟨store.putCollection projectId (some fun _ => none),
    reachable_statement atCreate ?_⟩
  rw [reindexStatement, absent]

end Ending

/-! ## The law -/

section Proof

variable {Content Dense Sparse : Type} {libraries : Libraries Dense Sparse}
  {schema : Schema Content} {projectId : Uuid}
  {rows done rest documents : List StoredDocument} {config : ProjectConfig}
  {start : Store Dense Sparse}

theorem NoneBlank.blanksLast
    (noneBlank : NoneBlank libraries config documents) :
    BlanksLast libraries config documents := by
  refine List.pairwise_of_forall_mem_list ?_
  intro earlier isEarlier later _ isBlank
  rw [noneBlank earlier isEarlier] at isBlank
  cases isBlank

/-- Behind the first document without chunks only such documents may come. -/
theorem blanksLast_iff {row : StoredDocument}
    (noneBlank : NoneBlank libraries config done)
    (isBlank : blank libraries config row = true) :
    BlanksLast libraries config (done ++ row :: rest) ↔
      ∀ later ∈ rest, blank libraries config later = true := by
  unfold BlanksLast
  rw [List.pairwise_append, List.pairwise_cons]
  constructor
  · rintro ⟨_, ⟨behind, _⟩, _⟩ later isLater
    exact behind later isLater isBlank
  · intro allBlank
    refine ⟨noneBlank.blanksLast, ⟨fun later isLater _ =>
      allBlank later isLater, ?_⟩, ?_⟩
    · exact List.pairwise_of_forall_mem_list
        fun _ _ later isLater _ => allBlank later isLater
    · intro earlier isEarlier later _ earlierBlank
      rw [noneBlank earlier isEarlier] at earlierBlank
      cases earlierBlank

theorem name_of_mem_chunkIds {row : StoredDocument} {id : String}
    (member : id ∈ chunkIds libraries config row) :
    ∃ chunks chunk,
      documentChunks libraries row.document config = some (.ok chunks) ∧
        chunk ∈ chunks ∧ id = pointId libraries row.id chunk.index := by
  unfold chunkIds at member
  split at member
  · rename_i chunks cut
    obtain ⟨chunk, isChunk, rfl⟩ := List.mem_map.mp member
    exact ⟨chunks, chunk, cut, isChunk, rfl⟩
  · cases member

/-- Two documents do not share the identifier of a point. -/
theorem id_eq_of_mem_chunkIds
    (injective :
      Set.InjOn libraries.uuid5 (chunkNames libraries config documents))
    {left right : StoredDocument} (isLeft : left ∈ documents)
    (isRight : right ∈ documents) {id : String}
    (ofLeft : id ∈ chunkIds libraries config left)
    (ofRight : id ∈ chunkIds libraries config right) :
    left.id = right.id := by
  obtain ⟨chunks, chunk, cut, isChunk, isId⟩ := name_of_mem_chunkIds ofLeft
  obtain ⟨others, other, otherCut, isOther, isOtherId⟩ :=
    name_of_mem_chunkIds ofRight
  exact (pointId_injective injective
    ⟨left, isLeft, chunks, chunk, cut, isChunk, rfl⟩
    ⟨right, isRight, others, other, otherCut, isOther, rfl⟩
    (isId.symm.trans isOtherId)).1

/-- What a reindex that was stopped has not indexed has no chunks, if its
points agree with those of the ingestions. -/
theorem allBlank_of_agrees {row : StoredDocument}
    {points other : Collection Dense Sparse} {runs : List StoredDocument}
    (written : IndexedAll libraries projectId config done points)
    (otherWritten : IndexedAll libraries projectId config runs other)
    (distinct : ((done ++ row :: rest).map StoredDocument.id).Nodup)
    (injective : Set.InjOn libraries.uuid5
      (chunkNames libraries config (done ++ row :: rest)))
    (indexable : ∀ row ∈ rest, ∃ indexed,
      indexDocument libraries row.document config = some (.ok indexed))
    (ingested : ∀ later ∈ rest, later ∈ runs)
    (agrees : ∀ id, (points id).map undated = (other id).map undated) :
    ∀ later ∈ rest, blank libraries config later = true := by
  intro later isLater
  obtain ⟨indexed, indexedAs⟩ := indexable later isLater
  rw [← chunkIds_eq_nil_iff indexedAs, List.eq_nil_iff_forall_not_mem]
  intro id isId
  have ingestedId : (other id).isSome = true :=
    (otherWritten.isSome_iff id).mpr
      (List.mem_flatMap.mpr ⟨later, ingested later isLater, isId⟩)
  have stored : (points id).isSome = true := by
    have sameSome := congrArg Option.isSome (agrees id)
    rw [Option.isSome_map, Option.isSome_map] at sameSome
    rw [sameSome]
    exact ingestedId
  obtain ⟨earlier, isEarlier, isEarlierId⟩ :=
    List.mem_flatMap.mp ((written.isSome_iff id).mp stored)
  have sameId : earlier.id = later.id :=
    id_eq_of_mem_chunkIds injective (List.mem_append_left _ isEarlier)
      (List.mem_append_right _ (List.mem_cons_of_mem _ isLater)) isEarlierId
      isId
  rw [List.map_append] at distinct
  exact (List.nodup_append.mp distinct).2.2 _
    (List.mem_map_of_mem isEarlier) _
    (List.mem_map_of_mem (List.mem_cons_of_mem _ isLater)) sameId

/-- Reindexing and ingesting agree where they can: a reindex that nothing from
outside makes fail comes to an end, and whatever was stored before, it leaves
the points that ingesting each document once or more, in any order, into an
empty collection leaves, up to their times, exactly when no document without
chunks comes before one with chunks in its snapshot. -/
theorem reindex_agrees_iff
    (isProject : start.projects projectId = some config)
    (distinct : (rows.map StoredDocument.id).Nodup)
    (indexable : ∀ row ∈ documentsOf projectId rows, ∃ indexed,
      indexDocument libraries row.document config = some (.ok indexed))
    (injective : Set.InjOn libraries.uuid5
      (chunkNames libraries config (documentsOf projectId rows)))
    {order : List Nat}
    (snapshot : arrange order (documentsOf projectId rows) =
      some documents) :
    (∃ state, Reachable (reindexAlone libraries projectId rows order start)
      state ∧ state.2.running = false) ∧
    ∀ {reindexed ingested : Store Dense Sparse}
      {pc : ReindexPc Dense Sparse} {runs : List StoredDocument},
      Reachable (reindexAlone libraries projectId rows order start)
        (reindexed, pc) →
      pc.running = false →
      Ingested libraries schema projectId config runs ingested →
      (∀ row, row ∈ runs ↔ row ∈ documentsOf projectId rows) →
      ((∀ id, (reindexed.points projectId id).map undated =
          (ingested.points projectId id).map undated) ↔
        BlanksLast libraries config documents) := by
  have isPerm := perm_of_arrange snapshot
  have documentsIndexable : ∀ row ∈ documents, ∃ indexed,
      indexDocument libraries row.document config = some (.ok indexed) :=
    fun row isRow => indexable row (isPerm.mem_iff.mp isRow)
  have documentsDistinct : (documents.map StoredDocument.id).Nodup :=
    ((isPerm.map StoredDocument.id).nodup_iff).mpr
      (distinct.sublist (List.filter_sublist.map StoredDocument.id))
  have documentsInjective : Set.InjOn libraries.uuid5
      (chunkNames libraries config documents) := by
    simpa only [chunkNames, isPerm.mem_iff] using injective
  constructor
  · obtain ⟨store, atIndex⟩ := @reaches_index _ _ libraries projectId rows
      documents start config order isProject snapshot
    exact ends_from_index atIndex documentsIndexable
  · intro reindexed ingested pc runs reachable ended ingestions same
    have agrees : IndexedAll libraries projectId config documents
        (reindexed.points projectId) → ∀ id,
          (reindexed.points projectId id).map undated =
            (ingested.points projectId id).map undated := by
      intro written id
      refine written.undated_unique ingestions.indexedAll ?_ ?_
        documentsInjective id
      · exact fun row => (same row).trans isPerm.mem_iff.symm
      · exact fun left isLeft right isRight =>
          List.inj_on_of_nodup_map documentsDistinct isLeft isRight
    have reads := reads_of_reachable isProject snapshot documentsIndexable
      reachable
    have stands := stands_of_reachable (reachable_of_alone reachable)
    cases pc with
    | completed current done =>
        obtain ⟨rfl, rfl, noneBlank⟩ := reads
        exact iff_of_true (agrees stands.2) noneBlank.blanksLast
    | raised failing fault message =>
        obtain ⟨done, row, rest, rfl, noneBlank, isBlank, written⟩ := reads
        rw [blanksLast_iff noneBlank isBlank]
        constructor
        · refine allBlank_of_agrees written ingestions.indexedAll
            documentsDistinct documentsInjective ?_ ?_
          · exact fun later isLater => documentsIndexable later
              (List.mem_append_right _ (List.mem_cons_of_mem _ isLater))
          · exact fun later isLater => (same later).mpr (isPerm.mem_iff.mp
              (List.mem_append_right _ (List.mem_cons_of_mem _ isLater)))
        · intro allBlank
          exact agrees (written.blanks
            (List.forall_mem_cons.mpr ⟨isBlank, allBlank⟩))
    | _ => cases ended

/-- A hash that tells the listed names apart. -/
def listedHash (names : List String) (name : String) : Uuid :=
  BitVec.ofNat 128 (names.idxOf name)

theorem listedHash_injOn {names : List String}
    (fits : names.length < 2 ^ 128) :
    Set.InjOn (listedHash names) {name | name ∈ names} := by
  intro first isFirst second isSecond same
  have firstFits : names.idxOf first < 2 ^ 128 :=
    (List.idxOf_lt_length_of_mem isFirst).trans fits
  have secondFits : names.idxOf second < 2 ^ 128 :=
    (List.idxOf_lt_length_of_mem isSecond).trans fits
  have sameIndex := congrArg BitVec.toNat same
  rw [listedHash, listedHash, BitVec.toNat_ofNat, BitVec.toNat_ofNat,
    Nat.mod_eq_of_lt firstFits, Nat.mod_eq_of_lt secondFits] at sameIndex
  exact (List.idxOf_inj isFirst).mp sameIndex

theorem injOn_of_only {hash : String → Uuid} {names : Set String}
    {single : String} (only : ∀ name ∈ names, name = single) :
    Set.InjOn hash names := by
  intro first isFirst second isSecond _
  rw [only first isFirst, only second isSecond]

end Proof

/-! ## A project of three documents -/

section Sample

/-- The project has an `alpha.pdf` of two chunks, a `gamma.pdf` of one and a
`blank.txt` of none. -/
def shelfLibraries : Libraries Unit Unit :=
  { sampleLibraries with
    extractPdfText := fun content =>
      .ok (if content.size = 0 then "alpha beta" else "gamma")
    uuid5 := listedHash [pointName 2 0, pointName 2 1, pointName 4 0] }

def shelfConfig : ProjectConfig :=
  { sampleConfig with chunkSize := some 1, chunkOverlap := some 0 }

def alphaRow : StoredDocument where
  id := 2
  projectId := 3
  document := {
    filename := "alpha.pdf"
    fileType := "pdf"
    rawBytes := ByteArray.empty }

def gammaRow : StoredDocument where
  id := 4
  projectId := 3
  document := {
    filename := "gamma.pdf"
    fileType := "pdf"
    rawBytes := ⟨#[1]⟩ }

def blankRow : StoredDocument where
  id := 7
  projectId := 3
  document := {
    filename := "blank.txt"
    fileType := "txt"
    rawBytes := ⟨#[32, 10]⟩ }

def shelf : List StoredDocument :=
  [alphaRow, gammaRow, blankRow]

def shelfStore : Store Unit Unit :=
  { sampleStore with
    documents := fun id =>
      (shelf.find? fun row => row.id = id).map StoredDocument.document
    projects := fun id => if id = 3 then some shelfConfig else none }

/-- Some statements of an ingestion of a document. -/
def ingesting (store : Store Unit Unit) (documentId : Uuid) (steps : Nat) :
    Store Unit Unit × Pc String Unit Unit :=
  let arguments : Arguments :=
    { sampleArguments with documentId := documentId }
  finalState (store, .fetchJob)
    (trace (runStep shelfLibraries Cag.textSchema arguments)
      (List.replicate steps (.advance quiet)) (store, .fetchJob))

theorem ingesting_reachable (store : Store Unit Unit) (documentId : Uuid)
    (steps : Nat) :
    Reachable (ingestDocument shelfLibraries Cag.textSchema
      { sampleArguments with documentId := documentId } store)
      (ingesting store documentId steps) :=
  (run_trace _ _ _).reachable (Reachable.initial rfl) _
    (finalState_mem_visited _ _)

def onceShelf : Store Unit Unit :=
  (ingesting shelfStore 4 8).1

def twiceShelf : Store Unit Unit :=
  (ingesting onceShelf 2 7).1

/-- The ingestion of the blank document fails. -/
def refusedShelf : Store Unit Unit :=
  (ingesting twiceShelf 7 7).1

/-- The first document was ingested once more. -/
def ingestedShelf : Store Unit Unit :=
  (ingesting refusedShelf 4 7).1

theorem ingestedShelf_ingested :
    Ingested shelfLibraries Cag.textSchema 3 shelfConfig
      [gammaRow, alphaRow, blankRow, gammaRow] ingestedShelf := by
  have once : Ingested shelfLibraries Cag.textSchema 3 shelfConfig
      [gammaRow] onceShelf :=
    Ingested.run (@Ingested.empty _ _ _ _ _ _ _ shelfStore rfl) rfl rfl rfl
      rfl rfl (ingesting_reachable shelfStore 4 8) (Or.inl rfl)
  have twice : Ingested shelfLibraries Cag.textSchema 3 shelfConfig
      [gammaRow, alphaRow] twiceShelf :=
    Ingested.run once rfl rfl rfl rfl rfl (ingesting_reachable onceShelf 2 7)
      (Or.inl rfl)
  have refused : Ingested shelfLibraries Cag.textSchema 3 shelfConfig
      [gammaRow, alphaRow, blankRow] refusedShelf :=
    Ingested.run twice rfl rfl rfl rfl rfl
      (ingesting_reachable twiceShelf 7 7) (Or.inr ⟨rfl, rfl⟩)
  exact Ingested.run refused rfl rfl rfl rfl rfl
    (ingesting_reachable refusedShelf 4 7) (Or.inl rfl)

theorem shelf_distinct : (shelf.map StoredDocument.id).Nodup := by
  decide

theorem shelf_indexable :
    ∀ row ∈ documentsOf 3 shelf, ∃ indexed,
      indexDocument shelfLibraries row.document shelfConfig =
        some (.ok indexed) := by
  intro row isRow
  have isShelved : row ∈ shelf := (List.mem_filter.mp isRow).1
  simp only [shelf, List.mem_cons, List.not_mem_nil, or_false] at isShelved
  rcases isShelved with rfl | rfl | rfl
  · exact ⟨_, rfl⟩
  · exact ⟨_, rfl⟩
  · exact ⟨_, rfl⟩

theorem shelf_names {name : String}
    (isName : name ∈ chunkNames shelfLibraries shelfConfig
      (documentsOf 3 shelf)) :
    name = pointName 2 0 ∨ name = pointName 2 1 ∨ name = pointName 4 0 := by
  obtain ⟨row, isRow, chunks, chunk, cut, isChunk, rfl⟩ := isName
  have isShelved : row ∈ shelf := (List.mem_filter.mp isRow).1
  have index_lt : chunk.index < chunks.length := by
    have numbered := index_documentChunks cut
    rw [← List.mem_range, ← numbered]
    exact List.mem_map_of_mem isChunk
  simp only [shelf, List.mem_cons, List.not_mem_nil, or_false] at isShelved
  rcases isShelved with rfl | rfl | rfl
  · have two : chunks.length = 2 := by
      cases cut
      rfl
    have isIndex : chunk.index = 0 ∨ chunk.index = 1 := by omega
    rcases isIndex with isFirst | isSecond
    · rw [isFirst]
      exact Or.inl rfl
    · rw [isSecond]
      exact Or.inr (Or.inl rfl)
  · have one : chunks.length = 1 := by
      cases cut
      rfl
    rw [one, Nat.lt_one_iff] at index_lt
    rw [index_lt]
    exact Or.inr (Or.inr rfl)
  · have none : chunks.length = 0 := by
      cases cut
      rfl
    omega

theorem shelf_injective :
    Set.InjOn shelfLibraries.uuid5
      (chunkNames shelfLibraries shelfConfig (documentsOf 3 shelf)) := by
  refine (listedHash_injOn (by decide)).mono fun name isName => ?_
  rcases shelf_names isName with rfl | rfl | rfl <;> simp

theorem shelf_runs (row : StoredDocument) :
    row ∈ [gammaRow, alphaRow, blankRow, gammaRow] ↔
      row ∈ documentsOf 3 shelf := by
  have isAll : documentsOf 3 shelf = [alphaRow, gammaRow, blankRow] := rfl
  rw [isAll]
  simp only [List.mem_cons, List.not_mem_nil, or_false]
  tauto

/-- The collection holds a point that belongs to no document any more. -/
def staleStore : Store Unit Unit :=
  { shelfStore with
    collections := fun _ => some fun id =>
      if id = "stale" then
        some {
          dense := ()
          bm25 := none
          payload := ⟨"", "", 0, "", "", 0⟩ }
      else none }

/-- The blank document is the last of the snapshot: the reindex fails there
with nothing left to index. -/
theorem reindex_agrees_blankLast :
    ∃ reindexed pc,
      Reachable (reindexAlone shelfLibraries 3 shelf [1, 0, 2] staleStore)
        (reindexed, pc) ∧
      pc.running = false ∧
      ∀ id, (reindexed.points 3 id).map undated =
        (ingestedShelf.points 3 id).map undated := by
  obtain ⟨⟨⟨reindexed, pc⟩, reachable, ended⟩, agrees⟩ :=
    @reindex_agrees_iff String Unit Unit shelfLibraries Cag.textSchema 3
      shelf [gammaRow, alphaRow, blankRow] shelfConfig staleStore rfl
      shelf_distinct shelf_indexable shelf_injective [1, 0, 2] rfl
  refine ⟨reindexed, pc, reachable, ended, ?_⟩
  refine (agrees reachable ended ingestedShelf_ingested shelf_runs).mpr ?_
  have noGamma : blank shelfLibraries shelfConfig gammaRow = false := rfl
  have noAlpha : blank shelfLibraries shelfConfig alphaRow = false := rfl
  simp [BlanksLast, noGamma, noAlpha]

/-- Every document was ingested. -/
def shelvedStore : Store Unit Unit :=
  { shelfStore with collections := ingestedShelf.collections }

/-- The blank document is the first of the snapshot: the reindex fails there
and leaves the collection empty. -/
theorem reindex_disagrees_blankFirst :
    ∃ reindexed pc,
      Reachable (reindexAlone shelfLibraries 3 shelf [2, 0, 1] shelvedStore)
        (reindexed, pc) ∧
      pc.running = false ∧
      Ingested shelfLibraries Cag.textSchema 3 shelfConfig
        [gammaRow, alphaRow, blankRow, gammaRow] ingestedShelf ∧
      (∀ row ∈ documentsOf 3 shelf, ∃ indexed,
        indexDocument shelfLibraries row.document shelfConfig =
          some (.ok indexed)) ∧
      Set.InjOn shelfLibraries.uuid5
        (chunkNames shelfLibraries shelfConfig (documentsOf 3 shelf)) ∧
      ¬ ∀ id, (reindexed.points 3 id).map undated =
        (ingestedShelf.points 3 id).map undated := by
  have reachable : Reachable
      (reindexAlone shelfLibraries 3 shelf [2, 0, 1] shelvedStore) _ :=
    @reachable_of_follow _ _ (fun state => state = (shelvedStore, _)) _
      (List.replicate 9 (orderedChoice [2, 0, 1])) _ _
      (Reachable.initial rfl) rfl
  refine ⟨_, _, reachable, rfl, ingestedShelf_ingested, shelf_indexable,
    shelf_injective, ?_⟩
  intro agrees
  have gone := agrees (pointId shelfLibraries 2 0)
  cases gone

end Sample

end ProjectMemory.Workers
