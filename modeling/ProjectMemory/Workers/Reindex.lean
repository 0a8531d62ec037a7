import Mathlib.Data.List.Perm.Basic
import ProjectMemory.Workers.Points

/-!
# Reindexing a project

The maintenance job takes a snapshot of the project's documents, deletes the
collection, creates it again and then indexes and upserts one document after
the other.  A statement that raises ends the job: nothing is put back.
-/

namespace ProjectMemory.Workers

open Foundation Ingestion

/-- A row of `documents` with the columns the two jobs read. -/
structure StoredDocument where
  id : Uuid
  projectId : Uuid
  document : Document

section Machine

variable {Dense Sparse : Type}

/-- What is left to do of a reindex: the documents of the snapshot are those
done and the rest. -/
inductive ReindexPc (Dense Sparse : Type) where
  | fetchProject
  | fetchDocuments (config : ProjectConfig)
  | deleteExists (config : ProjectConfig) (rest : List StoredDocument)
  | deleteCollection (config : ProjectConfig) (rest : List StoredDocument)
  | ensureExists (config : ProjectConfig) (rest : List StoredDocument)
  | ensureCreate (config : ProjectConfig) (rest : List StoredDocument)
  | index (config : ProjectConfig) (done rest : List StoredDocument)
  | upsertExists (config : ProjectConfig) (done : List StoredDocument)
      (row : StoredDocument) (rest : List StoredDocument)
      (indexed : Indexed Dense Sparse)
  | upsertCreate (config : ProjectConfig) (done : List StoredDocument)
      (row : StoredDocument) (rest : List StoredDocument)
      (indexed : Indexed Dense Sparse)
  | upsert (config : ProjectConfig) (done : List StoredDocument)
      (row : StoredDocument) (rest : List StoredDocument)
      (indexed : Indexed Dense Sparse)
  | completed (config : ProjectConfig) (done : List StoredDocument)
  | raised (failing : ReindexPc Dense Sparse) (fault : Fault)
      (message : String)

/-- What `str` of the exception says. -/
def ReindexPc.describe (projectId : Uuid) (message : String) :
    ReindexPc Dense Sparse → String
  | .deleteExists _ _ | .deleteCollection _ _ =>
      "Failed to delete collection for project " ++ projectId.str ++ ": " ++
        message
  | .ensureExists _ _ | .ensureCreate _ _ | .upsertExists _ _ _ _ _
  | .upsertCreate _ _ _ _ _ =>
      Stage.createCollection.describe projectId message
  | .upsert _ _ _ _ _ => Stage.upsert.describe projectId message
  | _ => message

def ReindexPc.running : ReindexPc Dense Sparse → Bool
  | .completed _ _ | .raised _ _ _ => false
  | _ => true

/-- The rows in the order a query happens to return them. -/
def arrange (order : List Nat) (rows : List StoredDocument) :
    Option (List StoredDocument) :=
  if order.Perm (List.range rows.length) then
    some (order.filterMap (rows[·]?))
  else none

/-- What the outside contributes to a statement of the reindex. -/
structure ReindexChoice where
  fault : Option Fault
  now : Timestamp
  /-- The order of the documents in the snapshot. -/
  order : List Nat
  /-- What Qdrant answers to a request it refuses. -/
  refusal : String

def Store.putCollection (store : Store Dense Sparse) (projectId : Uuid)
    (collection : Option (Collection Dense Sparse)) : Store Dense Sparse :=
  { store with
    collections := Function.update store.collections projectId collection }

/-- A statement of `reindex_project` that is not made to fail; `none` where it
never returns. -/
def reindexStatement (libraries : Libraries Dense Sparse) (projectId : Uuid)
    (rows : List StoredDocument) (store : Store Dense Sparse)
    (choice : ReindexChoice) :
    ReindexPc Dense Sparse →
      Option (Except Fault (Store Dense Sparse × ReindexPc Dense Sparse))
  | .fetchProject =>
      match store.projects projectId with
      | some config => some (.ok (store, .fetchDocuments config))
      | none =>
          some (.error (.plain
            ("Project " ++ projectId.str ++ " not found")))
  | .fetchDocuments config =>
      (arrange choice.order
        (rows.filter fun row => row.projectId = projectId)).map
          fun documents => .ok (store, .deleteExists config documents)
  | .deleteExists config rest =>
      match store.collections projectId with
      | some _ => some (.ok (store, .deleteCollection config rest))
      | none => some (.ok (store, .ensureExists config rest))
  | .deleteCollection config rest =>
      some (.ok (store.putCollection projectId none,
        .ensureExists config rest))
  | .ensureExists config rest =>
      match store.collections projectId with
      | some _ => some (.ok (store, .index config [] rest))
      | none => some (.ok (store, .ensureCreate config rest))
  | .ensureCreate config rest =>
      match store.collections projectId with
      | some _ => some (.error (.plain choice.refusal))
      | none =>
          some (.ok (store.putCollection projectId (some fun _ => none),
            .index config [] rest))
  | .index config done [] => some (.ok (store, .completed config done))
  | .index config done (row :: rest) =>
      (indexDocument libraries row.document config).map fun
        | .error message => .error (.plain message)
        | .ok indexed =>
            .ok (store, .upsertExists config done row rest indexed)
  | .upsertExists config done row rest indexed =>
      match store.collections projectId with
      | some _ => some (.ok (store, .upsert config done row rest indexed))
      | none =>
          some (.ok (store, .upsertCreate config done row rest indexed))
  | .upsertCreate config done row rest indexed =>
      match store.collections projectId with
      | some _ => some (.error (.plain choice.refusal))
      | none =>
          some (.ok (store.putCollection projectId (some fun _ => none),
            .upsert config done row rest indexed))
  | .upsert config done row rest indexed =>
      let points := pointsOf libraries projectId row.id indexed choice.now
      match store.collections projectId with
      | some _ =>
          -- Qdrant refuses an upsert without points
          if points.isEmpty then some (.error (.plain choice.refusal))
          else
            some (.ok (store.putPoints projectId points,
              .index config (done ++ [row]) rest))
      | none => some (.error (.plain choice.refusal))
  | .completed _ _ | .raised _ _ _ => none

/-- What a failing statement leaves in the store. -/
def reindexAfterFault (libraries : Libraries Dense Sparse)
    (projectId : Uuid) (store : Store Dense Sparse) (fault : Fault)
    (now : Timestamp) : ReindexPc Dense Sparse → Store Dense Sparse
  | .deleteCollection _ _ =>
      if fault.landed then store.putCollection projectId none else store
  | .upsert _ _ row _ indexed =>
      store.putPoints projectId
        ((pointsOf libraries projectId row.id indexed now).filter
          fun point => fault.stored point.1)
  | _ => store

/-- The next statement of a reindex; `none` where it has ended or the
statement never returns. -/
def reindexAdvance (libraries : Libraries Dense Sparse) (projectId : Uuid)
    (rows : List StoredDocument) (store : Store Dense Sparse)
    (choice : ReindexChoice) (pc : ReindexPc Dense Sparse) :
    Option (Store Dense Sparse × ReindexPc Dense Sparse) :=
  let raise (fault : Fault) :=
    (reindexAfterFault libraries projectId store fault choice.now pc,
      ReindexPc.raised pc fault (pc.describe projectId fault.message))
  match choice.fault with
  | some fault => if pc.running then some (raise fault) else none
  | none =>
      (reindexStatement libraries projectId rows store choice pc).map fun
        | .error fault => raise fault
        | .ok next => next

/-- `reindex_project` on a given store, with nothing else going on. -/
def reindexProject (libraries : Libraries Dense Sparse) (projectId : Uuid)
    (rows : List StoredDocument) (start : Store Dense Sparse) :
    TransitionSystem (Store Dense Sparse × ReindexPc Dense Sparse)
      ReindexChoice :=
  TransitionSystem.ofNext (fun state => state = (start, .fetchProject))
    fun state choice =>
      reindexAdvance libraries projectId rows state.1 choice state.2

end Machine

/-! ## What one statement can do -/

section Inversion

variable {Dense Sparse : Type} {libraries : Libraries Dense Sparse}
  {projectId : Uuid} {rows : List StoredDocument}
  {store target : Store Dense Sparse} {choice : ReindexChoice}
  {pc next : ReindexPc Dense Sparse}

/-- The statements that succeed, in their order. -/
inductive Reindexes (libraries : Libraries Dense Sparse) (projectId : Uuid)
    (rows : List StoredDocument) (store : Store Dense Sparse)
    (now : Timestamp) :
    ReindexPc Dense Sparse → Store Dense Sparse →
      ReindexPc Dense Sparse → Prop
  | fetchProject {config : ProjectConfig} :
      store.projects projectId = some config →
      Reindexes libraries projectId rows store now .fetchProject store
        (.fetchDocuments config)
  | fetchDocuments {config : ProjectConfig}
      {documents : List StoredDocument} :
      documents.Perm (rows.filter fun row => row.projectId = projectId) →
      Reindexes libraries projectId rows store now (.fetchDocuments config)
        store (.deleteExists config documents)
  | deleteExists {config : ProjectConfig} {rest : List StoredDocument} :
      (store.collections projectId).isSome = true →
      Reindexes libraries projectId rows store now
        (.deleteExists config rest) store (.deleteCollection config rest)
  | deleteMissing {config : ProjectConfig} {rest : List StoredDocument} :
      store.collections projectId = none →
      Reindexes libraries projectId rows store now
        (.deleteExists config rest) store (.ensureExists config rest)
  | deleteCollection {config : ProjectConfig}
      {rest : List StoredDocument} :
      Reindexes libraries projectId rows store now
        (.deleteCollection config rest)
        (store.putCollection projectId none) (.ensureExists config rest)
  | ensureExists {config : ProjectConfig} {rest : List StoredDocument} :
      (store.collections projectId).isSome = true →
      Reindexes libraries projectId rows store now
        (.ensureExists config rest) store (.index config [] rest)
  | ensureMissing {config : ProjectConfig} {rest : List StoredDocument} :
      store.collections projectId = none →
      Reindexes libraries projectId rows store now
        (.ensureExists config rest) store (.ensureCreate config rest)
  | ensureCreate {config : ProjectConfig} {rest : List StoredDocument} :
      store.collections projectId = none →
      Reindexes libraries projectId rows store now
        (.ensureCreate config rest)
        (store.putCollection projectId (some fun _ => none))
        (.index config [] rest)
  | complete {config : ProjectConfig} {done : List StoredDocument} :
      Reindexes libraries projectId rows store now (.index config done [])
        store (.completed config done)
  | index {config : ProjectConfig} {done rest : List StoredDocument}
      {row : StoredDocument} {indexed : Indexed Dense Sparse} :
      indexDocument libraries row.document config = some (.ok indexed) →
      Reindexes libraries projectId rows store now
        (.index config done (row :: rest)) store
        (.upsertExists config done row rest indexed)
  | upsertExists {config : ProjectConfig} {done rest : List StoredDocument}
      {row : StoredDocument} {indexed : Indexed Dense Sparse} :
      (store.collections projectId).isSome = true →
      Reindexes libraries projectId rows store now
        (.upsertExists config done row rest indexed) store
        (.upsert config done row rest indexed)
  | upsertMissing {config : ProjectConfig} {done rest : List StoredDocument}
      {row : StoredDocument} {indexed : Indexed Dense Sparse} :
      store.collections projectId = none →
      Reindexes libraries projectId rows store now
        (.upsertExists config done row rest indexed) store
        (.upsertCreate config done row rest indexed)
  | upsertCreate {config : ProjectConfig} {done rest : List StoredDocument}
      {row : StoredDocument} {indexed : Indexed Dense Sparse} :
      store.collections projectId = none →
      Reindexes libraries projectId rows store now
        (.upsertCreate config done row rest indexed)
        (store.putCollection projectId (some fun _ => none))
        (.upsert config done row rest indexed)
  | upsert {config : ProjectConfig} {done rest : List StoredDocument}
      {row : StoredDocument} {indexed : Indexed Dense Sparse} :
      (store.collections projectId).isSome = true →
      indexed.results ≠ [] →
      Reindexes libraries projectId rows store now
        (.upsert config done row rest indexed)
        (store.putPoints projectId
          (pointsOf libraries projectId row.id indexed now))
        (.index config (done ++ [row]) rest)

theorem filterMap_range (rows : List StoredDocument) :
    (List.range rows.length).filterMap (rows[·]?) = rows := by
  induction rows with
  | nil => rfl
  | cons row rows inductionHypothesis =>
      rw [List.length_cons, List.range_succ_eq_map, List.filterMap_cons,
        List.filterMap_map]
      simpa using inductionHypothesis

theorem perm_of_arrange {order : List Nat} {documents : List StoredDocument}
    (arranged : arrange order rows = some documents) :
    documents.Perm rows := by
  unfold arrange at arranged
  split at arranged
  · rename_i isOrder
    cases arranged
    have reordered := isOrder.filterMap (rows[·]?)
    rw [filterMap_range] at reordered
    exact reordered
  · cases arranged

theorem reindexes_of_statement
    (executed : reindexStatement libraries projectId rows store choice pc =
      some (.ok (target, next))) :
    Reindexes libraries projectId rows store choice.now pc target next := by
  cases pc with
  | fetchProject =>
      rw [reindexStatement] at executed
      split at executed
      · rename_i config found
        cases executed
        exact Reindexes.fetchProject found
      · cases executed
  | fetchDocuments config =>
      rw [reindexStatement] at executed
      obtain ⟨documents, arranged, same⟩ :=
        Option.map_eq_some_iff.mp executed
      cases same
      exact Reindexes.fetchDocuments (perm_of_arrange arranged)
  | deleteExists config rest =>
      rw [reindexStatement] at executed
      split at executed
      · rename_i collection present
        cases executed
        exact Reindexes.deleteExists (by rw [present]; rfl)
      · rename_i absent
        cases executed
        exact Reindexes.deleteMissing absent
  | deleteCollection config rest =>
      cases executed
      exact Reindexes.deleteCollection
  | ensureExists config rest =>
      rw [reindexStatement] at executed
      split at executed
      · rename_i collection present
        cases executed
        exact Reindexes.ensureExists (by rw [present]; rfl)
      · rename_i absent
        cases executed
        exact Reindexes.ensureMissing absent
  | ensureCreate config rest =>
      rw [reindexStatement] at executed
      split at executed
      · cases executed
      · rename_i absent
        cases executed
        exact Reindexes.ensureCreate absent
  | index config done rest =>
      cases rest with
      | nil =>
          cases executed
          exact Reindexes.complete
      | cons row rest =>
          rw [reindexStatement] at executed
          obtain ⟨outcome, indexedAs, same⟩ :=
            Option.map_eq_some_iff.mp executed
          cases outcome with
          | error message => cases same
          | ok indexed =>
              cases same
              exact Reindexes.index indexedAs
  | upsertExists config done row rest indexed =>
      rw [reindexStatement] at executed
      split at executed
      · rename_i collection present
        cases executed
        exact Reindexes.upsertExists (by rw [present]; rfl)
      · rename_i absent
        cases executed
        exact Reindexes.upsertMissing absent
  | upsertCreate config done row rest indexed =>
      rw [reindexStatement] at executed
      split at executed
      · cases executed
      · rename_i absent
        cases executed
        exact Reindexes.upsertCreate absent
  | upsert config done row rest indexed =>
      rw [reindexStatement] at executed
      split at executed
      · rename_i collection present
        split at executed
        · cases executed
        · rename_i nonempty
          cases executed
          refine Reindexes.upsert (by rw [present]; rfl) ?_
          rwa [pointsOf_isEmpty] at nonempty
      · cases executed
  | completed config done => cases executed
  | raised failing fault message => cases executed

/-- A step raises, or executes its statement. -/
theorem reindexAdvance_cases
    (taken : reindexAdvance libraries projectId rows store choice pc =
      some (target, next)) :
    (∃ fault, pc.running = true ∧
      target = reindexAfterFault libraries projectId store fault choice.now
        pc ∧
      next = .raised pc fault (pc.describe projectId fault.message)) ∨
    (choice.fault = none ∧
      Reindexes libraries projectId rows store choice.now pc target
        next) := by
  unfold reindexAdvance at taken
  split at taken
  · rename_i fault isFault
    simp only [Option.ite_none_right_eq_some, Option.some.injEq,
      Prod.mk.injEq] at taken
    obtain ⟨isRunning, isTarget, isNext⟩ := taken
    exact Or.inl ⟨fault, isRunning, isTarget.symm, isNext.symm⟩
  · rename_i noFault
    obtain ⟨outcome, happened, settled⟩ := Option.map_eq_some_iff.mp taken
    cases outcome with
    | ok reached =>
        have same : reached = (target, next) := settled
        rw [same] at happened
        exact Or.inr ⟨noFault, reindexes_of_statement happened⟩
    | error fault =>
        simp only [Prod.mk.injEq] at settled
        refine Or.inl ⟨fault, ?_, settled.1.symm, settled.2.symm⟩
        cases pc with
        | completed config done => cases happened
        | raised failing fault message => cases happened
        | _ => rfl

/-- The statements that raise although nothing from outside makes them. -/
inductive Refuses (libraries : Libraries Dense Sparse) (projectId : Uuid)
    (store : Store Dense Sparse) : ReindexPc Dense Sparse → Prop
  | noProject :
      store.projects projectId = none →
      Refuses libraries projectId store .fetchProject
  | ensureExisting {config : ProjectConfig} {rest : List StoredDocument} :
      (store.collections projectId).isSome = true →
      Refuses libraries projectId store (.ensureCreate config rest)
  | unindexable {config : ProjectConfig} {done rest : List StoredDocument}
      {row : StoredDocument} {message : String} :
      indexDocument libraries row.document config = some (.error message) →
      Refuses libraries projectId store (.index config done (row :: rest))
  | createExisting {config : ProjectConfig} {done rest : List StoredDocument}
      {row : StoredDocument} {indexed : Indexed Dense Sparse} :
      (store.collections projectId).isSome = true →
      Refuses libraries projectId store
        (.upsertCreate config done row rest indexed)
  | noCollection {config : ProjectConfig} {done rest : List StoredDocument}
      {row : StoredDocument} {indexed : Indexed Dense Sparse} :
      store.collections projectId = none →
      Refuses libraries projectId store
        (.upsert config done row rest indexed)
  | noPoints {config : ProjectConfig} {done rest : List StoredDocument}
      {row : StoredDocument} {indexed : Indexed Dense Sparse} :
      (store.collections projectId).isSome = true →
      indexed.results = [] →
      Refuses libraries projectId store
        (.upsert config done row rest indexed)

theorem refuses_of_statement {fault : Fault}
    (executed : reindexStatement libraries projectId rows store choice pc =
      some (.error fault)) :
    Refuses libraries projectId store pc := by
  cases pc with
  | fetchProject =>
      rw [reindexStatement] at executed
      split at executed
      · cases executed
      · rename_i missing
        cases executed
        exact Refuses.noProject missing
  | fetchDocuments config =>
      rw [reindexStatement] at executed
      obtain ⟨documents, _, same⟩ := Option.map_eq_some_iff.mp executed
      cases same
  | deleteExists config rest | ensureExists config rest
  | upsertExists config done row rest indexed =>
      rw [reindexStatement] at executed
      split at executed <;> cases executed
  | deleteCollection config rest => cases executed
  | ensureCreate config rest =>
      rw [reindexStatement] at executed
      split at executed
      · rename_i collection present
        cases executed
        exact Refuses.ensureExisting (by rw [present]; rfl)
      · cases executed
  | index config done rest =>
      cases rest with
      | nil => cases executed
      | cons row rest =>
          rw [reindexStatement] at executed
          obtain ⟨outcome, indexedAs, same⟩ :=
            Option.map_eq_some_iff.mp executed
          cases outcome with
          | error message =>
              cases same
              exact Refuses.unindexable indexedAs
          | ok indexed => cases same
  | upsertCreate config done row rest indexed =>
      rw [reindexStatement] at executed
      split at executed
      · rename_i collection present
        cases executed
        exact Refuses.createExisting (by rw [present]; rfl)
      · cases executed
  | upsert config done row rest indexed =>
      rw [reindexStatement] at executed
      split at executed
      · rename_i collection present
        split at executed
        · rename_i isEmpty
          cases executed
          exact Refuses.noPoints (by rw [present]; rfl)
            (pointsOf_isEmpty.mp isEmpty)
        · cases executed
      · rename_i absent
        cases executed
        exact Refuses.noCollection absent
  | completed config done => cases executed
  | raised failing fault message => cases executed

/-- A step that nothing from outside makes fail. -/
theorem reindexAdvance_healthy_cases (healthy : choice.fault = none)
    (taken : reindexAdvance libraries projectId rows store choice pc =
      some (target, next)) :
    (Refuses libraries projectId store pc ∧ ∃ fault : Fault,
      target = reindexAfterFault libraries projectId store fault choice.now
        pc ∧
      next = .raised pc fault (pc.describe projectId fault.message)) ∨
    Reindexes libraries projectId rows store choice.now pc target next := by
  rw [reindexAdvance, healthy] at taken
  obtain ⟨outcome, happened, settled⟩ := Option.map_eq_some_iff.mp taken
  cases outcome with
  | ok reached =>
      have same : reached = (target, next) := settled
      rw [same] at happened
      exact Or.inr (reindexes_of_statement happened)
  | error fault =>
      simp only [Prod.mk.injEq] at settled
      exact Or.inl ⟨refuses_of_statement happened, fault, settled.1.symm,
        settled.2.symm⟩

end Inversion

/-! ## What is lost -/

section Law

variable {Dense Sparse : Type}

/-- Every point of the project that was stored before is stored after. -/
def NothingLost (projectId : Uuid) (before after : Store Dense Sparse) :
    Prop :=
  ∀ id, (before.points projectId id).isSome = true →
    (after.points projectId id).isSome = true

/-- The identifiers of the points of a document. -/
def chunkIds (libraries : Libraries Dense Sparse) (config : ProjectConfig)
    (row : StoredDocument) : List String :=
  match documentChunks libraries row.document config with
  | some (.ok chunks) =>
      chunks.map fun chunk => pointId libraries row.id chunk.index
  | _ => []

/-- The collection is gone when the statement fails. -/
def ReindexPc.deleted (fault : Fault) : ReindexPc Dense Sparse → Bool
  | .fetchProject | .fetchDocuments _ | .deleteExists _ _ => false
  | .deleteCollection _ _ => fault.landed
  | _ => true

/-- The identifiers that were written again when the statement fails: those
of the documents done, and what a failing upsert stored of the next one. -/
def ReindexPc.rewritten (libraries : Libraries Dense Sparse)
    (fault : Fault) : ReindexPc Dense Sparse → List String
  | .index config done _ | .upsertExists config done _ _ _
  | .upsertCreate config done _ _ _ | .completed config done =>
      done.flatMap (chunkIds libraries config)
  | .upsert config done row _ _ =>
      done.flatMap (chunkIds libraries config) ++
        (chunkIds libraries config row).filter fault.stored
  | _ => []

/-- The exception came before the deletion, or every point that was stored
belongs to what was written again by then. -/
def RaisedInTime (libraries : Libraries Dense Sparse) (projectId : Uuid)
    (start : Store Dense Sparse) (failing : ReindexPc Dense Sparse)
    (fault : Fault) : Prop :=
  failing.deleted fault = false ∨
    ∀ id, (start.points projectId id).isSome = true →
      id ∈ failing.rewritten libraries fault

end Law

/-! ## What a reindex has written -/

section Rewritten

variable {Dense Sparse : Type} {libraries : Libraries Dense Sparse}
  {projectId : Uuid} {config : ProjectConfig}

/-- The points of some documents, indexed and written one after the other
into an empty collection. -/
inductive IndexedAll (libraries : Libraries Dense Sparse) (projectId : Uuid)
    (config : ProjectConfig) :
    List StoredDocument → Collection Dense Sparse → Prop
  | nil : IndexedAll libraries projectId config [] fun _ => none
  | snoc {done : List StoredDocument} {row : StoredDocument}
      {points : Collection Dense Sparse} {indexed : Indexed Dense Sparse}
      {now : Timestamp} :
      IndexedAll libraries projectId config done points →
      indexDocument libraries row.document config = some (.ok indexed) →
      IndexedAll libraries projectId config (done ++ [row])
        (Foundation.upsert points
          (pointsOf libraries projectId row.id indexed now))

theorem keys_pointsOf {row : StoredDocument}
    {indexed : Indexed Dense Sparse}
    (indexedAs :
      indexDocument libraries row.document config = some (.ok indexed))
    (now : Timestamp) :
    (pointsOf libraries projectId row.id indexed now).map Prod.fst =
      chunkIds libraries config row := by
  simp only [chunkIds, documentChunks_of_indexDocument indexedAs, pointsOf,
    List.map_map]
  rfl

theorem IndexedAll.isSome_iff {done : List StoredDocument}
    {points : Collection Dense Sparse}
    (written : IndexedAll libraries projectId config done points)
    (id : String) :
    (points id).isSome = true ↔
      id ∈ done.flatMap (chunkIds libraries config) := by
  induction written with
  | nil => simp
  | snoc written indexedAs inductionHypothesis =>
      rw [upsert_isSome_iff, inductionHypothesis, keys_pointsOf indexedAs,
        List.flatMap_append, List.mem_append, List.flatMap_singleton]

end Rewritten

section Proof

variable {Dense Sparse : Type} {libraries : Libraries Dense Sparse}
  {projectId : Uuid} {rows : List StoredDocument} {now : Timestamp}
  {start store target : Store Dense Sparse} {choice : ReindexChoice}
  {pc next : ReindexPc Dense Sparse}

/-- What is stored when a reindex that runs alone comes to a statement. -/
def Stands (libraries : Libraries Dense Sparse) (projectId : Uuid)
    (start store : Store Dense Sparse) : ReindexPc Dense Sparse → Prop
  | .fetchProject | .fetchDocuments _ | .deleteExists _ _
  | .deleteCollection _ _ =>
      store.points projectId = start.points projectId
  | .ensureExists _ _ | .ensureCreate _ _ =>
      store.collections projectId = none
  | .index config done _ | .completed config done =>
      (store.collections projectId).isSome = true ∧
        IndexedAll libraries projectId config done (store.points projectId)
  | .upsertExists config done row _ indexed
  | .upsert config done row _ indexed =>
      ((store.collections projectId).isSome = true ∧
        IndexedAll libraries projectId config done
          (store.points projectId)) ∧
        indexDocument libraries row.document config = some (.ok indexed)
  | .upsertCreate _ _ _ _ _ => False
  | .raised failing fault _ =>
      failing.running = true ∧ ∃ before now,
        Stands libraries projectId start before failing ∧
          store =
            reindexAfterFault libraries projectId before fault now failing

theorem points_putCollection (projectId : Uuid)
    (collection : Option (Collection Dense Sparse)) :
    (store.putCollection projectId collection).points projectId =
      collection.getD fun _ => none := by
  simp [Store.points, Store.putCollection]

theorem collections_putPoints {points : List (String × Point Dense Sparse)}
    (present : (store.collections projectId).isSome = true) :
    ((store.putPoints projectId points).collections projectId).isSome =
      true := by
  simpa [Store.putPoints] using present

theorem Reindexes.stands
    (reindexes : Reindexes libraries projectId rows store now pc target next)
    (stands : Stands libraries projectId start store pc) :
    Stands libraries projectId start target next := by
  cases reindexes with
  | fetchProject | fetchDocuments | deleteExists => exact stands
  | deleteMissing absent => exact absent
  | deleteCollection => simp [Stands, Store.putCollection]
  | ensureExists present =>
      rw [Stands] at stands
      rw [stands] at present
      cases present
  | ensureMissing absent => exact absent
  | ensureCreate =>
      refine ⟨by simp [Store.putCollection], ?_⟩
      rw [points_putCollection]
      exact IndexedAll.nil
  | complete => exact stands
  | index indexedAs => exact ⟨stands, indexedAs⟩
  | upsertExists => exact stands
  | upsertMissing absent =>
      have present := stands.1.1
      rw [absent] at present
      cases present
  | upsertCreate => exact stands.elim
  | upsert present _ =>
      refine ⟨collections_putPoints present, ?_⟩
      rw [putPoints_points _ present]
      exact IndexedAll.snoc stands.1.2 stands.2

theorem stands_of_reachable
    {state : Store Dense Sparse × ReindexPc Dense Sparse}
    (reachable :
      Reachable (reindexProject libraries projectId rows start) state) :
    Stands libraries projectId start state.1 state.2 := by
  refine @invariant_of_step _ _ _
    (fun state => Stands libraries projectId start state.1 state.2)
    ?_ ?_ state reachable
  · rintro _ rfl
    rfl
  · rintro ⟨store, pc⟩ choice ⟨target, next⟩ stands taken
    rcases reindexAdvance_cases taken with
      ⟨fault, running, rfl, rfl⟩ | ⟨_, reindexes⟩
    · exact ⟨running, store, choice.now, stands, rfl⟩
    · exact reindexes.stands stands

/-- Until the collection is deleted its points are those of the start. -/
theorem points_of_not_deleted {before : Store Dense Sparse}
    {failing : ReindexPc Dense Sparse} {fault : Fault}
    (stands : Stands libraries projectId start before failing)
    (notDeleted : failing.deleted fault = false) :
    (reindexAfterFault libraries projectId before fault now failing).points
      projectId = start.points projectId := by
  cases failing with
  | fetchProject | fetchDocuments | deleteExists => exact stands
  | deleteCollection config rest =>
      have notLanded : fault.landed = false := notDeleted
      rw [reindexAfterFault, notLanded]
      exact stands
  | _ => cases notDeleted

/-- Once it is deleted its points are those written again. -/
theorem isSome_of_deleted {before : Store Dense Sparse}
    {failing : ReindexPc Dense Sparse} {fault : Fault}
    (running : failing.running = true)
    (stands : Stands libraries projectId start before failing)
    (deleted : failing.deleted fault = true) (id : String) :
    ((reindexAfterFault libraries projectId before fault now failing).points
        projectId id).isSome = true ↔
      id ∈ failing.rewritten libraries fault := by
  cases failing with
  | fetchProject | fetchDocuments | deleteExists => cases deleted
  | deleteCollection config rest =>
      have landed : fault.landed = true := deleted
      rw [reindexAfterFault, landed, if_pos rfl, points_putCollection]
      simp [ReindexPc.rewritten]
  | ensureExists config rest | ensureCreate config rest =>
      have absent : before.collections projectId = none := stands
      simp [reindexAfterFault, Store.points, absent, ReindexPc.rewritten]
  | index config done rest => exact stands.2.isSome_iff id
  | upsertExists config done row rest indexed =>
      exact stands.1.2.isSome_iff id
  | upsertCreate config done row rest indexed => exact stands.elim
  | upsert config done row rest indexed =>
      obtain ⟨⟨present, written⟩, indexedAs⟩ := stands
      rw [reindexAfterFault, putPoints_points _ present, upsert_isSome_iff,
        written.isSome_iff, ReindexPc.rewritten, List.mem_append]
      refine or_congr_right ?_
      have keys : (pointsOf libraries projectId row.id indexed now).map
          Prod.fst = chunkIds libraries config row :=
        keys_pointsOf indexedAs now
      rw [← keys, List.filter_map]
      rfl
  | completed config done => cases running
  | raised failing fault message => cases running

/-- A reindex that raises loses nothing exactly when it raised before the
deletion, or everything that was stored had been written again by then. -/
theorem raised_nothingLost_iff {failing : ReindexPc Dense Sparse}
    {fault : Fault} {message : String}
    (reachable :
      Reachable (reindexProject libraries projectId rows start)
        (store, .raised failing fault message)) :
    NothingLost projectId start store ↔
      RaisedInTime libraries projectId start failing fault := by
  obtain ⟨running, before, now, stands, rfl⟩ := stands_of_reachable reachable
  unfold RaisedInTime
  cases deleted : failing.deleted fault with
  | false =>
      refine iff_of_true ?_ (Or.inl rfl)
      intro id present
      rw [points_of_not_deleted stands deleted]
      exact present
  | true =>
      rw [or_iff_right (by decide)]
      unfold NothingLost
      simp only [isSome_of_deleted running stands deleted]

def healthy : ReindexChoice where
  fault := none
  now := 6
  order := [0, 1]
  refusal := "already exists"

/-- A Markdown file that is not UTF-8. -/
def brokenRow : StoredDocument where
  id := 5
  projectId := 3
  document := {
    filename := "broken.md"
    fileType := "markdown"
    rawBytes := ⟨#[0xff]⟩ }

def sampleRow : StoredDocument where
  id := 2
  projectId := 3
  document := sampleDocument

def sampleChunk : Chunk where
  text := "alpha beta"
  index := 0
  filename := some "notes.pdf"

def sampleIndexed : Indexed Unit Unit where
  results := [(sampleChunk, ())]
  sparseResults := [(sampleChunk, ())]

/-- The project after the ingestion of its one readable document. -/
def indexedStore : Store Unit Unit :=
  { sampleStore with
    collections := fun id =>
      if id = 3 then
        some (Foundation.upsert (fun _ => none)
          (pointsOf sampleLibraries 3 2 sampleIndexed 5))
      else none }

theorem indexedStore_only {id : String}
    (present : (indexedStore.points 3 id).isSome = true) :
    id = pointId sampleLibraries 2 0 := by
  have isPoint : id ∈ [pointId sampleLibraries 2 0] := by
    rcases (upsert_isSome_iff (fun _ => none)
        (pointsOf sampleLibraries 3 2 sampleIndexed 5) id).mp present with
      none | written
    · cases none
    · exact written
  exact List.mem_singleton.mp isPoint

/-- The readable document is indexed again before the broken one fails. -/
theorem nothingLost_brokenLast :
    ∃ store failing fault message,
      Reachable (reindexProject sampleLibraries 3 [sampleRow, brokenRow]
        indexedStore) (store, .raised failing fault message) ∧
      failing.deleted fault = true ∧
      NothingLost 3 indexedStore store := by
  have reachable := @reachable_of_follow _ _
    (fun state => state = (indexedStore, ReindexPc.fetchProject))
    (fun state choice => reindexAdvance sampleLibraries 3
      [sampleRow, brokenRow] state.1 choice state.2)
    (List.replicate 10 healthy) _ _ (Reachable.initial rfl) rfl
  refine ⟨_, _, _, _, reachable, rfl, ?_⟩
  refine (raised_nothingLost_iff reachable).mpr (Or.inr ?_)
  intro id present
  have isOnly : id = pointId sampleLibraries 2 0 := indexedStore_only present
  rw [isOnly]
  exact List.mem_singleton.mpr rfl

/-- The broken document comes first: the points of the readable one are
gone. -/
theorem pointsLost_brokenFirst :
    ∃ store failing fault message,
      Reachable (reindexProject sampleLibraries 3 [brokenRow, sampleRow]
        indexedStore) (store, .raised failing fault message) ∧
      ¬ NothingLost 3 indexedStore store := by
  have reachable := @reachable_of_follow _ _
    (fun state => state = (indexedStore, ReindexPc.fetchProject))
    (fun state choice => reindexAdvance sampleLibraries 3
      [brokenRow, sampleRow] state.1 choice state.2)
    (List.replicate 7 healthy) _ _ (Reachable.initial rfl) rfl
  refine ⟨_, _, _, _, reachable, ?_⟩
  intro kept
  have stillThere := kept (pointId sampleLibraries 2 0) rfl
  cases stillThere

end Proof

end ProjectMemory.Workers
