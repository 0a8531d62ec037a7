import ProjectMemory.Workers.Points

/-!
# Retried and overlapping runs

Any number of runs of one job, each of which may crash or raise at any
statement, share the store.  Points are written under identifiers that depend
on the document alone, and the unique constraint admits one summary of the
document: an insert waits for the transaction that holds an uncommitted one
and does nothing once one is committed.

So whatever was cut off before, after a run that completed the document has
one point for each of its chunks and one summary.
-/

namespace ProjectMemory.Workers

open Foundation Ingestion

section System

variable {Content Dense Sparse : Type}

structure World (Content Dense Sparse : Type) where
  store : Store Dense Sparse
  runs : Nat → Option (Pc Content Dense Sparse)
  /-- The run whose transaction holds an uncommitted summary of the
  document. -/
  writer : Option Nat

inductive WorldLabel where
  | start (run : Nat)
  | advance (run : Nat) (choice : Choice)
  | crash (run : Nat)
  /-- Others change jobs, belief states and the queue. -/
  | interfere (jobs : Uuid → Option IngestionJob)
      (beliefs : List BeliefState) (updates : Uuid → Bool)

/-- The insert waits for the transaction that holds the same key. -/
def World.waits (world : World Content Dense Sparse) (choice : Choice) :
    Pc Content Dense Sparse → Bool
  | .insertSummary _ _ => choice.fault.isNone && world.writer.isSome
  | _ => false

def nextWriter (writer : Option Nat) (run : Nat)
    (next : Pc Content Dense Sparse) : Option Nat :=
  if next.pending.isSome then some run
  else if writer = some run then none
  else writer

def World.move (world : World Content Dense Sparse) (run : Nat)
    (reached : Store Dense Sparse × Pc Content Dense Sparse) :
    World Content Dense Sparse where
  store := reached.1
  runs := Function.update world.runs run (some reached.2)
  writer := nextWriter world.writer run reached.2

/-- One step; `none` where the label is not enabled. -/
def worldStep (libraries : Libraries Dense Sparse) (schema : Schema Content)
    (arguments : Arguments) (world : World Content Dense Sparse) :
    WorldLabel → Option (World Content Dense Sparse)
  | .start run =>
      match world.runs run with
      | some _ => none
      | none =>
          some { world with
            runs := Function.update world.runs run (some .fetchJob) }
  | .advance run choice =>
      (world.runs run).bind fun pc =>
        if world.waits choice pc then none
        else
          (advance libraries schema arguments world.store choice pc).map
            (world.move run)
  | .crash run =>
      -- the transaction of the run is rolled back
      some { world with
        runs := Function.update world.runs run none
        writer := if world.writer = some run then none else world.writer }
  | .interfere jobs beliefs updates =>
      some { world with
        store := { world.store with
          jobs := jobs
          tables := { world.store.tables with beliefs := beliefs }
          updates := updates } }

/-- The runs of one job that start from a given store. -/
def ingestions (libraries : Libraries Dense Sparse) (schema : Schema Content)
    (arguments : Arguments) (start : Store Dense Sparse) :
    TransitionSystem (World Content Dense Sparse) WorldLabel :=
  TransitionSystem.ofNext
    (fun world => world =
      { store := start, runs := fun _ => none, writer := none })
    (worldStep libraries schema arguments)

/-- The document has not been ingested: its chunks and the points that are
stored have names the hash tells apart, the stored points are those of other
documents, and there is no summary of the document. -/
structure Fresh (libraries : Libraries Dense Sparse) (names : Set String)
    (arguments : Arguments) (start : Store Dense Sparse) : Prop where
  injective : Set.InjOn libraries.uuid5 names
  chunks : ∀ chunk ∈ storedChunks libraries arguments start,
    pointName arguments.documentId chunk.index ∈ names
  keyed : ∀ id point, start.points arguments.projectId id = some point →
    ∃ documentId, documentId ≠ arguments.documentId ∧
      point.IsOf documentId ∧
      pointName documentId point.payload.chunkIndex ∈ names ∧
      id = pointId libraries documentId point.payload.chunkIndex
  noSummary : ∀ row ∈ start.tables.summaries,
    row.documentId ≠ arguments.documentId

structure Represents (arguments : Arguments) (chunk : Chunk)
    (point : Point Dense Sparse) : Prop where
  document : point.IsOf arguments.documentId
  project : point.payload.projectId = arguments.projectId.str
  index : point.payload.chunkIndex = chunk.index
  text : point.payload.text = chunk.text
  filename : point.payload.filename = chunk.filename.getD ""

/-- The points of the document are one for each of its chunks, there is one
summary of it, and everything else is as it was. -/
structure IngestedOnce (arguments : Arguments) (chunks : List Chunk)
    (start store : Store Dense Sparse) : Prop where
  each : ∀ chunk ∈ chunks, ∃! id, ∃ point,
    store.points arguments.projectId id = some point ∧
      Represents arguments chunk point
  only : ∀ id point, store.points arguments.projectId id = some point →
    point.IsOf arguments.documentId →
    ∃ chunk ∈ chunks, Represents arguments chunk point
  otherPoints : ∀ id point, ¬ point.IsOf arguments.documentId →
    (store.points arguments.projectId id = some point ↔
      start.points arguments.projectId id = some point)
  otherCollections : ∀ projectId, projectId ≠ arguments.projectId →
    store.collections projectId = start.collections projectId
  oneSummary : (store.tables.summaries.filter fun row =>
    row.documentId = arguments.documentId).length = 1
  otherSummaries : (store.tables.summaries.filter fun row =>
      row.documentId ≠ arguments.documentId) =
    start.tables.summaries.filter fun row =>
      row.documentId ≠ arguments.documentId

end System

/-! ## The store -/

section StoreInvariant

variable {Content Dense Sparse : Type} {libraries : Libraries Dense Sparse}
  {schema : Schema Content} {arguments : Arguments}
  {start store target : Store Dense Sparse} {choice : Choice}
  {pc next : Pc Content Dense Sparse}

/-- A point is as it was at the start, or it is the point of a chunk. -/
def Accounted (libraries : Libraries Dense Sparse) (arguments : Arguments)
    (start : Store Dense Sparse) (points : Collection Dense Sparse) :
    Prop :=
  ∀ id, points id = start.points arguments.projectId id ∨
    ∃ chunk ∈ storedChunks libraries arguments start,
      id = pointId libraries arguments.documentId chunk.index ∧
        ∃ point, points id = some point ∧ Represents arguments chunk point

/-- The document was indexed and every chunk of it has a point. -/
def Present (libraries : Libraries Dense Sparse) (arguments : Arguments)
    (start : Store Dense Sparse) (points : Collection Dense Sparse) :
    Prop :=
  (∃ indexed, IndexedFrom libraries arguments start indexed) ∧
    ∀ chunk ∈ storedChunks libraries arguments start,
      (points (pointId libraries arguments.documentId
        chunk.index)).isSome = true

def HasSummary (arguments : Arguments) (store : Store Dense Sparse) : Prop :=
  ∃ row ∈ store.tables.summaries, row.documentId = arguments.documentId

theorem Accounted.upsert {points : Collection Dense Sparse}
    {indexed : Indexed Dense Sparse} {now : Timestamp}
    (accounted : Accounted libraries arguments start points)
    (indexedFrom : IndexedFrom libraries arguments start indexed)
    (kept : String → Bool) :
    Accounted libraries arguments start
      (Foundation.upsert points
        ((pointsOf libraries arguments.projectId arguments.documentId
          indexed now).filter fun point => kept point.1)) := by
  intro id
  rcases upsert_cases points
      ((pointsOf libraries arguments.projectId arguments.documentId indexed
        now).filter fun point => kept point.1) id with
    same | ⟨point, member, found⟩
  · rw [same]
    exact accounted id
  · obtain ⟨chunk, isChunk, sameId, document, project, index, text,
      filename⟩ := mem_pointsOf (List.mem_filter.mp member).1
    rw [indexedFrom.chunks] at isChunk
    exact Or.inr ⟨chunk, isChunk, sameId, point, found,
      document, project, index, text, filename⟩

theorem present_upsert {indexed : Indexed Dense Sparse}
    (indexedFrom : IndexedFrom libraries arguments start indexed)
    (points : Collection Dense Sparse) (now : Timestamp) :
    Present libraries arguments start
      (Foundation.upsert points
        (pointsOf libraries arguments.projectId arguments.documentId indexed
          now)) := by
  refine ⟨⟨indexed, indexedFrom⟩, ?_⟩
  intro chunk isChunk
  rw [← indexedFrom.chunks] at isChunk
  have written := @pointId_mem_pointsOf _ _ libraries indexed chunk isChunk
    arguments.projectId arguments.documentId now
  obtain ⟨point, _, found⟩ := upsert_of_mem points written
  rw [found]
  rfl

theorem Effect.points_isSome
    (effect : Effect libraries arguments store pc target) {id : String}
    (present : (store.points arguments.projectId id).isSome = true) :
    (target.points arguments.projectId id).isSome = true := by
  cases effect with
  | none | job | summary | record | enqueue => exact present
  | create absent =>
      simp [Store.points, absent] at present
  | put now kept =>
      cases exists_collection : store.collections arguments.projectId with
      | none =>
          simp [Store.points, exists_collection] at present
      | some collection =>
          rw [putPoints_points _ (by rw [exists_collection]; rfl)]
          exact upsert_isSome present _

theorem Present.of_effect
    (effect : Effect libraries arguments store pc target)
    (present : Present libraries arguments start
      (store.points arguments.projectId)) :
    Present libraries arguments start
      (target.points arguments.projectId) :=
  ⟨present.1, fun chunk isChunk =>
    effect.points_isSome (present.2 chunk isChunk)⟩

theorem Accounted.of_effect
    (effect : Effect libraries arguments store pc target)
    (known : Known libraries arguments start pc)
    (accounted : Accounted libraries arguments start
      (store.points arguments.projectId)) :
    Accounted libraries arguments start
      (target.points arguments.projectId) := by
  by_cases isUpsert : pc.stage = some .upsert
  · cases effect with
    | put now kept =>
        cases exists_collection :
            store.collections arguments.projectId with
        | none =>
            rw [putPoints_of_none _ exists_collection]
            exact accounted
        | some collection =>
            rw [putPoints_points _ (by rw [exists_collection]; rfl)]
            exact accounted.upsert known kept
    | none | job | summary | record | enqueue => exact accounted
    | create absent => cases isUpsert
  · rw [effect.points isUpsert]
    exact accounted

theorem Effect.collections_isSome
    (effect : Effect libraries arguments store pc target)
    (present : (store.collections arguments.projectId).isSome = true) :
    (target.collections arguments.projectId).isSome = true := by
  cases effect with
  | none | job | summary | record | enqueue => exact present
  | create absent => simp
  | put now kept => simpa [Store.putPoints] using present

theorem Effect.other_collections
    (effect : Effect libraries arguments store pc target) {projectId : Uuid}
    (other : projectId ≠ arguments.projectId) :
    target.collections projectId = store.collections projectId := by
  cases effect with
  | none | job | summary | record | enqueue => rfl
  | create absent => exact Function.update_of_ne other _ _
  | put now kept => exact Function.update_of_ne other _ _

/-- A statement commits nothing, or the summary its run has inserted. -/
theorem Effect.summaries
    (effect : Effect libraries arguments store pc target) :
    target.tables.summaries = store.tables.summaries ∨
      target.tables.summaries =
        store.tables.summaries ++ pc.pending.toList := by
  cases effect with
  | none | job | create | put | enqueue => exact Or.inl rfl
  | summary => exact Or.inr rfl
  | record => exact Or.inr rfl

theorem HasSummary.of_effect
    (effect : Effect libraries arguments store pc target)
    (hasSummary : HasSummary arguments store) :
    HasSummary arguments target := by
  obtain ⟨row, member, ofDocument⟩ := hasSummary
  refine ⟨row, ?_, ofDocument⟩
  rcases effect.summaries with same | appended
  · rw [same]
    exact member
  · rw [appended]
    exact List.mem_append_left _ member

end StoreInvariant

/-! ## One run -/

section RunInvariant

variable {Content Dense Sparse : Type} {libraries : Libraries Dense Sparse}
  {schema : Schema Content} {arguments : Arguments}
  {start store target : Store Dense Sparse} {choice : Choice}
  {pc next : Pc Content Dense Sparse}

def Pc.upserted : Pc Content Dense Sparse → Bool
  | .summarize _ | .insertSummary _ _ | .commitSummary _ _ | .getLatest _
  | .countPending _ _ | .enqueue | .commitComplete | .completed => true
  | _ => false

/-- The run has committed a summary, or has found one committed. -/
def Pc.summarized : Pc Content Dense Sparse → Bool
  | .commitSummary _ none | .getLatest _ | .countPending _ _ | .enqueue
  | .commitComplete | .completed => true
  | _ => false

/-- What a run may rely on, whatever the other runs do. -/
structure RunInvariant (libraries : Libraries Dense Sparse)
    (arguments : Arguments) (start store : Store Dense Sparse)
    (pc : Pc Content Dense Sparse) : Prop where
  known : Known libraries arguments start pc
  exists_collection : pc.stage = some .upsert →
    (store.collections arguments.projectId).isSome = true
  present : pc.upserted = true →
    Present libraries arguments start (store.points arguments.projectId)
  summarized : pc.summarized = true → HasSummary arguments store
  pending : ∀ row, pc.pending = some row →
    row.documentId = arguments.documentId ∧ ¬ HasSummary arguments store

theorem Executes.upserted
    (executes :
      Executes libraries schema arguments store choice pc target next)
    (upserted : next.upserted = true) :
    pc.upserted = true ∨ ∃ config indexed, pc = .upsert config indexed ∧
      (store.collections arguments.projectId).isSome = true ∧
      target = store.putPoints arguments.projectId
        (pointsOf libraries arguments.projectId arguments.documentId indexed
          choice.now) := by
  cases executes with
  | upsert present _ => exact Or.inr ⟨_, _, rfl, present, rfl⟩
  | fetchJob | staysRunning | commitRunning | fetchDocument | fetchProject
  | index | collectionExists | collectionMissing | createCollection =>
      cases upserted
  | _ => exact Or.inl rfl

theorem Handles.not_upserted
    (handles : Handles arguments store choice pc target next) :
    next.upserted = false := by
  cases handles <;> rfl

theorem Handles.not_summarized
    (handles : Handles arguments store choice pc target next) :
    next.summarized = false := by
  cases handles <;> rfl

/-- The summary the run has inserted stays uncommitted, or the run ends and
holds none. -/
theorem Handles.pending
    (handles : Handles arguments store choice pc target next) :
    next.pending = none ∨ next.pending = pc.pending ∧ target = store := by
  cases handles with
  | fetched => exact Or.inr ⟨rfl, rfl⟩
  | _ => exact Or.inl rfl

/-- A failing statement keeps an inserted summary uncommitted, or gives it
up, or has committed it. -/
theorem pending_failure {stage : Stage} {fault : Fault} {now : Timestamp}
    {projectId : Uuid} :
    (pc.failure stage projectId fault now).pending = none ∨
      (pc.failure stage projectId fault now).pending = pc.pending ∧
        fault.landed = false := by
  simp only [Pc.failure]
  split
  · exact Or.inl rfl
  · rename_i healthy
    simp only [Bool.or_eq_true, not_or, Bool.not_eq_true] at healthy
    exact Or.inr ⟨rfl, healthy.2⟩

theorem afterFault_summaries {fault : Fault} {now : Timestamp}
    (notLanded : fault.landed = false) :
    (afterFault libraries arguments store fault now pc).tables.summaries =
      store.tables.summaries := by
  cases pc with
  | commitRunning | commitSummary | commitComplete =>
      simp [afterFault, notLanded]
  | _ => rfl

/-- An uncommitted summary is one the run had, or the one it inserts now. -/
theorem advance_pending
    (taken : advance libraries schema arguments store choice pc =
      some (target, next)) {row : DocumentSummary}
    (pending : next.pending = some row) :
    target.tables.summaries = store.tables.summaries ∧
      (pc.pending = some row ∨
        row.documentId = arguments.documentId ∧
          ¬ HasSummary arguments store ∧ choice.fault = none ∧
          ∃ config rawTextFallback,
            pc = .insertSummary config rawTextFallback) := by
  rcases advance_cases taken with
    ⟨stage, fault, isStage, rfl, rfl⟩ | ⟨healthy, executes⟩ | handles
  · rcases @pending_failure _ _ _ pc stage fault choice.now
        arguments.projectId with none | ⟨same, notLanded⟩
    · rw [Pc.pending, none] at pending
      cases pending
    · rw [Pc.pending, same] at pending
      exact ⟨afterFault_summaries notLanded, Or.inl pending⟩
  · cases executes with
    | insertSummary free =>
        rw [Pc.pending, Option.some.injEq] at pending
        refine ⟨rfl, Or.inr
          ⟨by rw [← pending]; rfl, ?_, healthy, _, _, rfl⟩⟩
        rintro ⟨other, member, ofDocument⟩
        exact free other member ofDocument
    | _ => cases pending
  · rcases handles.pending with none | ⟨same, rfl⟩
    · rw [none] at pending
      cases pending
    · rw [same] at pending
      exact ⟨rfl, Or.inl pending⟩

theorem HasSummary.congr
    (same : target.tables.summaries = store.tables.summaries) :
    HasSummary arguments target ↔ HasSummary arguments store := by
  unfold HasSummary
  rw [same]

theorem advance_present
    (taken : advance libraries schema arguments store choice pc =
      some (target, next))
    (invariant : RunInvariant libraries arguments start store pc)
    (upserted : next.upserted = true) :
    Present libraries arguments start
      (target.points arguments.projectId) := by
  rcases advance_cases taken with
    ⟨stage, fault, _, _, rfl⟩ | ⟨_, executes⟩ | handles
  · cases upserted
  · rcases executes.upserted upserted with
      before | ⟨config, indexed, rfl, present, rfl⟩
    · exact (invariant.present before).of_effect (advance_effect taken)
    · rw [putPoints_points _ present]
      exact present_upsert invariant.known _ _
  · rw [handles.not_upserted] at upserted
    cases upserted

theorem Executes.hasSummary
    (executes :
      Executes libraries schema arguments store choice pc target next)
    (invariant : RunInvariant libraries arguments start store pc)
    (summarized : next.summarized = true) :
    HasSummary arguments target := by
  have effect := executes.effect
  cases executes with
  | conflict found => exact found
  | @commitSummary config row =>
      cases row with
      | none =>
          exact (invariant.summarized rfl).of_effect effect
      | some row =>
          have ofDocument := (invariant.pending row rfl).1
          exact ⟨row, List.mem_append_right _ List.mem_cons_self, ofDocument⟩
  | getLatest | decide | decline | enqueue | commitComplete =>
      exact invariant.summarized rfl
  | _ => cases summarized

theorem RunInvariant.advance
    (taken : advance libraries schema arguments store choice pc =
      some (target, next))
    (documents : store.documents = start.documents)
    (projects : store.projects = start.projects)
    (invariant : RunInvariant libraries arguments start store pc) :
    RunInvariant libraries arguments start target next where
  known := advance_known taken documents projects invariant.known
  exists_collection := advance_exists_collection taken
  present := advance_present taken invariant
  summarized := by
    intro summarized
    rcases advance_cases taken with
      ⟨stage, fault, _, _, rfl⟩ | ⟨_, executes⟩ | handles
    · cases summarized
    · exact executes.hasSummary invariant summarized
    · rw [handles.not_summarized] at summarized
      cases summarized
  pending := by
    intro row pending
    obtain ⟨same, held | ⟨ofDocument, free, _⟩⟩ :=
      advance_pending taken pending
    · rw [HasSummary.congr same]
      exact invariant.pending row held
    · rw [HasSummary.congr same]
      exact ⟨ofDocument, free⟩

/-- A step of another run keeps it too, as only one of the two holds an
uncommitted summary. -/
theorem RunInvariant.frame {other : Pc Content Dense Sparse}
    (effect : Effect libraries arguments store other target)
    (alone : pc.pending.isSome = true → other.pending = none)
    (invariant : RunInvariant libraries arguments start store pc) :
    RunInvariant libraries arguments start target pc where
  known := invariant.known
  exists_collection := fun isUpsert =>
    effect.collections_isSome (invariant.exists_collection isUpsert)
  present := fun upserted => (invariant.present upserted).of_effect effect
  summarized := fun summarized =>
    (invariant.summarized summarized).of_effect effect
  pending := by
    intro row pending
    have same : target.tables.summaries = store.tables.summaries := by
      rcases effect.summaries with same | appended
      · exact same
      · rw [alone (by rw [pending]; rfl)] at appended
        simpa using appended
    rw [HasSummary.congr same]
    exact invariant.pending row pending

end RunInvariant

/-! ## All runs -/

section WorldInvariant

variable {Content Dense Sparse : Type} {libraries : Libraries Dense Sparse}
  {schema : Schema Content} {arguments : Arguments}
  {start : Store Dense Sparse} {world target : World Content Dense Sparse}

/-- The summaries are those at the start and at most one of the document. -/
def SummariesOnce (arguments : Arguments)
    (start store : Store Dense Sparse) : Prop :=
  ∃ row : Option DocumentSummary,
    (∀ summary, row = some summary →
      summary.documentId = arguments.documentId) ∧
    store.tables.summaries = start.tables.summaries ++ row.toList

/-- The invariant of the system. -/
structure Consistent (libraries : Libraries Dense Sparse)
    (arguments : Arguments) (start : Store Dense Sparse)
    (world : World Content Dense Sparse) : Prop where
  documents : world.store.documents = start.documents
  projects : world.store.projects = start.projects
  otherCollections : ∀ projectId, projectId ≠ arguments.projectId →
    world.store.collections projectId = start.collections projectId
  accounted : Accounted libraries arguments start
    (world.store.points arguments.projectId)
  summaries : SummariesOnce arguments start world.store
  runs : ∀ run pc, world.runs run = some pc →
    RunInvariant libraries arguments start world.store pc
  writer : ∀ run pc, world.runs run = some pc →
    pc.pending.isSome = true → world.writer = some run

theorem SummariesOnce.of_effect {store reached : Store Dense Sparse}
    {pc : Pc Content Dense Sparse}
    (effect : Effect libraries arguments store pc reached)
    (pending : ∀ row, pc.pending = some row →
      row.documentId = arguments.documentId ∧ ¬ HasSummary arguments store)
    (once : SummariesOnce arguments start store) :
    SummariesOnce arguments start reached := by
  obtain ⟨committed, ofDocument, rows⟩ := once
  rcases effect.summaries with same | appended
  · exact ⟨committed, ofDocument, same.trans rows⟩
  · cases held : pc.pending with
    | none =>
        rw [held, Option.toList_none, List.append_nil] at appended
        exact ⟨committed, ofDocument, appended.trans rows⟩
    | some row =>
        obtain ⟨isOf, none⟩ := pending row held
        cases committed with
        | none =>
            refine ⟨some row, ?_, ?_⟩
            · intro summary same
              rw [← Option.some.inj same]
              exact isOf
            · rw [appended, rows, held, Option.toList_none,
                List.append_nil]
        | some summary =>
            refine absurd ⟨summary, ?_, ofDocument summary rfl⟩ none
            rw [rows]
            exact List.mem_append_right _ List.mem_cons_self

/-- While another run holds an uncommitted summary, a run neither holds nor
inserts one. -/
theorem Consistent.advance_pending_none
    (consistent : Consistent libraries arguments start world)
    {run other : Nat} {pc next held : Pc Content Dense Sparse}
    {choice : Choice} {store : Store Dense Sparse}
    (present : world.runs run = some pc)
    (free : world.waits choice pc = false)
    (taken : advance libraries schema arguments world.store choice pc =
      some (store, next))
    (different : other ≠ run) (isOther : world.runs other = some held)
    (holds : held.pending.isSome = true) :
    pc.pending = none ∧ next.pending = none := by
  have writer := consistent.writer other held isOther holds
  have pcNone : pc.pending = none := by
    by_contra some
    have own := consistent.writer run pc present
      (Option.isSome_iff_ne_none.mpr some)
    rw [writer, Option.some.injEq] at own
    exact different own
  refine ⟨pcNone, ?_⟩
  by_contra some
  obtain ⟨row, pending⟩ := Option.ne_none_iff_exists'.mp some
  rcases (advance_pending taken pending).2 with
    own | ⟨_, _, healthy, config, rawTextFallback, rfl⟩
  · rw [pcNone] at own
    cases own
  · simp [World.waits, healthy, writer] at free

theorem Consistent.move
    (consistent : Consistent libraries arguments start world) {run : Nat}
    {pc next : Pc Content Dense Sparse} {choice : Choice}
    {store : Store Dense Sparse}
    (present : world.runs run = some pc)
    (free : world.waits choice pc = false)
    (taken : advance libraries schema arguments world.store choice pc =
      some (store, next)) :
    Consistent libraries arguments start (world.move run (store, next)) := by
  have effect := advance_effect taken
  have own := consistent.runs run pc present
  constructor
  case documents => exact effect.documents.trans consistent.documents
  case projects => exact effect.projects.trans consistent.projects
  case otherCollections =>
    intro projectId other
    exact (effect.other_collections other).trans
      (consistent.otherCollections projectId other)
  case accounted => exact consistent.accounted.of_effect effect own.known
  case summaries => exact consistent.summaries.of_effect effect own.pending
  case runs =>
    intro other held isOther
    rcases update_some_cases isOther with ⟨rfl, rfl⟩ | ⟨different, isHeld⟩
    · exact RunInvariant.advance taken consistent.documents
        consistent.projects own
    · refine (consistent.runs other held isHeld).frame effect fun holds => ?_
      exact (consistent.advance_pending_none present free taken different
        isHeld holds).1
  case writer =>
    intro other held isOther holds
    rcases update_some_cases isOther with ⟨rfl, rfl⟩ | ⟨different, isHeld⟩
    · exact if_pos holds
    · have none := (consistent.advance_pending_none present free taken
        different isHeld holds).2
      have writer := consistent.writer other held isHeld holds
      have notRun : some other ≠ some run := by
        simpa using different
      simp [World.move, nextWriter, none, writer, notRun]

theorem Consistent.crash
    (consistent : Consistent libraries arguments start world) (run : Nat) :
    Consistent libraries arguments start
      { world with
        runs := Function.update world.runs run none
        writer := if world.writer = some run then none
          else world.writer } := by
  have others : ∀ other held,
      Function.update world.runs run none other = some held →
      other ≠ run ∧ world.runs other = some held := by
    intro other held isOther
    by_cases same : other = run
    · rw [same, Function.update_self] at isOther
      cases isOther
    · rw [Function.update_of_ne same] at isOther
      exact ⟨same, isOther⟩
  refine ⟨consistent.documents, consistent.projects,
    consistent.otherCollections, consistent.accounted,
    consistent.summaries, ?_, ?_⟩
  · intro other held isOther
    exact consistent.runs other held (others other held isOther).2
  · intro other held isOther holds
    obtain ⟨different, isHeld⟩ := others other held isOther
    have writer := consistent.writer other held isHeld holds
    have notRun : world.writer ≠ some run := by
      rw [writer]
      simpa using different
    rw [if_neg notRun]
    exact writer

theorem Consistent.begin
    (consistent : Consistent libraries arguments start world) (run : Nat) :
    Consistent libraries arguments start
      { world with
        runs := Function.update world.runs run (some .fetchJob) } := by
  refine ⟨consistent.documents, consistent.projects,
    consistent.otherCollections, consistent.accounted,
    consistent.summaries, ?_, ?_⟩
  · intro other held isOther
    rcases update_some_cases isOther with ⟨_, rfl⟩ | ⟨_, isHeld⟩
    · exact ⟨trivial, nofun, nofun, nofun, nofun⟩
    · exact consistent.runs other held isHeld
  · intro other held isOther holds
    rcases update_some_cases isOther with ⟨_, rfl⟩ | ⟨_, isHeld⟩
    · cases holds
    · exact consistent.writer other held isHeld holds

theorem Consistent.step {label : WorldLabel}
    (consistent : Consistent libraries arguments start world)
    (taken : worldStep libraries schema arguments world label =
      some target) :
    Consistent libraries arguments start target := by
  cases label with
  | start run =>
      rw [worldStep] at taken
      split at taken
      · cases taken
      · cases taken
        exact consistent.begin run
  | advance run choice =>
      obtain ⟨pc, present, moved⟩ := Option.bind_eq_some_iff.mp taken
      split at moved
      · cases moved
      · rename_i free
        obtain ⟨⟨store, next⟩, advanced, rfl⟩ :=
          Option.map_eq_some_iff.mp moved
        exact consistent.move present (Bool.eq_false_of_not_eq_true free)
          advanced
  | crash run =>
      cases taken
      exact consistent.crash run
  | interfere jobs beliefs updates =>
      cases taken
      refine ⟨consistent.documents, consistent.projects,
        consistent.otherCollections, consistent.accounted,
        consistent.summaries, ?_, consistent.writer⟩
      intro run pc present
      have invariant := consistent.runs run pc present
      exact ⟨invariant.known, invariant.exists_collection,
        invariant.present, invariant.summarized, invariant.pending⟩

theorem consistent_initial :
    Consistent libraries arguments start
      ({ store := start, runs := fun _ => none, writer := none } :
        World Content Dense Sparse) := by
  constructor
  case documents => rfl
  case projects => rfl
  case otherCollections => exact fun _ _ => rfl
  case accounted =>
    intro id
    left
    rfl
  case summaries => exact ⟨none, nofun, (List.append_nil _).symm⟩
  case runs =>
    intro run pc present
    cases present
  case writer =>
    intro run pc present
    cases present

theorem consistent_of_reachable
    (reachable :
      Reachable (ingestions libraries schema arguments start) world) :
    Consistent libraries arguments start world := by
  refine invariant_of_step ?_ ?_ reachable
  · rintro _ rfl
    exact consistent_initial
  · intro source label reached consistent taken
    exact consistent.step taken

end WorldInvariant

/-! ## The law -/

section Law

variable {Content Dense Sparse : Type} {libraries : Libraries Dense Sparse}
  {schema : Schema Content} {arguments : Arguments} {names : Set String}
  {start : Store Dense Sparse} {points : Collection Dense Sparse}

theorem Fresh.absent (fresh : Fresh libraries names arguments start)
    {chunk : Chunk}
    (isChunk : chunk ∈ storedChunks libraries arguments start) :
    start.points arguments.projectId
      (pointId libraries arguments.documentId chunk.index) = none := by
  by_contra present
  obtain ⟨point, found⟩ := Option.ne_none_iff_exists'.mp present
  obtain ⟨documentId, different, _, used, sameId⟩ :=
    fresh.keyed _ point found
  have same := pointId_injective fresh.injective
    (fresh.chunks chunk isChunk) used sameId
  exact different same.1.symm

theorem Fresh.not_isOf (fresh : Fresh libraries names arguments start)
    {id : String} {point : Point Dense Sparse}
    (found : start.points arguments.projectId id = some point) :
    ¬ point.IsOf arguments.documentId := by
  obtain ⟨documentId, different, isOf, _⟩ := fresh.keyed id point found
  intro isOwn
  exact different (Uuid.str_injective (isOf.symm.trans isOwn))

theorem Accounted.chunk_of_isOf
    (accounted : Accounted libraries arguments start points)
    (fresh : Fresh libraries names arguments start)
    {id : String} {point : Point Dense Sparse}
    (found : points id = some point)
    (isOf : point.IsOf arguments.documentId) :
    ∃ chunk ∈ storedChunks libraries arguments start,
      id = pointId libraries arguments.documentId chunk.index ∧
        Represents arguments chunk point := by
  rcases accounted id with
    same | ⟨chunk, isChunk, sameId, represented, isPoint, represents⟩
  · rw [same] at found
    exact absurd isOf (fresh.not_isOf found)
  · rw [isPoint, Option.some.injEq] at found
    rw [← found]
    exact ⟨chunk, isChunk, sameId, represents⟩

theorem Accounted.represented
    (accounted : Accounted libraries arguments start points)
    (present : Present libraries arguments start points)
    (fresh : Fresh libraries names arguments start)
    {chunk : Chunk}
    (isChunk : chunk ∈ storedChunks libraries arguments start) :
    ∃ point,
      points (pointId libraries arguments.documentId chunk.index) =
        some point ∧ Represents arguments chunk point := by
  obtain ⟨indexed, indexedFrom⟩ := present.1
  have isSome := present.2 chunk isChunk
  rcases accounted (pointId libraries arguments.documentId chunk.index) with
    same | ⟨other, isOther, sameId, point, found, represents⟩
  · rw [same, fresh.absent isChunk] at isSome
    cases isSome
  · refine ⟨point, found, ?_⟩
    have sameIndex : chunk.index = other.index :=
      (pointId_injective fresh.injective (fresh.chunks chunk isChunk)
        (fresh.chunks other isOther) sameId).2
    have sameChunk : chunk = other :=
      indexedFrom.eq_of_index isChunk isOther sameIndex
    rw [sameChunk]
    exact represents

/-- A chunk is represented under one identifier only. -/
theorem Accounted.existsUnique_id
    (accounted : Accounted libraries arguments start points)
    (present : Present libraries arguments start points)
    (fresh : Fresh libraries names arguments start)
    {chunk : Chunk}
    (isChunk : chunk ∈ storedChunks libraries arguments start) :
    ∃! id, ∃ point, points id = some point ∧
      Represents arguments chunk point := by
  obtain ⟨point, found, represents⟩ :=
    accounted.represented present fresh isChunk
  refine ⟨_, ⟨point, found, represents⟩, ?_⟩
  rintro id ⟨other, isOther, alsoRepresents⟩
  obtain ⟨owner, _, sameId, ofOwner⟩ :=
    accounted.chunk_of_isOf fresh isOther alsoRepresents.document
  have sameIndex : owner.index = chunk.index :=
    ofOwner.index.symm.trans alsoRepresents.index
  rw [sameId, sameIndex]

theorem Accounted.other_points
    (accounted : Accounted libraries arguments start points)
    (fresh : Fresh libraries names arguments start)
    {id : String} {point : Point Dense Sparse}
    (notOf : ¬ point.IsOf arguments.documentId) :
    points id = some point ↔
      start.points arguments.projectId id = some point := by
  rcases accounted id with
    same | ⟨chunk, isChunk, sameId, own, isOwn, represents⟩
  · rw [same]
  · have absent := fresh.absent isChunk
    constructor
    · intro found
      rw [isOwn, Option.some.injEq] at found
      rw [← found] at notOf
      exact absurd represents.document notOf
    · intro found
      rw [sameId, absent] at found
      cases found

theorem summaries_once {store : Store Dense Sparse}
    (once : SummariesOnce arguments start store)
    (hasSummary : HasSummary arguments store)
    (none : ∀ row ∈ start.tables.summaries,
      row.documentId ≠ arguments.documentId) :
    (store.tables.summaries.filter fun row =>
        row.documentId = arguments.documentId).length = 1 ∧
      (store.tables.summaries.filter fun row =>
          row.documentId ≠ arguments.documentId) =
        start.tables.summaries.filter fun row =>
          row.documentId ≠ arguments.documentId := by
  obtain ⟨committed, ofDocument, rows⟩ := once
  have noneBefore : (start.tables.summaries.filter fun row =>
      row.documentId = arguments.documentId) = [] := by
    apply List.filter_eq_nil_iff.mpr
    intro row member
    simpa using none row member
  cases committed with
  | none =>
      obtain ⟨row, member, isOf⟩ := hasSummary
      rw [rows, Option.toList_none, List.append_nil] at member
      exact absurd isOf (none row member)
  | some row =>
      have isOf := ofDocument row rfl
      rw [rows, List.filter_append, List.filter_append, noneBefore]
      simp [isOf]

/-- Ingestion is idempotent under retry: in every world that any runs of the
job, crashed, failed or still going on, can lead to, once a run has completed
the document has exactly one point for each of its chunks and exactly one
summary, and everything of other documents is as it was. -/
theorem ingested_once_of_completed
    (fresh : Fresh libraries names arguments start)
    {world : World Content Dense Sparse}
    (reachable :
      Reachable (ingestions libraries schema arguments start) world)
    {run : Nat} (completed : world.runs run = some .completed) :
    ∃ document config chunks,
      start.documents arguments.documentId = some document ∧
      start.projects arguments.projectId = some config ∧
      documentChunks libraries document config = some (.ok chunks) ∧
      (∀ chunk ∈ chunks, chunk.filename = some document.filename) ∧
      IngestedOnce arguments chunks start world.store := by
  have consistent := consistent_of_reachable reachable
  have invariant := consistent.runs run .completed completed
  have present := invariant.present rfl
  obtain ⟨indexed, indexedFrom⟩ := present.1
  have stored := indexedFrom.chunks
  obtain ⟨document, config, isDocument, isConfig, indexedAs⟩ := indexedFrom
  have cut := documentChunks_of_indexDocument indexedAs
  have summaries := summaries_once consistent.summaries
    (invariant.summarized rfl) fresh.noSummary
  refine ⟨document, config, _, isDocument, isConfig, cut,
    filename_documentChunks cut, ?_⟩
  rw [stored]
  constructor
  case each =>
    intro chunk isChunk
    exact consistent.accounted.existsUnique_id present fresh isChunk
  case only =>
    intro id point found isOf
    obtain ⟨chunk, isChunk, _, represents⟩ :=
      consistent.accounted.chunk_of_isOf fresh found isOf
    exact ⟨chunk, isChunk, represents⟩
  case otherPoints =>
    intro id point notOf
    exact consistent.accounted.other_points fresh notOf
  case otherCollections => exact consistent.otherCollections
  case oneSummary => exact summaries.1
  case otherSummaries => exact summaries.2

theorem sampleStore_fresh :
    Fresh sampleLibraries {pointName 2 0} sampleArguments sampleStore where
  injective := Set.injOn_singleton _ _
  chunks := by
    intro chunk isChunk
    have only : storedChunks sampleLibraries sampleArguments sampleStore =
        [{ text := "alpha beta", index := 0,
           filename := some "notes.pdf" }] := rfl
    rw [only, List.mem_singleton] at isChunk
    rw [isChunk]
    rfl
  keyed := by
    intro id point found
    cases found
  noSummary := by
    intro row member
    cases member

/-- A run crashes with its points written and its summary uncommitted, and a
second run completes. -/
theorem retried_after_crash :
    ∃ world : World String Unit Unit,
      Reachable (ingestions sampleLibraries Cag.textSchema sampleArguments
        sampleStore) world ∧
      world.runs 1 = some .completed ∧
      ∃ chunks, IngestedOnce sampleArguments chunks sampleStore
        world.store := by
  have reachable := @reachable_of_follow _ _
    (fun world => world =
      ({ store := sampleStore, runs := fun _ => none, writer := none } :
        World String Unit Unit))
    (worldStep sampleLibraries Cag.textSchema sampleArguments)
    (.start 0 :: List.replicate 10 (.advance 0 quiet) ++
      .crash 0 :: .start 1 :: List.replicate 14 (.advance 1 quiet))
    _ _ (Reachable.initial rfl) rfl
  obtain ⟨_, _, chunks, _, _, _, _, once⟩ :=
    ingested_once_of_completed sampleStore_fresh reachable
      (rfl : World.runs _ 1 = some Pc.completed)
  exact ⟨_, reachable, rfl, chunks, once⟩

end Law

end ProjectMemory.Workers
