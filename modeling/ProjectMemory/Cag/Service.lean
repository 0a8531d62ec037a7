import Mathlib.Data.List.MinMax
import ProjectMemory.Foundation.Watermark
import ProjectMemory.Models.Rows

/-!
# The queries and row builders of the belief-state service

Each definition is one query of the service against the tables, or the pure
computation between two of them.  The three writers of belief states are
composed from these pieces, sequentially in `Drain` and statement by statement
in `Writers`.
-/

namespace ProjectMemory.Cag

open Foundation

/-- The exceptions a call of the service can end with. -/
inductive CagError where
  /-- `batch_size` was below one. -/
  | batchSize
  /-- A stored state failed validation when it was read back. -/
  | invalidBeliefState (projectId : Uuid) (version : Nat)
  /-- The LLM callback raised, or returned something of the wrong type. -/
  | callback (message : String)
  /-- A statement failed in the database before the transaction committed. -/
  | statement (message : String)
  /-- The row violated `uq_belief_states_project_version`. -/
  | integrity (projectId : Uuid)
  /-- The same violation as `insert_version` reports it. -/
  | versionConflict (projectId : Uuid)
  /-- Reading the inserted row back failed after the commit. -/
  | refresh (message : String)
  deriving DecidableEq, Repr

/-- `str(exc)`, given the text of the `ValidationError` for the state of a
version. -/
def CagError.message (validationError : Uuid → Nat → String) :
    CagError → String
  | .batchSize => "batch_size must be at least 1"
  | .invalidBeliefState projectId version =>
      "Stored belief state for project " ++ projectId.str ++ " version " ++
        toString version ++ " failed schema validation: " ++
        validationError projectId version
  | .callback message => message
  | .statement message => message
  | .integrity _ =>
      "duplicate key value violates unique constraint \"uq_belief_states_project_version\""
  | .versionConflict projectId =>
      "Version conflict writing belief state for project " ++ projectId.str
  | .refresh message => message

/-- The tables the service reads and writes, in commit order. -/
structure Tables where
  summaries : List DocumentSummary
  beliefs : List BeliefState

def textSchema : Schema String where
  dump := Json.str
  validate
    | .str text => some text
    | _ => none

/-! ## Reading belief states -/

section Beliefs

variable {Content : Type}

def beliefsOf (beliefs : List BeliefState) (projectId : Uuid) :
    List BeliefState :=
  beliefs.filter fun row => row.projectId = projectId

/-- `ORDER BY version DESC LIMIT 1` over the rows of a project. -/
def latestRow (beliefs : List BeliefState) (projectId : Uuid) :
    Option BeliefState :=
  (beliefsOf beliefs projectId).argmax BeliefState.version

/-- The same restricted to `rebuild_type == "full"`. -/
def latestFullRow (beliefs : List BeliefState) (projectId : Uuid) :
    Option BeliefState :=
  ((beliefsOf beliefs projectId).filter fun row =>
    row.rebuildType = .full).argmax BeliefState.version

def toRecord (schema : Schema Content) (row : BeliefState) :
    Except CagError (BeliefStateRecord Content) :=
  match schema.validate row.state with
  | some content =>
      .ok {
        id := row.id
        projectId := row.projectId
        version := row.version
        rebuildType := row.rebuildType
        lastSummaryCreatedAt := row.lastSummaryCreatedAt
        summaryCountCovered := row.summaryCountCovered
        createdAt := row.createdAt
        state := content }
  | none => .error (.invalidBeliefState row.projectId row.version)

def readBack (schema : Schema Content) :
    Option BeliefState → Except CagError (Option (BeliefStateRecord Content))
  | none => .ok none
  | some row => (toRecord schema row).map some

def getLatest (schema : Schema Content) (tables : Tables)
    (projectId : Uuid) : Except CagError (Option (BeliefStateRecord Content)) :=
  readBack schema (latestRow tables.beliefs projectId)

def getLatestFull (schema : Schema Content) (tables : Tables)
    (projectId : Uuid) : Except CagError (Option (BeliefStateRecord Content)) :=
  readBack schema (latestFullRow tables.beliefs projectId)

/-- What `get_version` raises. -/
inductive VersionError where
  | notFound (projectId : Uuid) (version : Nat)
  | unreadable (error : CagError)
  deriving DecidableEq, Repr

def VersionError.message (validationError : Uuid → Nat → String) :
    VersionError → String
  | .notFound projectId version =>
      "Belief state version " ++ toString version ++
        " not found for project " ++ projectId.str
  | .unreadable error => error.message validationError

def versionRow (beliefs : List BeliefState) (projectId : Uuid)
    (version : Nat) : Option BeliefState :=
  (beliefsOf beliefs projectId).find? fun row => row.version = version

def getVersion (schema : Schema Content) (tables : Tables)
    (projectId : Uuid) (version : Nat) :
    Except VersionError (BeliefStateRecord Content) :=
  match versionRow tables.beliefs projectId version with
  | none => .error (.notFound projectId version)
  | some row => (toRecord schema row).mapError VersionError.unreadable

/-- `(SELECT max(version)) or 0`, plus one. -/
def nextVersion (tables : Tables) (projectId : Uuid) : Nat :=
  (((beliefsOf tables.beliefs projectId).map BeliefState.version).max?).getD 0 + 1

/-- The unique constraint on `(project_id, version)` rejects the pair. -/
def versionTaken (tables : Tables) (projectId : Uuid) (version : Nat) : Bool :=
  (beliefsOf tables.beliefs projectId).any fun row => row.version = version

end Beliefs

/-! ## Reading the event log -/

/-- `coalesce(summary["raw_text_fallback"].as_boolean(), false) IS FALSE`. -/
def notFallback (row : DocumentSummary) : Bool :=
  row.rawTextFallback.getD false == false

/-- The rows the window and the count range over. -/
def pendingRows (summaries : List DocumentSummary) (projectId : Uuid)
    (watermark : Option Timestamp) : List DocumentSummary :=
  summaries.filter fun row =>
    row.projectId = projectId && notFallback row &&
      above watermark row.createdAt

def getWindowSince (order : OrderBy DocumentSummary.createdAt)
    (summaries : List DocumentSummary) (projectId : Uuid)
    (watermark : Option Timestamp) : List DocumentSummary :=
  order.sort (pendingRows summaries projectId watermark)

def getAllSummaries (order : OrderBy DocumentSummary.createdAt)
    (summaries : List DocumentSummary) (projectId : Uuid) :
    List DocumentSummary :=
  getWindowSince order summaries projectId none

def countPending (summaries : List DocumentSummary) (projectId : Uuid)
    (watermark : Option Timestamp) : Nat :=
  (pendingRows summaries projectId watermark).length

/-- The watermark the latest stored row leaves behind. -/
def latestWatermark (beliefs : List BeliefState) (projectId : Uuid) :
    Option Timestamp :=
  (latestRow beliefs projectId).map BeliefState.lastSummaryCreatedAt

/-! ## What a call decides between its reads and its insert -/

section Planning

variable {Content : Type}

/-- A batch size that passed the check at the start of a call. -/
abbrev BatchSize := { size : Nat // 1 ≤ size }

def rebuildBatchSize : BatchSize :=
  ⟨40, by decide⟩

/-- What a call has read when it turns to the LLM: the record it starts from,
the rows it consumes and how many it leaves in the window. -/
structure Plan (Content : Type) where
  base : Option (BeliefStateRecord Content)
  batch : List DocumentSummary
  nonempty : batch ≠ []
  remaining : Nat

/-- `last_summary_created_at if latest else None`. -/
def Plan.since (plan : Plan Content) : Option Timestamp :=
  plan.base.map BeliefStateRecord.lastSummaryCreatedAt

/-- The window cut to the batch size, with the number of rows left over. -/
def takeBatch (size : BatchSize) (window : List DocumentSummary) :
    List DocumentSummary × Nat :=
  if size.val < window.length then
    (window.take size.val, window.length - size.val)
  else
    (window, 0)

theorem takeBatch_ne_nil (size : BatchSize)
    {window : List DocumentSummary} (nonempty : window ≠ []) :
    (takeBatch size window).1 ≠ [] := by
  unfold takeBatch
  split
  · intro empty
    have positive := size.property
    rcases List.take_eq_nil_iff.mp empty with zero | none
    · omega
    · exact nonempty none
  · exact nonempty

/-- The plan of an incremental update, or nothing when the window is empty. -/
def incrementalPlan (order : OrderBy DocumentSummary.createdAt)
    (summaries : List DocumentSummary) (projectId : Uuid) (size : BatchSize)
    (latest : Option (BeliefStateRecord Content)) : Option (Plan Content) :=
  let watermark := latest.map BeliefStateRecord.lastSummaryCreatedAt
  let window := getWindowSince order summaries projectId watermark
  if nonempty : window ≠ [] then
    some {
      base := latest
      batch := (takeBatch size window).1
      nonempty := takeBatch_ne_nil size nonempty
      remaining := (takeBatch size window).2 }
  else
    none

/-- The plan of a rebuild from an optional full state: every row above its
watermark, which is every row when there is no such state. -/
def rebuildPlan (order : OrderBy DocumentSummary.createdAt)
    (summaries : List DocumentSummary) (projectId : Uuid)
    (base : Option (BeliefStateRecord Content)) : Option (Plan Content) :=
  let rows :=
    match base with
    | some full =>
        getWindowSince order summaries projectId
          (some full.lastSummaryCreatedAt)
    | none => getAllSummaries order summaries projectId
  if nonempty : rows ≠ [] then
    some { base := base, batch := rows, nonempty := nonempty, remaining := 0 }
  else
    none

/-- The columns of a row that are known before its version is. -/
structure Draft where
  state : Json
  rebuildType : RebuildType
  lastSummaryCreatedAt : Timestamp
  summaryCountCovered : Nat

/-- The columns computed from a plan: the newest timestamp of the batch and
the count of the record it starts from plus the batch. -/
def Plan.draft (plan : Plan Content) (schema : Schema Content)
    (rebuildType : RebuildType) (content : Content) : Draft where
  state := schema.dump content
  rebuildType := rebuildType
  lastSummaryCreatedAt :=
    newest DocumentSummary.createdAt plan.batch plan.nonempty
  summaryCountCovered :=
    (plan.base.map BeliefStateRecord.summaryCountCovered).getD 0 +
      plan.batch.length

/-- The values the database and `uuid4` supply for a new row. -/
structure Stamp where
  id : Uuid
  now : Timestamp

def Draft.row (draft : Draft) (projectId : Uuid) (version : Nat)
    (stamp : Stamp) : BeliefState where
  id := stamp.id
  projectId := projectId
  version := version
  state := draft.state
  rebuildType := draft.rebuildType
  lastSummaryCreatedAt := draft.lastSummaryCreatedAt
  summaryCountCovered := draft.summaryCountCovered
  createdAt := stamp.now

end Planning

/-! ## Lemmas about the queries -/

section Lemmas

variable {Content : Type}

@[simp]
theorem mem_beliefsOf {beliefs : List BeliefState} {projectId : Uuid}
    {row : BeliefState} :
    row ∈ beliefsOf beliefs projectId ↔
      row ∈ beliefs ∧ row.projectId = projectId := by
  simp [beliefsOf]

@[simp]
theorem mem_pendingRows {summaries : List DocumentSummary}
    {projectId : Uuid} {watermark : Option Timestamp}
    {row : DocumentSummary} :
    row ∈ pendingRows summaries projectId watermark ↔
      row ∈ summaries ∧ row.projectId = projectId ∧
        notFallback row = true ∧ above watermark row.createdAt = true := by
  simp [pendingRows, and_assoc]

@[simp]
theorem mem_getWindowSince
    {order : OrderBy DocumentSummary.createdAt}
    {summaries : List DocumentSummary} {projectId : Uuid}
    {watermark : Option Timestamp} {row : DocumentSummary} :
    row ∈ getWindowSince order summaries projectId watermark ↔
      row ∈ pendingRows summaries projectId watermark :=
  order.mem_sort

theorem takeBatch_subset (size : BatchSize) (window : List DocumentSummary) :
    ∀ row ∈ (takeBatch size window).1, row ∈ window := by
  intro row member
  unfold takeBatch at member
  split at member
  · exact List.mem_of_mem_take member
  · exact member

theorem takeBatch_sublist (size : BatchSize)
    (window : List DocumentSummary) :
    (takeBatch size window).1.Sublist window := by
  unfold takeBatch
  split
  · exact List.take_sublist _ _
  · exact List.Sublist.refl _

theorem latestRow_mem {beliefs : List BeliefState} {projectId : Uuid}
    {row : BeliefState} (found : latestRow beliefs projectId = some row) :
    row ∈ beliefs ∧ row.projectId = projectId :=
  mem_beliefsOf.mp (List.argmax_mem found)

theorem version_le_latestRow {beliefs : List BeliefState}
    {projectId : Uuid} {latest row : BeliefState}
    (found : latestRow beliefs projectId = some latest)
    (member : row ∈ beliefs) (ofProject : row.projectId = projectId) :
    row.version ≤ latest.version :=
  List.le_of_mem_argmax (mem_beliefsOf.mpr ⟨member, ofProject⟩) found

theorem latestRow_eq_none {beliefs : List BeliefState} {projectId : Uuid} :
    latestRow beliefs projectId = none ↔
      ∀ row ∈ beliefs, row.projectId ≠ projectId := by
  rw [latestRow, List.argmax_eq_none, beliefsOf, List.filter_eq_nil_iff]
  simp

theorem latestFullRow_mem {beliefs : List BeliefState} {projectId : Uuid}
    {row : BeliefState}
    (found : latestFullRow beliefs projectId = some row) :
    row ∈ beliefs ∧ row.projectId = projectId := by
  have member := List.argmax_mem found
  exact mem_beliefsOf.mp (List.mem_filter.mp member).1

theorem toRecord_columns {schema : Schema Content} {row : BeliefState}
    {record : BeliefStateRecord Content}
    (read : toRecord schema row = .ok record) :
    record.projectId = row.projectId ∧ record.version = row.version ∧
      record.lastSummaryCreatedAt = row.lastSummaryCreatedAt ∧
      record.summaryCountCovered = row.summaryCountCovered := by
  unfold toRecord at read
  split at read
  · simp only [Except.ok.injEq] at read
    rw [← read]
    exact ⟨rfl, rfl, rfl, rfl⟩
  · cases read

theorem readBack_cases {schema : Schema Content}
    {found : Option BeliefState}
    {record : Option (BeliefStateRecord Content)}
    (read : readBack schema found = .ok record) :
    (found = none ∧ record = none) ∨
      ∃ row content, found = some row ∧ record = some content ∧
        toRecord schema row = .ok content := by
  cases found with
  | none =>
      simp only [readBack, Except.ok.injEq] at read
      exact Or.inl ⟨rfl, read.symm⟩
  | some row =>
      simp only [readBack] at read
      cases converted : toRecord schema row with
      | error failure =>
          rw [converted] at read
          cases read
      | ok content =>
          rw [converted] at read
          simp only [Except.map, Except.ok.injEq] at read
          exact Or.inr ⟨row, content, rfl, read.symm, converted⟩

theorem toRecord_eq_error {schema : Schema Content} {row : BeliefState}
    {failure : CagError} (converted : toRecord schema row = .error failure) :
    failure = .invalidBeliefState row.projectId row.version := by
  unfold toRecord at converted
  split at converted
  · cases converted
  · exact (Except.error.inj converted).symm

theorem readBack_eq_error {schema : Schema Content}
    {found : Option BeliefState} {failure : CagError}
    (read : readBack schema found = .error failure) :
    ∃ projectId version, failure = .invalidBeliefState projectId version := by
  cases found with
  | none => cases read
  | some row =>
      rw [readBack] at read
      cases converted : toRecord schema row with
      | ok content =>
          rw [converted] at read
          cases read
      | error raised =>
          rw [converted] at read
          cases read
          exact ⟨_, _, toRecord_eq_error converted⟩

theorem getWindowSince_eq_nil {order : OrderBy DocumentSummary.createdAt}
    {summaries : List DocumentSummary} {projectId : Uuid}
    {watermark : Option Timestamp} :
    getWindowSince order summaries projectId watermark = [] ↔
      countPending summaries projectId watermark = 0 := by
  rw [getWindowSince, order.sort_eq_nil, countPending,
    List.length_eq_zero_iff]

theorem incrementalPlan_eq_none
    {order : OrderBy DocumentSummary.createdAt}
    {summaries : List DocumentSummary} {projectId : Uuid} {size : BatchSize}
    {latest : Option (BeliefStateRecord Content)} :
    incrementalPlan order summaries projectId size latest = none ↔
      getWindowSince order summaries projectId
        (latest.map BeliefStateRecord.lastSummaryCreatedAt) = [] := by
  by_cases empty : getWindowSince order summaries projectId
      (latest.map BeliefStateRecord.lastSummaryCreatedAt) = [] <;>
    simp [incrementalPlan, empty]

theorem incrementalPlan_eq_some
    {order : OrderBy DocumentSummary.createdAt}
    {summaries : List DocumentSummary} {projectId : Uuid} {size : BatchSize}
    {latest : Option (BeliefStateRecord Content)} {plan : Plan Content}
    (planned :
      incrementalPlan order summaries projectId size latest = some plan) :
    plan.base = latest ∧
      plan.batch = (takeBatch size (getWindowSince order summaries projectId
        plan.since)).1 ∧
      plan.remaining = (takeBatch size (getWindowSince order summaries
        projectId plan.since)).2 := by
  simp only [incrementalPlan, Option.dite_none_right_eq_some,
    Option.some.injEq] at planned
  obtain ⟨_, rfl⟩ := planned
  exact ⟨rfl, rfl, rfl⟩

theorem rebuildPlan_eq_some {order : OrderBy DocumentSummary.createdAt}
    {summaries : List DocumentSummary} {projectId : Uuid}
    {base : Option (BeliefStateRecord Content)} {plan : Plan Content}
    (planned : rebuildPlan order summaries projectId base = some plan) :
    plan.base = base ∧
      plan.batch =
        getWindowSince order summaries projectId plan.since := by
  cases base <;>
    simp only [rebuildPlan, Option.dite_none_right_eq_some,
      Option.some.injEq] at planned <;>
    obtain ⟨_, rfl⟩ := planned <;>
    exact ⟨rfl, rfl⟩

theorem Plan.since_lt_newest {plan : Plan Content} {mark : Timestamp}
    (since : plan.since = some mark)
    (read : ∀ row ∈ plan.batch, above plan.since row.createdAt = true) :
    mark < newest DocumentSummary.createdAt plan.batch plan.nonempty := by
  obtain ⟨top, topMember, topKey⟩ :=
    exists_newest DocumentSummary.createdAt plan.nonempty
  have isAbove := read top topMember
  rw [since, above_some] at isAbove
  rw [← topKey]
  exact isAbove

theorem lt_nextVersion {tables : Tables} {projectId : Uuid}
    {row : BeliefState} (member : row ∈ beliefsOf tables.beliefs projectId) :
    row.version < nextVersion tables projectId := by
  have listed : row.version ∈
      (beliefsOf tables.beliefs projectId).map BeliefState.version :=
    List.mem_map_of_mem member
  unfold nextVersion
  cases greatest :
      ((beliefsOf tables.beliefs projectId).map BeliefState.version).max? with
  | none =>
      rw [List.max?_eq_none_iff] at greatest
      rw [greatest] at listed
      cases listed
  | some version =>
      have bound := (List.max?_eq_some_iff.mp greatest).2 _ listed
      rw [Option.getD_some]
      omega

theorem versionTaken_nextVersion (tables : Tables) (projectId : Uuid) :
    versionTaken tables projectId (nextVersion tables projectId) = false := by
  unfold versionTaken
  rw [List.any_eq_false]
  intro row member
  have lower := lt_nextVersion member
  simp only [decide_eq_true_eq]
  omega

theorem beliefsOf_append_same (beliefs : List BeliefState)
    (row : BeliefState) :
    beliefsOf (beliefs ++ [row]) row.projectId =
      beliefsOf beliefs row.projectId ++ [row] := by
  simp [beliefsOf]

theorem beliefsOf_append_other (beliefs : List BeliefState)
    {row : BeliefState} {projectId : Uuid}
    (different : row.projectId ≠ projectId) :
    beliefsOf (beliefs ++ [row]) projectId = beliefsOf beliefs projectId := by
  simp [beliefsOf, different]

theorem latestRow_append (tables : Tables) (row : BeliefState)
    (version : row.version = nextVersion tables row.projectId) :
    latestRow (tables.beliefs ++ [row]) row.projectId = some row := by
  rw [latestRow, beliefsOf_append_same, List.argmax_concat]
  cases found : (beliefsOf tables.beliefs row.projectId).argmax
      BeliefState.version with
  | none => rfl
  | some latest =>
      have lower := lt_nextVersion (List.argmax_mem found)
      rw [← version] at lower
      simp only [lower, if_true]

end Lemmas

end ProjectMemory.Cag
