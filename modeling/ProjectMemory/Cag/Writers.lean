import ProjectMemory.Cag.Service
import ProjectMemory.Foundation.KeyedStore
import ProjectMemory.Foundation.Transition

/-!
# The writers of belief states, statement by statement

`synthesize_and_insert`, `rebuild` and `insert_version` each open a
transaction, take the advisory lock of their project and then read, call the
LLM and insert.  Here any number of such calls are in progress at once, each
between two of its statements, while other transactions commit summaries.

* A statement sees every row committed before it.
* The lock of a key is held from the statement that takes it until the
  transaction ends; two projects whose keys hash alike share a lock.
* Any statement may fail, and so may the LLM callback; the transaction is then
  rolled back, which leaves no row behind.

The state carries one ghost component that no step reads: for every row, the
call that wrote it and the summaries it was synthesized from.
-/

namespace ProjectMemory.Cag

open Foundation

section Calls

variable {Content : Type}

inductive Mode where
  | compaction
  | genesis
  deriving DecidableEq, Repr

inductive Call (Content : Type) where
  | synthesizeAndInsert (batchSize : Nat)
  | rebuild (mode : Mode) (batchSize : Nat)
  | insertVersion (content : Content) (rebuildType : RebuildType)
      (lastSummaryCreatedAt : Timestamp) (summaryCountCovered : Nat)

/-- A call whose arguments passed the check at its start.  A rebuild checks
its batch size and does not use it afterwards. -/
inductive Request where
  | synthesizeAndInsert (size : BatchSize)
  | rebuild (mode : Mode)
  | insertVersion (draft : Draft)

/-- `if batch_size < 1: raise ValueError`. -/
def Call.check (schema : Schema Content) :
    Call Content → Except CagError Request
  | .synthesizeAndInsert batchSize =>
      if large : 1 ≤ batchSize then
        .ok (.synthesizeAndInsert ⟨batchSize, large⟩)
      else
        .error .batchSize
  | .rebuild mode batchSize =>
      if 1 ≤ batchSize then .ok (.rebuild mode) else .error .batchSize
  | .insertVersion content rebuildType lastSummaryCreatedAt count =>
      .ok (.insertVersion {
        state := schema.dump content
        rebuildType := rebuildType
        lastSummaryCreatedAt := lastSummaryCreatedAt
        summaryCountCovered := count })

/-- The row a call is about to insert, with the plan it was computed from and
the latest record read at the start. -/
structure Pending (Content : Type) where
  draft : Draft
  plan : Option (Plan Content)
  latest : Option (BeliefStateRecord Content)

inductive Pc (Content : Type) where
  | lock
  | getLatest
  | getLatestFull (latest : Option (BeliefStateRecord Content))
  | getWindow (latest base : Option (BeliefStateRecord Content))
  | callback (latest : Option (BeliefStateRecord Content))
      (plan : Plan Content)
  | maxVersion (pending : Pending Content)
  | insert (pending : Pending Content) (version : Nat)
  | commit (pending : Pending Content) (row : BeliefState)
  | refresh (pending : Pending Content) (row : BeliefState)

/-- What a call returns; `nothing` is `None`, respectively `(None, 0)`. -/
inductive Reply (Content : Type) where
  | nothing
  | synthesized (record : BeliefStateRecord Content) (remaining : Nat)
  | rebuilt (record : BeliefStateRecord Content)
      (previous : Option (BeliefStateRecord Content))
  | inserted (record : BeliefStateRecord Content)

inductive Phase (Content : Type) where
  | invoked (call : Call Content)
  | running (request : Request) (pc : Pc Content)
  | returned (reply : Reply Content)
  | raised (error : CagError)

/-- What the environment decides for one statement: how ties in an order are
broken, what the LLM callback answers, whether the statement fails, and the
identifier and clock value of a new row. -/
structure Choice (Content : Type) where
  order : OrderBy DocumentSummary.createdAt
  answer : Except String Content
  fault : Option String
  stamp : Stamp

namespace Request

def afterLock : Request → Pc Content
  | .insertVersion draft =>
      .maxVersion { draft := draft, plan := none, latest := none }
  | .synthesizeAndInsert _ => .getLatest
  | .rebuild _ => .getLatest

/-- The statement after `get_latest`: an update starts from the latest
record, a compaction from the latest full one, a genesis rebuild from
nothing. -/
def afterLatest (latest : Option (BeliefStateRecord Content)) :
    Request → Pc Content
  | .synthesizeAndInsert _ => .getWindow latest latest
  | .rebuild .compaction => .getLatestFull latest
  | .rebuild .genesis => .getWindow latest none
  | .insertVersion draft =>
      .maxVersion { draft := draft, plan := none, latest := none }

def plan (order : OrderBy DocumentSummary.createdAt)
    (summaries : List DocumentSummary) (projectId : Uuid)
    (base : Option (BeliefStateRecord Content)) :
    Request → Option (Plan Content)
  | .synthesizeAndInsert size =>
      incrementalPlan order summaries projectId size base
  | .rebuild _ => rebuildPlan order summaries projectId base
  | .insertVersion _ => none

def rebuildType : Request → RebuildType
  | .synthesizeAndInsert _ => .incremental
  | .rebuild _ => .full
  | .insertVersion draft => draft.rebuildType

/-- How a violation of the unique constraint is reported: only
`insert_version` translates it. -/
def conflict (projectId : Uuid) : Request → CagError
  | .insertVersion _ => .versionConflict projectId
  | .synthesizeAndInsert _ => .integrity projectId
  | .rebuild _ => .integrity projectId

def reply (pending : Pending Content) (record : BeliefStateRecord Content) :
    Request → Reply Content
  | .synthesizeAndInsert _ =>
      .synthesized record ((pending.plan.map Plan.remaining).getD 0)
  | .rebuild _ => .rebuilt record pending.latest
  | .insertVersion _ => .inserted record

end Request

/-- The exception a failing statement leads to.  The callback is no statement
of its own, and after the commit only the refresh is left. -/
def Pc.fault (message : String) : Pc Content → Option CagError
  | .callback _ _ => none
  | .refresh _ _ => some (.refresh message)
  | _ => some (.statement message)

/-- One statement that does not fail in the database. -/
def Request.statement (schema : Schema Content) (choice : Choice Content)
    (tables : Tables) (projectId : Uuid) (request : Request) :
    Pc Content → Phase Content
  | .lock => .running request request.afterLock
  | .getLatest =>
      match getLatest schema tables projectId with
      | .error failure => .raised failure
      | .ok latest => .running request (request.afterLatest latest)
  | .getLatestFull latest =>
      match getLatestFull schema tables projectId with
      | .error failure => .raised failure
      | .ok full => .running request (.getWindow latest full)
  | .getWindow latest base =>
      match request.plan choice.order tables.summaries projectId base with
      | none => .returned .nothing
      | some plan => .running request (.callback latest plan)
  | .callback latest plan =>
      match choice.answer with
      | .error message => .raised (.callback message)
      | .ok content =>
          .running request (.maxVersion {
            draft := plan.draft schema request.rebuildType content
            plan := some plan
            latest := latest })
  | .maxVersion pending =>
      .running request (.insert pending (nextVersion tables projectId))
  | .insert pending version =>
      if versionTaken tables projectId version then
        .raised (request.conflict projectId)
      else
        .running request
          (.commit pending (pending.draft.row projectId version choice.stamp))
  | .commit pending row => .running request (.refresh pending row)
  | .refresh pending row =>
      match toRecord schema row with
      | .error failure => .raised failure
      | .ok record => .returned (request.reply pending record)

namespace Phase

/-- The next phase of a call. -/
def next (schema : Schema Content) (choice : Choice Content)
    (tables : Tables) (projectId : Uuid) : Phase Content → Phase Content
  | .invoked call =>
      match call.check schema with
      | .error failure => .raised failure
      | .ok request => .running request .lock
  | .running request pc =>
      match choice.fault.bind pc.fault with
      | some failure => .raised failure
      | none => request.statement schema choice tables projectId pc
  | .returned reply => .returned reply
  | .raised error => .raised error

def finished : Phase Content → Bool
  | .returned _ => true
  | .raised _ => true
  | _ => false

def holdsLock : Phase Content → Bool
  | .running _ .lock => false
  | .running _ (.refresh _ _) => false
  | .running _ _ => true
  | _ => false

def waits : Phase Content → Bool
  | .running _ .lock => true
  | _ => false

def commits (choice : Choice Content) :
    Phase Content → Option (BeliefState × Pending Content)
  | .running _ (.commit pending row) =>
      match choice.fault with
      | some _ => none
      | none => some (row, pending)
  | _ => none

end Phase

end Calls

/-! ## The system -/

section System

variable {Content : Type}

/-- Ghost: who wrote a row and from which summaries. -/
structure Origin where
  author : Nat
  since : Option Timestamp
  inherited : List DocumentSummary
  batch : List DocumentSummary

/-- The summaries a row was synthesized from: its own batch appended to those
of the row it started from. -/
def Origin.provenance (origin : Origin) : List DocumentSummary :=
  origin.inherited ++ origin.batch

/-- The database together with all calls made so far. -/
structure State (Content : Type) where
  tables : Tables
  locks : BitVec 32 → Option Nat
  calls : Nat → Option (Uuid × Phase Content)
  origin : Uuid × Nat → Origin

def rowKey (row : BeliefState) : Uuid × Nat :=
  (row.projectId, row.version)

def recordKey (record : BeliefStateRecord Content) : Uuid × Nat :=
  (record.projectId, record.version)

def State.provenance (state : State Content) (row : BeliefState) :
    List DocumentSummary :=
  (state.origin (rowKey row)).provenance

def State.originOf (state : State Content) (author : Nat)
    (pending : Pending Content) : Origin where
  author := author
  since := pending.plan.bind Plan.since
  inherited :=
    match pending.plan.bind Plan.base with
    | none => []
    | some record => (state.origin (recordKey record)).provenance
  batch := (pending.plan.map Plan.batch).getD []

/-- `hashtext('cag:' || project_id)`. -/
def lockKey (hashtext : String → BitVec 32) (projectId : Uuid) : BitVec 32 :=
  hashtext ("cag:" ++ projectId.str)

/-- The labels: another transaction commits a summary, a call is made, or a
call executes its next statement. -/
inductive Label (Content : Type) where
  | commitSummary (row : DocumentSummary)
  | invoke (caller : Nat) (projectId : Uuid) (call : Call Content)
  | advance (caller : Nat) (choice : Choice Content)

def relock (locks : BitVec 32 → Option Nat) (key : BitVec 32) (caller : Nat)
    (before after : Phase Content) : BitVec 32 → Option Nat :=
  if after.holdsLock then Function.update locks key (some caller)
  else if before.holdsLock then Function.update locks key none
  else locks

def State.move (hashtext : String → BitVec 32) (schema : Schema Content)
    (state : State Content) (caller : Nat) (projectId : Uuid)
    (phase : Phase Content) (choice : Choice Content) : State Content :=
  let after := phase.next schema choice state.tables projectId
  { tables :=
      match phase.commits choice with
      | none => state.tables
      | some (row, _) =>
          { state.tables with beliefs := state.tables.beliefs ++ [row] }
    locks :=
      relock state.locks (lockKey hashtext projectId) caller phase after
    calls := Function.update state.calls caller (some (projectId, after))
    origin :=
      match phase.commits choice with
      | none => state.origin
      | some (row, pending) =>
          Function.update state.origin (rowKey row)
            (state.originOf caller pending) }

def State.blocked (hashtext : String → BitVec 32) (state : State Content)
    (projectId : Uuid) (phase : Phase Content) (choice : Choice Content) :
    Bool :=
  phase.waits && choice.fault.isNone &&
    (state.locks (lockKey hashtext projectId)).isSome

/-- One step; `none` where the label is not enabled. -/
def step (hashtext : String → BitVec 32) (schema : Schema Content)
    (state : State Content) : Label Content → Option (State Content)
  | .commitSummary row =>
      if state.tables.summaries.any fun other => other.id = row.id then
        none
      else
        some { state with
          tables := { state.tables with
            summaries := state.tables.summaries ++ [row] } }
  | .invoke caller projectId call =>
      match state.calls caller with
      | some _ => none
      | none =>
          some { state with
            calls := Function.update state.calls caller
              (some (projectId, .invoked call)) }
  | .advance caller choice =>
      match state.calls caller with
      | none => none
      | some (projectId, phase) =>
          if phase.finished || state.blocked hashtext projectId phase choice
          then none
          else some (state.move hashtext schema caller projectId phase choice)

def State.empty : State Content where
  tables := { summaries := [], beliefs := [] }
  locks := fun _ => none
  calls := fun _ => none
  origin := fun _ =>
    { author := 0, since := none, inherited := [], batch := [] }

def writers (hashtext : String → BitVec 32) (schema : Schema Content) :
    TransitionSystem (State Content) (Label Content) :=
  TransitionSystem.ofNext (fun state => state = State.empty)
    (step hashtext schema)

theorem reachable_writers {hashtext : String → BitVec 32}
    {schema : Schema Content} {labels : List (Label Content)}
    (enabled :
      (follow (step hashtext schema) labels State.empty).isSome = true) :
    Reachable (writers hashtext schema)
      (followed (step hashtext schema) labels State.empty enabled) :=
  reachable_of_follow (Reachable.initial rfl) (Option.some_get enabled).symm

end System

/-! ## What one step can do -/

section Inversion

variable {Content : Type} {hashtext : String → BitVec 32}
  {schema : Schema Content} {state target : State Content}

/-- Every step commits a summary with a fresh identifier, makes a call, or
executes one statement of a call that is neither finished nor blocked. -/
theorem step_cases {label : Label Content}
    (taken : step hashtext schema state label = some target) :
    (∃ row, label = .commitSummary row ∧
      (∀ other ∈ state.tables.summaries, other.id ≠ row.id) ∧
      target = { state with
        tables := { state.tables with
          summaries := state.tables.summaries ++ [row] } }) ∨
    (∃ caller projectId call, label = .invoke caller projectId call ∧
      state.calls caller = none ∧
      target = { state with
        calls := Function.update state.calls caller
          (some (projectId, .invoked call)) }) ∨
    (∃ caller choice projectId phase, label = .advance caller choice ∧
      state.calls caller = some (projectId, phase) ∧
      phase.finished = false ∧
      state.blocked hashtext projectId phase choice = false ∧
      target = state.move hashtext schema caller projectId phase choice) := by
  cases label with
  | commitSummary row =>
      simp only [step] at taken
      split at taken
      · cases taken
      · rename_i fresh
        simp only [Option.some.injEq] at taken
        refine Or.inl ⟨row, rfl, ?_, taken.symm⟩
        simpa using fresh
  | invoke caller projectId call =>
      simp only [step] at taken
      split at taken
      · cases taken
      · rename_i unused
        simp only [Option.some.injEq] at taken
        exact Or.inr (Or.inl
          ⟨caller, projectId, call, rfl, unused, taken.symm⟩)
  | advance caller choice =>
      simp only [step] at taken
      split at taken
      · cases taken
      · rename_i projectId phase present
        split at taken
        · cases taken
        · rename_i enabled
          simp only [Bool.or_eq_true, not_or, Bool.not_eq_true] at enabled
          simp only [Option.some.injEq] at taken
          exact Or.inr (Or.inr ⟨caller, choice, projectId, phase, rfl,
            present, enabled.1, enabled.2, taken.symm⟩)

variable {caller : Nat} {projectId : Uuid} {phase : Phase Content}
  {choice : Choice Content}

theorem step_advance (hashtext : String → BitVec 32)
    (schema : Schema Content) (choice : Choice Content)
    (present : state.calls caller = some (projectId, phase))
    (unfinished : phase.finished = false)
    (free : phase.waits = true →
      state.locks (lockKey hashtext projectId) = none) :
    step hashtext schema state (.advance caller choice) =
      some (state.move hashtext schema caller projectId phase choice) := by
  have notBlocked :
      state.blocked hashtext projectId phase choice = false := by
    cases waiting : phase.waits with
    | false => simp [State.blocked, waiting]
    | true => simp [State.blocked, free waiting]
  simp [step, present, unfinished, notBlocked]

@[simp]
theorem move_summaries :
    (state.move hashtext schema caller projectId phase choice
      ).tables.summaries = state.tables.summaries := by
  unfold State.move
  cases phase.commits choice <;> rfl

@[simp]
theorem move_calls :
    (state.move hashtext schema caller projectId phase choice).calls =
      Function.update state.calls caller
        (some (projectId,
          phase.next schema choice state.tables projectId)) :=
  rfl

@[simp]
theorem move_locks :
    (state.move hashtext schema caller projectId phase choice).locks =
      relock state.locks (lockKey hashtext projectId) caller phase
        (phase.next schema choice state.tables projectId) :=
  rfl

theorem move_of_commits_none (hashtext : String → BitVec 32)
    (schema : Schema Content) (state : State Content) (caller : Nat)
    (projectId : Uuid) (none : phase.commits choice = none) :
    (state.move hashtext schema caller projectId phase choice).tables =
        state.tables ∧
      (state.move hashtext schema caller projectId phase choice).origin =
        state.origin := by
  unfold State.move
  rw [none]
  exact ⟨rfl, rfl⟩

theorem move_of_commits_some (hashtext : String → BitVec 32)
    (schema : Schema Content) (state : State Content) (caller : Nat)
    (projectId : Uuid) {row : BeliefState} {pending : Pending Content}
    (committed : phase.commits choice = some (row, pending)) :
    (state.move hashtext schema caller projectId phase choice
        ).tables.beliefs = state.tables.beliefs ++ [row] ∧
      (state.move hashtext schema caller projectId phase choice).origin =
        Function.update state.origin (rowKey row)
          (state.originOf caller pending) := by
  unfold State.move
  rw [committed]
  exact ⟨rfl, rfl⟩

/-- Only the commit statement commits, and it leads to the refresh. -/
theorem commits_cases (schema : Schema Content) (projectId : Uuid)
    {row : BeliefState} {pending : Pending Content}
    (committed : phase.commits choice = some (row, pending)) :
    ∃ request, phase = .running request (.commit pending row) ∧
      ∀ tables, phase.next schema choice tables projectId =
        .running request (.refresh pending row) := by
  unfold Phase.commits at committed
  split at committed
  · rename_i request readyPending readyRow
    split at committed
    · cases committed
    · rename_i healthy
      simp only [Option.some.injEq, Prod.mk.injEq] at committed
      obtain ⟨rfl, rfl⟩ := committed
      refine ⟨request, rfl, fun tables => ?_⟩
      simp [Phase.next, healthy, Request.statement]
  · cases committed

/-- What a call can do next. -/
inductive Moves (schema : Schema Content) (choice : Choice Content)
    (tables : Tables) (projectId : Uuid) :
    Phase Content → Phase Content → Prop
  | finished {phase : Phase Content} :
      phase.finished = true →
      Moves schema choice tables projectId phase phase
  | refused {call : Call Content} :
      call.check schema = .error .batchSize →
      Moves schema choice tables projectId (.invoked call)
        (.raised .batchSize)
  | checked {call : Call Content} {request : Request} :
      call.check schema = .ok request →
      Moves schema choice tables projectId (.invoked call)
        (.running request .lock)
  | failed {request : Request} {pc : Pc Content} {message : String} :
      pc.fault message = some (.statement message) →
      Moves schema choice tables projectId (.running request pc)
        (.raised (.statement message))
  | refreshFailed {request : Request} {pending : Pending Content}
      {row : BeliefState} (message : String) :
      Moves schema choice tables projectId
        (.running request (.refresh pending row)) (.raised (.refresh message))
  | unreadable {request : Request} {pc : Pc Content} (owner : Uuid)
      (version : Nat) :
      Moves schema choice tables projectId (.running request pc)
        (.raised (.invalidBeliefState owner version))
  | lock {request : Request} :
      choice.fault = none →
      Moves schema choice tables projectId (.running request .lock)
        (.running request request.afterLock)
  | getLatest {request : Request}
      {latest : Option (BeliefStateRecord Content)} :
      getLatest schema tables projectId = .ok latest →
      Moves schema choice tables projectId (.running request .getLatest)
        (.running request (request.afterLatest latest))
  | getLatestFull {request : Request}
      {latest full : Option (BeliefStateRecord Content)} :
      getLatestFull schema tables projectId = .ok full →
      Moves schema choice tables projectId
        (.running request (.getLatestFull latest))
        (.running request (.getWindow latest full))
  | nothing {request : Request}
      {latest base : Option (BeliefStateRecord Content)} :
      request.plan choice.order tables.summaries projectId base = none →
      Moves schema choice tables projectId
        (.running request (.getWindow latest base)) (.returned .nothing)
  | getWindow {request : Request}
      {latest base : Option (BeliefStateRecord Content)}
      {plan : Plan Content} :
      request.plan choice.order tables.summaries projectId base =
        some plan →
      Moves schema choice tables projectId
        (.running request (.getWindow latest base))
        (.running request (.callback latest plan))
  | refusedCallback {request : Request}
      {latest : Option (BeliefStateRecord Content)} {plan : Plan Content}
      (message : String) :
      Moves schema choice tables projectId
        (.running request (.callback latest plan))
        (.raised (.callback message))
  | callback {request : Request}
      {latest : Option (BeliefStateRecord Content)} {plan : Plan Content}
      (content : Content) :
      Moves schema choice tables projectId
        (.running request (.callback latest plan))
        (.running request (.maxVersion {
          draft := plan.draft schema request.rebuildType content
          plan := some plan
          latest := latest }))
  | maxVersion {request : Request} {pending : Pending Content} :
      Moves schema choice tables projectId
        (.running request (.maxVersion pending))
        (.running request (.insert pending (nextVersion tables projectId)))
  | conflict {request : Request} {pending : Pending Content}
      {version : Nat} :
      versionTaken tables projectId version = true →
      Moves schema choice tables projectId
        (.running request (.insert pending version))
        (.raised (request.conflict projectId))
  | insert {request : Request} {pending : Pending Content}
      {version : Nat} :
      Moves schema choice tables projectId
        (.running request (.insert pending version))
        (.running request (.commit pending
          (pending.draft.row projectId version choice.stamp)))
  | commit {request : Request} {pending : Pending Content}
      {row : BeliefState} :
      Moves schema choice tables projectId
        (.running request (.commit pending row))
        (.running request (.refresh pending row))
  | refresh {request : Request} {pending : Pending Content}
      {row : BeliefState} (record : BeliefStateRecord Content) :
      Moves schema choice tables projectId
        (.running request (.refresh pending row))
        (.returned (request.reply pending record))

theorem moves_of_fault {tables : Tables} {projectId : Uuid}
    {request : Request} {pc : Pc Content} {message : String}
    {failure : CagError} (converted : pc.fault message = some failure) :
    Moves schema choice tables projectId (.running request pc)
      (.raised failure) := by
  cases pc with
  | callback latest plan => cases converted
  | refresh pending row =>
      cases converted
      exact Moves.refreshFailed message
  | _ =>
      cases converted
      exact Moves.failed rfl

theorem moves_statement {tables : Tables} {projectId : Uuid}
    {request : Request} {pc : Pc Content}
    (healthy : choice.fault.bind pc.fault = none) :
    Moves schema choice tables projectId (.running request pc)
      (request.statement schema choice tables projectId pc) := by
  cases pc with
  | lock =>
      refine Moves.lock ?_
      cases failed : choice.fault with
      | none => rfl
      | some message =>
          rw [failed] at healthy
          cases healthy
  | getLatest =>
      rw [Request.statement]
      cases read : getLatest schema tables projectId with
      | error failure =>
          obtain ⟨owner, version, rfl⟩ := readBack_eq_error read
          exact Moves.unreadable owner version
      | ok latest => exact Moves.getLatest read
  | getLatestFull latest =>
      rw [Request.statement]
      cases read : getLatestFull schema tables projectId with
      | error failure =>
          obtain ⟨owner, version, rfl⟩ := readBack_eq_error read
          exact Moves.unreadable owner version
      | ok full => exact Moves.getLatestFull read
  | getWindow latest base =>
      rw [Request.statement]
      split
      · rename_i nothing
        exact Moves.nothing nothing
      · rename_i plan planned
        exact Moves.getWindow planned
  | callback latest plan =>
      rw [Request.statement]
      cases choice.answer with
      | error message => exact Moves.refusedCallback message
      | ok content => exact Moves.callback content
  | maxVersion pending => exact Moves.maxVersion
  | insert pending version =>
      rw [Request.statement]
      split
      · rename_i taken
        exact Moves.conflict taken
      · exact Moves.insert
  | commit pending row => exact Moves.commit
  | refresh pending row =>
      rw [Request.statement]
      cases converted : toRecord schema row with
      | error failure =>
          rw [toRecord_eq_error converted]
          exact Moves.unreadable _ _
      | ok record => exact Moves.refresh record

theorem check_eq_error {call : Call Content} {failure : CagError}
    (refused : call.check schema = .error failure) :
    failure = .batchSize := by
  cases call with
  | insertVersion => cases refused
  | synthesizeAndInsert size | rebuild mode size =>
      rw [Call.check] at refused
      split at refused
      · cases refused
      · exact (Except.error.inj refused).symm

theorem moves_next (schema : Schema Content) (choice : Choice Content)
    (tables : Tables) (projectId : Uuid) (phase : Phase Content) :
    Moves schema choice tables projectId phase
      (phase.next schema choice tables projectId) := by
  cases phase with
  | returned reply => exact Moves.finished rfl
  | raised error => exact Moves.finished rfl
  | invoked call =>
      rw [Phase.next]
      cases checked : call.check schema with
      | error failure =>
          obtain rfl := check_eq_error checked
          exact Moves.refused checked
      | ok request => exact Moves.checked checked
  | running request pc =>
      rw [Phase.next]
      cases failed : choice.fault.bind pc.fault with
      | none => exact moves_statement failed
      | some failure =>
          obtain ⟨message, _, converted⟩ := Option.bind_eq_some_iff.mp failed
          exact moves_of_fault converted

end Inversion

end ProjectMemory.Cag
