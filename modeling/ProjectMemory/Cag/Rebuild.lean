import ProjectMemory.Cag.Drain

/-!
# Rebuilding a belief state

`rebuild` run to its end with nothing else going on.  A genesis rebuild is meant
to ignore all prior states; it still reads the latest one back, for the drift
that is logged afterwards, and that read may refuse it.
-/

namespace ProjectMemory.Cag

open Foundation

section Sequential

variable {Content : Type}

/-- The accumulator of a rebuild and where its summaries begin. -/
def rebuildBase (schema : Schema Content) (tables : Tables)
    (projectId : Uuid) :
    Mode → Except CagError (Option (BeliefStateRecord Content))
  | .compaction => getLatestFull schema tables projectId
  | .genesis => .ok none

/-- What the transaction of a rebuild inserts, and the latest record it read
before. -/
structure Insertion (Content : Type) where
  row : BeliefState
  previous : Option (BeliefStateRecord Content)

def rebuildTransaction (schema : Schema Content)
    (environment : Environment Content) (tables : Tables) (projectId : Uuid)
    (mode : Mode) : Except CagError (Option (Insertion Content)) := do
  let previous ← getLatest schema tables projectId
  let base ← rebuildBase schema tables projectId mode
  match rebuildPlan environment.order tables.summaries projectId base with
  | none => pure none
  | some plan =>
      let content ←
        (environment.synthesize (base.map BeliefStateRecord.state)
          plan.batch).mapError CagError.callback
      let version := nextVersion tables projectId
      if versionTaken tables projectId version then
        throw (.integrity projectId)
      else
        pure (some {
          row := (plan.draft schema .full content).row projectId version
            environment.stamp
          previous := previous })

/-- `None`, or the new record and the one that was latest before. -/
abbrev RebuildResult (Content : Type) :=
  Except CagError
    (Option (BeliefStateRecord Content × Option (BeliefStateRecord Content)))

def Tables.insert (tables : Tables) (row : BeliefState) : Tables :=
  { tables with beliefs := tables.beliefs ++ [row] }

/-- The tables a rebuild leaves behind and how it ends.  The inserted row is
committed when it is read back, and stays when that fails. -/
def rebuild (schema : Schema Content) (environment : Environment Content)
    (tables : Tables) (projectId : Uuid) (mode : Mode) (batchSize : Nat) :
    Tables × RebuildResult Content :=
  if 1 ≤ batchSize then
    match rebuildTransaction schema environment tables projectId mode with
    | .error failure => (tables, .error failure)
    | .ok none => (tables, .ok none)
    | .ok (some insertion) =>
        (tables.insert insertion.row,
          (toRecord schema insertion.row).map fun record =>
            some (record, insertion.previous))
  else
    (tables, .error .batchSize)

end Sequential

/-! ## How a rebuild ends -/

section Endings

variable {Content : Type} {schema : Schema Content}
  {environment : Environment Content} {tables : Tables} {projectId : Uuid}
  {mode : Mode} {batchSize : Nat}
  {previous base : Option (BeliefStateRecord Content)}

theorem rebuildTransaction_of_unreadable {failure : CagError}
    (read : getLatest schema tables projectId = .error failure) :
    rebuildTransaction schema environment tables projectId mode =
      .error failure := by
  rw [rebuildTransaction, read]
  rfl

theorem rebuildTransaction_of_unreadable_base {failure : CagError}
    (read : getLatest schema tables projectId = .ok previous)
    (readBase : rebuildBase schema tables projectId mode = .error failure) :
    rebuildTransaction schema environment tables projectId mode =
      .error failure := by
  rw [rebuildTransaction, read, readBase]
  rfl

theorem rebuildTransaction_of_no_plan
    (read : getLatest schema tables projectId = .ok previous)
    (readBase : rebuildBase schema tables projectId mode = .ok base)
    (noPlan : rebuildPlan environment.order tables.summaries projectId base =
      none) :
    rebuildTransaction schema environment tables projectId mode =
      .ok none := by
  rw [rebuildTransaction, read, readBase]
  simp only [bind, Except.bind, noPlan]
  rfl

/-- A plan is handed to the callback, and its answer becomes the row of the
next version. -/
theorem rebuildTransaction_of_plan {plan : Plan Content}
    (read : getLatest schema tables projectId = .ok previous)
    (readBase : rebuildBase schema tables projectId mode = .ok base)
    (planned : rebuildPlan environment.order tables.summaries projectId base =
      some plan) :
    rebuildTransaction schema environment tables projectId mode =
      match environment.synthesize (base.map BeliefStateRecord.state)
          plan.batch with
      | .error message => .error (.callback message)
      | .ok content =>
          .ok (some {
            row := (plan.draft schema .full content).row projectId
              (nextVersion tables projectId) environment.stamp
            previous := previous }) := by
  rw [rebuildTransaction, read, readBase]
  simp only [bind, Except.bind, planned, versionTaken_nextVersion,
    Bool.false_eq_true, if_false]
  cases environment.synthesize (base.map BeliefStateRecord.state)
    plan.batch <;> rfl

theorem rebuild_of_error (positive : 1 ≤ batchSize) {failure : CagError}
    (ended : rebuildTransaction schema environment tables projectId mode =
      .error failure) :
    rebuild schema environment tables projectId mode batchSize =
      (tables, .error failure) := by
  rw [rebuild, if_pos positive, ended]

theorem rebuild_of_nothing (positive : 1 ≤ batchSize)
    (ended : rebuildTransaction schema environment tables projectId mode =
      .ok none) :
    rebuild schema environment tables projectId mode batchSize =
      (tables, .ok none) := by
  rw [rebuild, if_pos positive, ended]

theorem rebuild_of_insertion (positive : 1 ≤ batchSize)
    {insertion : Insertion Content}
    (ended : rebuildTransaction schema environment tables projectId mode =
      .ok (some insertion)) :
    rebuild schema environment tables projectId mode batchSize =
      (tables.insert insertion.row,
        (toRecord schema insertion.row).map fun record =>
          some (record, insertion.previous)) := by
  rw [rebuild, if_pos positive, ended]

/-- A genesis rebuild that has read the latest state back does not use it. -/
theorem rebuild_genesis (size : BatchSize)
    (read : getLatest schema tables projectId = .ok previous) :
    rebuild schema environment tables projectId .genesis size =
      match rebuildPlan environment.order tables.summaries projectId none with
      | none => (tables, .ok none)
      | some (plan : Plan Content) =>
          match environment.synthesize none plan.batch with
          | .error message => (tables, .error (.callback message))
          | .ok content =>
              let row := (plan.draft schema .full content).row projectId
                (nextVersion tables projectId) environment.stamp
              (tables.insert row, (toRecord schema row).map fun record =>
                some (record, previous)) := by
  cases planned : rebuildPlan environment.order tables.summaries projectId
      (none : Option (BeliefStateRecord Content)) with
  | none =>
      exact rebuild_of_nothing size.property
        (rebuildTransaction_of_no_plan read rfl planned)
  | some plan =>
      have ended := @rebuildTransaction_of_plan _ _ environment _ _ .genesis
        _ _ plan read rfl planned
      rw [Option.map_none] at ended
      simp only
      cases answered : environment.synthesize none plan.batch with
      | error message =>
          rw [answered] at ended
          exact rebuild_of_error size.property ended
      | ok content =>
          rw [answered] at ended
          exact rebuild_of_insertion size.property ended

end Endings

/-! ## The sequential function is a call that runs alone -/

section Alone

variable {Content : Type} {hashtext : String → BitVec 32}
  {schema : Schema Content} {projectId : Uuid}

def RebuildResult.phase : RebuildResult Content → Phase Content
  | .error failure => .raised failure
  | .ok none => .returned .nothing
  | .ok (some (record, previous)) => .returned (.rebuilt record previous)

theorem alone_rebuild_getLatest {choice : Choice Content} {mode : Mode}
    {batchSize : Nat} {tables final : Tables} {last : Phase Content}
    (positive : 1 ≤ batchSize) (healthy : choice.fault = none)
    (rest : Alone schema choice projectId tables
      (.running (.rebuild mode) .getLatest) final last) :
    Alone schema choice projectId tables
      (.invoked (.rebuild mode batchSize)) final last := by
  have checked : (Phase.invoked (.rebuild mode batchSize)).next schema choice
      tables projectId = .running (.rebuild mode) .lock := by
    simp [Phase.next, Call.check, positive]
  have locked : (Phase.running (.rebuild mode) .lock).next schema choice
      tables projectId = .running (.rebuild mode) .getLatest := by
    simp [Phase.next, healthy, Request.statement, Request.afterLock]
  exact Alone.quiet checked rfl rfl (Alone.quiet locked rfl rfl rest)

/-- The statements between the first read and the query of the summaries: one
more read for a compaction, none for a genesis rebuild. -/
theorem alone_rebuild_getWindow {choice : Choice Content} {mode : Mode}
    {tables final : Tables} {last : Phase Content}
    {previous base : Option (BeliefStateRecord Content)}
    (healthy : choice.fault = none)
    (read : getLatest schema tables projectId = .ok previous)
    (readBase : rebuildBase schema tables projectId mode = .ok base)
    (rest : Alone schema choice projectId tables
      (.running (.rebuild mode) (.getWindow previous base)) final last) :
    Alone schema choice projectId tables
      (.running (.rebuild mode) .getLatest) final last := by
  have readLatest : (Phase.running (.rebuild mode) .getLatest).next schema
      choice tables projectId =
      .running (.rebuild mode) ((Request.rebuild mode).afterLatest
        previous) := by
    simp [Phase.next, healthy, Request.statement, read]
  refine Alone.quiet readLatest rfl rfl ?_
  cases mode with
  | genesis =>
      cases readBase
      exact rest
  | compaction =>
      refine Alone.quiet ?_ rfl rfl rest
      simp only [rebuildBase] at readBase
      simp [Phase.next, healthy, Request.statement, Request.afterLatest,
        readBase]

theorem alone_rebuild_unreadable {choice : Choice Content} {mode : Mode}
    {tables : Tables} {failure : CagError}
    {previous : Option (BeliefStateRecord Content)}
    (healthy : choice.fault = none)
    (read : getLatest schema tables projectId = .ok previous)
    (readBase : rebuildBase schema tables projectId mode = .error failure) :
    Alone schema choice projectId tables
      (.running (.rebuild mode) .getLatest) tables (.raised failure) := by
  cases mode with
  | genesis => cases readBase
  | compaction =>
      have readLatest : (Phase.running (.rebuild .compaction)
          .getLatest).next schema choice tables projectId =
          .running (.rebuild .compaction) (.getLatestFull previous) := by
        simp [Phase.next, healthy, Request.statement, Request.afterLatest,
          read]
      refine Alone.quiet readLatest rfl rfl
        (Alone.quiet ?_ rfl rfl Alone.stop)
      simp only [rebuildBase] at readBase
      simp [Phase.next, healthy, Request.statement, readBase]

/-- The statements after the callback has answered. -/
theorem alone_rebuild_insert {environment : Environment Content}
    {tables : Tables} {mode : Mode} {content : Content}
    {pending : Pending Content} {result : Phase Content}
    (nextIs : (Phase.running (.rebuild mode) (.refresh pending
        (pending.draft.row projectId (nextVersion tables projectId)
          environment.stamp))).next schema (environment.choice (.ok content))
        (tables.insert (pending.draft.row projectId
          (nextVersion tables projectId) environment.stamp)) projectId =
      result) :
    Alone schema (environment.choice (.ok content)) projectId tables
      (.running (.rebuild mode) (.maxVersion pending))
      (tables.insert (pending.draft.row projectId
        (nextVersion tables projectId) environment.stamp)) result := by
  have inserted : (Phase.running (.rebuild mode)
      (.insert pending (nextVersion tables projectId))).next schema
      (environment.choice (.ok content)) tables projectId =
      .running (.rebuild mode) (.commit pending
        (pending.draft.row projectId (nextVersion tables projectId)
          environment.stamp)) := by
    simp [Phase.next, Environment.choice, Request.statement,
      versionTaken_nextVersion]
  refine Alone.quiet rfl rfl rfl (Alone.quiet inserted rfl rfl ?_)
  exact Alone.advance rfl (Alone.quiet nextIs rfl rfl Alone.stop)

/-- The statements from the query of the summaries on, for each answer of the
callback. -/
theorem alone_rebuild_after_reads (environment : Environment Content)
    {tables : Tables} {mode : Mode} {batchSize : Nat}
    {previous base : Option (BeliefStateRecord Content)}
    (positive : 1 ≤ batchSize)
    (read : getLatest schema tables projectId = .ok previous)
    (readBase : rebuildBase schema tables projectId mode = .ok base) :
    ∃ choice : Choice Content, choice.fault = none ∧
      Alone schema choice projectId tables
        (.running (.rebuild mode) (.getWindow previous base))
        (rebuild schema environment tables projectId mode batchSize).1
        (rebuild schema environment tables projectId mode
          batchSize).2.phase := by
  cases planned : rebuildPlan environment.order tables.summaries projectId
      base with
  | none =>
      rw [rebuild_of_nothing positive
        (rebuildTransaction_of_no_plan read readBase planned)]
      refine ⟨environment.choice (.error ""), rfl,
        Alone.quiet ?_ rfl rfl Alone.stop⟩
      simp [Phase.next, Environment.choice, Request.statement, Request.plan,
        planned, RebuildResult.phase]
  | some plan =>
      have readWindow (answer : Except String Content) :
          (Phase.running (.rebuild mode) (.getWindow previous base)).next
            schema (environment.choice answer) tables projectId =
            .running (.rebuild mode) (.callback previous plan) := by
        simp [Phase.next, Environment.choice, Request.statement,
          Request.plan, planned]
      have ended := rebuildTransaction_of_plan read readBase planned
      cases answered : environment.synthesize
          (base.map BeliefStateRecord.state) plan.batch with
      | error message =>
          rw [answered] at ended
          rw [rebuild_of_error positive ended]
          exact ⟨environment.choice (.error message), rfl,
            Alone.quiet (readWindow _) rfl rfl
              (Alone.quiet rfl rfl rfl Alone.stop)⟩
      | ok content =>
          rw [answered] at ended
          rw [rebuild_of_insertion positive ended]
          refine ⟨environment.choice (.ok content), rfl,
            Alone.quiet (readWindow _) rfl rfl
              (Alone.quiet rfl rfl rfl (alone_rebuild_insert ?_))⟩
          simp only [Phase.next, Environment.choice, Request.statement,
            Option.bind_none, Request.rebuildType]
          cases toRecord schema _ <;> rfl

/-- However a rebuild ends, it is a call of the concurrent system that runs
alone to its end. -/
theorem alone_of_rebuild (schema : Schema Content)
    (environment : Environment Content) (tables : Tables) (projectId : Uuid)
    (mode : Mode) (batchSize : Nat) :
    ∃ choice, Alone schema choice projectId tables
      (.invoked (.rebuild mode batchSize))
      (rebuild schema environment tables projectId mode batchSize).1
      (rebuild schema environment tables projectId mode batchSize).2.phase := by
  by_cases positive : 1 ≤ batchSize
  · cases read : getLatest schema tables projectId with
    | error failure =>
        rw [rebuild_of_error positive
          (rebuildTransaction_of_unreadable read)]
        refine ⟨environment.choice (.error ""),
          alone_rebuild_getLatest positive rfl
            (Alone.quiet ?_ rfl rfl Alone.stop)⟩
        simp [Phase.next, Environment.choice, Request.statement, read,
          RebuildResult.phase]
    | ok previous =>
        cases readBase : rebuildBase schema tables projectId mode with
        | error failure =>
            rw [rebuild_of_error positive
              (rebuildTransaction_of_unreadable_base read readBase)]
            exact ⟨environment.choice (.error ""),
              alone_rebuild_getLatest positive rfl
                (alone_rebuild_unreadable rfl read readBase)⟩
        | ok base =>
            obtain ⟨choice, healthy, alone⟩ :=
              alone_rebuild_after_reads environment positive read readBase
            exact ⟨choice, alone_rebuild_getLatest positive healthy
              (alone_rebuild_getWindow healthy read readBase alone)⟩
  · have refused : (Phase.invoked (.rebuild mode batchSize)).next schema
        (environment.choice (.error "")) tables projectId =
        .raised .batchSize := by
      simp [Phase.next, Call.check, positive]
    rw [rebuild, if_neg positive]
    exact ⟨environment.choice (.error ""),
      Alone.quiet refused rfl rfl Alone.stop⟩

theorem follow_rebuild {state : State Content} {caller : Nat}
    (environment : Environment Content) (mode : Mode) (batchSize : Nat)
    (unused : state.calls caller = none)
    (free : state.locks (lockKey hashtext projectId) = none) :
    ∃ labels target,
      follow (step hashtext schema) labels state = some target ∧
        target.tables =
          (rebuild schema environment state.tables projectId mode
            batchSize).1 ∧
        target.calls caller = some (projectId,
          (rebuild schema environment state.tables projectId mode
            batchSize).2.phase) := by
  obtain ⟨choice, alone⟩ := alone_of_rebuild schema environment state.tables
    projectId mode batchSize
  exact follow_of_alone_invoked alone unused free

end Alone

/-! ## Two databases with the same event log -/

section TwoRuns

variable {Content : Type} {schema : Schema Content} {projectId : Uuid}
  {left right : Tables}

/-- The event log of a project. -/
def summariesOf (summaries : List DocumentSummary) (projectId : Uuid) :
    List DocumentSummary :=
  summaries.filter fun row => row.projectId = projectId

/-- The summaries of the project are the same and its belief states have the
same versions; whatever else the belief states hold may differ. -/
structure SameLog (projectId : Uuid) (left right : Tables) : Prop where
  summaries : summariesOf left.summaries projectId =
    summariesOf right.summaries projectId
  versions : ∀ version,
    version ∈ (beliefsOf left.beliefs projectId).map BeliefState.version ↔
      version ∈ (beliefsOf right.beliefs projectId).map BeliefState.version

/-- Two rows that differ in their identifier and `created_at` at most. -/
structure SameInsertion (first second : BeliefState) : Prop where
  projectId : first.projectId = second.projectId
  version : first.version = second.version
  state : first.state = second.state
  rebuildType : first.rebuildType = second.rebuildType
  lastSummaryCreatedAt :
    first.lastSummaryCreatedAt = second.lastSummaryCreatedAt
  summaryCountCovered :
    first.summaryCountCovered = second.summaryCountCovered

/-- Two rebuilds both return `None`, both raise what the callback raised, or
both insert the same row but for its stamp and then end alike. -/
inductive SameEffect (left right : Tables) :
    Tables × RebuildResult Content → Tables × RebuildResult Content → Prop
  | nothing : SameEffect left right (left, .ok none) (right, .ok none)
  | raised (message : String) :
      SameEffect left right (left, .error (.callback message))
        (right, .error (.callback message))
  | inserted {first second : BeliefState}
      {firstResult secondResult : RebuildResult Content} :
      SameInsertion first second →
      (∀ failure, firstResult = .error failure ↔
        secondResult = .error failure) →
      SameEffect left right (left.insert first, firstResult)
        (right.insert second, secondResult)

/-- The latest belief state, if there is one, passes validation. -/
def LatestReadable (schema : Schema Content) (tables : Tables)
    (projectId : Uuid) : Prop :=
  ∀ row, latestRow tables.beliefs projectId = some row →
    (schema.validate row.state).isSome = true

theorem pendingRows_eq_filter (summaries : List DocumentSummary)
    (watermark : Option Timestamp) :
    pendingRows summaries projectId watermark =
      (summariesOf summaries projectId).filter fun row =>
        notFallback row && above watermark row.createdAt := by
  rw [pendingRows, summariesOf, List.filter_filter]
  apply List.filter_congr
  intro row _
  rw [Bool.and_assoc, Bool.and_comm]

theorem max?_congr {first second : List Nat}
    (same : ∀ number, number ∈ first ↔ number ∈ second) :
    first.max? = second.max? := by
  cases greatest : second.max? with
  | none =>
      rw [List.max?_eq_none_iff] at greatest ⊢
      rw [List.eq_nil_iff_forall_not_mem]
      intro number member
      have inSecond := (same number).mp member
      rw [greatest] at inSecond
      cases inSecond
  | some bound =>
      rw [List.max?_eq_some_iff] at greatest ⊢
      exact ⟨(same bound).mpr greatest.1, fun number member =>
        greatest.2 number ((same number).mp member)⟩

theorem SameLog.nextVersion (same : SameLog projectId left right) :
    nextVersion left projectId = nextVersion right projectId := by
  rw [Cag.nextVersion, Cag.nextVersion, max?_congr same.versions]

theorem SameLog.rebuildPlan (same : SameLog projectId left right)
    (order : OrderBy DocumentSummary.createdAt) :
    (rebuildPlan order left.summaries projectId none :
        Option (Plan Content)) =
      rebuildPlan order right.summaries projectId none := by
  have sameRows : getAllSummaries order left.summaries projectId =
      getAllSummaries order right.summaries projectId := by
    rw [getAllSummaries, getAllSummaries, getWindowSince, getWindowSince,
      pendingRows_eq_filter, pendingRows_eq_filter, same.summaries]
  simp only [Cag.rebuildPlan, sameRows]

theorem getLatest_of_readable {tables : Tables}
    (readable : LatestReadable schema tables projectId) :
    ∃ previous, getLatest schema tables projectId = .ok previous := by
  unfold getLatest
  cases found : latestRow tables.beliefs projectId with
  | none => exact ⟨none, rfl⟩
  | some row =>
      obtain ⟨content, valid⟩ := Option.isSome_iff_exists.mp
        (readable row found)
      rw [readBack, toRecord, valid]
      exact ⟨_, rfl⟩

theorem readable_of_getLatest {tables : Tables}
    {previous : Option (BeliefStateRecord Content)}
    (read : getLatest schema tables projectId = .ok previous) :
    LatestReadable schema tables projectId := by
  intro row found
  rw [getLatest, found, readBack, toRecord] at read
  cases valid : schema.validate row.state with
  | some content => rfl
  | none =>
      rw [valid] at read
      cases read

/-- A rebuild that has one of the effects two rebuilds can share has read the
latest state back. -/
theorem readable_of_effect {environment : Environment Content}
    {tables : Tables} {mode : Mode} (size : BatchSize)
    (refused : ∀ owner version,
      rebuild schema environment tables projectId mode size ≠
        (tables, .error (.invalidBeliefState owner version))) :
    LatestReadable schema tables projectId := by
  cases read : getLatest schema tables projectId with
  | ok previous => exact readable_of_getLatest read
  | error failure =>
      obtain ⟨owner, version, rfl⟩ := readBack_eq_error read
      exact absurd
        (rebuild_of_error size.property
          (rebuildTransaction_of_unreadable read))
        (refused owner version)

theorem insert_ne (tables : Tables) (row : BeliefState) :
    tables.insert row ≠ tables := by
  intro same
  have lengths := congrArg (fun tables => tables.beliefs.length) same
  simp only [Tables.insert, List.length_append, List.length_singleton]
    at lengths
  omega

theorem SameEffect.not_refused
    {first second : Tables × RebuildResult Content}
    (effect : SameEffect left right first second) :
    (∀ owner version,
      first ≠ (left, .error (.invalidBeliefState owner version))) ∧
      ∀ owner version,
        second ≠ (right, .error (.invalidBeliefState owner version)) := by
  cases effect with
  | nothing =>
      constructor <;> intro owner version same <;> cases same
  | raised message =>
      constructor <;> intro owner version same <;> cases same
  | inserted agree endAlike =>
      constructor <;> intro owner version same
      · exact insert_ne left _ (congrArg Prod.fst same)
      · exact insert_ne right _ (congrArg Prod.fst same)

theorem map_eq_error {Source Target : Type} {result : Except CagError Source}
    {convert : Source → Target} {failure : CagError} :
    result.map convert = .error failure ↔ result = .error failure := by
  cases result <;> simp [Except.map]

theorem SameInsertion.toRecord_eq_error {first second : BeliefState}
    (agree : SameInsertion first second) {failure : CagError} :
    toRecord schema first = .error failure ↔
      toRecord schema second = .error failure := by
  unfold toRecord
  rw [agree.state, agree.projectId, agree.version]
  cases schema.validate second.state <;> simp

/-- A genesis rebuild with the same callback has the same effect on two
databases with the same event log exactly when both can read their latest
state back, a state it does not use. -/
theorem genesis_sameEffect_iff (same : SameLog projectId left right)
    (environment : Environment Content) (stamp : Stamp) (size : BatchSize) :
    SameEffect left right
        (rebuild schema environment left projectId .genesis size)
        (rebuild schema { environment with stamp := stamp } right projectId
          .genesis size) ↔
      LatestReadable schema left projectId ∧
        LatestReadable schema right projectId := by
  constructor
  · intro effect
    exact ⟨readable_of_effect size effect.not_refused.1,
      readable_of_effect size effect.not_refused.2⟩
  · rintro ⟨leftReadable, rightReadable⟩
    obtain ⟨leftPrevious, leftRead⟩ := getLatest_of_readable leftReadable
    obtain ⟨rightPrevious, rightRead⟩ := getLatest_of_readable rightReadable
    rw [rebuild_genesis size leftRead, rebuild_genesis size rightRead,
      same.rebuildPlan]
    cases rebuildPlan environment.order right.summaries projectId
        (none : Option (BeliefStateRecord Content)) with
    | none => exact SameEffect.nothing
    | some plan =>
        simp only
        cases environment.synthesize none plan.batch with
        | error message => exact SameEffect.raised message
        | ok content =>
            have agree : SameInsertion
                ((plan.draft schema .full content).row projectId
                  (Cag.nextVersion left projectId) environment.stamp)
                ((plan.draft schema .full content).row projectId
                  (Cag.nextVersion right projectId) stamp) :=
              ⟨rfl, same.nextVersion, rfl, rfl, rfl, rfl⟩
            refine SameEffect.inserted agree fun failure => ?_
            rw [map_eq_error, map_eq_error, agree.toRecord_eq_error]

/-- Two summaries of project one, and one belief state. -/
def storedLog (state : Json) (watermark : Timestamp) : Tables :=
  (logOf [3, 5]).insert {
    id := 8
    projectId := 1
    version := 1
    state := state
    rebuildType := .incremental
    lastSummaryCreatedAt := watermark
    summaryCountCovered := watermark
    createdAt := 6 }

def retelling : Environment String where
  order := OrderBy.stable _
  synthesize := fun _ batch => .ok (toString batch.length)
  stamp := { id := 9, now := 7 }

theorem storedLog_sameLog (first second : Json)
    (firstMark secondMark : Timestamp) :
    SameLog 1 (storedLog first firstMark) (storedLog second secondMark) :=
  ⟨rfl, fun _ => Iff.rfl⟩

theorem genesis_sameEffect_otherWatermark :
    SameEffect (storedLog (.str "three") 3) (storedLog (.str "five") 5)
      (rebuild textSchema retelling (storedLog (.str "three") 3) 1 .genesis 40)
      (rebuild textSchema retelling (storedLog (.str "five") 5) 1
        .genesis 40) := by
  refine (genesis_sameEffect_iff (storedLog_sameLog ..) retelling
    retelling.stamp rebuildBatchSize).mpr ⟨?_, ?_⟩
  · rintro row ⟨⟩
    rfl
  · rintro row ⟨⟩
    rfl

/-- The state in the second database is no longer valid. -/
theorem genesis_differs_corrupt :
    SameLog 1 (storedLog (.str "three") 3) (storedLog .null 3) ∧
      ¬ SameEffect (storedLog (.str "three") 3) (storedLog .null 3)
        (rebuild textSchema retelling (storedLog (.str "three") 3) 1
          .genesis 40)
        (rebuild textSchema retelling (storedLog .null 3) 1 .genesis 40) := by
  refine ⟨storedLog_sameLog .., fun effect => ?_⟩
  exact effect.not_refused.2 1 1 rfl

end TwoRuns

end ProjectMemory.Cag
