import ProjectMemory.Cag.Versions

/-!
# Belief states never double-count

The summaries behind a row are its own batch appended to those of the row it
started from.  Updates chain on the latest row and compactions on the latest
full row, so the two kinds of rows share predecessors.  What keeps every
provenance free of repetitions is that a batch is read strictly above the
watermark of its predecessor, and that this watermark is the maximum of the
predecessor's provenance.

`insert_version` writes any watermark and count its caller gives, so the law
is about the system of the other two calls.
-/

namespace ProjectMemory.Cag

open Foundation

section Provenance

variable {Content : Type} {hashtext : String → BitVec 32}
  {schema : Schema Content}

def Label.insertsVersion : Label Content → Bool
  | .invoke _ _ (.insertVersion _ _ _ _) => true
  | _ => false

/-- One step in which no `insert_version` is called. -/
def synthesizersStep (hashtext : String → BitVec 32)
    (schema : Schema Content) (state : State Content)
    (label : Label Content) : Option (State Content) :=
  if label.insertsVersion then none else step hashtext schema state label

def synthesizers (hashtext : String → BitVec 32) (schema : Schema Content) :
    TransitionSystem (State Content) (Label Content) :=
  TransitionSystem.ofNext (fun state => state = State.empty)
    (synthesizersStep hashtext schema)

theorem synthesizersStep_eq_some {state target : State Content}
    {label : Label Content}
    (taken : synthesizersStep hashtext schema state label = some target) :
    label.insertsVersion = false ∧
      step hashtext schema state label = some target := by
  unfold synthesizersStep at taken
  rw [Option.ite_none_left_eq_some, Bool.not_eq_true] at taken
  exact taken

theorem reachable_writers_of_synthesizers {state : State Content}
    (reachable : Reachable (synthesizers hashtext schema) state) :
    Reachable (writers hashtext schema) state := by
  induction reachable with
  | initial isInitial =>
      exact Reachable.initial isInitial
  | step _ taken inductionHypothesis =>
      exact Reachable.step inductionHypothesis
        (synthesizersStep_eq_some taken).2

/-! ## What is known of a call in its critical section -/

def Stored (tables : Tables) (projectId : Uuid)
    (record : BeliefStateRecord Content) : Prop :=
  ∃ row ∈ beliefsOf tables.beliefs projectId,
    record.projectId = row.projectId ∧ record.version = row.version ∧
      record.lastSummaryCreatedAt = row.lastSummaryCreatedAt ∧
      record.summaryCountCovered = row.summaryCountCovered

/-- Before the window read: the base is stored, and the base of an update has
the highest watermark of the project. -/
structure BaseReady (tables : Tables) (projectId : Uuid) (request : Request)
    (base : Option (BeliefStateRecord Content)) : Prop where
  stored : ∀ record, base = some record → Stored tables projectId record
  highest : ∀ size, request = .synthesizeAndInsert size →
    ∀ row ∈ beliefsOf tables.beliefs projectId, ∃ record,
      base = some record ∧
        row.lastSummaryCreatedAt ≤ record.lastSummaryCreatedAt

/-- After the window read: the batch consists of distinct committed rows above
the watermark of the base, and its newest timestamp reaches that of every
stored row. -/
structure PlanReady (tables : Tables) (projectId : Uuid)
    (plan : Plan Content) : Prop where
  stored : ∀ record, plan.base = some record →
    Stored tables projectId record
  nodup : plan.batch.Nodup
  read : ∀ row ∈ plan.batch,
    row ∈ pendingRows tables.summaries projectId plan.since
  reaches : ∀ row ∈ beliefsOf tables.beliefs projectId,
    row.lastSummaryCreatedAt ≤
      newest DocumentSummary.createdAt plan.batch plan.nonempty

/-- After the callback: the columns are those computed from a ready plan. -/
def PendingReady (tables : Tables) (projectId : Uuid)
    (pending : Pending Content) : Prop :=
  ∃ plan, pending.plan = some plan ∧ PlanReady tables projectId plan ∧
    pending.draft.lastSummaryCreatedAt =
      newest DocumentSummary.createdAt plan.batch plan.nonempty ∧
    pending.draft.summaryCountCovered =
      (plan.base.map BeliefStateRecord.summaryCountCovered).getD 0 +
        plan.batch.length

/-- What holds of a call of a project, depending on where it stands. -/
def Phase.CoverReady (tables : Tables) (projectId : Uuid) :
    Phase Content → Prop
  | .invoked (.insertVersion _ _ _ _) => False
  | .running (.insertVersion _) _ => False
  | .running (.synthesizeAndInsert _) (.getLatestFull _) => False
  | .running request (.getWindow _ base) =>
      BaseReady tables projectId request base
  | .running _ (.callback _ plan) => PlanReady tables projectId plan
  | .running _ (.maxVersion pending) => PendingReady tables projectId pending
  | .running _ (.insert pending _) => PendingReady tables projectId pending
  | .running _ (.commit pending row) =>
      PendingReady tables projectId pending ∧
        row.lastSummaryCreatedAt = pending.draft.lastSummaryCreatedAt ∧
        row.summaryCountCovered = pending.draft.summaryCountCovered
  | _ => True

section Frame

variable {tables grown : Tables} {projectId : Uuid}

/-- The log may only have grown and the rows of the project must be the
same. -/
structure Undisturbed (projectId : Uuid) (tables grown : Tables) : Prop where
  summaries : ∀ row ∈ tables.summaries, row ∈ grown.summaries
  beliefs : beliefsOf grown.beliefs projectId =
    beliefsOf tables.beliefs projectId

theorem Stored.frame {record : BeliefStateRecord Content}
    (undisturbed : Undisturbed projectId tables grown)
    (stored : Stored tables projectId record) :
    Stored grown projectId record := by
  unfold Stored
  rw [undisturbed.beliefs]
  exact stored

theorem PlanReady.frame {plan : Plan Content}
    (undisturbed : Undisturbed projectId tables grown)
    (ready : PlanReady tables projectId plan) :
    PlanReady grown projectId plan where
  stored record isBase := (ready.stored record isBase).frame undisturbed
  nodup := ready.nodup
  read row member := by
    have pending := mem_pendingRows.mp (ready.read row member)
    exact mem_pendingRows.mpr
      ⟨undisturbed.summaries row pending.1, pending.2⟩
  reaches row member :=
    ready.reaches row (undisturbed.beliefs ▸ member)

theorem PendingReady.frame {pending : Pending Content}
    (undisturbed : Undisturbed projectId tables grown)
    (ready : PendingReady tables projectId pending) :
    PendingReady grown projectId pending := by
  obtain ⟨plan, planIs, planReady, columns⟩ := ready
  exact ⟨plan, planIs, planReady.frame undisturbed, columns⟩

theorem CoverReady.frame {phase : Phase Content}
    (undisturbed : Undisturbed projectId tables grown)
    (ready : phase.CoverReady tables projectId) :
    phase.CoverReady grown projectId := by
  unfold Phase.CoverReady at ready ⊢
  split at ready
  · exact ready
  · exact ready
  · exact ready
  · exact ⟨
      fun record isBase => (ready.stored record isBase).frame undisturbed,
      fun size isUpdate row member =>
        ready.highest size isUpdate row (undisturbed.beliefs ▸ member)⟩
  · exact PlanReady.frame undisturbed ready
  · exact PendingReady.frame undisturbed ready
  · exact PendingReady.frame undisturbed ready
  · exact ⟨PendingReady.frame undisturbed ready.1, ready.2⟩
  · trivial

theorem CoverReady.of_not_holding {phase : Phase Content}
    (idle : phase.holdsLock = false)
    (ready : phase.CoverReady tables projectId) :
    phase.CoverReady grown projectId := by
  unfold Phase.CoverReady at ready ⊢
  split at ready
  · exact ready
  · exact ready
  · exact ready
  all_goals first | cases idle | trivial

end Frame

/-! ## The law and the invariant that carries it -/

/-- The columns of a row count its provenance, which repeats nothing. -/
structure Counted (state : State Content) (row : BeliefState) : Prop where
  nodup : (state.provenance row).Nodup
  count : row.summaryCountCovered = (state.provenance row).length
  attained : ∃ summary ∈ state.provenance row,
    summary.createdAt = row.lastSummaryCreatedAt
  bound : ∀ summary ∈ state.provenance row,
    summary.createdAt ≤ row.lastSummaryCreatedAt

/-- Later versions have later watermarks. -/
def MonotoneWatermarks (beliefs : List BeliefState) : Prop :=
  ∀ earlier ∈ beliefs, ∀ later ∈ beliefs,
    earlier.projectId = later.projectId →
      earlier.version ≤ later.version →
      earlier.lastSummaryCreatedAt ≤ later.lastSummaryCreatedAt

structure CoverInvariant (state : State Content) : Prop where
  distinct : state.tables.summaries.Nodup
  counted : ∀ row ∈ state.tables.beliefs, Counted state row
  read : ∀ row ∈ state.tables.beliefs,
    ∀ summary ∈ state.provenance row,
      summary ∈ pendingRows state.tables.summaries row.projectId none
  monotone : MonotoneWatermarks state.tables.beliefs
  ready : ∀ caller projectId phase,
    state.calls caller = some (projectId, phase) →
      phase.CoverReady state.tables projectId

/-- Every stored watermark is the timestamp of a row in the log. -/
def Attested (tables : Tables) (projectId : Uuid) : Prop :=
  ∀ row ∈ beliefsOf tables.beliefs projectId,
    ∃ summary ∈ pendingRows tables.summaries projectId none,
      summary.createdAt = row.lastSummaryCreatedAt

theorem CoverInvariant.attested {state : State Content}
    (invariant : CoverInvariant state) (projectId : Uuid) :
    Attested state.tables projectId := by
  intro row member
  obtain ⟨stored, ofProject⟩ := mem_beliefsOf.mp member
  obtain ⟨summary, inProvenance, attained⟩ :=
    (invariant.counted row stored).attained
  refine ⟨summary, ?_, attained⟩
  rw [← ofProject]
  exact invariant.read row stored summary inProvenance

/-! ## Each statement keeps what is known of its call -/

section Statements

variable {tables : Tables} {projectId : Uuid}

theorem nodup_getWindowSince {order : OrderBy DocumentSummary.createdAt}
    {summaries : List DocumentSummary} {watermark : Option Timestamp}
    (distinct : summaries.Nodup) :
    (getWindowSince order summaries projectId watermark).Nodup :=
  (order.perm _).nodup_iff.mpr (distinct.filter _)

theorem stored_of_read {found : Option BeliefState}
    {read : Option (BeliefStateRecord Content)}
    (isStored : ∀ row, found = some row →
      row ∈ beliefsOf tables.beliefs projectId)
    (readIs : readBack schema found = .ok read) :
    ∀ record, read = some record → Stored tables projectId record := by
  intro record isRecord
  rcases readBack_cases readIs with
    ⟨_, nothing⟩ | ⟨row, content, foundIs, contentIs, converted⟩
  · rw [nothing] at isRecord
    cases isRecord
  · rw [contentIs, Option.some.injEq] at isRecord
    subst isRecord
    exact ⟨row, isStored row foundIs, toRecord_columns converted⟩

theorem baseReady_latest {latest : Option (BeliefStateRecord Content)}
    {request : Request} (monotone : MonotoneWatermarks tables.beliefs)
    (read : getLatest schema tables projectId = .ok latest) :
    BaseReady tables projectId request latest where
  stored := stored_of_read
    (fun _ found => mem_beliefsOf.mpr (latestRow_mem found)) read
  highest := by
    intro size isUpdate row member
    obtain ⟨stored, ofProject⟩ := mem_beliefsOf.mp member
    rcases readBack_cases read with
      ⟨nothing, _⟩ | ⟨newestRow, record, found, recordIs, converted⟩
    · exact absurd ofProject (latestRow_eq_none.mp nothing row stored)
    · refine ⟨record, recordIs, ?_⟩
      obtain ⟨_, _, sameWatermark, _⟩ := toRecord_columns converted
      obtain ⟨newestStored, newestOfProject⟩ := latestRow_mem found
      rw [sameWatermark]
      exact monotone row stored newestRow newestStored
        (ofProject.trans newestOfProject.symm)
        (version_le_latestRow found stored ofProject)

theorem baseReady_latestFull {full : Option (BeliefStateRecord Content)}
    {mode : Mode} (read : getLatestFull schema tables projectId = .ok full) :
    BaseReady tables projectId (.rebuild mode) full where
  stored := stored_of_read
    (fun _ found => mem_beliefsOf.mpr (latestFullRow_mem found)) read
  highest := by
    intro size isUpdate
    cases isUpdate

theorem baseReady_none {mode : Mode} :
    BaseReady tables projectId (.rebuild mode)
      (none : Option (BeliefStateRecord Content)) where
  stored := by
    intro record isRecord
    cases isRecord
  highest := by
    intro size isUpdate
    cases isUpdate

/-- The plan of an update: its batch lies above the highest watermark. -/
theorem planReady_incremental
    {order : OrderBy DocumentSummary.createdAt} {size : BatchSize}
    {base : Option (BeliefStateRecord Content)} {plan : Plan Content}
    (distinct : tables.summaries.Nodup)
    (ready : BaseReady tables projectId (.synthesizeAndInsert size) base)
    (planned :
      incrementalPlan order tables.summaries projectId size base =
        some plan) :
    PlanReady tables projectId plan := by
  obtain ⟨baseIs, batchIs, _⟩ := incrementalPlan_eq_some planned
  have read : ∀ row ∈ plan.batch,
      row ∈ pendingRows tables.summaries projectId plan.since := by
    intro row member
    rw [batchIs] at member
    exact mem_getWindowSince.mp (takeBatch_subset size _ row member)
  refine ⟨fun record isBase => ready.stored record (baseIs ▸ isBase),
    ?_, read, ?_⟩
  · rw [batchIs]
    exact (takeBatch_sublist size _).nodup (nodup_getWindowSince distinct)
  · intro row member
    obtain ⟨record, recordIs, below⟩ := ready.highest size rfl row member
    have since : plan.since = some record.lastSummaryCreatedAt := by
      rw [Plan.since, baseIs, recordIs, Option.map_some]
    have higher := plan.since_lt_newest since
      fun row member => (mem_pendingRows.mp (read row member)).2.2.2
    exact le_of_lt (lt_of_le_of_lt below higher)

/-- The plan of a rebuild: it consumes every row above its base's watermark,
so its newest timestamp reaches every stored watermark, also those of rows
that were not built on its base. -/
theorem planReady_rebuild {order : OrderBy DocumentSummary.createdAt}
    {mode : Mode} {base : Option (BeliefStateRecord Content)}
    {plan : Plan Content} (distinct : tables.summaries.Nodup)
    (attested : Attested tables projectId)
    (ready : BaseReady tables projectId (.rebuild mode) base)
    (planned :
      rebuildPlan order tables.summaries projectId base = some plan) :
    PlanReady tables projectId plan := by
  obtain ⟨baseIs, batchIs⟩ := rebuildPlan_eq_some planned
  have read : ∀ row ∈ plan.batch,
      row ∈ pendingRows tables.summaries projectId plan.since := by
    intro row member
    rw [batchIs] at member
    exact mem_getWindowSince.mp member
  refine ⟨fun record isBase => ready.stored record (baseIs ▸ isBase),
    ?_, read, ?_⟩
  · rw [batchIs]
    exact nodup_getWindowSince distinct
  · intro row member
    obtain ⟨summary, logged, attained⟩ := attested row member
    rw [← attained]
    -- the witness of the stored watermark is in the batch or below its start
    cases isAbove : above plan.since summary.createdAt with
    | true =>
        apply le_newest plan.nonempty
        rw [batchIs, mem_getWindowSince]
        obtain ⟨committed, ofProject, kept, _⟩ := mem_pendingRows.mp logged
        exact mem_pendingRows.mpr ⟨committed, ofProject, kept, isAbove⟩
    | false =>
        obtain ⟨top, topMember, topKey⟩ :=
          exists_newest DocumentSummary.createdAt plan.nonempty
        rw [← topKey]
        exact le_of_above isAbove
          (mem_pendingRows.mp (read top topMember)).2.2.2

theorem pendingReady_draft {plan : Plan Content} {request : Request}
    {content : Content} {latest : Option (BeliefStateRecord Content)}
    (ready : PlanReady tables projectId plan) :
    PendingReady tables projectId {
      draft := plan.draft schema request.rebuildType content
      plan := some plan
      latest := latest } :=
  ⟨plan, rfl, ready, rfl, rfl⟩

theorem Moves.coverReady {phase following : Phase Content}
    {choice : Choice Content}
    (moves : Moves schema choice tables projectId phase following)
    (distinct : tables.summaries.Nodup)
    (monotone : MonotoneWatermarks tables.beliefs)
    (attested : Attested tables projectId)
    (ready : phase.CoverReady tables projectId) :
    following.CoverReady tables projectId := by
  cases moves with
  | finished _ => exact ready
  | @checked call request checked =>
      cases request with
      | insertVersion draft =>
          cases call with
          | insertVersion => cases ready
          | synthesizeAndInsert size | rebuild mode size =>
              rw [Call.check] at checked
              split at checked <;> cases checked
      | _ => trivial
  | @lock request _ =>
      cases request with
      | insertVersion draft => cases ready
      | _ => trivial
  | @getLatest request latest read =>
      cases request with
      | insertVersion draft => cases ready
      | synthesizeAndInsert size => exact baseReady_latest monotone read
      | rebuild mode =>
          cases mode with
          | compaction => trivial
          | genesis => exact baseReady_none
  | @getLatestFull request latest full read =>
      cases request with
      | rebuild mode => exact baseReady_latestFull read
      | _ => cases ready
  | @getWindow request latest base plan planned =>
      cases request with
      | insertVersion draft => cases ready
      | synthesizeAndInsert size =>
          exact planReady_incremental distinct ready planned
      | rebuild mode =>
          exact planReady_rebuild distinct attested ready planned
  | @callback request latest plan content =>
      cases request with
      | insertVersion draft => cases ready
      | _ => exact pendingReady_draft ready
  | @maxVersion request pending =>
      cases request with
      | insertVersion draft => cases ready
      | _ => exact ready
  | @insert request pending version =>
      cases request with
      | insertVersion draft => cases ready
      | _ => exact ⟨ready, rfl, rfl⟩
  | @commit request pending row =>
      cases request with
      | insertVersion draft => cases ready
      | _ => trivial
  | _ => trivial

end Statements

/-! ## Each step keeps the invariant -/

section Steps

variable {state target : State Content} {caller : Nat} {projectId : Uuid}

theorem inherited_of_base (caller : Nat) {pending : Pending Content}
    {plan : Plan Content} {record : BeliefStateRecord Content}
    (planIs : pending.plan = some plan) (baseIs : plan.base = some record)
    (stored : Stored state.tables projectId record) :
    ∃ row ∈ state.tables.beliefs, row.projectId = projectId ∧
      (state.originOf caller pending).inherited = state.provenance row ∧
      record.lastSummaryCreatedAt = row.lastSummaryCreatedAt ∧
      record.summaryCountCovered = row.summaryCountCovered := by
  obtain ⟨row, member, sameProject, sameVersion, sameWatermark, sameCount⟩ :=
    stored
  obtain ⟨isRow, ofProject⟩ := mem_beliefsOf.mp member
  have sameKey : recordKey record = rowKey row := by
    rw [recordKey, rowKey, sameProject, sameVersion]
  refine ⟨row, isRow, ofProject, ?_, sameWatermark, sameCount⟩
  simp [State.originOf, planIs, baseIs, sameKey, State.provenance]

/-- What a row inherits from its base: nothing twice, as many summaries as the
base counts, and none of them above the base's watermark. -/
theorem inherited_of_planReady (caller : Nat) (invariant : CoverInvariant state)
    {pending : Pending Content} {plan : Plan Content}
    (planIs : pending.plan = some plan)
    (ready : PlanReady state.tables projectId plan) :
    (state.originOf caller pending).inherited.Nodup ∧
      (state.originOf caller pending).inherited.length =
        (plan.base.map BeliefStateRecord.summaryCountCovered).getD 0 ∧
      ∀ summary ∈ (state.originOf caller pending).inherited,
        summary ∈ pendingRows state.tables.summaries projectId none ∧
          above plan.since summary.createdAt = false := by
  cases baseIs : plan.base with
  | none =>
      simp [State.originOf, planIs, baseIs]
  | some record =>
      obtain ⟨row, member, ofProject, inheritedIs, sameWatermark, sameCount⟩ :=
        inherited_of_base caller planIs baseIs (ready.stored record baseIs)
      have counted := invariant.counted row member
      rw [inheritedIs]
      refine ⟨counted.nodup, ?_, ?_⟩
      · rw [Option.map_some, Option.getD_some, sameCount, counted.count]
      · intro summary inherited
        refine ⟨ofProject ▸ invariant.read row member summary inherited, ?_⟩
        rw [Plan.since, baseIs, Option.map_some, ← Bool.not_eq_true,
          above_some, sameWatermark]
        exact not_lt.mpr (counted.bound summary inherited)

theorem counted_originOf (invariant : CoverInvariant state)
    {pending : Pending Content} (ready : PendingReady state.tables projectId
      pending) {provenance : List DocumentSummary}
    (provenanceIs :
      provenance = (state.originOf caller pending).provenance) :
    provenance.Nodup ∧
      pending.draft.summaryCountCovered = provenance.length ∧
      (∃ summary ∈ provenance,
        summary.createdAt = pending.draft.lastSummaryCreatedAt) ∧
      (∀ summary ∈ provenance,
        summary.createdAt ≤ pending.draft.lastSummaryCreatedAt) ∧
      ∀ summary ∈ provenance,
        summary ∈ pendingRows state.tables.summaries projectId none := by
  obtain ⟨plan, planIs, planReady, watermark, count⟩ := ready
  obtain ⟨inheritedNodup, inheritedLength, inheritedRead⟩ :=
    inherited_of_planReady caller invariant planIs planReady
  have batchIs : (state.originOf caller pending).batch = plan.batch := by
    simp [State.originOf, planIs]
  rw [Origin.provenance, batchIs] at provenanceIs
  subst provenanceIs
  rw [watermark, count]
  obtain ⟨top, topMember, topKey⟩ :=
    exists_newest DocumentSummary.createdAt plan.nonempty
  refine ⟨?_, ?_, ?_, ?_, ?_⟩
  · rw [List.nodup_append]
    refine ⟨inheritedNodup, planReady.nodup, ?_⟩
    intro old inherited new consumed same
    have isAbove := (mem_pendingRows.mp (planReady.read new consumed)).2.2.2
    rw [← same, (inheritedRead old inherited).2] at isAbove
    cases isAbove
  · rw [List.length_append, inheritedLength]
  · exact ⟨top, List.mem_append_right _ topMember, topKey⟩
  · intro summary member
    rcases List.mem_append.mp member with inherited | consumed
    · -- inherited rows are not above the base, the newest one is
      have below := (inheritedRead summary inherited).2
      have topAbove := (mem_pendingRows.mp (planReady.read top topMember)).2.2.2
      rw [← topKey]
      exact le_of_above below topAbove
    · exact le_newest plan.nonempty consumed
  · intro summary member
    rcases List.mem_append.mp member with inherited | consumed
    · exact (inheritedRead summary inherited).1
    · obtain ⟨committed, ofProject, kept, _⟩ :=
        mem_pendingRows.mp (planReady.read summary consumed)
      exact mem_pendingRows.mpr ⟨committed, ofProject, kept, rfl⟩

theorem coverInvariant_commitSummary {row : DocumentSummary}
    (invariant : CoverInvariant state)
    (fresh : ∀ other ∈ state.tables.summaries, other.id ≠ row.id) :
    CoverInvariant { state with
      tables := { state.tables with
        summaries := state.tables.summaries ++ [row] } } := by
  have grown : ∀ other ∈ state.tables.summaries,
      other ∈ state.tables.summaries ++ [row] :=
    fun _ member => List.mem_append_left _ member
  refine ⟨?_, ?_, ?_, invariant.monotone, ?_⟩
  · refine List.nodup_append.mpr
      ⟨invariant.distinct, List.nodup_singleton row, ?_⟩
    intro other member new isNew same
    rw [List.mem_singleton] at isNew
    exact fresh other member (by rw [same, isNew])
  · intro belief member
    obtain ⟨nodup, count, attained, bound⟩ := invariant.counted belief member
    exact ⟨nodup, count, attained, bound⟩
  · intro belief member summary inProvenance
    obtain ⟨committed, rest⟩ :=
      mem_pendingRows.mp (invariant.read belief member summary inProvenance)
    exact mem_pendingRows.mpr ⟨grown summary committed, rest⟩
  · intro other otherProject phase present
    exact CoverReady.frame ⟨grown, rfl⟩
      (invariant.ready other otherProject phase present)

theorem coverInvariant_invoke {call : Call Content}
    (invariant : CoverInvariant state)
    (allowed :
      (Label.invoke caller projectId call).insertsVersion = false) :
    CoverInvariant { state with
      calls := Function.update state.calls caller
        (some (projectId, .invoked call)) } := by
  refine ⟨invariant.distinct, ?_, invariant.read, invariant.monotone, ?_⟩
  · intro belief member
    obtain ⟨nodup, count, attained, bound⟩ := invariant.counted belief member
    exact ⟨nodup, count, attained, bound⟩
  · intro other otherProject phase present
    rcases update_some_cases present with ⟨_, new⟩ | ⟨_, old⟩
    · simp only [Prod.mk.injEq] at new
      rw [new.2]
      cases call with
      | insertVersion => cases allowed
      | _ => trivial
    · exact invariant.ready other otherProject phase old

variable {phase : Phase Content} {choice : Choice Content}

theorem coverInvariant_move_quiet (invariant : CoverInvariant state)
    (present : state.calls caller = some (projectId, phase))
    (quiet : phase.commits choice = none) :
    CoverInvariant
      (state.move hashtext schema caller projectId phase choice) := by
  obtain ⟨sameTables, sameOrigin⟩ :=
    move_of_commits_none hashtext schema state caller projectId quiet
  have sameProvenance : ∀ row,
      (state.move hashtext schema caller projectId phase choice).provenance
        row = state.provenance row := by
    intro row
    rw [State.provenance, sameOrigin, State.provenance]
  constructor
  case distinct =>
    rw [sameTables]
    exact invariant.distinct
  case counted =>
    intro belief member
    rw [sameTables] at member
    obtain ⟨nodup, count, attained, bound⟩ := invariant.counted belief member
    rw [← sameProvenance belief] at nodup count attained bound
    exact ⟨nodup, count, attained, bound⟩
  case read =>
    intro belief member summary inProvenance
    rw [sameTables] at member ⊢
    rw [sameProvenance] at inProvenance
    exact invariant.read belief member summary inProvenance
  case monotone =>
    rw [sameTables]
    exact invariant.monotone
  case ready =>
    intro other otherProject otherPhase otherPresent
    rw [sameTables]
    rw [move_calls] at otherPresent
    rcases update_some_cases otherPresent with ⟨_, new⟩ | ⟨_, old⟩
    · simp only [Prod.mk.injEq] at new
      obtain ⟨rfl, rfl⟩ := new
      exact (moves_next ..).coverReady invariant.distinct invariant.monotone
        (invariant.attested otherProject)
        (invariant.ready caller otherProject phase present)
    · exact invariant.ready other otherProject otherPhase old

/-- A newly committed row has the highest version, so the watermarks stay
monotone when its own is the highest too. -/
theorem monotoneWatermarks_append {beliefs : List BeliefState}
    {row : BeliefState} (monotone : MonotoneWatermarks beliefs)
    (highestVersion : ∀ other ∈ beliefsOf beliefs row.projectId,
      other.version < row.version)
    (highestWatermark : ∀ other ∈ beliefsOf beliefs row.projectId,
      other.lastSummaryCreatedAt ≤ row.lastSummaryCreatedAt) :
    MonotoneWatermarks (beliefs ++ [row]) := by
  intro earlier earlierMember later laterMember sameProject ordered
  rw [List.mem_append, List.mem_singleton] at earlierMember laterMember
  rcases earlierMember with earlierOld | rfl <;>
    rcases laterMember with laterOld | rfl
  · exact monotone earlier earlierOld later laterOld sameProject ordered
  · exact highestWatermark earlier
      (mem_beliefsOf.mpr ⟨earlierOld, sameProject⟩)
  · have lower := highestVersion later
      (mem_beliefsOf.mpr ⟨laterOld, sameProject.symm⟩)
    omega
  · exact le_refl _

/-- What is known when a call commits: it is no `insert_version`, its row has
the next version, and the columns of the row come from a ready plan. -/
theorem commit_ready (schema : Schema Content)
    (versions : VersionInvariant state)
    (invariant : CoverInvariant state)
    (present : state.calls caller = some (projectId, phase))
    {row : BeliefState} {pending : Pending Content}
    (committed : phase.commits choice = some (row, pending)) :
    row.projectId = projectId ∧
      row.version =
        (beliefsOf state.tables.beliefs row.projectId).length + 1 ∧
      PendingReady state.tables row.projectId pending ∧
      row.lastSummaryCreatedAt = pending.draft.lastSummaryCreatedAt ∧
      row.summaryCountCovered = pending.draft.summaryCountCovered := by
  obtain ⟨request, phaseIs, _⟩ := commits_cases schema projectId committed
  subst phaseIs
  obtain ⟨ofProject, version⟩ := versions.ready caller projectId _ present
  subst ofProject
  have ready := invariant.ready caller _ _ present
  cases request with
  | insertVersion draft => cases ready
  | _ => exact ⟨rfl, version, ready⟩

theorem provenance_move_old (versions : VersionInvariant state)
    {row : BeliefState} {pending : Pending Content}
    (version : row.version =
      (beliefsOf state.tables.beliefs row.projectId).length + 1)
    (committed : phase.commits choice = some (row, pending))
    {other : BeliefState} (member : other ∈ state.tables.beliefs) :
    (state.move hashtext schema caller projectId phase choice).provenance
      other = state.provenance other := by
  rw [State.provenance,
    (move_of_commits_some hashtext schema state caller projectId
      committed).2,
    Function.update_of_ne (versions.fresh_key version other member),
    State.provenance]

theorem provenance_move_new (hashtext : String → BitVec 32)
    (schema : Schema Content) (projectId : Uuid)
    {row : BeliefState} {pending : Pending Content}
    (committed : phase.commits choice = some (row, pending)) :
    (state.move hashtext schema caller projectId phase choice).provenance
      row = (state.originOf caller pending).provenance := by
  rw [State.provenance,
    (move_of_commits_some hashtext schema state caller projectId
      committed).2,
    Function.update_self]

theorem coverInvariant_move_commit (held : LockHeld hashtext state)
    (versions : VersionInvariant state) (invariant : CoverInvariant state)
    (present : state.calls caller = some (projectId, phase))
    {row : BeliefState} {pending : Pending Content}
    (committed : phase.commits choice = some (row, pending)) :
    CoverInvariant
      (state.move hashtext schema caller projectId phase choice) := by
  obtain ⟨ofProject, version, pendingReady, watermark, count⟩ :=
    commit_ready schema versions invariant present committed
  subst ofProject
  have appended :=
    (move_of_commits_some hashtext schema state caller row.projectId
      committed).1
  obtain ⟨nodup, length, attained, bound, read⟩ :=
    counted_originOf invariant pendingReady
      (provenance_move_new hashtext schema row.projectId committed)
  constructor
  case distinct =>
    rw [move_summaries]
    exact invariant.distinct
  case counted =>
    intro other member
    rw [appended, List.mem_append, List.mem_singleton] at member
    rcases member with old | rfl
    · obtain ⟨oldNodup, oldCount, oldAttained, oldBound⟩ :=
        invariant.counted other old
      rw [← provenance_move_old versions version committed old]
        at oldNodup oldCount oldAttained oldBound
      exact ⟨oldNodup, oldCount, oldAttained, oldBound⟩
    · rw [← count] at length
      rw [← watermark] at attained bound
      exact ⟨nodup, length, attained, bound⟩
  case read =>
    intro other member summary inProvenance
    rw [appended, List.mem_append, List.mem_singleton] at member
    rw [move_summaries]
    rcases member with old | rfl
    · rw [provenance_move_old versions version committed old]
        at inProvenance
      exact invariant.read other old summary inProvenance
    · exact read summary inProvenance
  case monotone =>
    rw [appended]
    refine monotoneWatermarks_append invariant.monotone ?_ ?_
    · intro other member
      have bounds :=
        (versions.numbered row.projectId).version_mem member
      omega
    · obtain ⟨plan, _, planReady, planWatermark, _⟩ := pendingReady
      intro other member
      rw [watermark, planWatermark]
      exact planReady.reaches other member
  case ready =>
    intro other otherProject otherPhase otherPresent
    obtain ⟨request, phaseIs, nextIs⟩ :=
      commits_cases schema row.projectId committed
    subst phaseIs
    rw [move_calls, nextIs] at otherPresent
    rcases update_some_cases otherPresent with ⟨_, new⟩ | ⟨different, old⟩
    · simp only [Prod.mk.injEq] at new
      rw [new.2]
      have ready := invariant.ready caller _ _ present
      cases request with
      | insertVersion draft => cases ready
      | _ => trivial
    · have ready := invariant.ready other otherProject otherPhase old
      by_cases sameProject : row.projectId = otherProject
      · subst sameProject
        exact CoverReady.of_not_holding
          (held.idle present rfl old different) ready
      · refine CoverReady.frame ⟨?_, ?_⟩ ready
        · rw [move_summaries]
          exact fun _ member => member
        · rw [appended, beliefsOf_append_other _ sameProject]

theorem coverInvariant_step {label : Label Content}
    (held : LockHeld hashtext state) (versions : VersionInvariant state)
    (invariant : CoverInvariant state)
    (allowed : label.insertsVersion = false)
    (taken : step hashtext schema state label = some target) :
    CoverInvariant target := by
  rcases step_cases taken with
    ⟨row, _, fresh, rfl⟩ | ⟨caller, projectId, call, rfl, _, rfl⟩ |
      ⟨caller, choice, projectId, phase, _, present, _, _, rfl⟩
  · exact coverInvariant_commitSummary invariant fresh
  · exact coverInvariant_invoke invariant allowed
  · cases committed : phase.commits choice with
    | none => exact coverInvariant_move_quiet invariant present committed
    | some written =>
        exact coverInvariant_move_commit held versions invariant present
          committed

theorem coverInvariant_empty :
    CoverInvariant (State.empty : State Content) := by
  refine ⟨List.nodup_nil, ?_, ?_, ?_, ?_⟩
  · intro row member
    cases member
  · intro row member
    cases member
  · intro earlier member
    cases member
  · intro caller projectId phase present
    cases present

theorem coverInvariant_reachable
    (reachable : Reachable (synthesizers hashtext schema) state) :
    CoverInvariant state := by
  refine invariant_of_reachable_step ?_ ?_ reachable
  · intro start isStart
    rw [isStart]
    exact coverInvariant_empty
  · intro source label target sourceReachable invariant taken
    obtain ⟨allowed, stepped⟩ := synthesizersStep_eq_some taken
    have asWriter := reachable_writers_of_synthesizers sourceReachable
    exact coverInvariant_step (lockHeld_reachable asWriter)
      (versionInvariant_reachable asWriter) invariant allowed stepped

end Steps

/-- In every reachable state of any number of concurrent updates and rebuilds
no row counts a summary twice: its provenance repeats nothing, has as many
summaries as the row says and the row's watermark as its newest timestamp; and
the watermarks never decrease with the version. -/
theorem counted_reachable {state : State Content}
    (reachable : Reachable (synthesizers hashtext schema) state) :
    (∀ row ∈ state.tables.beliefs, Counted state row) ∧
      MonotoneWatermarks state.tables.beliefs :=
  have invariant := coverInvariant_reachable reachable
  ⟨invariant.counted, invariant.monotone⟩

end Provenance

/-- Three summaries, two of them with one timestamp and the newest committed
first.  A first update takes a batch of one and a compaction lands in the
middle of its drain, while a second update fails in its callback. -/
def compactionWithinDrain : List (Label String) :=
  let healthy : Choice String :=
    plainChoice "state" (OrderBy.stable _) { id := 7, now := 0 }
  let failing : Choice String := { healthy with answer := .error "timeout" }
  let summary (id : Uuid) (createdAt : Timestamp) : DocumentSummary :=
    { id := id, documentId := id, projectId := 1, rawTextFallback := none,
      createdAt := createdAt }
  [.commitSummary (summary 1 9), .commitSummary (summary 2 5),
    .invoke 0 1 (.synthesizeAndInsert 1)] ++
    List.replicate 9 (.advance 0 healthy) ++
    [.commitSummary (summary 3 9), .invoke 1 1 (.synthesizeAndInsert 1),
      .invoke 2 1 (.rebuild .compaction 40), .advance 2 healthy] ++
    List.replicate 4 (.advance 1 healthy) ++ [.advance 1 failing] ++
    List.replicate 9 (.advance 2 healthy)

theorem compactionWithinDrain_enabled :
    (follow (synthesizersStep (fun _ => 0) textSchema) compactionWithinDrain
      State.empty).isSome = true := by
  rfl

def compactedState : State String :=
  followed (synthesizersStep (fun _ => 0) textSchema) compactionWithinDrain
    State.empty compactionWithinDrain_enabled

/-- The compaction found no full row and counts all three summaries, the
update before it counts one, and the law holds of both. -/
theorem counted_compactedState :
    compactedState.tables.beliefs.map BeliefState.summaryCountCovered =
        [1, 3] ∧
      (∀ row ∈ compactedState.tables.beliefs, Counted compactedState row) ∧
      MonotoneWatermarks compactedState.tables.beliefs :=
  ⟨by rfl, @counted_reachable String (fun _ => 0) textSchema _
    (reachable_of_follow (Reachable.initial rfl)
      (Option.some_get compactionWithinDrain_enabled).symm)⟩

end ProjectMemory.Cag
