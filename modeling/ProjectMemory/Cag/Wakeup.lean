import ProjectMemory.Cag.Queue

/-!
# Lost wakeups of the update job

A run that finds enough pending summaries enqueues the update of its project,
and an executing update that has left summaries over enqueues itself.  Either
attempt is dropped while the job is executing, also when the job has already
read its window and will not see the summaries that caused the attempt.

The invariant says that something is still going to look at the window of the
project, or that the job leaves fewer summaries than the threshold behind.
-/

namespace ProjectMemory.Cag

open Foundation

section Law

variable {Content : Type}

/-- The job will not read its window again. -/
def Job.hasRead : Job Content → Bool
  | .synthesized _ => true
  | .committed _ => true
  | .returning => true
  | _ => false

/-- The watermark of the project once the job has returned. -/
def Job.left (beliefs : List BeliefState) (projectId : Uuid) :
    Job Content → Option Timestamp
  | .synthesized plan =>
      some (newest DocumentSummary.createdAt plan.batch plan.nonempty)
  | _ => latestWatermark beliefs projectId

/-- The summaries the job leaves behind. -/
def QueueState.leftPending (state : QueueState Content)
    (projectId : Uuid) : Nat :=
  countPending state.tables.summaries projectId
    ((state.jobs projectId).left state.tables.beliefs projectId)

/-- No ingestion run of the project is in progress and its job is neither
queued nor executing. -/
def Quiescent (state : QueueState Content) (projectId : Uuid) : Prop :=
  state.jobs projectId = .absent ∧
    ∀ run trigger, state.triggers run = some trigger →
      trigger.projectId = projectId → trigger.pc = .done

/-- No wakeup of a project is lost: once it is quiescent fewer summaries than
the threshold are pending, and none if it has no belief state. -/
def NoLostWakeup (threshold : Uuid → Nat) (state : QueueState Content)
    (projectId : Uuid) : Prop :=
  Quiescent state projectId →
    countPending state.tables.summaries projectId
        (latestWatermark state.tables.beliefs projectId) <
      threshold projectId ∧
    ((∀ row ∈ state.tables.beliefs, row.projectId ≠ projectId) →
      countPending state.tables.summaries projectId none = 0)

/-- The condition on a step: an attempt to enqueue that is dropped because the
job has read its window leaves fewer summaries than the threshold. -/
def dropsFew (threshold : Uuid → Nat) (state : QueueState Content) :
    QueueLabel Content → Bool
  | .ingest run .enqueue =>
      match state.triggers run with
      | none => true
      | some trigger =>
          !(state.jobs trigger.projectId).hasRead ||
            decide (state.leftPending trigger.projectId <
              threshold trigger.projectId)
  | .job projectId .enqueueRemainder =>
      match state.jobs projectId with
      | .committed remaining =>
          decide (remaining = 0) ||
            decide (state.leftPending projectId < threshold projectId)
      | _ => true
  | _ => true

theorem leftPending_of_dropsFew_enqueue {threshold : Uuid → Nat}
    {state : QueueState Content} {run : Nat} {trigger : Trigger Content}
    (present : state.triggers run = some trigger)
    (few : dropsFew threshold state (.ingest run .enqueue) = true)
    (hasRead : (state.jobs trigger.projectId).hasRead = true) :
    state.leftPending trigger.projectId < threshold trigger.projectId := by
  simpa [dropsFew, present, hasRead] using few

theorem leftPending_of_dropsFew_remainder {threshold : Uuid → Nat}
    {state : QueueState Content} {projectId : Uuid} {remaining : Nat}
    (committed : state.jobs projectId = .committed remaining)
    (few : dropsFew threshold state (.job projectId .enqueueRemainder) = true)
    (left : 0 < remaining) :
    state.leftPending projectId < threshold projectId := by
  have some : remaining ≠ 0 := Nat.ne_of_gt left
  simpa [dropsFew, committed, some] using few

end Law

/-! ## The invariant -/

section Invariant

variable {Content : Type}

def TriggerPc.awaited : TriggerPc Content → Bool
  | .committed => true
  | .gotLatest _ => true
  | .enqueue => true
  | _ => false

def Job.willRead : Job Content → Bool
  | .queued => true
  | .started => true
  | .synthesized plan => decide (0 < plan.remaining)
  | .committed remaining => decide (0 < remaining)
  | _ => false

/-- An ingestion run of the project is going to look at its window. -/
def RunAwaited (state : QueueState Content) (projectId : Uuid) : Prop :=
  ∃ run trigger, state.triggers run = some trigger ∧
    trigger.projectId = projectId ∧ trigger.pc.awaited = true

/-- Few summaries are left, and none if there will be no belief state. -/
structure Settled (threshold : Uuid → Nat) (state : QueueState Content)
    (projectId : Uuid) : Prop where
  few : state.leftPending projectId < threshold projectId
  begun : latestWatermark state.tables.beliefs projectId = none →
    (∃ plan, state.jobs projectId = .synthesized plan) ∨
      countPending state.tables.summaries projectId none = 0

/-- A project without belief states has something pending. -/
def HasWork (tables : Tables) (projectId : Uuid) : Prop :=
  latestWatermark tables.beliefs projectId = none →
    1 ≤ countPending tables.summaries projectId none

def Job.Ready (tables : Tables) (projectId : Uuid) : Job Content → Prop
  | .absent => True
  | .queued => HasWork tables projectId
  | .started => HasWork tables projectId
  | .synthesized plan =>
      watermarkLE (latestWatermark tables.beliefs projectId)
        (some (newest DocumentSummary.createdAt plan.batch plan.nonempty))
  | .committed _ => latestWatermark tables.beliefs projectId ≠ none
  | .returning => latestWatermark tables.beliefs projectId ≠ none

def TriggerPc.Ready (tables : Tables) (projectId : Uuid) :
    TriggerPc Content → Prop
  | .gotLatest latest =>
      watermarkLE (latest.map BeliefStateRecord.lastSummaryCreatedAt)
        (latestWatermark tables.beliefs projectId)
  | .enqueue => HasWork tables projectId
  | _ => True

structure WakeInvariant (threshold : Uuid → Nat)
    (state : QueueState Content) (projectId : Uuid) : Prop where
  job : (state.jobs projectId).Ready state.tables projectId
  triggers : ∀ run trigger, state.triggers run = some trigger →
    trigger.projectId = projectId →
    trigger.pc.Ready state.tables projectId
  live : (state.jobs projectId).willRead = true ∨
    RunAwaited state projectId ∨ Settled threshold state projectId

theorem watermarkLE_some_ne_none {mark : Timestamp}
    {later : Option Timestamp} (ordered : watermarkLE (some mark) later) :
    later ≠ none := by
  intro isNone
  subst isNone
  have isAbove := ordered mark rfl
  rw [above_some] at isAbove
  exact lt_irrefl _ isAbove

theorem countPending_le {summaries : List DocumentSummary}
    {projectId : Uuid} {earlier later : Option Timestamp}
    (ordered : watermarkLE earlier later) :
    countPending summaries projectId later ≤
      countPending summaries projectId earlier := by
  rw [countPending, countPending, pendingRows_eq_rowsAbove,
    pendingRows_eq_rowsAbove _ _ earlier]
  exact length_filter_above_le ordered _ _

/-- The job never moves the watermark back. -/
theorem Job.Ready.watermarkLE_left {tables : Tables} {projectId : Uuid}
    {job : Job Content} (ready : job.Ready tables projectId) :
    watermarkLE (latestWatermark tables.beliefs projectId)
      (job.left tables.beliefs projectId) := by
  cases job with
  | synthesized plan => exact ready
  | _ => exact watermarkLE_refl _

theorem latestWatermark_eq_none_iff {beliefs : List BeliefState}
    {projectId : Uuid} :
    latestWatermark beliefs projectId = none ↔
      ∀ row ∈ beliefs, row.projectId ≠ projectId := by
  rw [latestWatermark, Option.map_eq_none_iff, latestRow_eq_none]

theorem WakeInvariant.noLostWakeup {threshold : Uuid → Nat}
    {state : QueueState Content} {projectId : Uuid}
    (invariant : WakeInvariant threshold state projectId) :
    NoLostWakeup threshold state projectId := by
  rintro ⟨absent, done⟩
  rcases invariant.live with
    willRead | ⟨run, trigger, present, ofProject, awaited⟩ | ⟨few, begun⟩
  · rw [absent] at willRead
    cases willRead
  · rw [done run trigger present ofProject] at awaited
    cases awaited
  · rw [QueueState.leftPending, absent] at few
    refine ⟨few, ?_⟩
    intro fresh
    rcases begun (latestWatermark_eq_none_iff.mpr fresh) with
      ⟨plan, isSynthesized⟩ | nothing
    · rw [absent] at isSynthesized
      cases isSynthesized
    · exact nothing

/-! ### Steps of other projects -/

structure SameProject (projectId : Uuid)
    (state target : QueueState Content) : Prop where
  counts : ∀ watermark,
    countPending target.tables.summaries projectId watermark =
      countPending state.tables.summaries projectId watermark
  watermark : latestWatermark target.tables.beliefs projectId =
    latestWatermark state.tables.beliefs projectId
  job : target.jobs projectId = state.jobs projectId
  triggers : ∀ run trigger, trigger.projectId = projectId →
    (target.triggers run = some trigger ↔
      state.triggers run = some trigger)

variable {threshold : Uuid → Nat} {projectId : Uuid}
  {state target : QueueState Content}

theorem SameProject.leftPending
    (same : SameProject projectId state target) :
    target.leftPending projectId = state.leftPending projectId := by
  have leftIs :
      (target.jobs projectId).left target.tables.beliefs projectId =
        (state.jobs projectId).left state.tables.beliefs projectId := by
    rw [same.job]
    cases state.jobs projectId with
    | synthesized plan => rfl
    | _ => exact same.watermark
  rw [QueueState.leftPending, leftIs, same.counts, QueueState.leftPending]

theorem hasWork_iff
    (same : SameProject projectId state target) :
    HasWork target.tables projectId ↔ HasWork state.tables projectId := by
  rw [HasWork, HasWork, same.watermark, same.counts]

theorem WakeInvariant.frame (same : SameProject projectId state target)
    (invariant : WakeInvariant threshold state projectId) :
    WakeInvariant threshold target projectId := by
  constructor
  case job =>
    have ready := invariant.job
    rw [same.job]
    cases jobIs : state.jobs projectId with
    | absent => trivial
    | queued =>
        rw [jobIs] at ready
        exact (hasWork_iff same).mpr ready
    | started =>
        rw [jobIs] at ready
        exact (hasWork_iff same).mpr ready
    | _ =>
        rw [jobIs] at ready
        simp only [Job.Ready, same.watermark]
        exact ready
  case triggers =>
    intro run trigger present ofProject
    have ready := invariant.triggers run trigger
      ((same.triggers run trigger ofProject).mp present) ofProject
    cases pcIs : trigger.pc with
    | gotLatest latest =>
        rw [pcIs] at ready
        simp only [TriggerPc.Ready, same.watermark]
        exact ready
    | enqueue =>
        rw [pcIs] at ready
        exact (hasWork_iff same).mpr ready
    | _ => trivial
  case live =>
    rcases invariant.live with
      willRead | ⟨run, trigger, present, ofProject, awaited⟩ | ⟨few, begun⟩
    · exact Or.inl (same.job ▸ willRead)
    · exact Or.inr (Or.inl ⟨run, trigger,
        (same.triggers run trigger ofProject).mpr present, ofProject,
        awaited⟩)
    · refine Or.inr (Or.inr ⟨?_, ?_⟩)
      · rw [same.leftPending]
        exact few
      · rw [same.watermark, same.job, same.counts]
        exact begun

theorem latestWatermark_append_other {beliefs : List BeliefState}
    {row : BeliefState} (different : row.projectId ≠ projectId) :
    latestWatermark (beliefs ++ [row]) projectId =
      latestWatermark beliefs projectId := by
  rw [latestWatermark, latestRow, beliefsOf_append_other _ different,
    ← latestRow, ← latestWatermark]

theorem setPc_triggers_of_ne {run : Nat} {trigger : Trigger Content}
    {pc : TriggerPc Content}
    (notOurs : ∀ old, state.triggers run = some old →
      old.projectId ≠ projectId)
    (different : trigger.projectId ≠ projectId)
    (otherRun : Nat) (other : Trigger Content)
    (ofProject : other.projectId = projectId) :
    (state.setPc run trigger pc).triggers otherRun = some other ↔
      state.triggers otherRun = some other := by
  by_cases sameRun : otherRun = run
  · subst sameRun
    simp only [QueueState.setPc, Function.update_self, Option.some.injEq]
    constructor
    · intro same
      rw [← same] at ofProject
      exact absurd ofProject different
    · intro present
      exact absurd ofProject (notOurs other present)
  · simp only [QueueState.setPc, Function.update_of_ne sameRun]

theorem sameProject_of_triggerMove {schema : Schema Content} {run : Nat}
    {trigger : Trigger Content} {action : TriggerAction}
    (present : state.triggers run = some trigger)
    (different : trigger.projectId ≠ projectId)
    (moved : TriggerMove threshold schema state run trigger action target) :
    SameProject projectId state target := by
  have notOurs : ∀ old, state.triggers run = some old →
      old.projectId ≠ projectId := by
    intro old oldPresent
    rw [present, Option.some.injEq] at oldPresent
    rw [← oldPresent]
    exact different
  have jobOther : projectId ≠ trigger.projectId := different.symm
  cases moved with
  | commitSummary row _ ofProject =>
      refine ⟨?_, rfl, rfl, setPc_triggers_of_ne notOurs different⟩
      exact countPending_insertSummary_of_ne (ofProject ▸ different)
  | enqueue _ =>
      refine ⟨?_, ?_, enqueueUpdate_jobs_of_ne jobOther, ?_⟩
      · intro watermark
        simp only [QueueState.setPc, enqueueUpdate_tables]
      · simp only [QueueState.setPc, enqueueUpdate_tables]
      · intro otherRun other ofProject
        have stillNotOurs : ∀ old,
            (state.enqueueUpdate trigger.projectId).triggers run = some old →
              old.projectId ≠ projectId := by
          rw [enqueueUpdate_triggers]
          exact notOurs
        rw [setPc_triggers_of_ne stillNotOurs different otherRun other
          ofProject, enqueueUpdate_triggers]
  | _ =>
      exact ⟨fun _ => rfl, rfl, rfl, setPc_triggers_of_ne notOurs different⟩

theorem sameProject_of_jobMove {schema : Schema Content} {other : Uuid}
    {action : JobAction Content} (different : projectId ≠ other)
    (moved : JobMove schema state other action target) :
    SameProject projectId state target := by
  cases moved with
  | commitVersion _ =>
      refine ⟨fun _ => rfl, ?_, Function.update_of_ne different _ _,
        fun _ _ _ => Iff.rfl⟩
      exact latestWatermark_append_other (Ne.symm different)
  | _ =>
      exact ⟨fun _ => rfl, rfl, Function.update_of_ne different _ _,
        fun _ _ _ => Iff.rfl⟩

/-! ### Steps of the project's own ingestion runs -/

theorem HasWork.insertSummary {tables : Tables} {row : DocumentSummary}
    (work : HasWork tables projectId) :
    HasWork { tables with
      summaries := Cag.insertSummary tables.summaries row } projectId :=
  fun isNone => (work isNone).trans (countPending_le_insertSummary none)

theorem Job.Ready.insertSummary {tables : Tables} {row : DocumentSummary}
    {job : Job Content} (ready : job.Ready tables projectId) :
    job.Ready { tables with
      summaries := Cag.insertSummary tables.summaries row } projectId := by
  cases job with
  | queued => exact HasWork.insertSummary ready
  | started => exact HasWork.insertSummary ready
  | _ => exact ready

theorem TriggerPc.Ready.insertSummary {tables : Tables}
    {row : DocumentSummary} {pc : TriggerPc Content}
    (ready : pc.Ready tables projectId) :
    pc.Ready { tables with
      summaries := Cag.insertSummary tables.summaries row } projectId := by
  cases pc with
  | enqueue => exact HasWork.insertSummary ready
  | _ => exact ready

theorem triggers_setPc {tables : Tables} {run : Nat}
    {trigger : Trigger Content} {pc : TriggerPc Content}
    (own : pc.Ready tables trigger.projectId)
    (others : ∀ otherRun other, state.triggers otherRun = some other →
      other.projectId = projectId → other.pc.Ready tables projectId) :
    ∀ otherRun other,
      (state.setPc run trigger pc).triggers otherRun = some other →
        other.projectId = projectId → other.pc.Ready tables projectId := by
  intro otherRun other present ofProject
  rcases update_some_cases present with ⟨_, new⟩ | ⟨_, old⟩
  · subst new
    simp only at ofProject
    rw [← ofProject]
    exact own
  · exact others otherRun other old ofProject

/-- A run that declines has seen fewer summaries than the threshold above a
watermark the job does not go below. -/
theorem settled_of_decline {latest : Option (BeliefStateRecord Content)}
    (ready : (TriggerPc.gotLatest latest).Ready state.tables projectId)
    (jobReady : (state.jobs projectId).Ready state.tables projectId)
    (declined : shouldEnqueue latest
      (pendingCount state.tables projectId latest) (threshold projectId) =
        false) :
    Settled threshold state projectId := by
  have ordered := watermarkLE_trans ready jobReady.watermarkLE_left
  rw [shouldEnqueue, Bool.or_eq_false_iff, decide_eq_false_iff_not, not_le]
    at declined
  obtain ⟨notFirst, few⟩ := declined
  refine ⟨lt_of_le_of_lt (countPending_le ordered) few, ?_⟩
  intro isNone
  right
  cases latest with
  | some record =>
      exact absurd isNone (watermarkLE_some_ne_none ready)
  | none =>
      rw [Option.isNone_none, Bool.true_and, decide_eq_false_iff_not]
        at notFirst
      have nothing :
          ¬ 1 ≤ countPending state.tables.summaries projectId none :=
        notFirst
      omega

/-- A run that decides to enqueue has seen something pending if there is no
belief state. -/
theorem hasWork_of_decide (positive : 1 ≤ threshold projectId)
    {latest : Option (BeliefStateRecord Content)}
    (ready : (TriggerPc.gotLatest latest).Ready state.tables projectId)
    (decided : shouldEnqueue latest
      (pendingCount state.tables projectId latest) (threshold projectId) =
        true) :
    HasWork state.tables projectId := by
  intro isNone
  cases latest with
  | some record =>
      exact absurd isNone (watermarkLE_some_ne_none ready)
  | none =>
      rw [shouldEnqueue, Option.isNone_none, Bool.true_and,
        Bool.or_eq_true, decide_eq_true_iff, decide_eq_true_iff] at decided
      rcases decided with first | enough
      · exact first
      · exact positive.trans enough

/-- An attempt to enqueue is accepted, waits behind a job that has not read
its window, or leaves few summaries by the condition on the step. -/
theorem wakeInvariant_enqueueUpdate
    (invariant : WakeInvariant threshold state projectId)
    (work : HasWork state.tables projectId)
    (few : (state.jobs projectId).hasRead = true →
      state.leftPending projectId < threshold projectId) :
    (((state.enqueueUpdate projectId).jobs projectId).Ready state.tables
        projectId) ∧
      (((state.enqueueUpdate projectId).jobs projectId).willRead = true ∨
        state.enqueueUpdate projectId = state ∧
          Settled threshold state projectId) := by
  rcases enqueueUpdate_jobs state projectId with
    ⟨_, accepted⟩ | ⟨notAbsent, refused⟩
  · rw [accepted]
    exact ⟨work, Or.inl rfl⟩
  · rw [refused]
    refine ⟨invariant.job, ?_⟩
    have ready := invariant.job
    cases jobIs : state.jobs projectId with
    | absent => exact absurd jobIs notAbsent
    | queued => exact Or.inl rfl
    | started => exact Or.inl rfl
    | synthesized plan =>
        refine Or.inr ⟨rfl, few (by rw [jobIs]; rfl), ?_⟩
        exact fun _ => Or.inl ⟨plan, jobIs⟩
    | committed remaining =>
        rw [jobIs] at ready
        refine Or.inr ⟨rfl, few (by rw [jobIs]; rfl), ?_⟩
        exact fun isNone => absurd isNone ready
    | returning =>
        rw [jobIs] at ready
        refine Or.inr ⟨rfl, few (by rw [jobIs]; rfl), ?_⟩
        exact fun isNone => absurd isNone ready

theorem wakeInvariant_triggerMove {schema : Schema Content} {run : Nat}
    {trigger : Trigger Content} {action : TriggerAction}
    (positive : 1 ≤ threshold trigger.projectId)
    (present : state.triggers run = some trigger)
    (few : dropsFew threshold state (.ingest run action) = true)
    (invariant : WakeInvariant threshold state trigger.projectId)
    (moved : TriggerMove threshold schema state run trigger action target) :
    WakeInvariant threshold target trigger.projectId := by
  have ready := invariant.triggers run trigger present rfl
  have here (pc : TriggerPc Content) (after : QueueState Content)
      (sameTriggers : after.triggers = (state.setPc run trigger pc).triggers)
      (isAwaited : pc.awaited = true) :
      RunAwaited after trigger.projectId := by
    have stored : after.triggers run = some { trigger with pc := pc } := by
      rw [sameTriggers]
      exact Function.update_self ..
    exact ⟨run, _, stored, rfl, isAwaited⟩
  cases moved with
  | commitSummary row running ofProject =>
      refine ⟨invariant.job.insertSummary, ?_, ?_⟩
      · refine triggers_setPc trivial ?_
        intro otherRun other otherPresent otherOfProject
        exact (invariant.triggers otherRun other otherPresent
          otherOfProject).insertSummary
      · exact Or.inr (Or.inl (here .committed _ rfl rfl))
  | @getLatest latest committed read =>
      refine ⟨invariant.job, ?_,
        Or.inr (Or.inl (here (.gotLatest latest) _ rfl rfl))⟩
      refine triggers_setPc ?_ invariant.triggers
      simp only [TriggerPc.Ready, latestWatermark_of_read read]
      exact watermarkLE_refl _
  | decide got enough =>
      rw [got] at ready
      refine ⟨invariant.job, ?_,
        Or.inr (Or.inl (here .enqueue _ rfl rfl))⟩
      exact triggers_setPc (hasWork_of_decide positive ready enough)
        invariant.triggers
  | decline got tooFew =>
      rw [got] at ready
      refine ⟨invariant.job, triggers_setPc trivial invariant.triggers, ?_⟩
      obtain ⟨few, begun⟩ :=
        settled_of_decline ready invariant.job tooFew
      exact Or.inr (Or.inr ⟨few, begun⟩)
  | enqueue decided =>
      rw [decided] at ready
      obtain ⟨jobReady, outcome⟩ := wakeInvariant_enqueueUpdate invariant
        ready
        (leftPending_of_dropsFew_enqueue present few)
      refine ⟨?_, ?_, ?_⟩
      · simp only [QueueState.setPc, enqueueUpdate_tables]
        exact jobReady
      · simp only [QueueState.setPc, enqueueUpdate_tables,
          enqueueUpdate_triggers]
        exact triggers_setPc trivial invariant.triggers
      · rcases outcome with willRead | ⟨refused, few, begun⟩
        · exact Or.inl willRead
        · rw [refused]
          exact Or.inr (Or.inr ⟨few, begun⟩)

/-! ### Steps of the project's own job -/

theorem TriggerPc.Ready.commitVersion {tables : Tables}
    {beliefs : List BeliefState} {mark : Timestamp}
    (watermark : latestWatermark beliefs projectId = some mark)
    (ordered : watermarkLE (latestWatermark tables.beliefs projectId)
      (some mark)) {pc : TriggerPc Content}
    (ready : pc.Ready tables projectId) :
    pc.Ready { tables with beliefs := beliefs } projectId := by
  cases pc with
  | gotLatest latest =>
      simp only [TriggerPc.Ready] at ready ⊢
      rw [watermark]
      exact watermarkLE_trans ready ordered
  | enqueue =>
      intro isNone
      rw [watermark] at isNone
      cases isNone
  | _ => trivial

theorem watermarkLE_plan {order : OrderBy DocumentSummary.createdAt}
    {schema : Schema Content} {tables : Tables} {size : BatchSize}
    {latest : Option (BeliefStateRecord Content)} {plan : Plan Content}
    (read : getLatest schema tables projectId = .ok latest)
    (planned : incrementalPlan order tables.summaries projectId size latest =
      some plan) :
    watermarkLE (latestWatermark tables.beliefs projectId)
      (some (newest DocumentSummary.createdAt plan.batch plan.nonempty)) := by
  obtain ⟨baseIs, batchIs, _⟩ := incrementalPlan_eq_some planned
  have since : plan.since = latestWatermark tables.beliefs projectId := by
    rw [Plan.since, baseIs, latestWatermark_of_read read]
  rw [← since]
  apply watermarkLE_newest
  intro row member
  rw [batchIs] at member
  have inWindow := takeBatch_subset _ _ row member
  exact (mem_pendingRows.mp (mem_getWindowSince.mp inWindow)).2.2.2

theorem countPending_of_remaining_zero
    {order : OrderBy DocumentSummary.createdAt} {schema : Schema Content}
    {tables : Tables} {size : BatchSize}
    {latest : Option (BeliefStateRecord Content)} {plan : Plan Content}
    (read : getLatest schema tables projectId = .ok latest)
    (planned : incrementalPlan order tables.summaries projectId size latest =
      some plan)
    (nothingLeft : plan.remaining = 0) :
    countPending tables.summaries projectId
      (some (newest DocumentSummary.createdAt plan.batch plan.nonempty)) =
        0 := by
  obtain ⟨_, batchIs, remainingIs⟩ := incrementalPlan_eq_some planned
  rw [takeBatch_eq] at batchIs remainingIs
  rw [countPending, List.length_eq_zero_iff, List.eq_nil_iff_forall_not_mem]
  intro row isPending
  obtain ⟨committed, ofProject, kept, isAbove⟩ := mem_pendingRows.mp isPending
  have sinceAbove : above plan.since row.createdAt = true := by
    have ordered := watermarkLE_plan read planned
    rw [← latestWatermark_of_read read] at ordered
    rw [Plan.since, (incrementalPlan_eq_some planned).1]
    exact ordered _ isAbove
  have consumed : row ∈ plan.batch := by
    rw [batchIs, List.take_of_length_le (by omega), mem_getWindowSince,
      mem_pendingRows]
    exact ⟨committed, ofProject, kept, sinceAbove⟩
  rw [above_some] at isAbove
  exact absurd isAbove (not_lt.mpr (le_newest plan.nonempty consumed))

theorem QueueState.leftPending_setJob (state : QueueState Content)
    (projectId : Uuid) (job : Job Content) :
    (state.setJob projectId job).leftPending projectId =
      countPending state.tables.summaries projectId
        (job.left state.tables.beliefs projectId) := by
  simp only [QueueState.leftPending, QueueState.setJob, Function.update_self]

/-- Once there is a belief state, a job that leaves few summaries settles the
project. -/
theorem settled_setJob {job : Job Content}
    (few : countPending state.tables.summaries projectId
      (job.left state.tables.beliefs projectId) < threshold projectId)
    (begun : latestWatermark state.tables.beliefs projectId ≠ none) :
    Settled threshold (state.setJob projectId job) projectId := by
  refine ⟨?_, fun isNone => absurd isNone begun⟩
  rw [QueueState.leftPending_setJob]
  exact few

/-- A job that only moves on leaves the ingestion runs as they are. -/
theorem WakeInvariant.setJob {job : Job Content}
    (invariant : WakeInvariant threshold state projectId)
    (ready : job.Ready state.tables projectId)
    (live : job.willRead = true ∨ RunAwaited state projectId ∨
      Settled threshold (state.setJob projectId job) projectId) :
    WakeInvariant threshold (state.setJob projectId job) projectId := by
  have now : (state.setJob projectId job).jobs projectId = job :=
    Function.update_self ..
  refine ⟨?_, invariant.triggers, ?_⟩
  · rw [now]
    exact ready
  · rw [now]
    exact live

/-- Where no plan is found the threshold is not reached, and there is a belief
state: without one the queued job had work. -/
theorem wakeInvariant_nothing {order : OrderBy DocumentSummary.createdAt}
    {schema : Schema Content} {latest : Option (BeliefStateRecord Content)}
    (positive : 1 ≤ threshold projectId)
    (invariant : WakeInvariant threshold state projectId)
    (started : state.jobs projectId = .started)
    (read : getLatest schema state.tables projectId = .ok latest)
    (noPlan : incrementalPlan order state.tables.summaries projectId
      rebuildBatchSize latest = none) :
    WakeInvariant threshold (state.setJob projectId .returning)
      projectId := by
  have work := invariant.job
  rw [started] at work
  rw [incrementalPlan_eq_none, latestWatermark_of_read read,
    getWindowSince_eq_nil] at noPlan
  have begun : latestWatermark state.tables.beliefs projectId ≠ none := by
    intro isNone
    have pending := work isNone
    rw [isNone] at noPlan
    omega
  refine invariant.setJob begun (Or.inr (Or.inr (settled_setJob ?_ begun)))
  exact lt_of_eq_of_lt noPlan positive

theorem wakeInvariant_readWindow {order : OrderBy DocumentSummary.createdAt}
    {schema : Schema Content} {latest : Option (BeliefStateRecord Content)}
    {plan : Plan Content} (positive : 1 ≤ threshold projectId)
    (invariant : WakeInvariant threshold state projectId)
    (read : getLatest schema state.tables projectId = .ok latest)
    (planned : incrementalPlan order state.tables.summaries projectId
      rebuildBatchSize latest = some plan) :
    WakeInvariant threshold (state.setJob projectId (.synthesized plan))
      projectId := by
  refine invariant.setJob (watermarkLE_plan read planned) ?_
  rcases Nat.eq_zero_or_pos plan.remaining with nothingLeft | left
  · refine Or.inr (Or.inr ⟨?_, fun _ => Or.inl ⟨plan, ?_⟩⟩)
    · rw [QueueState.leftPending_setJob]
      have empty := countPending_of_remaining_zero read planned nothingLeft
      exact lt_of_eq_of_lt empty positive
    · exact Function.update_self ..
  · exact Or.inl (decide_eq_true left)

theorem wakeInvariant_commitVersion {schema : Schema Content}
    {plan : Plan Content} {content : Content} {stamp : Stamp}
    (invariant : WakeInvariant threshold state projectId)
    (synthesized : state.jobs projectId = .synthesized plan) :
    WakeInvariant threshold
      { state.setJob projectId (.committed plan.remaining) with
        tables := { state.tables with
          beliefs := state.tables.beliefs ++
            [(plan.draft schema .incremental content).row projectId
              (nextVersion state.tables projectId) stamp] } } projectId := by
  have ready := invariant.job
  have live := invariant.live
  rw [synthesized] at ready live
  have watermark :
      latestWatermark (state.tables.beliefs ++
        [(plan.draft schema .incremental content).row projectId
          (nextVersion state.tables projectId) stamp]) projectId =
        some (newest DocumentSummary.createdAt plan.batch
          plan.nonempty) :=
    latestWatermark_append stamp .incremental
  have begun : latestWatermark (state.tables.beliefs ++
        [(plan.draft schema .incremental content).row projectId
          (nextVersion state.tables projectId) stamp]) projectId ≠
      none := by
    rw [watermark]
    exact Option.some_ne_none _
  constructor
  case job =>
    simp only [QueueState.setJob, Function.update_self]
    exact begun
  case triggers =>
    intro run trigger present ofProject
    exact (invariant.triggers run trigger present
      ofProject).commitVersion watermark ready
  case live =>
    simp only [QueueState.setJob, Function.update_self]
    rcases live with willRead | awaited | ⟨few, _⟩
    · exact Or.inl willRead
    · exact Or.inr (Or.inl awaited)
    · refine Or.inr (Or.inr ⟨?_, fun isNone => absurd isNone begun⟩)
      rw [QueueState.leftPending, synthesized] at few
      simp only [QueueState.leftPending, Function.update_self, Job.left]
      rw [watermark]
      exact few

/-- The job cannot enqueue itself, so what is left must be few. -/
theorem wakeInvariant_enqueueRemainder {remaining : Nat}
    (fewDropped :
      dropsFew threshold state (.job projectId .enqueueRemainder) = true)
    (invariant : WakeInvariant threshold state projectId)
    (committed : state.jobs projectId = .committed remaining) :
    WakeInvariant threshold (state.setJob projectId .returning)
      projectId := by
  have ready := invariant.job
  have live := invariant.live
  rw [committed] at ready live
  have settles (few : state.leftPending projectId < threshold projectId) :
      Settled threshold (state.setJob projectId .returning) projectId := by
    rw [QueueState.leftPending, committed] at few
    exact settled_setJob few ready
  refine invariant.setJob ready ?_
  rcases live with left | awaited | ⟨few, _⟩
  · have few := leftPending_of_dropsFew_remainder committed fewDropped
      (of_decide_eq_true left)
    exact Or.inr (Or.inr (settles few))
  · exact Or.inr (Or.inl awaited)
  · exact Or.inr (Or.inr (settles few))

theorem wakeInvariant_jobMove {schema : Schema Content}
    {action : JobAction Content} (positive : 1 ≤ threshold projectId)
    (fewDropped :
      dropsFew threshold state (.job projectId action) = true)
    (invariant : WakeInvariant threshold state projectId)
    (moved : JobMove schema state projectId action target) :
    WakeInvariant threshold target projectId := by
  cases moved with
  | start queued =>
      have work := invariant.job
      rw [queued] at work
      exact invariant.setJob work (Or.inl rfl)
  | nothing started read noPlan =>
      exact wakeInvariant_nothing positive invariant started read noPlan
  | readWindow started read planned =>
      exact wakeInvariant_readWindow positive invariant read planned
  | commitVersion synthesized =>
      exact wakeInvariant_commitVersion invariant synthesized
  | enqueueRemainder committed =>
      exact wakeInvariant_enqueueRemainder fewDropped invariant committed
  | finish returning =>
      have ready := invariant.job
      have live := invariant.live
      rw [returning] at ready live
      refine invariant.setJob trivial ?_
      rcases live with willRead | awaited | ⟨few, _⟩
      · cases willRead
      · exact Or.inr (Or.inl awaited)
      · rw [QueueState.leftPending, returning] at few
        exact Or.inr (Or.inr (settled_setJob few ready))

theorem wakeInvariant_startIngest {run : Nat} {documentId other : Uuid}
    (unused : state.triggers run = none)
    (invariant : WakeInvariant threshold state projectId) :
    WakeInvariant threshold
      (state.setPc run
        { documentId := documentId, projectId := other, pc := .running }
        .running) projectId := by
  refine ⟨invariant.job, triggers_setPc trivial invariant.triggers, ?_⟩
  rcases invariant.live with
    willRead | ⟨old, trigger, present, ofProject, awaited⟩ | ⟨few, begun⟩
  · exact Or.inl willRead
  · refine Or.inr (Or.inl ⟨old, trigger, ?_, ofProject, awaited⟩)
    have different : old ≠ run := by
      intro same
      rw [same, unused] at present
      cases present
    simp only [QueueState.setPc, Function.update_of_ne different]
    exact present
  · exact Or.inr (Or.inr ⟨few, begun⟩)

theorem wakeInvariant_step {schema : Schema Content}
    {label : QueueLabel Content} (positive : ∀ projectId,
      1 ≤ threshold projectId)
    (few : dropsFew threshold state label = true)
    (invariant : ∀ projectId, WakeInvariant threshold state projectId)
    (taken : queueStep threshold schema state label = some target) :
    ∀ projectId, WakeInvariant threshold target projectId := by
  intro projectId
  rcases queueStep_cases taken with
    ⟨run, documentId, other, rfl, unused, rfl⟩ |
      ⟨run, action, trigger, rfl, present, moved⟩ |
      ⟨other, action, rfl, moved⟩
  · exact wakeInvariant_startIngest unused (invariant projectId)
  · by_cases same : trigger.projectId = projectId
    · rw [← same]
      exact wakeInvariant_triggerMove (positive _) present few
        (invariant _) moved
    · exact (invariant projectId).frame
        (sameProject_of_triggerMove present same moved)
  · by_cases same : projectId = other
    · subst same
      exact wakeInvariant_jobMove (positive _) few (invariant _) moved
    · exact (invariant projectId).frame
        (sameProject_of_jobMove same moved)

theorem wakeInvariant_empty (positive : 1 ≤ threshold projectId) :
    WakeInvariant threshold (QueueState.empty : QueueState Content)
      projectId := by
  refine ⟨trivial, ?_, Or.inr (Or.inr ⟨positive, fun _ => Or.inr rfl⟩)⟩
  intro run trigger present
  cases present

end Invariant

/-! ## Runs -/

section Runs

variable {Content : Type} {threshold : Uuid → Nat}

/-- In every run in which each dropped attempt to enqueue leaves few summaries
behind, no wakeup of any project is lost in any state. -/
theorem noLostWakeup_of_dropsFew (schema : Schema Content)
    (positive : ∀ projectId, 1 ≤ threshold projectId)
    {run : List (QueueLabel Content × QueueState Content)}
    (isRun : Run (fun source label target =>
        (updates threshold schema).step source label target ∧
          dropsFew threshold source label = true)
      QueueState.empty run) :
    ∀ state ∈ visited QueueState.empty run, ∀ projectId,
      NoLostWakeup threshold state projectId := by
  intro state member projectId
  have invariant : ∀ state ∈ visited QueueState.empty run,
      ∀ projectId, WakeInvariant threshold state projectId :=
    isRun.invariant
      (fun _ _ _ holds taken =>
        wakeInvariant_step positive taken.2 holds taken.1)
      (fun other => wakeInvariant_empty (positive other))
  exact (invariant state member projectId).noLostWakeup

/-- The steps of a run that ingests a document and finds enough summaries. -/
def ingestLabels (run : Nat) (documentId : Uuid) (createdAt : Timestamp) :
    List (QueueLabel String) :=
  [.startIngest run documentId 1,
    .ingest run (.commitSummary documentId none createdAt),
    .ingest run .getLatest, .ingest run .countPending,
    .ingest run .enqueue]

/-- The steps of a job after it has read its window. -/
def finishLabels : List (QueueLabel String) :=
  [.job 1 (.commitVersion "state" { id := 7, now := 0 }),
    .job 1 .enqueueRemainder, .job 1 .finish]

/-- Two documents, the second of which is ingested after the update has read
its window if `late`, and before it otherwise. -/
def wakeupLabels (late : Bool) : List (QueueLabel String) :=
  let read : List (QueueLabel String) :=
    [.job 1 .start, .job 1 (.readWindow (OrderBy.stable _))]
  if late then
    ingestLabels 0 1 1 ++ read ++ ingestLabels 1 2 2 ++ finishLabels
  else
    ingestLabels 0 1 1 ++ ingestLabels 1 2 2 ++ read ++ finishLabels

theorem noLostWakeup_readLast :
    NoLostWakeup (fun _ => 1)
      (finalState QueueState.empty
        (trace (queueStep (fun _ => 1) textSchema) (wakeupLabels false)
          QueueState.empty)) 1 :=
  noLostWakeup_of_dropsFew textSchema (fun _ => le_refl 1)
    (run_trace_meets (dropsFew fun _ => 1) _ _ _ (by decide)) _
    (finalState_mem_visited _ _) 1

theorem wakeupLabels_enabled :
    (follow (queueStep (fun _ => 1) textSchema) (wakeupLabels true)
      QueueState.empty).isSome = true := by
  rfl

def missedState : QueueState String :=
  followed (queueStep (fun _ => 1) textSchema) (wakeupLabels true)
    QueueState.empty wakeupLabels_enabled

/-- With threshold one a summary is pending, no ingestion run is in progress
and no update is queued or executing. -/
theorem lostWakeup_missedState :
    Reachable (updates (fun _ => 1) textSchema) missedState ∧
      ¬ NoLostWakeup (fun _ => 1) missedState 1 := by
  constructor
  · exact reachable_of_follow (Reachable.initial rfl)
      (Option.some_get wakeupLabels_enabled).symm
  · intro kept
    have quiescent : Quiescent missedState 1 := by
      refine ⟨rfl, ?_⟩
      rintro (_ | _ | run) trigger present _
      · obtain rfl : _ = trigger := Option.some.inj present
        rfl
      · obtain rfl : _ = trigger := Option.some.inj present
        rfl
      · cases present
    have few := (kept quiescent).1
    revert few
    decide

end Runs

end ProjectMemory.Cag
