import ProjectMemory.Cag.Provenance

/-!
# Which summaries the belief states cover

Ingestion runs and belief-state writers on one database.  A summary carries
the start time of the transaction that inserts it.  In an ingestion run this
transaction opens with the first query after the job is marked as running, and
the document is parsed, embedded and summarized inside it; the row becomes
visible with the commit.  So the order of commits is not the order of
timestamps, and a summary can become visible below a watermark that has been
reached in the meantime.

`noSummaryLost_iff_keepsUp` says exactly which runs lose no summary.
-/

namespace ProjectMemory.Cag

open Foundation

section Ingestion

variable {Content : Type}

/-- Where an ingestion run stands: before its second transaction, inside it,
after its insert, or at its end.  An insert that meets a committed row of the
document does nothing. -/
inductive IngestPc where
  | running
  | opened (createdAt : Timestamp)
  | inserted (row : Option DocumentSummary)
  | ended

structure Ingest where
  documentId : Uuid
  projectId : Uuid
  pc : IngestPc

/-- The row an ingestion run has inserted and not committed. -/
def Ingest.uncommitted (ingest : Ingest) : Option DocumentSummary :=
  match ingest.pc with
  | .inserted row => row
  | _ => none

theorem uncommitted_eq_some {ingest : Ingest} {row : DocumentSummary} :
    ingest.uncommitted = some row ↔ ingest.pc = .inserted (some row) := by
  unfold Ingest.uncommitted
  cases ingest.pc <;> simp

/-- The belief-state writers, the clock and the ingestion runs. -/
structure World (Content : Type) where
  cag : State Content
  clock : Timestamp
  ingests : List Ingest

inductive WorldLabel (Content : Type) where
  | cag (label : Label Content)
  | startIngest (documentId projectId : Uuid)
  | openTransaction (run : Nat) (now : Timestamp)
  | insertSummary (run : Nat) (id : Uuid) (rawTextFallback : Option Bool)
  | commitSummary (run : Nat)
  | endIngest (run : Nat)

/-- Summaries are committed by ingestion runs only. -/
def Label.commitsSummary : Label Content → Bool
  | .commitSummary _ => true
  | _ => false

def World.setPc (world : World Content) (run : Nat) (ingest : Ingest)
    (pc : IngestPc) : World Content :=
  { world with ingests := world.ingests.set run { ingest with pc := pc } }

/-- `INSERT … ON CONFLICT DO NOTHING`: a committed row of the document makes
it do nothing, an uncommitted one of another run makes it wait. -/
def World.insertSummary (world : World Content) (run : Nat) (ingest : Ingest)
    (row : DocumentSummary) : Option (World Content) :=
  if world.cag.tables.summaries.any
      fun other => other.documentId = row.documentId then
    some (world.setPc run ingest (.inserted none))
  else if world.ingests.any fun other =>
      other.uncommitted.any fun pending =>
        pending.documentId = row.documentId then
    none
  else
    some (world.setPc run ingest (.inserted (some row)))

/-- One step; `none` where the label is not enabled. -/
def worldStep (hashtext : String → BitVec 32) (schema : Schema Content)
    (world : World Content) : WorldLabel Content → Option (World Content)
  | .cag label =>
      if label.commitsSummary then none
      else
        (synthesizersStep hashtext schema world.cag label).map
          fun cag => { world with cag := cag }
  | .startIngest documentId projectId =>
      some { world with
        ingests := world.ingests ++
          [{ documentId := documentId, projectId := projectId,
             pc := .running }] }
  | .openTransaction run now =>
      match world.ingests[run]? with
      | some ingest =>
          match ingest.pc with
          | .running =>
              if world.clock < now then
                some { world.setPc run ingest (.opened now) with
                  clock := now }
              else none
          | _ => none
      | none => none
  | .insertSummary run id rawTextFallback =>
      match world.ingests[run]? with
      | some ingest =>
          match ingest.pc with
          | .opened createdAt =>
              world.insertSummary run ingest {
                id := id
                documentId := ingest.documentId
                projectId := ingest.projectId
                rawTextFallback := rawTextFallback
                createdAt := createdAt }
          | _ => none
      | none => none
  | .commitSummary run =>
      match world.ingests[run]? with
      | some ingest =>
          match ingest.pc with
          | .inserted none => some (world.setPc run ingest .ended)
          | .inserted (some row) =>
              (synthesizersStep hashtext schema world.cag
                (.commitSummary row)).map fun cag =>
                { world.setPc run ingest .ended with cag := cag }
          | _ => none
      | none => none
  | .endIngest run =>
      match world.ingests[run]? with
      | some ingest => some (world.setPc run ingest .ended)
      | none => none

def World.empty : World Content where
  cag := State.empty
  clock := 0
  ingests := []

def workers (hashtext : String → BitVec 32) (schema : Schema Content) :
    TransitionSystem (World Content) (WorldLabel Content) :=
  TransitionSystem.ofNext (fun world => world = World.empty)
    (worldStep hashtext schema)

end Ingestion

section Steps

variable {Content : Type} {hashtext : String → BitVec 32}
  {schema : Schema Content} {world target : World Content}

theorem World.insertSummary_cag {run : Nat} {ingest : Ingest}
    {row : DocumentSummary}
    (inserted : world.insertSummary run ingest row = some target) :
    target.cag = world.cag := by
  rw [World.insertSummary] at inserted
  by_cases conflict : (world.cag.tables.summaries.any
      fun other => other.documentId = row.documentId) = true
  · rw [if_pos conflict, Option.some.injEq] at inserted
    rw [← inserted]
    rfl
  · rw [if_neg conflict] at inserted
    obtain ⟨_, isTarget⟩ := Option.ite_none_left_eq_some.mp inserted
    rw [Option.some.injEq] at isTarget
    rw [← isTarget]
    rfl

theorem worldStep_cases {label : WorldLabel Content}
    (taken : worldStep hashtext schema world label = some target) :
    (∃ cagLabel, label = .cag cagLabel ∧ cagLabel.commitsSummary = false ∧
      synthesizersStep hashtext schema world.cag cagLabel =
        some target.cag) ∨
    (∃ run ingest row, label = .commitSummary run ∧
      world.ingests[run]? = some ingest ∧
      ingest.pc = .inserted (some row) ∧
      synthesizersStep hashtext schema world.cag (.commitSummary row) =
        some target.cag) ∨
    (target.cag = world.cag ∧ (∀ cagLabel, label ≠ .cag cagLabel) ∧
      ∀ run ingest row, label = .commitSummary run →
        world.ingests[run]? = some ingest →
        ingest.pc ≠ .inserted (some row)) := by
  cases label with
  | cag cagLabel =>
      simp only [worldStep] at taken
      split at taken
      · cases taken
      · rename_i notCommit
        rw [Bool.not_eq_true] at notCommit
        obtain ⟨cag, stepped, rfl⟩ := Option.map_eq_some_iff.mp taken
        exact Or.inl ⟨cagLabel, rfl, notCommit, stepped⟩
  | startIngest documentId projectId =>
      simp only [worldStep, Option.some.injEq] at taken
      subst taken
      exact Or.inr (Or.inr ⟨rfl, by simp, by simp⟩)
  | openTransaction run now =>
      simp only [worldStep] at taken
      split at taken
      · split at taken
        · split at taken
          · rw [Option.some.injEq] at taken
            subst taken
            exact Or.inr (Or.inr ⟨rfl, by simp, by simp⟩)
          · cases taken
        · cases taken
      · cases taken
  | insertSummary run id rawTextFallback =>
      simp only [worldStep] at taken
      split at taken
      · split at taken
        · have unchanged := World.insertSummary_cag taken
          exact Or.inr (Or.inr ⟨unchanged, by simp, by simp⟩)
        · cases taken
      · cases taken
  | commitSummary run =>
      simp only [worldStep] at taken
      split at taken
      · rename_i ingest present
        split at taken
        · rename_i conflict
          rw [Option.some.injEq] at taken
          subst taken
          refine Or.inr (Or.inr ⟨rfl, by simp, ?_⟩)
          intro otherRun other row sameLabel otherPresent
          injection sameLabel with sameRun
          rw [← sameRun, present, Option.some.injEq] at otherPresent
          rw [← otherPresent, conflict]
          simp
        · rename_i row inserted
          obtain ⟨cag, stepped, rfl⟩ := Option.map_eq_some_iff.mp taken
          exact Or.inr (Or.inl
            ⟨run, ingest, row, rfl, present, inserted, stepped⟩)
        · cases taken
      · cases taken
  | endIngest run =>
      simp only [worldStep] at taken
      split at taken
      · rw [Option.some.injEq] at taken
        subst taken
        exact Or.inr (Or.inr ⟨rfl, by simp, by simp⟩)
      · cases taken

/-- The writers see ingestion runs as transactions that commit summaries. -/
theorem reachable_cag
    (reachable : Reachable (workers hashtext schema) world) :
    Reachable (synthesizers hashtext schema) world.cag := by
  refine Reachable.project ?_ ?_ reachable
  · intro start isStart
    rw [isStart]
    rfl
  · intro source label next taken
    rcases worldStep_cases taken with
      ⟨cagLabel, _, _, stepped⟩ | ⟨_, _, row, _, _, _, stepped⟩ |
        ⟨unchanged, _, _⟩
    · exact Or.inr ⟨cagLabel, stepped⟩
    · exact Or.inr ⟨.commitSummary row, stepped⟩
    · exact Or.inl unchanged

end Steps

/-! ## The law and its exact guard -/

section Law

variable {Content : Type}

/-- Every committed summary of the row's project that is no fallback is behind
the row or above its watermark. -/
def Covers (state : State Content) (row : BeliefState) : Prop :=
  ∀ summary ∈ pendingRows state.tables.summaries row.projectId none,
    summary ∈ state.provenance row ∨
      row.lastSummaryCreatedAt < summary.createdAt

/-- No summary is lost: the latest state of every project covers its log. -/
def NoSummaryLost (state : State Content) : Prop :=
  ∀ projectId latest,
    latestRow state.tables.beliefs projectId = some latest →
      Covers state latest

/-- Every stored state covers the log. -/
def AllCovered (state : State Content) : Prop :=
  ∀ row ∈ state.tables.beliefs, Covers state row

theorem AllCovered.noSummaryLost {state : State Content}
    (covered : AllCovered state) : NoSummaryLost state :=
  fun _ latest found => covered latest (latestRow_mem found).1

/-- A summary committed now lies above the latest watermark of its project. -/
def LandsAbove (state : State Content) (row : DocumentSummary) : Prop :=
  notFallback row = true →
    above (latestWatermark state.tables.beliefs row.projectId)
      row.createdAt = true

/-- The batch of a plan holds every committed summary between the watermark it
started from and the one it leaves. -/
def BatchComplete (state : State Content) (projectId : Uuid)
    (plan : Plan Content) : Prop :=
  ∀ summary ∈ pendingRows state.tables.summaries projectId plan.since,
    summary ∈ plan.batch ∨
      newest DocumentSummary.createdAt plan.batch plan.nonempty <
        summary.createdAt

/-- The condition on a step: a commit of a summary lands above the latest
watermark, and a commit of a belief state has missed no summary below its
own. -/
def KeepsUp (world : World Content) : WorldLabel Content → Prop
  | .commitSummary run =>
      ∀ ingest row, world.ingests[run]? = some ingest →
        ingest.pc = .inserted (some row) → LandsAbove world.cag row
  | .cag (.advance caller choice) =>
      ∀ projectId phase row pending plan,
        world.cag.calls caller = some (projectId, phase) →
          phase.commits choice = some (row, pending) →
          pending.plan = some plan →
          BatchComplete world.cag projectId plan
  | _ => True

instance (state : State Content) (row : DocumentSummary) :
    Decidable (LandsAbove state row) :=
  inferInstanceAs (Decidable (_ → _))

instance (state : State Content) (projectId : Uuid) (plan : Plan Content) :
    Decidable (BatchComplete state projectId plan) :=
  inferInstanceAs (Decidable (∀ _ ∈ _, _))

instance (world : World Content) (label : WorldLabel Content) :
    Decidable (KeepsUp world label) :=
  match label with
  | .commitSummary run =>
      decidable_of_iff (∀ ingest ∈ world.ingests[run]?,
          ∀ row ∈ ingest.uncommitted, LandsAbove world.cag row) <| by
        refine forall_congr' fun ingest => ?_
        rw [forall_comm]
        simp only [Option.mem_def, uncommitted_eq_some]
  | .cag (.advance caller choice) =>
      decidable_of_iff (∀ call ∈ world.cag.calls caller,
          ∀ written ∈ call.2.commits choice, ∀ plan ∈ written.2.plan,
            BatchComplete world.cag call.1 plan) <| by
        constructor
        · intro complete projectId phase row pending plan present commits planIs
          exact complete _ present _ commits _ planIs
        · intro keepsUp call present written commits plan planIs
          exact keepsUp _ _ _ _ _ present commits planIs
  | .cag (.commitSummary _) | .cag (.invoke _ _ _) | .startIngest _ _
  | .openTransaction _ _ | .insertSummary _ _ _ | .endIngest _ =>
      .isTrue trivial

end Law

section Exactness

variable {Content : Type} {hashtext : String → BitVec 32}
  {schema : Schema Content} {state : State Content}

theorem watermark_le_latest (invariant : CoverInvariant state)
    {row latest : BeliefState} (member : row ∈ state.tables.beliefs)
    (found : latestRow state.tables.beliefs row.projectId = some latest) :
    row.lastSummaryCreatedAt ≤ latest.lastSummaryCreatedAt := by
  obtain ⟨latestMember, ofProject⟩ := latestRow_mem found
  exact invariant.monotone row member latest latestMember ofProject.symm
    (version_le_latestRow found member rfl)

/-- A new summary is covered by a row exactly when it lies above its
watermark, because no provenance can contain it yet. -/
theorem covers_commitSummary_iff (invariant : CoverInvariant state)
    {summary : DocumentSummary} {row : BeliefState}
    (member : row ∈ state.tables.beliefs)
    (fresh : ∀ other ∈ state.tables.summaries, other.id ≠ summary.id)
    (covers : Covers state row) :
    Covers { state with
        tables := { state.tables with
          summaries := state.tables.summaries ++ [summary] } } row ↔
      (summary.projectId = row.projectId → notFallback summary = true →
        row.lastSummaryCreatedAt < summary.createdAt) := by
  constructor
  · intro coversAll ofProject kept
    have appended : summary ∈ pendingRows
        (state.tables.summaries ++ [summary]) row.projectId none := by
      rw [mem_pendingRows]
      exact ⟨by simp, ofProject, kept, rfl⟩
    rcases coversAll summary appended with inProvenance | isAbove
    · have read := invariant.read row member summary inProvenance
      exact absurd rfl (fresh summary (mem_pendingRows.mp read).1)
    · exact isAbove
  · intro lands other pending
    obtain ⟨committed, ofProject, kept, _⟩ := mem_pendingRows.mp pending
    rcases List.mem_append.mp committed with old | new
    · exact covers other (mem_pendingRows.mpr ⟨old, ofProject, kept, rfl⟩)
    · rw [List.mem_singleton] at new
      subst new
      exact Or.inr (lands ofProject kept)

/-- Committing a summary loses nothing exactly when it lands above the latest
watermark of its project. -/
theorem noSummaryLost_commitSummary_iff (invariant : CoverInvariant state)
    (covered : AllCovered state) {summary : DocumentSummary}
    (fresh : ∀ other ∈ state.tables.summaries, other.id ≠ summary.id) :
    NoSummaryLost { state with
        tables := { state.tables with
          summaries := state.tables.summaries ++ [summary] } } ↔
      LandsAbove state summary := by
  constructor
  · intro kept notFallback
    cases found : latestRow state.tables.beliefs summary.projectId with
    | none =>
        rw [latestWatermark, found]
        rfl
    | some latest =>
        obtain ⟨member, ofProject⟩ := latestRow_mem found
        rw [latestWatermark, found, Option.map_some, above_some]
        exact (covers_commitSummary_iff invariant member fresh
          (covered latest member)).mp (kept summary.projectId latest found)
          ofProject.symm notFallback
  · intro lands projectId latest found
    obtain ⟨member, ofProject⟩ := latestRow_mem found
    apply (covers_commitSummary_iff invariant member fresh
      (covered latest member)).mpr
    intro sameProject notFallback
    have isAbove := lands notFallback
    have latestOfProject : projectId = summary.projectId :=
      ofProject.symm.trans sameProject.symm
    subst latestOfProject
    rw [latestWatermark, found, Option.map_some, above_some] at isAbove
    exact isAbove

theorem allCovered_commitSummary (invariant : CoverInvariant state)
    (covered : AllCovered state) {summary : DocumentSummary}
    (fresh : ∀ other ∈ state.tables.summaries, other.id ≠ summary.id)
    (lands : LandsAbove state summary) :
    AllCovered { state with
      tables := { state.tables with
        summaries := state.tables.summaries ++ [summary] } } := by
  intro row member
  apply (covers_commitSummary_iff invariant member fresh
    (covered row member)).mpr
  intro sameProject notFallback
  have isAbove := lands notFallback
  cases found : latestRow state.tables.beliefs row.projectId with
  | none => exact absurd rfl (latestRow_eq_none.mp found row member)
  | some latest =>
      rw [sameProject, latestWatermark, found, Option.map_some, above_some]
        at isAbove
      exact lt_of_le_of_lt (watermark_le_latest invariant member found)
        isAbove

variable {caller : Nat} {projectId : Uuid} {phase : Phase Content}
  {choice : Choice Content} {row : BeliefState} {pending : Pending Content}

/-- The row committed now covers the log exactly when its batch is
complete. -/
theorem covers_commit_iff (invariant : CoverInvariant state)
    (covered : AllCovered state) {plan : Plan Content}
    (planIs : pending.plan = some plan)
    (ready : PlanReady state.tables row.projectId plan)
    (watermark : row.lastSummaryCreatedAt =
      newest DocumentSummary.createdAt plan.batch plan.nonempty) :
    (∀ summary ∈ pendingRows state.tables.summaries row.projectId none,
        summary ∈ (state.originOf caller pending).provenance ∨
          row.lastSummaryCreatedAt < summary.createdAt) ↔
      BatchComplete state row.projectId plan := by
  obtain ⟨_, _, inheritedRead⟩ :=
    inherited_of_planReady caller invariant planIs ready
  have batchIs : (state.originOf caller pending).batch = plan.batch := by
    simp [State.originOf, planIs]
  rw [Origin.provenance, batchIs, watermark]
  constructor
  · intro covers summary isPending
    obtain ⟨committed, ofProject, kept, isAbove⟩ :=
      mem_pendingRows.mp isPending
    rcases covers summary
        (mem_pendingRows.mpr ⟨committed, ofProject, kept, rfl⟩)
      with inProvenance | later
    · rcases List.mem_append.mp inProvenance with inherited | consumed
      · rw [(inheritedRead summary inherited).2] at isAbove
        cases isAbove
      · exact Or.inl consumed
    · exact Or.inr later
  · intro complete summary logged
    obtain ⟨committed, ofProject, kept, _⟩ := mem_pendingRows.mp logged
    cases isAbove : above plan.since summary.createdAt with
    | true =>
        rcases complete summary
            (mem_pendingRows.mpr ⟨committed, ofProject, kept, isAbove⟩)
          with consumed | later
        · exact Or.inl (List.mem_append_right _ consumed)
        · exact Or.inr later
    | false =>
        -- below the base's watermark the base itself covers the log
        cases baseIs : plan.base with
        | none =>
            rw [Plan.since, baseIs] at isAbove
            cases isAbove
        | some record =>
            obtain ⟨base, baseMember, baseOfProject, inheritedIs,
                sameWatermark, _⟩ :=
              inherited_of_base caller planIs baseIs
                (ready.stored record baseIs)
            rw [Plan.since, baseIs, Option.map_some, sameWatermark,
              ← Bool.not_eq_true, above_some] at isAbove
            rcases covered base baseMember summary
                (baseOfProject ▸ logged) with inBase | later
            · rw [inheritedIs]
              exact Or.inl (List.mem_append_left _ inBase)
            · exact absurd later isAbove

theorem covers_move_old (versions : VersionInvariant state)
    (version : row.version =
      (beliefsOf state.tables.beliefs row.projectId).length + 1)
    (committed : phase.commits choice = some (row, pending))
    {other : BeliefState} (member : other ∈ state.tables.beliefs) :
    Covers (state.move hashtext schema caller projectId phase choice) other ↔
      Covers state other := by
  unfold Covers
  rw [move_summaries, provenance_move_old versions version committed member]

/-- Committing a belief state loses nothing, and keeps every row covering the
log, exactly when its batch is complete. -/
theorem noSummaryLost_move_commit_iff (hashtext : String → BitVec 32)
    (schema : Schema Content) (versions : VersionInvariant state)
    (invariant : CoverInvariant state) (covered : AllCovered state)
    (present : state.calls caller = some (projectId, phase))
    (committed : phase.commits choice = some (row, pending))
    {plan : Plan Content} (planIs : pending.plan = some plan) :
    (NoSummaryLost
        (state.move hashtext schema caller projectId phase choice) ↔
      BatchComplete state projectId plan) ∧
    (BatchComplete state projectId plan →
      AllCovered
        (state.move hashtext schema caller projectId phase choice)) := by
  obtain ⟨ofProject, version, pendingReady, watermark, _⟩ :=
    commit_ready schema versions invariant present committed
  subst ofProject
  obtain ⟨readyPlan, readyIs, planReady, planWatermark, _⟩ := pendingReady
  rw [planIs, Option.some.injEq] at readyIs
  subst readyIs
  have newCovers :
      Covers (state.move hashtext schema caller row.projectId phase choice)
        row ↔ BatchComplete state row.projectId plan := by
    unfold Covers
    rw [move_summaries,
      provenance_move_new hashtext schema row.projectId committed]
    exact covers_commit_iff invariant covered planIs planReady
      (watermark.trans planWatermark)
  have appended :=
    (move_of_commits_some hashtext schema state caller row.projectId
      committed).1
  have isNext : row.version = nextVersion state.tables row.projectId := by
    rw [version,
      nextVersion_of_numbered (versions.numbered row.projectId)]
  have restored (complete : BatchComplete state row.projectId plan) :
      AllCovered
        (state.move hashtext schema caller row.projectId phase choice) := by
    intro other member
    rw [appended, List.mem_append, List.mem_singleton] at member
    rcases member with old | rfl
    · exact (covers_move_old versions version committed old).mpr
        (covered other old)
    · exact newCovers.mpr complete
  refine ⟨⟨?_, fun complete => (restored complete).noSummaryLost⟩, restored⟩
  intro kept
  apply newCovers.mp
  apply kept row.projectId row
  rw [appended]
  exact latestRow_append state.tables row isNext

end Exactness

/-! ## Runs -/

section Runs

variable {Content : Type} {hashtext : String → BitVec 32}
  {schema : Schema Content} {world target : World Content}

theorem allCovered_of_same {state next : State Content}
    (tables : next.tables = state.tables)
    (origin : next.origin = state.origin) (covered : AllCovered state) :
    AllCovered next := by
  intro row member summary logged
  rw [tables] at member logged
  rw [State.provenance, origin]
  exact covered row member summary logged

theorem advance_exact {caller : Nat} {projectId : Uuid}
    {phase : Phase Content} {choice : Choice Content}
    (reachable : Reachable (workers hashtext schema) world)
    (covered : AllCovered world.cag)
    (present : world.cag.calls caller = some (projectId, phase)) :
    (NoSummaryLost
        (world.cag.move hashtext schema caller projectId phase choice) ↔
      KeepsUp world (.cag (.advance caller choice))) ∧
    (NoSummaryLost
        (world.cag.move hashtext schema caller projectId phase choice) →
      AllCovered
        (world.cag.move hashtext schema caller projectId phase choice)) := by
  have versions := versionInvariant_reachable
    (reachable_writers_of_synthesizers (reachable_cag reachable))
  have invariant := coverInvariant_reachable (reachable_cag reachable)
  cases committed : phase.commits choice with
  | none =>
      obtain ⟨sameTables, sameOrigin⟩ := move_of_commits_none hashtext schema
        world.cag caller projectId committed
      have stillCovered :=
        allCovered_of_same sameTables sameOrigin covered
      refine ⟨iff_of_true stillCovered.noSummaryLost ?_,
        fun _ => stillCovered⟩
      intro otherProject otherPhase row pending plan otherPresent commits
      rw [present, Option.some.injEq, Prod.mk.injEq] at otherPresent
      rw [← otherPresent.2, committed] at commits
      cases commits
  | some written =>
      obtain ⟨row, pending⟩ := written
      obtain ⟨_, _, ⟨plan, planIs, _⟩, _⟩ :=
        commit_ready schema versions invariant present committed
      obtain ⟨exactly, restored⟩ := noSummaryLost_move_commit_iff hashtext
        schema versions invariant covered present committed planIs
      have guardIs : KeepsUp world (.cag (.advance caller choice)) ↔
          BatchComplete world.cag projectId plan := by
        constructor
        · intro keepsUp
          exact keepsUp projectId phase row pending plan present committed
            planIs
        · intro complete otherProject otherPhase otherRow otherPending
            otherPlan otherPresent otherCommitted otherPlanIs
          rw [present, Option.some.injEq, Prod.mk.injEq] at otherPresent
          rw [← otherPresent.2, committed, Option.some.injEq,
            Prod.mk.injEq] at otherCommitted
          rw [← otherCommitted.2, planIs, Option.some.injEq] at otherPlanIs
          rw [← otherPresent.1, ← otherPlanIs]
          exact complete
      rw [guardIs]
      exact ⟨exactly, fun kept => restored (exactly.mp kept)⟩

/-- From a world in which every row covers the log, a step keeps the law
exactly when it keeps up, and then every row covers the log again. -/
theorem worldStep_exact {label : WorldLabel Content}
    (reachable : Reachable (workers hashtext schema) world)
    (covered : AllCovered world.cag)
    (taken : worldStep hashtext schema world label = some target) :
    (NoSummaryLost target.cag ↔ KeepsUp world label) ∧
      (NoSummaryLost target.cag → AllCovered target.cag) := by
  have invariant := coverInvariant_reachable (reachable_cag reachable)
  rcases worldStep_cases taken with
    ⟨cagLabel, rfl, notCommit, stepped⟩ |
      ⟨run, ingest, row, rfl, ingestPresent, inserted, stepped⟩ |
      ⟨unchanged, notCag, notCommit⟩
  · rcases step_cases (synthesizersStep_eq_some stepped).2 with
      ⟨row, rfl, _, _⟩ | ⟨caller, projectId, call, rfl, _, targetIs⟩ |
        ⟨caller, choice, projectId, phase, rfl, present, _, _, targetIs⟩
    · cases notCommit
    · have stillCovered : AllCovered target.cag := by
        rw [targetIs]
        exact allCovered_of_same rfl rfl covered
      exact ⟨iff_of_true stillCovered.noSummaryLost trivial,
        fun _ => stillCovered⟩
    · rw [targetIs]
      exact advance_exact reachable covered present
  · rcases step_cases (synthesizersStep_eq_some stepped).2 with
      ⟨summary, sameLabel, fresh, targetIs⟩ | ⟨_, _, _, noLabel, _⟩ |
        ⟨_, _, _, _, noLabel, _⟩
    · injection sameLabel with sameRow
      subst sameRow
      have guardIs : KeepsUp world (.commitSummary run) ↔
          LandsAbove world.cag row := by
        constructor
        · intro keepsUp
          exact keepsUp ingest row ingestPresent inserted
        · intro lands other otherRow otherPresent otherInserted
          rw [ingestPresent, Option.some.injEq] at otherPresent
          rw [← otherPresent, inserted, IngestPc.inserted.injEq,
            Option.some.injEq] at otherInserted
          rw [← otherInserted]
          exact lands
      have exactly :=
        noSummaryLost_commitSummary_iff invariant covered fresh
      rw [targetIs, guardIs]
      exact ⟨exactly, fun kept =>
        allCovered_commitSummary invariant covered fresh (exactly.mp kept)⟩
    · cases noLabel
    · cases noLabel
  · have stillCovered : AllCovered target.cag := unchanged ▸ covered
    refine ⟨iff_of_true stillCovered.noSummaryLost ?_,
      fun _ => stillCovered⟩
    cases label with
    | cag cagLabel => exact absurd rfl (notCag cagLabel)
    | commitSummary run =>
        intro ingest row present inserted
        exact absurd inserted (notCommit run ingest row rfl present)
    | _ => trivial

/-- A run from the empty database loses no summary in any state it visits
exactly when all its commits keep up. -/
theorem noSummaryLost_iff_keepsUp (hashtext : String → BitVec 32)
    (schema : Schema Content)
    {run : List (WorldLabel Content × World Content)}
    (isRun : Run (workers hashtext schema).step World.empty run) :
    (∀ world ∈ visited World.empty run, NoSummaryLost world.cag) ↔
      Run (fun source label target =>
          (workers hashtext schema).step source label target ∧
            KeepsUp source label)
        World.empty run := by
  refine Run.all_visited_iff_guarded (Reachable (workers hashtext schema))
    (fun world => AllCovered world.cag) ?_ ?_ ?_ ?_ isRun ?_ ?_
  · exact fun _ _ _ reachable taken => Reachable.step reachable taken
  · exact fun _ covered => covered.noSummaryLost
  · exact fun _ _ _ reachable covered taken =>
      (worldStep_exact reachable covered taken).1
  · exact fun _ _ _ reachable covered taken =>
      (worldStep_exact reachable covered taken).2
  · exact Reachable.initial rfl
  · intro row member
    cases member

/-- Two documents are ingested at once: the transaction of the first opens
before that of the second.  The second commits and an update covers it before
the first one commits, in the order given by `late`. -/
def twoIngests (late : Bool) : List (WorldLabel String) :=
  let healthy : Choice String :=
    plainChoice "state" (OrderBy.stable _) { id := 7, now := 0 }
  let update : List (WorldLabel String) :=
    .cag (.invoke 0 1 (.synthesizeAndInsert 40)) ::
      List.replicate 9 (.cag (.advance 0 healthy))
  let slowCommit : List (WorldLabel String) :=
    [.insertSummary 0 1 none, .commitSummary 0]
  [.startIngest 1 1, .startIngest 2 1, .openTransaction 0 1,
    .openTransaction 1 2, .insertSummary 1 2 none, .commitSummary 1] ++
    if late then update ++ slowCommit else slowCommit ++ update

/-- When both commit before the update, the law holds in every state. -/
theorem noSummaryLost_twoIngests :
    (trace (worldStep (fun _ => 0) textSchema) (twoIngests false)
        World.empty).length = 18 ∧
      ∀ world ∈ visited World.empty
          (trace (worldStep (fun _ => 0) textSchema) (twoIngests false)
            World.empty), NoSummaryLost world.cag := by
  have meets : traceMeets (fun world label => decide (KeepsUp world label))
      (worldStep (fun _ => 0) textSchema) (twoIngests false)
        World.empty = true := by
    decide +kernel
  refine ⟨by rfl, (noSummaryLost_iff_keepsUp (fun _ => 0) textSchema
    (run_trace _ _ _)).mpr ?_⟩
  refine (run_trace_meets _ _ _ _ meets).imp ?_
  exact fun _ _ _ kept => ⟨kept.1, of_decide_eq_true kept.2⟩

theorem twoIngests_enabled :
    (follow (worldStep (fun _ => 0) textSchema) (twoIngests true)
      World.empty).isSome = true := by
  rfl

/-- The world in which the slow ingestion run commits after the update. -/
def lateWorld : World String :=
  followed (worldStep (fun _ => 0) textSchema) (twoIngests true) World.empty
    twoIngests_enabled

/-- The slow document is lost: the latest state was not synthesized from its
summary, and its watermark lies above it. -/
theorem summaryLost_lateWorld :
    Reachable (workers (fun _ => 0) textSchema) lateWorld ∧
      ¬ NoSummaryLost lateWorld.cag := by
  constructor
  · exact reachable_of_follow (Reachable.initial rfl)
      (Option.some_get twoIngests_enabled).symm
  · intro kept
    let slow : DocumentSummary := {
      id := 1, documentId := 1, projectId := 1, rawTextFallback := none,
      createdAt := 1 }
    have found : latestRow lateWorld.cag.tables.beliefs 1 = some {
        id := 7, projectId := 1, version := 1, state := .str "state",
        rebuildType := .incremental, lastSummaryCreatedAt := 2,
        summaryCountCovered := 1, createdAt := 0 } := by
      rfl
    have logged : slow ∈ pendingRows lateWorld.cag.tables.summaries 1
        none := by
      decide
    rcases kept 1 _ found slow logged with inProvenance | isAbove
    · revert inProvenance
      decide
    · revert isAbove
      decide

end Runs

end ProjectMemory.Cag
