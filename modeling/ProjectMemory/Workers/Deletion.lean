import ProjectMemory.Workers.Tables

/-!
# A project deleted under its ingestions

An admin deletes a project while its documents are uploaded and ingested.  The
rows are gone with one commit and the collection is deleted afterwards.  The
runs that are still at work fail, leave no row behind, and recreate the
collection only where they had read the project before.

The foreign keys order what the runs and the deletion do: a summary cannot be
inserted for a project that is gone, and the deletion waits for the
transactions that have inserted one.
-/

namespace ProjectMemory.Workers

open Foundation Ingestion

section System

variable {Content Dense Sparse : Type}

/-- The tables and the collections with the ingestions of one project. -/
structure Premises (Content Dense Sparse : Type) where
  store : Store Dense Sparse
  rows : List StoredDocument
  runs : List (IngestionRun Content Dense Sparse)

inductive DeletionLabel where
  /-- `DocumentService.upload`. -/
  | upload (row : StoredDocument) (jobId : Uuid) (now : Timestamp)
  /-- A worker takes up a queued job, whose row may be gone. -/
  | take (arguments : Arguments)
  | advance (index : Nat) (choice : Choice)
  /-- Other jobs change the log, the belief states and the queue. -/
  | others (tables : Cag.Tables) (updates : Uuid → Bool)
  /-- The commit of `ProjectService.delete`. -/
  | deleteRows
  /-- Its call of `delete_collection`, which Qdrant may fail. -/
  | dropCollection (down : Bool)

/-- The tables mention the project only while it is there. -/
def Refers (tables : Cag.Tables) (projectId : Uuid) : Prop :=
  (∃ row ∈ tables.summaries, row.projectId = projectId) ∨
    ∃ row ∈ tables.beliefs, row.projectId = projectId

instance (tables : Cag.Tables) (projectId : Uuid) :
    Decidable (Refers tables projectId) :=
  inferInstanceAs (Decidable (_ ∨ _))

/-- The `INSERT` of a summary raises where a foreign key is missing, unless
it meets the summary it conflicts with. -/
def keysHold (arguments : Arguments) (store : Store Dense Sparse)
    (choice : Choice) : Pc Content Dense Sparse → Bool
  | .insertSummary _ _ =>
      (store.tables.summaries.any fun row =>
          row.documentId = arguments.documentId) ||
        (store.projects arguments.projectId).isSome &&
          (store.documents arguments.documentId).isSome ||
        choice.fault.any fun fault => fault.aborts && !fault.landed
  | _ => true

/-- One step; `none` where the label is not enabled. -/
def deletionStep (libraries : Libraries Dense Sparse)
    (schema : Schema Content) (projectId : Uuid)
    (premises : Premises Content Dense Sparse) :
    DeletionLabel → Option (Premises Content Dense Sparse)
  | .upload row jobId now =>
      if row.projectId = projectId ∧
          (premises.store.projects projectId).isSome = true ∧
          (∀ other ∈ premises.rows, other.id ≠ row.id) ∧
          (premises.store.jobs jobId).isNone = true then
        some { premises with
          store := premises.store.upload row jobId now
          rows := premises.rows ++ [row] }
      else none
  | .take arguments =>
      if arguments.projectId = projectId ∧
          (∀ job ∈ premises.store.jobs arguments.jobId,
            job.projectId = projectId) then
        some { premises with
          runs := premises.runs ++ [⟨arguments, .fetchJob⟩] }
      else none
  | .advance index choice =>
      premises.runs[index]?.bind fun run =>
        if keysHold run.arguments premises.store choice run.pc then
          (advance libraries schema run.arguments premises.store choice
            run.pc).map fun (store, pc) =>
              { premises with
                store := store
                runs := premises.runs.set index { run with pc := pc } }
        else none
  | .others tables updates =>
      if (premises.store.projects projectId).isSome = true ∨
          ¬ Refers tables projectId then
        some { premises with
          store := { premises.store with
            tables := tables, updates := updates } }
      else none
  | .deleteRows =>
      -- the rows are locked while an inserted summary is not committed
      if (premises.store.projects projectId).isSome = true ∧
          ∀ run ∈ premises.runs, run.pc.pending = none then
        some { premises with
          store := premises.store.deleteProject premises.rows projectId
          rows := premises.rows.filter fun row =>
            row.projectId ≠ projectId }
      else none
  | .dropCollection down =>
      if (premises.store.projects projectId).isSome = true then none
      else if down then some premises
      else
        some { premises with
          store := { premises.store with
            collections := Function.update premises.store.collections
              projectId none } }

def deletions (libraries : Libraries Dense Sparse) (schema : Schema Content)
    (projectId : Uuid) (start : Premises Content Dense Sparse) :
    TransitionSystem (Premises Content Dense Sparse) DeletionLabel :=
  TransitionSystem.ofNext (· = start)
    (deletionStep libraries schema projectId)

/-- Nothing of the project is left in the tables. -/
structure Gone (projectId : Uuid)
    (premises : Premises Content Dense Sparse) : Prop where
  project : premises.store.projects projectId = none
  documents : ∀ row ∈ premises.rows, row.projectId ≠ projectId
  jobs : ∀ id job, premises.store.jobs id = some job →
    job.projectId ≠ projectId
  tables : ¬ Refers premises.store.tables projectId

/-- The run has read the project and may create its collection. -/
def Pc.armed : Pc Content Dense Sparse → Bool
  | .index _ _ | .collectionExists _ _ | .createCollection _ _ => true
  | _ => false

/-- The runs are of the project, and what is under the ids of their jobs is
so too. -/
def Assigned (projectId : Uuid)
    (premises : Premises Content Dense Sparse) : Prop :=
  ∀ run ∈ premises.runs, run.arguments.projectId = projectId ∧
    ∀ job, premises.store.jobs run.arguments.jobId = some job →
      job.projectId = projectId

/-- A run whose rows are gone. -/
structure Orphaned (projectId : Uuid) (store : Store Dense Sparse)
    (run : IngestionRun Content Dense Sparse) : Prop where
  project : run.arguments.projectId = projectId
  job : store.jobs run.arguments.jobId = none
  pending : run.pc.pending = none

end System

/-! ## One statement of a run whose rows are gone -/

section Statement

variable {Content Dense Sparse : Type} {libraries : Libraries Dense Sparse}
  {schema : Schema Content} {projectId : Uuid}
  {run : IngestionRun Content Dense Sparse} {choice : Choice}
  {store target : Store Dense Sparse} {next : Pc Content Dense Sparse}

theorem Orphaned.pending_advance
    (orphaned : Orphaned projectId store run)
    (noProject : store.projects projectId = none)
    (keys : keysHold run.arguments store choice run.pc = true)
    (taken : advance libraries schema run.arguments store choice run.pc =
      some (target, next)) : next.pending = none := by
  cases pending : next.pending with
  | none => rfl
  | some row =>
      obtain ⟨_, held | ⟨_, free, noFault, config, rawTextFallback, isPc⟩⟩ :=
        advance_pending taken pending
      · rw [orphaned.pending] at held
        cases held
      · rw [isPc, keysHold, orphaned.project, noProject, noFault] at keys
        simp only [Option.isSome_none, Bool.false_and, Bool.or_false,
          Option.any_none] at keys
        obtain ⟨other, isOther, conflicts⟩ := List.any_eq_true.mp keys
        exact absurd ⟨other, isOther, of_decide_eq_true conflicts⟩ free

/-- Neither the jobs nor the tables change. -/
theorem Orphaned.unchanged (orphaned : Orphaned projectId store run)
    (effect : Effect libraries run.arguments store run.pc target) :
    target.jobs = store.jobs ∧ target.tables = store.tables := by
  have noJob (change : IngestionJob → IngestionJob) :
      (store.updateJob run.arguments.jobId change).jobs = store.jobs := by
    rw [Store.updateJob]
    dsimp only
    rw [orphaned.job, Option.map_none, ← orphaned.job,
      Function.update_eq_self]
  have noSummary : store.commitSummary none = store := by
    rw [Store.commitSummary, Option.toList_none, List.append_nil]
  have pending := orphaned.pending
  generalize run.pc = pc at effect pending
  cases effect with
  | job change => exact ⟨noJob change, rfl⟩
  | @summary config row =>
      have isNone : row = none := pending
      rw [isNone, noSummary]
      exact ⟨rfl, rfl⟩
  | @record failure =>
      have isNone : failure.pending = none := pending
      rw [Store.recordFailure, isNone, noSummary]
      exact ⟨noJob _, rfl⟩
  | _ => exact ⟨rfl, rfl⟩

/-- The last commit finds no row to change. -/
theorem Orphaned.not_completed (orphaned : Orphaned projectId store run)
    (taken : advance libraries schema run.arguments store choice run.pc =
      some (target, next)) : next ≠ .completed := by
  rintro rfl
  have noJob := orphaned.job
  generalize run.pc = pc at taken
  rcases advance_cases taken with ⟨_, _, _, _, isNext⟩ | ⟨_, executes⟩ |
    handles
  · cases isNext
  · cases executes with
    | commitComplete isThere =>
        rw [noJob] at isThere
        cases isThere
  · cases handles

/-- A run reads no project that is gone. -/
theorem Orphaned.not_armed (orphaned : Orphaned projectId store run)
    (noProject : store.projects projectId = none)
    (taken : advance libraries schema run.arguments store choice run.pc =
      some (target, next)) (unarmed : run.pc.armed = false) :
    next.armed = false := by
  have noConfig := noProject
  rw [← orphaned.project] at noConfig
  generalize run.pc = pc at taken unarmed
  rcases advance_cases taken with ⟨_, _, _, _, rfl⟩ | ⟨_, executes⟩ |
    handles
  · rfl
  · cases executes with
    | fetchProject isConfig =>
        rw [noConfig] at isConfig
        cases isConfig
    | index | collectionExists | collectionMissing | createCollection =>
        cases unarmed
    | _ => rfl
  · cases handles <;> rfl

/-- A run that has not read the project creates no collection. -/
theorem Orphaned.no_collection (orphaned : Orphaned projectId store run)
    (effect : Effect libraries run.arguments store run.pc target)
    (unarmed : run.pc.armed = false)
    (absent : store.collections projectId = none) :
    target.collections projectId = none := by
  have own := orphaned.project
  generalize run.pc = pc at effect unarmed
  cases effect with
  | create => cases unarmed
  | put now kept =>
      rw [Store.putPoints, own]
      dsimp only
      rw [Function.update_self, absent, Option.map_none]
  | _ => exact absent

end Statement

/-! ## The deletion -/

section Proof

variable {Content Dense Sparse : Type} {libraries : Libraries Dense Sparse}
  {schema : Schema Content} {projectId : Uuid}
  {premises target start source : Premises Content Dense Sparse}

/-- What a statement of a run leads to. -/
theorem advance_of_step {index : Nat} {choice : Choice}
    (taken : deletionStep libraries schema projectId premises
      (.advance index choice) = some target) :
    ∃ run store pc, premises.runs[index]? = some run ∧
      keysHold run.arguments premises.store choice run.pc = true ∧
      advance libraries schema run.arguments premises.store choice run.pc =
        some (store, pc) ∧
      target = { premises with
        store := store
        runs := premises.runs.set index { run with pc := pc } } := by
  obtain ⟨run, isRun, moved⟩ := Option.bind_eq_some_iff.mp taken
  obtain ⟨keys, advanced⟩ := Option.ite_none_right_eq_some.mp moved
  obtain ⟨⟨store, pc⟩, isAdvance, rfl⟩ := Option.map_eq_some_iff.mp advanced
  exact ⟨run, store, pc, isRun, keys, isAdvance, rfl⟩

theorem Assigned.step (assigned : Assigned projectId premises)
    {label : DeletionLabel}
    (taken : deletionStep libraries schema projectId premises label =
      some target) : Assigned projectId target := by
  cases label with
  | upload row jobId now =>
      obtain ⟨⟨ofProject, _⟩, same⟩ :=
        Option.ite_none_right_eq_some.mp taken
      cases same
      intro run isRun
      obtain ⟨own, jobs⟩ := assigned run isRun
      refine ⟨own, fun job found => ?_⟩
      rcases update_some_cases found with ⟨_, rfl⟩ | ⟨_, old⟩
      · exact ofProject
      · exact jobs job old
  | take arguments =>
      obtain ⟨⟨own, jobs⟩, same⟩ := Option.ite_none_right_eq_some.mp taken
      cases same
      intro run isRun
      rcases List.mem_append.mp isRun with old | new
      · exact assigned run old
      · rw [List.mem_singleton.mp new]
        exact ⟨own, fun job found => jobs job found⟩
  | advance index choice =>
      obtain ⟨run, store, pc, isRun, _, advanced, rfl⟩ :=
        advance_of_step taken
      have kept : ∀ id, (∀ job, premises.store.jobs id = some job →
          job.projectId = projectId) →
          ∀ job, store.jobs id = some job → job.projectId = projectId := by
        intro id jobs job found
        obtain ⟨old, isOld, _, sameProject, _⟩ :=
          job_of_advance advanced found
        exact sameProject.trans (jobs old isOld)
      intro other isOther
      rcases List.mem_or_eq_of_mem_set isOther with old | rfl
      · exact ⟨(assigned other old).1, kept _ (assigned other old).2⟩
      · obtain ⟨own, jobs⟩ := assigned run (List.mem_of_getElem? isRun)
        exact ⟨own, kept _ jobs⟩
  | others tables updates =>
      obtain ⟨_, same⟩ := Option.ite_none_right_eq_some.mp taken
      cases same
      exact assigned
  | deleteRows =>
      obtain ⟨_, same⟩ := Option.ite_none_right_eq_some.mp taken
      cases same
      intro run isRun
      obtain ⟨own, jobs⟩ := assigned run isRun
      refine ⟨own, fun job found => ?_⟩
      obtain ⟨old, isOld, kept⟩ := Option.bind_eq_some_iff.mp found
      obtain ⟨_, same⟩ := Option.ite_none_left_eq_some.mp kept
      cases same
      exact jobs old isOld
  | dropCollection down =>
      obtain ⟨_, dropped⟩ := Option.ite_none_left_eq_some.mp taken
      split at dropped <;> cases dropped <;> exact assigned

/-- Nothing is left of the project, and its runs are without their rows. -/
structure Deserted (projectId : Uuid)
    (premises : Premises Content Dense Sparse) : Prop where
  gone : Gone projectId premises
  runs : ∀ run ∈ premises.runs, Orphaned projectId premises.store run

theorem deserted_deleteRows (assigned : Assigned projectId premises)
    (taken : deletionStep libraries schema projectId premises .deleteRows =
      some target) :
    Deserted projectId target := by
  obtain ⟨⟨_, nonePending⟩, same⟩ := Option.ite_none_right_eq_some.mp taken
  cases same
  have jobs : ∀ id job,
      (premises.store.deleteProject premises.rows projectId).jobs id =
        some job → job.projectId ≠ projectId ∧
          ∃ old, premises.store.jobs id = some old ∧
            old.projectId = job.projectId := by
    intro id job found
    obtain ⟨old, isOld, kept⟩ := Option.bind_eq_some_iff.mp found
    obtain ⟨other, same⟩ := Option.ite_none_left_eq_some.mp kept
    cases same
    exact ⟨other, old, isOld, rfl⟩
  refine ⟨⟨?_, ?_, fun id job found => (jobs id job found).1, ?_⟩, ?_⟩
  · exact Function.update_self projectId none premises.store.projects
  · intro row isRow
    exact of_decide_eq_true (List.mem_filter.mp isRow).2
  · rintro (⟨row, isRow, own⟩ | ⟨row, isRow, own⟩)
    · exact (of_decide_eq_true (List.mem_filter.mp isRow).2).1 own
    · exact of_decide_eq_true (List.mem_filter.mp isRow).2 own
  · intro run isRun
    obtain ⟨own, ofProject⟩ := assigned run isRun
    refine ⟨own, ?_, nonePending run isRun⟩
    refine Option.eq_none_iff_forall_ne_some.mpr fun job found => ?_
    obtain ⟨other, old, isOld, sameProject⟩ := jobs _ job found
    exact other (sameProject.symm.trans (ofProject old isOld))

theorem Deserted.step (deserted : Deserted projectId premises)
    {label : DeletionLabel}
    (taken : deletionStep libraries schema projectId premises label =
      some target) : Deserted projectId target := by
  have gone := deserted.gone
  have noProject : ¬ (premises.store.projects projectId).isSome = true := by
    rw [gone.project]
    exact Bool.false_ne_true
  cases label with
  | upload row jobId now =>
      obtain ⟨⟨_, isThere, _⟩, _⟩ := Option.ite_none_right_eq_some.mp taken
      exact absurd isThere noProject
  | take arguments =>
      obtain ⟨⟨own, jobs⟩, same⟩ := Option.ite_none_right_eq_some.mp taken
      cases same
      refine ⟨⟨gone.project, gone.documents, gone.jobs, gone.tables⟩, ?_⟩
      intro run isRun
      rcases List.mem_append.mp isRun with old | new
      · exact deserted.runs run old
      · rw [List.mem_singleton.mp new]
        refine ⟨own, ?_, rfl⟩
        refine Option.eq_none_iff_forall_ne_some.mpr fun job found => ?_
        exact gone.jobs _ job found (jobs job found)
  | advance index choice =>
      obtain ⟨run, store, pc, isRun, keys, advanced, rfl⟩ :=
        advance_of_step taken
      have orphaned := deserted.runs run (List.mem_of_getElem? isRun)
      have effect := advance_effect advanced
      obtain ⟨sameJobs, sameTables⟩ := orphaned.unchanged effect
      refine ⟨⟨?_, gone.documents, ?_, ?_⟩, ?_⟩
      · exact (congrFun effect.projects projectId).trans gone.project
      · intro id job found
        exact gone.jobs id job ((congrFun sameJobs id).symm.trans found)
      · dsimp only
        rw [sameTables]
        exact gone.tables
      · intro other isOther
        rcases List.mem_or_eq_of_mem_set isOther with old | rfl
        · have orphan := deserted.runs other old
          exact ⟨orphan.project, (congrFun sameJobs _).trans orphan.job,
            orphan.pending⟩
        · exact ⟨orphaned.project, (congrFun sameJobs _).trans orphaned.job,
            orphaned.pending_advance gone.project keys advanced⟩
  | others tables updates =>
      obtain ⟨allowed, same⟩ := Option.ite_none_right_eq_some.mp taken
      cases same
      refine ⟨⟨gone.project, gone.documents, gone.jobs,
        allowed.resolve_left noProject⟩, ?_⟩
      exact fun run isRun =>
        have orphan := deserted.runs run isRun
        ⟨orphan.project, orphan.job, orphan.pending⟩
  | deleteRows =>
      obtain ⟨⟨isThere, _⟩, _⟩ := Option.ite_none_right_eq_some.mp taken
      exact absurd isThere noProject
  | dropCollection down =>
      obtain ⟨_, dropped⟩ := Option.ite_none_left_eq_some.mp taken
      split at dropped
      · cases dropped
        exact deserted
      · cases dropped
        refine ⟨⟨gone.project, gone.documents, gone.jobs, gone.tables⟩, ?_⟩
        exact fun run isRun =>
          have orphan := deserted.runs run isRun
          ⟨orphan.project, orphan.job, orphan.pending⟩

/-- A run that is complete was so before. -/
def NoneCompletes (source target : Premises Content Dense Sparse) : Prop :=
  ∀ (index : Nat) (run : IngestionRun Content Dense Sparse),
    target.runs[index]? = some run → run.pc = .completed →
      source.runs[index]? = some run

theorem Deserted.completed_step (deserted : Deserted projectId premises)
    {label : DeletionLabel}
    (taken : deletionStep libraries schema projectId premises label =
      some target) : NoneCompletes premises target := by
  intro position other isOther completed
  cases label with
  | upload row jobId now =>
      obtain ⟨_, same⟩ := Option.ite_none_right_eq_some.mp taken
      cases same
      exact isOther
  | take arguments =>
      obtain ⟨_, same⟩ := Option.ite_none_right_eq_some.mp taken
      cases same
      have appended : (premises.runs ++
          [⟨arguments, .fetchJob⟩])[position]? = some other := isOther
      by_cases inside : position < premises.runs.length
      · rw [List.getElem?_append_left inside] at appended
        exact appended
      · rw [List.getElem?_append_right (Nat.le_of_not_lt inside)] at appended
        rw [List.mem_singleton.mp (List.mem_of_getElem? appended)]
          at completed
        cases completed
  | advance index choice =>
      obtain ⟨run, store, pc, isRun, _, advanced, rfl⟩ :=
        advance_of_step taken
      have orphaned := deserted.runs run (List.mem_of_getElem? isRun)
      by_cases same : index = position
      · subst same
        have moved : (premises.runs.set index { run with pc := pc })[index]? =
            some other := isOther
        rw [List.getElem?_set_self (List.getElem?_eq_some_iff.mp isRun).1,
          Option.some.injEq] at moved
        rw [← moved] at completed
        exact absurd completed (orphaned.not_completed advanced)
      · have moved : (premises.runs.set index
            { run with pc := pc })[position]? = some other := isOther
        rw [List.getElem?_set_ne same] at moved
        exact moved
  | others tables updates =>
      obtain ⟨_, same⟩ := Option.ite_none_right_eq_some.mp taken
      cases same
      exact isOther
  | deleteRows =>
      obtain ⟨_, same⟩ := Option.ite_none_right_eq_some.mp taken
      cases same
      exact isOther
  | dropCollection down =>
      obtain ⟨_, dropped⟩ := Option.ite_none_left_eq_some.mp taken
      split at dropped <;> cases dropped <;> exact isOther

/-- The documents that are missing stay away. -/
theorem Deserted.documents_step (deserted : Deserted projectId premises)
    {label : DeletionLabel}
    (taken : deletionStep libraries schema projectId premises label =
      some target) {documentId : Uuid}
    (missing : premises.store.documents documentId = none) :
    target.store.documents documentId = none := by
  cases label with
  | upload row jobId now =>
      obtain ⟨⟨_, isThere, _⟩, _⟩ := Option.ite_none_right_eq_some.mp taken
      rw [deserted.gone.project] at isThere
      cases isThere
  | advance index choice =>
      obtain ⟨run, store, pc, _, _, advanced, rfl⟩ := advance_of_step taken
      have same := (advance_effect advanced).documents
      exact (congrFun same documentId).trans missing
  | deleteRows =>
      obtain ⟨_, same⟩ := Option.ite_none_right_eq_some.mp taken
      cases same
      rw [Store.deleteProject]
      dsimp only
      rw [missing, ite_self]
  | dropCollection down =>
      obtain ⟨_, dropped⟩ := Option.ite_none_left_eq_some.mp taken
      split at dropped <;> cases dropped <;> exact missing
  | _ =>
      obtain ⟨_, same⟩ := Option.ite_none_right_eq_some.mp taken
      cases same
      exact missing

/-- What holds from the commit of the deletion on. -/
structure Settled (projectId : Uuid)
    (before source premises : Premises Content Dense Sparse) : Prop where
  deserted : Deserted projectId premises
  completes : NoneCompletes source premises
  documents : ∀ row ∈ before.rows, row.projectId = projectId →
    premises.store.documents row.id = none

theorem settled_deleteRows (assigned : Assigned projectId premises)
    (taken : deletionStep libraries schema projectId premises .deleteRows =
      some target) : Settled projectId premises target target := by
  refine ⟨deserted_deleteRows assigned taken, fun _ _ isRun _ => isRun,
    fun row isRow ofProject => ?_⟩
  obtain ⟨_, same⟩ := Option.ite_none_right_eq_some.mp taken
  cases same
  refine if_pos (List.any_eq_true.mpr ⟨row, isRow, ?_⟩)
  rw [decide_eq_true rfl, decide_eq_true ofProject]
  rfl

theorem Settled.step {before : Premises Content Dense Sparse}
    (settled : Settled projectId before source premises)
    {label : DeletionLabel}
    (taken : deletionStep libraries schema projectId premises label =
      some target) : Settled projectId before source target := by
  have deserted := settled.deserted
  refine ⟨deserted.step taken, fun index run isRun completed => ?_,
    fun row isRow ofProject => ?_⟩
  · have unchanged := deserted.completed_step taken index run isRun completed
    exact settled.completes index run unchanged completed
  · exact deserted.documents_step taken
      (settled.documents row isRow ofProject)

/-- No run may create the collection, which is not there. -/
def Uncollected (projectId : Uuid)
    (premises : Premises Content Dense Sparse) : Prop :=
  (∀ run ∈ premises.runs, run.pc.armed = false) ∧
    premises.store.collections projectId = none

theorem Deserted.uncollected_step (deserted : Deserted projectId premises)
    {label : DeletionLabel}
    (taken : deletionStep libraries schema projectId premises label =
      some target) (uncollected : Uncollected projectId premises) :
    Uncollected projectId target := by
  obtain ⟨unarmed, absent⟩ := uncollected
  have noProject := deserted.gone.project
  cases label with
  | upload row jobId now =>
      obtain ⟨_, same⟩ := Option.ite_none_right_eq_some.mp taken
      cases same
      exact ⟨unarmed, absent⟩
  | take arguments =>
      obtain ⟨_, same⟩ := Option.ite_none_right_eq_some.mp taken
      cases same
      refine ⟨fun run isRun => ?_, absent⟩
      rcases List.mem_append.mp isRun with old | new
      · exact unarmed run old
      · rw [List.mem_singleton.mp new]
        rfl
  | advance index choice =>
      obtain ⟨run, store, pc, isRun, _, advanced, rfl⟩ :=
        advance_of_step taken
      have isMember := List.mem_of_getElem? isRun
      have orphaned := deserted.runs run isMember
      have own := unarmed run isMember
      refine ⟨fun other isOther => ?_,
        orphaned.no_collection (advance_effect advanced) own absent⟩
      rcases List.mem_or_eq_of_mem_set isOther with old | rfl
      · exact unarmed other old
      · exact orphaned.not_armed noProject advanced own
  | others tables updates =>
      obtain ⟨_, same⟩ := Option.ite_none_right_eq_some.mp taken
      cases same
      exact ⟨unarmed, absent⟩
  | deleteRows =>
      obtain ⟨_, same⟩ := Option.ite_none_right_eq_some.mp taken
      cases same
      exact ⟨unarmed, absent⟩
  | dropCollection down =>
      obtain ⟨_, dropped⟩ := Option.ite_none_left_eq_some.mp taken
      split at dropped
      · cases dropped
        exact ⟨unarmed, absent⟩
      · cases dropped
        refine ⟨unarmed, ?_⟩
        exact Function.update_self projectId none premises.store.collections

/-- From the commit of the deletion on, in whatever order the ingestions
continue, nothing of the project is in the tables and no ingestion completes.
Once the collection is gone and no run that has read the project is about to
create it, it stays away. -/
theorem ingestions_after_deletion
    (assigned : Assigned projectId start)
    {before : Premises Content Dense Sparse}
    (reachable : Reachable (deletions libraries schema projectId start)
      before)
    (deleted : deletionStep libraries schema projectId before .deleteRows =
      some source)
    {first second : List (DeletionLabel × Premises Content Dense Sparse)}
    (isFirst : Run (deletions libraries schema projectId start).step source
      first)
    {middle : Premises Content Dense Sparse}
    (isMiddle : middle ∈ visited source first)
    (isSecond : Run (deletions libraries schema projectId start).step middle
      second) :
    ∀ state ∈ visited middle second,
      Gone projectId state ∧
      (∀ row ∈ before.rows, row.projectId = projectId →
        state.store.documents row.id = none) ∧
      NoneCompletes source state ∧
      (Uncollected projectId middle →
        state.store.collections projectId = none) := by
  have held : Assigned projectId before :=
    invariant_of_step (fun _ isStart => isStart ▸ assigned)
      (fun _ _ _ holds taken => holds.step taken) reachable
  have settledMiddle : Settled projectId before source middle :=
    isFirst.invariant (fun _ _ _ holds taken => holds.step taken)
      (settled_deleteRows held deleted) middle isMiddle
  intro state isState
  have settled : Settled projectId before source state :=
    isSecond.invariant (fun _ _ _ holds taken => holds.step taken)
      settledMiddle state isState
  refine ⟨settled.deserted.gone, settled.documents, settled.completes,
    fun uncollected => ?_⟩
  have away : ∀ premises ∈ visited middle second,
      Deserted projectId premises ∧ Uncollected projectId premises :=
    isSecond.invariant
      (fun _ _ _ holds taken =>
        ⟨holds.1.step taken, holds.1.uncollected_step taken holds.2⟩)
      ⟨settledMiddle.deserted, uncollected⟩
  exact (away state isState).2.2

/-- The project of the sample, without documents. -/
def samplePremises : Premises String Unit Unit where
  store := emptySite.store
  rows := []
  runs := []

def premisesStep : Premises String Unit Unit → DeletionLabel →
    Option (Premises String Unit Unit) :=
  deletionStep sampleLibraries Cag.textSchema 3

/-- A document is uploaded, and its job has not yet read the project. -/
def beginning : List DeletionLabel :=
  .upload sampleRow 1 0 :: .take sampleArguments ::
    List.replicate 3 (.advance 0 quiet)

def startedPremises : Premises String Unit Unit :=
  followed premisesStep beginning samplePremises rfl

def rowlessPremises : Premises String Unit Unit :=
  followed premisesStep [.deleteRows] startedPremises rfl

def emptyPremises : Premises String Unit Unit :=
  followed premisesStep [.dropCollection false] rowlessPremises rfl

def lastPremises : List (Premises String Unit Unit) :=
  visited emptyPremises (trace premisesStep
    (List.replicate 2 (.advance 0 quiet)) emptyPremises)

theorem startedPremises_deserted :
    lastPremises.length = 3 ∧ ∀ state ∈ lastPremises,
      Gone 3 state ∧ state.store.documents 2 = none ∧
        NoneCompletes rowlessPremises state ∧
        state.store.collections 3 = none := by
  have assigned : Assigned 3 samplePremises := by
    intro run isRun
    cases isRun
  have reachable : Reachable (deletions sampleLibraries Cag.textSchema 3
      samplePremises) startedPremises := by
    have followed : follow premisesStep beginning samplePremises =
        some startedPremises := rfl
    exact reachable_of_follow (Reachable.initial rfl) followed
  have uncollected : Uncollected 3 emptyPremises := by
    refine ⟨fun run isRun => ?_, rfl⟩
    have only : run = ⟨sampleArguments, .fetchProject sampleDocument⟩ :=
      List.mem_singleton.mp isRun
    rw [only]
    rfl
  refine ⟨rfl, fun state isState => ?_⟩
  obtain ⟨gone, documents, none, away⟩ :=
    ingestions_after_deletion assigned reachable rfl
      (run_trace premisesStep [.dropCollection false] rowlessPremises)
      (List.mem_cons_of_mem _ (List.mem_singleton.mpr rfl))
      (run_trace premisesStep _ emptyPremises) state isState
  have document : state.store.documents 2 = Option.none :=
    documents sampleRow List.mem_cons_self rfl
  exact ⟨gone, document, none, away uncollected⟩

-- a run that has read the project recreates the collection
example : ((followed premisesStep (.advance 0 quiet :: .deleteRows ::
    .dropCollection false :: List.replicate 4 (.advance 0 quiet))
    startedPremises rfl).store.collections 3).isSome = true := rfl

end Proof

end ProjectMemory.Workers
