import ProjectMemory.Workers.Interleaving

/-!
# Where the points of a project come from

Documents are uploaded and ingested while one reindex after the other runs.
Whatever fails, crashes or is retried, and in whatever order the statements
are executed, every point in the collection of the project is the point of a
chunk of one of its documents.
-/

namespace ProjectMemory.Workers

open Foundation Ingestion

section System

variable {Content Dense Sparse : Type}

inductive ProjectLabel where
  | site (label : SiteLabel)
  /-- A worker takes up another `reindex_project` job. -/
  | reindexAgain

/-- The job id `reindex-{project_id}` keeps two reindexes of one project from
running at the same time. -/
def projectStep (libraries : Libraries Dense Sparse) (schema : Schema Content)
    (projectId : Uuid) (site : Site Content Dense Sparse) :
    ProjectLabel → Option (Site Content Dense Sparse)
  | .site label => siteStep libraries schema projectId site label
  | .reindexAgain =>
      if site.reindex.running = true then none
      else some { site with reindex := .fetchProject }

def projectSites (libraries : Libraries Dense Sparse)
    (schema : Schema Content) (projectId : Uuid)
    (start : Site Content Dense Sparse) :
    TransitionSystem (Site Content Dense Sparse) ProjectLabel :=
  TransitionSystem.ofNext (· = start)
    (projectStep libraries schema projectId)

/-- A reindex that has raised before its first statement. -/
def ReindexPc.halted : ReindexPc Dense Sparse :=
  .raised .fetchProject (.plain "") ""

/-- A site without its reindex. -/
def Site.halted (site : Site Content Dense Sparse) :
    Site Content Dense Sparse :=
  site.reindexed site.store .halted

/-- What the runs and the reindex of a project rely on, whether or not the
reindex covers them. -/
structure Sourced (libraries : Libraries Dense Sparse) (projectId : Uuid)
    (first : List StoredDocument) (site : Site Content Dense Sparse) :
    Prop where
  sound : Sound libraries projectId first site.halted
  fetched : ∀ config, site.reindex = .fetchDocuments config →
    site.store.projects projectId = some config
  work : ∀ config done rest,
    site.reindex.work = some (config, done, rest) →
    site.store.projects projectId = some config ∧
      ∀ row ∈ rest, row ∈ site.rows
  writing : ∀ config row indexed,
    site.reindex.writing = some (config, row, indexed) →
    indexDocument libraries row.document config = some (.ok indexed)
  owned : ∀ row ∈ site.rows, row.projectId = projectId
  attributed : Attributed libraries projectId site.rows site.store

end System

section Steps

variable {Content Dense Sparse : Type} {libraries : Libraries Dense Sparse}
  {schema : Schema Content} {projectId : Uuid}
  {first : List StoredDocument} {site target start : Site Content Dense Sparse}
  {store : Store Dense Sparse} {next : ReindexPc Dense Sparse}
  {now : Timestamp}

/-- A step that is not one of the reindex is one of the site without it. -/
theorem halted_step {label : SiteLabel}
    (other : ∀ choice, label ≠ .reindex choice)
    (taken : siteStep libraries schema projectId site label = some target) :
    target.reindex = site.reindex ∧
      siteStep libraries schema projectId site.halted label =
        some target.halted := by
  cases label with
  | upload row jobId now =>
      obtain ⟨enabled, same⟩ := Option.ite_none_right_eq_some.mp taken
      cases same
      exact ⟨rfl, if_pos enabled⟩
  | start jobId =>
      simp only [siteStep] at taken
      split at taken
      · cases taken
      · rename_i job isJob
        split at taken
        · cases taken
        · rename_i documentId ofDocument
          obtain ⟨ofProject, same⟩ := Option.ite_none_right_eq_some.mp taken
          cases same
          refine ⟨rfl, ?_⟩
          have isThere : site.halted.store.jobs jobId = some job := isJob
          simp only [siteStep, isThere, ofDocument]
          exact if_pos ofProject
  | advance index choice =>
      obtain ⟨run, isRun, moved⟩ := Option.bind_eq_some_iff.mp taken
      obtain ⟨reached, advanced, same⟩ := Option.map_eq_some_iff.mp moved
      cases same
      exact ⟨rfl, Option.bind_eq_some_iff.mpr ⟨run, isRun,
        Option.map_eq_some_iff.mpr ⟨reached, advanced, rfl⟩⟩⟩
  | reindex choice => exact absurd rfl (other choice)
  | others tables updates =>
      cases taken
      exact ⟨rfl, rfl⟩

/-- What a step outside the reindex keeps: the project, the documents that
were there, that all of them belong to it, and the attribution of the
points. -/
theorem Sourced.frame (sourced : Sourced libraries projectId first site)
    {label : SiteLabel} (other : ∀ choice, label ≠ .reindex choice)
    (taken : siteStep libraries schema projectId site label = some target) :
    target.store.projects = site.store.projects ∧
      (∀ row ∈ site.rows, row ∈ target.rows) ∧
      (∀ row ∈ target.rows, row.projectId = projectId) ∧
      Attributed libraries projectId target.rows target.store := by
  cases label with
  | upload row jobId now =>
      obtain ⟨⟨ofProject, newRow, _⟩, same⟩ :=
        Option.ite_none_right_eq_some.mp taken
      cases same
      refine ⟨rfl, fun _ isRow => List.mem_append_left _ isRow, ?_, ?_⟩
      · intro added isRow
        rcases List.mem_append.mp isRow with old | new
        · exact sourced.owned added old
        · rw [List.mem_singleton.mp new]
          exact ofProject
      refine sourced.attributed.of_same rfl fun old isRow =>
        ⟨List.mem_append_left _ isRow, ?_, rfl⟩
      exact Function.update_of_ne (newRow old isRow) _ _
  | start jobId =>
      simp only [siteStep] at taken
      split at taken
      · cases taken
      · split at taken
        · cases taken
        · obtain ⟨_, same⟩ := Option.ite_none_right_eq_some.mp taken
          cases same
          exact ⟨rfl, fun _ isRow => isRow, sourced.owned, sourced.attributed⟩
  | advance index choice =>
      obtain ⟨run, isRun, moved⟩ := Option.bind_eq_some_iff.mp taken
      obtain ⟨reached, advanced, same⟩ := Option.map_eq_some_iff.mp moved
      cases same
      have effect := advance_effect advanced
      have engaged : Engaged libraries projectId site.store run :=
        sourced.sound.engaged run (List.mem_of_getElem? isRun)
      obtain ⟨row, isRow, ofRow, _⟩ :=
        engaged.exists_row sourced.sound.registered
      exact ⟨effect.projects, fun _ isOld => isOld, sourced.owned,
        sourced.attributed.advanced isRow ofRow engaged effect⟩
  | reindex choice => exact absurd rfl (other choice)
  | others tables updates =>
      cases taken
      exact ⟨rfl, fun _ isRow => isRow, sourced.owned, sourced.attributed⟩

/-- The documents of a project as they are written by its reindex. -/
theorem Sourced.indexedFrom (sourced : Sourced libraries projectId first site)
    {config : ProjectConfig} {done rest : List StoredDocument}
    {row : StoredDocument} {indexed : Indexed Dense Sparse}
    (isPc : site.reindex = .upsert config done row rest indexed) :
    row ∈ site.rows ∧ IndexedFrom libraries (argumentsOf projectId row.id)
      site.store indexed := by
  obtain ⟨isConfig, contained⟩ := sourced.work config done (row :: rest) (by
    rw [isPc]
    rfl)
  have isRow := contained row List.mem_cons_self
  have isDocument : site.store.documents row.id = some row.document :=
    sourced.sound.registered.documents row isRow
  have indexedAs := sourced.writing config row indexed (by
    rw [isPc]
    rfl)
  exact ⟨isRow, row.document, config, isDocument, isConfig, indexedAs⟩

/-- Writing the points of a document, or some of them. -/
theorem Sourced.attributed_put
    (sourced : Sourced libraries projectId first site)
    {config : ProjectConfig} {done rest : List StoredDocument}
    {row : StoredDocument} {indexed : Indexed Dense Sparse}
    (isPc : site.reindex = .upsert config done row rest indexed)
    (kept : String → Bool) :
    Attributed libraries projectId site.rows
      (site.store.putPoints projectId
        ((pointsOf libraries projectId row.id indexed now).filter
          fun point => kept point.1)) := by
  obtain ⟨isRow, indexedFrom⟩ := sourced.indexedFrom isPc
  cases found : site.store.collections projectId with
  | none =>
      refine sourced.attributed.of_same (putPoints_of_none _ found) ?_
      exact fun other isOther => ⟨isOther, rfl, rfl⟩
  | some collection =>
      have isThere : (site.store.collections projectId).isSome = true := by
        rw [found]
        rfl
      exact sourced.attributed.upsert isRow indexedFrom rfl rfl
        (putPoints_points _ isThere)

theorem attributed_of_empty {rows : List StoredDocument}
    (empty : store.points projectId = fun _ => none) :
    Attributed libraries projectId rows store := by
  intro id point found
  rw [empty] at found
  cases found

/-- The points after a statement of the reindex that has succeeded. -/
theorem Sourced.attributed_reindexed
    (sourced : Sourced libraries projectId first site)
    (reindexes : Reindexes libraries projectId site.rows site.store now
      site.reindex store next) :
    Attributed libraries projectId site.rows store := by
  have same := reindexes.sameTables
  have unwritten (samePoints :
      store.points projectId = site.store.points projectId) :
      Attributed libraries projectId site.rows store :=
    sourced.attributed.of_same samePoints fun row isRow =>
      ⟨isRow, same.agree _⟩
  generalize isPc : site.reindex = pc at reindexes
  cases reindexes with
  | deleteCollection =>
      exact attributed_of_empty (points_putCollection projectId none)
  | ensureCreate absent | upsertCreate absent =>
      refine unwritten ?_
      rw [points_putCollection]
      simp [Store.points, absent]
  | upsert present _ =>
      have written :=
        @Sourced.attributed_put _ _ _ libraries projectId first site now
          sourced _ _ _ _ _ isPc fun _ => true
      rw [List.filter_true] at written
      exact written
  | _ => exact unwritten rfl

/-- The points after a statement of the reindex that has raised. -/
theorem Sourced.attributed_raised
    (sourced : Sourced libraries projectId first site) (fault : Fault) :
    Attributed libraries projectId site.rows
      (reindexAfterFault libraries projectId site.store fault now
        site.reindex) := by
  cases isPc : site.reindex with
  | deleteCollection config rest =>
      rw [reindexAfterFault]
      by_cases landed : fault.landed = true
      · rw [if_pos landed]
        exact attributed_of_empty (points_putCollection projectId none)
      · rw [if_neg landed]
        exact sourced.attributed
  | upsert config done row rest indexed =>
      exact sourced.attributed_put isPc fault.stored
  | _ => exact sourced.attributed

theorem Sourced.halted_reindexed
    (sourced : Sourced libraries projectId first site)
    (same : SameTables site.store store) :
    Sound libraries projectId first (site.reindexed store next).halted := by
  have tables : SameTables site.halted.store store := same
  exact sourced.sound.raised tables

theorem Sourced.raised (sourced : Sourced libraries projectId first site)
    (fault : Fault) (message : String) :
    Sourced libraries projectId first
      (site.reindexed (reindexAfterFault libraries projectId site.store fault
        now site.reindex) (.raised site.reindex fault message)) where
  sound := sourced.halted_reindexed (sameTables_afterFault fault)
  fetched := by
    intro config isFetch
    cases isFetch
  work := by
    intro config done rest work
    cases work
  writing := by
    intro config row indexed writing
    cases writing
  owned := sourced.owned
  attributed := sourced.attributed_raised fault

theorem Sourced.work_reindexed
    (sourced : Sourced libraries projectId first site)
    (reindexes : Reindexes libraries projectId site.rows site.store now
      site.reindex store next)
    {config : ProjectConfig} {done rest : List StoredDocument}
    (work : next.work = some (config, done, rest)) :
    site.store.projects projectId = some config ∧
      ∀ row ∈ rest, row ∈ site.rows := by
  rcases reindexes.work with
    same | ⟨current, documents, isPc, isSnapshot, isWork⟩ |
      ⟨current, before, row, later, indexed, isPc, _, _, isWork⟩
  · rw [same] at work
    exact sourced.work config done rest work
  · rw [isWork] at work
    cases work
    refine ⟨sourced.fetched config isPc, fun row isRest => ?_⟩
    exact (List.mem_filter.mp (isSnapshot.mem_iff.mp isRest)).1
  · rw [isWork] at work
    cases work
    obtain ⟨isConfig, contained⟩ :=
      sourced.work config before (row :: rest) (by
        rw [isPc]
        rfl)
    exact ⟨isConfig, fun other isRest =>
      contained other (List.mem_cons_of_mem _ isRest)⟩

theorem Sourced.reindexed (sourced : Sourced libraries projectId first site)
    (reindexes : Reindexes libraries projectId site.rows site.store now
      site.reindex store next) :
    Sourced libraries projectId first (site.reindexed store next) := by
  have same := reindexes.sameTables
  have projects : (site.reindexed store next).store.projects =
      site.store.projects := same.2.2
  refine ⟨sourced.halted_reindexed same, ?_, ?_, ?_,
    sourced.owned, sourced.attributed_reindexed reindexes⟩
  · rw [projects]
    intro config isFetch
    have isNext : next = .fetchDocuments config := isFetch
    subst isNext
    generalize site.reindex = pc at reindexes
    cases reindexes with
    | fetchProject found => exact found
  · rw [projects]
    intro config done rest work
    exact sourced.work_reindexed reindexes work
  · intro config row indexed writing
    have isWriting : next.writing = some (config, row, indexed) := writing
    generalize isPc : site.reindex = pc at reindexes
    cases reindexes with
    | index indexedAs =>
        cases isWriting
        exact indexedAs
    | upsertExists | upsertMissing | upsertCreate =>
        refine sourced.writing config row indexed ?_
        rw [isPc]
        exact isWriting
    | _ => cases isWriting

theorem Sourced.moved (sourced : Sourced libraries projectId first site)
    {label : SiteLabel} (other : ∀ choice, label ≠ .reindex choice)
    (taken : siteStep libraries schema projectId site label = some target) :
    Sourced libraries projectId first target := by
  obtain ⟨sameReindex, moved⟩ := halted_step other taken
  obtain ⟨projects, contained, owned, attributed⟩ := sourced.frame other taken
  have covers : coversRuns site.halted label = true := by
    cases label <;> rfl
  refine ⟨sourced.sound.step moved covers, ?_, ?_, ?_, owned,
    attributed⟩
  · rw [sameReindex, projects]
    exact sourced.fetched
  · rw [sameReindex, projects]
    intro config done rest work
    obtain ⟨isConfig, inRows⟩ := sourced.work config done rest work
    exact ⟨isConfig, fun row isRest => contained row (inRows row isRest)⟩
  · rw [sameReindex]
    exact sourced.writing

theorem Sourced.step (sourced : Sourced libraries projectId first site)
    {label : ProjectLabel}
    (taken :
      projectStep libraries schema projectId site label = some target) :
    Sourced libraries projectId first target := by
  cases label with
  | reindexAgain =>
      obtain ⟨_, same⟩ := Option.ite_none_left_eq_some.mp taken
      cases same
      refine ⟨sourced.sound, ?_, ?_, ?_, sourced.owned,
        sourced.attributed⟩
      · intro config isFetch
        cases isFetch
      · intro config done rest work
        cases work
      · intro config row indexed writing
        cases writing
  | site label =>
      by_cases isReindex : ∃ choice, label = .reindex choice
      · obtain ⟨choice, rfl⟩ := isReindex
        obtain ⟨⟨store, next⟩, advanced, same⟩ :=
          Option.map_eq_some_iff.mp taken
        cases same
        rcases reindexAdvance_cases advanced with
          ⟨fault, _, rfl, rfl⟩ | ⟨_, reindexes⟩
        · exact sourced.raised fault _
        · exact sourced.reindexed reindexes
      · exact sourced.moved (fun choice same => isReindex ⟨choice, same⟩)
          taken

theorem sourced_of_begins (begins : Begins projectId start)
    (owned : ∀ row ∈ start.rows, row.projectId = projectId)
    (attributed : Attributed libraries projectId start.rows start.store) :
    Sourced libraries projectId start.rows start where
  sound := by
    refine sound_of_begins begins |>.raised ⟨rfl, rfl, rfl⟩
  fetched := by
    rw [begins.reindex]
    intro config isFetch
    cases isFetch
  work := by
    rw [begins.reindex]
    intro config done rest work
    cases work
  writing := by
    rw [begins.reindex]
    intro config row indexed writing
    cases writing
  owned := owned
  attributed := attributed

/-- In every reachable state every point of the project is one of a chunk of
one of its documents. -/
theorem sourced_of_reachable (begins : Begins projectId start)
    (owned : ∀ row ∈ start.rows, row.projectId = projectId)
    (attributed : Attributed libraries projectId start.rows start.store)
    (reachable : Reachable (projectSites libraries schema projectId start)
      site) :
    Sourced libraries projectId start.rows site := by
  refine invariant_of_step ?_ ?_ reachable
  · rintro initial rfl
    exact sourced_of_begins begins owned attributed
  · intro source label target sourced taken
    exact sourced.step taken

end Steps

end ProjectMemory.Workers
