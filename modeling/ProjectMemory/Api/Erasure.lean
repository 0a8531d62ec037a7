import ProjectMemory.Api.Checks

/-!
# Deleting a project

Nothing of a deleted project is left in the tables, and whoever had no access
to it notices nothing.  A collection that Qdrant failed to delete stays behind,
and no request reads it.
-/

namespace ProjectMemory.Api

open Foundation Ingestion ProjectMemory.Core Retrieval

/-- Jobs and summaries are of the projects of their documents. -/
structure Rows.Coherent (rows : Rows) : Prop where
  jobs : ∀ job ∈ rows.jobs, ∀ document ∈ rows.documents,
    job.documentId = some document.id → job.projectId = document.projectId
  summaries : ∀ summary ∈ rows.tables.summaries,
    ∀ document ∈ rows.documents,
      summary.documentId = document.id →
      summary.projectId = document.projectId

/-- No row mentions the project. -/
structure Rows.Erased (projectId : Uuid) (rows : Rows) : Prop where
  projects : projectId ∉ rows.projectIds
  documents : ∀ row ∈ rows.documents, row.projectId ≠ projectId
  jobs : ∀ row ∈ rows.jobs, row.projectId ≠ projectId
  summaries : ∀ row ∈ rows.tables.summaries, row.projectId ≠ projectId
  beliefs : ∀ row ∈ rows.tables.beliefs, row.projectId ≠ projectId

/-! ## Coherence -/

section Coherence

variable {Content Dense Sparse Score : Type} {rows changed : Rows}

theorem Rows.Coherent.deleteProject (coherent : rows.Coherent)
    (projectId : Uuid) : (rows.deleteProject projectId).Coherent where
  jobs := by
    intro dropped isJob document isDocument ofDocument
    obtain ⟨job, isKept, rfl⟩ := List.mem_map.mp isJob
    have hasDocument := (Option.filter_eq_some_iff.mp ofDocument).1
    exact coherent.jobs job (List.mem_filter.mp isKept).1 document
      (List.mem_filter.mp isDocument).1 hasDocument
  summaries := by
    intro summary isSummary document isDocument
    exact coherent.summaries summary (List.mem_filter.mp isSummary).1
      document (List.mem_filter.mp isDocument).1

theorem Rows.Coherent.insertUpload (coherent : rows.Coherent)
    (valid : rows.Constraints) {document : StoredFile} {job : IngestionJob}
    (validAfter : (rows.insertUpload document job).Constraints)
    (sameProject : job.projectId = document.projectId)
    (ofDocument : job.documentId = some document.id) :
    (rows.insertUpload document job).Coherent := by
  have fresh : document.id ∉ rows.documentIds := by
    have distinct := validAfter.unique.documents
    rw [Rows.documentIds, Rows.insertUpload, List.map_append,
      List.map_singleton, List.nodup_append'] at distinct
    exact fun taken => distinct.2.2 taken (List.mem_singleton.mpr rfl)
  constructor
  · intro other isJob row isRow isDocument
    rcases List.mem_append.mp isJob with oldJob | newJob
    · rcases List.mem_append.mp isRow with oldRow | newRow
      · exact coherent.jobs other oldJob row oldRow isDocument
      · rw [List.mem_singleton.mp newRow] at isDocument
        exact absurd (valid.references.jobDocument
          (List.mem_filterMap.mpr ⟨other, oldJob, isDocument⟩)) fresh
    · rw [List.mem_singleton.mp newJob] at isDocument ⊢
      rcases List.mem_append.mp isRow with oldRow | newRow
      · rw [ofDocument, Option.some.injEq] at isDocument
        exact absurd (isDocument ▸ List.mem_map_of_mem oldRow) fresh
      · rw [List.mem_singleton.mp newRow]
        exact sameProject
  · intro summary isSummary row isRow isDocument
    rcases List.mem_append.mp isRow with oldRow | newRow
    · exact coherent.summaries summary isSummary row oldRow isDocument
    · rw [List.mem_singleton.mp newRow] at isDocument
      have known := valid.references.summaryDocument
        (List.mem_map_of_mem isSummary)
      rw [isDocument] at known
      exact absurd known fresh

theorem RowChange.coherent {powers : Powers}
    (change : RowChange powers rows changed)
    (valid : rows.Constraints) (validAfter : changed.Constraints)
    (coherent : rows.Coherent) : changed.Coherent := by
  cases change with
  | insertUpload document job isPending sameProject ofDocument reached _ =>
      exact coherent.insertUpload valid validAfter sameProject ofDocument
  | deleteProject admin projectId => exact coherent.deleteProject projectId
  | _ => exact ⟨coherent.jobs, coherent.summaries⟩

theorem coherent_admits (powers : Powers) :
    Admits powers
      fun before after : Platform Dense Sparse =>
        before.rows.Coherent → after.rows.Coherent where
  refl _ coherent := coherent
  trans _ _ _ left right coherent := right (left coherent)
  executes now after executed := by
    intro coherent
    cases executed with
    | write database change =>
        exact change.coherent now.database.constraints database.constraints
          coherent
    | _ => exact coherent

/-- Whatever requests have been served, the rows are coherent. -/
theorem coherent_of_reachable [LinearOrder Score]
    {server : Server Content Dense Sparse Score} {admitted : Event → Prop}
    {start : Platform Dense Sparse} (coherent : start.rows.Coherent)
    {pool : Pool Event (Platform Dense Sparse) HttpError
      (Answer Content Score)}
    (reachable : Reachable
      (served (Event.script server) admitted start) pool) :
    pool.state.rows.Coherent :=
  have admits := @coherent_admits Dense Sparse (Powers.any fun _ => True)
  (promisesKept_of_reachable admits.refl admits.trans
    (fun _ _ _ _ _ promised => promised)
    (fun event state _ _ => admits.any event.draws_any state)
    reachable).state coherent

end Coherence

/-! ## What is left -/

section Left

variable {Content Dense Sparse Score : Type}
  {services : Services Content Dense Sparse Score}
  {authorization : Option String} {platform : Platform Dense Sparse}
  {projectId : Uuid}

theorem erased_deleteProject (rows : Rows) (projectId : Uuid) :
    (rows.deleteProject projectId).Erased projectId where
  projects := by
    intro isProject
    obtain ⟨row, isRow, same⟩ := List.mem_map.mp isProject
    exact of_decide_eq_true (List.mem_filter.mp isRow).2 same
  documents := fun row isRow =>
    of_decide_eq_true (List.mem_filter.mp isRow).2
  jobs := by
    intro dropped isJob
    obtain ⟨job, isKept, rfl⟩ := List.mem_map.mp isJob
    exact of_decide_eq_true (List.mem_filter.mp isKept).2
  summaries := fun row isRow =>
    (of_decide_eq_true (List.mem_filter.mp isRow).2).1
  beliefs := fun row isRow =>
    of_decide_eq_true (List.mem_filter.mp isRow).2

/-- The platform without the rows of the project. -/
def Platform.dropProject (platform : Platform Dense Sparse)
    (projectId : Uuid)
    (collections : Uuid → Option (Collection Dense Sparse)) :
    Platform Dense Sparse :=
  { platform with
    database := ⟨platform.rows.deleteProject projectId,
      platform.database.constraints.deleteProject projectId⟩
    collections := collections }

theorem filter_filter_of_implies {Row : Type} {keep part : Row → Bool}
    {rows : List Row}
    (implies : ∀ row ∈ rows, part row = true → keep row = true) :
    (rows.filter keep).filter part = rows.filter part := by
  rw [List.filter_filter]
  refine List.filter_congr fun row isRow => ?_
  rw [Bool.eq_iff_iff, Bool.and_eq_true]
  exact ⟨fun both => both.1, fun inPart => ⟨inPart, implies row isRow inPart⟩⟩

variable {collections : Uuid → Option (Collection Dense Sparse)}

/-- The access scope loses the deleted project and nothing else. -/
theorem mem_scope_dropProject (user : User) (other : Uuid) :
    other ∈ getAccessibleProjectIds user
        (platform.dropProject projectId collections).accounts ↔
      other ∈ getAccessibleProjectIds user platform.accounts ∧
        other ≠ projectId := by
  have teams : teamIds (platform.dropProject projectId collections).accounts
      user = teamIds platform.accounts user := rfl
  have projects :
      (platform.dropProject projectId collections).accounts.projects.rows =
        platform.rows.projects.filter fun row => row.id ≠ projectId := rfl
  have before : platform.accounts.projects.rows = platform.rows.projects :=
    rfl
  unfold getAccessibleProjectIds
  rw [teams, projects, before]
  cases Role.ofString user.role with
  | none => simp
  | some role =>
      cases role with
      | member =>
          dsimp only
          split
          · simp
          · simp only [List.mem_map, List.mem_filter]
            constructor
            · rintro ⟨project, ⟨⟨isRow, differs⟩, ofTeam⟩, rfl⟩
              exact ⟨⟨project, ⟨isRow, ofTeam⟩, rfl⟩,
                of_decide_eq_true differs⟩
            · rintro ⟨⟨project, ⟨isRow, ofTeam⟩, rfl⟩, differs⟩
              exact ⟨project, ⟨⟨isRow, decide_eq_true differs⟩, ofTeam⟩,
                rfl⟩
      | admin | superAdmin =>
          simp only [List.mem_map, List.mem_filter]
          constructor
          · rintro ⟨project, ⟨isRow, differs⟩, rfl⟩
            exact ⟨⟨project, isRow, rfl⟩, of_decide_eq_true differs⟩
          · rintro ⟨⟨project, isRow, rfl⟩, differs⟩
            exact ⟨project, ⟨isRow, decide_eq_true differs⟩, rfl⟩

theorem mem_callerProjects_dropProject (other : Uuid) :
    other ∈ callerProjects services authorization
        (platform.dropProject projectId collections).state ↔
      other ∈ callerProjects services authorization platform.state ∧
        other ≠ projectId := by
  have sameCaller : currentUser services authorization
      (platform.dropProject projectId collections).state =
        currentUser services authorization platform.state := rfl
  unfold callerProjects
  cases caller : currentUser services authorization platform.state with
  | error failure =>
      rw [accessibleProjects, accessibleProjects, sameCaller, caller]
      simp [bind, Except.bind]
  | ok user =>
      rw [accessibleProjects_of_user caller,
        accessibleProjects_of_user (sameCaller.trans caller)]
      exact mem_scope_dropProject user other

theorem dropDocument_eq (coherent : platform.rows.Coherent)
    {job : IngestionJob} (isJob : job ∈ platform.rows.jobs)
    (differs : job.projectId ≠ projectId) :
    Rows.dropDocument (platform.rows.isDocumentOf projectId) job = job := by
  have kept : (job.documentId.filter fun id =>
      !platform.rows.isDocumentOf projectId id) = job.documentId := by
    cases ofDocument : job.documentId with
    | none => rfl
    | some documentId =>
        rw [Option.filter_some, if_pos]
        rw [Bool.not_eq_true', ← Bool.not_eq_true]
        intro isDocument
        obtain ⟨row, isRow, same⟩ := List.any_eq_true.mp isDocument
        rw [Bool.and_eq_true, decide_eq_true_eq, decide_eq_true_eq] at same
        apply differs
        rw [← same.2]
        exact coherent.jobs job isJob row isRow
          (by rw [ofDocument, same.1])
  rw [Rows.dropDocument, kept]

/-- The jobs of other projects stay as they are. -/
theorem jobs_dropProject (coherent : platform.rows.Coherent)
    (scope : List Uuid) (differs : ∀ other ∈ scope, other ≠ projectId) :
    ((platform.rows.deleteProject projectId).jobs.filter fun row =>
        row.projectId ∈ scope) =
      platform.rows.jobs.filter fun row => row.projectId ∈ scope := by
  have same : (platform.rows.deleteProject projectId).jobs =
      platform.rows.jobs.filter fun row => row.projectId ≠ projectId := by
    have unchanged : ∀ job ∈ platform.rows.jobs.filter fun row =>
        row.projectId ≠ projectId,
        Rows.dropDocument (platform.rows.isDocumentOf projectId) job =
          id job := by
      intro job isKept
      obtain ⟨isJob, other⟩ := List.mem_filter.mp isKept
      exact dropDocument_eq coherent isJob (of_decide_eq_true other)
    rw [Rows.deleteProject]
    dsimp only
    rw [List.map_congr_left unchanged, List.map_id]
  rw [same]
  refine filter_filter_of_implies fun row _ accessible => ?_
  exact decide_eq_true (differs _ (of_decide_eq_true accessible))

/-- Whoever had no access to the project is in a state that looks the
same. -/
theorem agree_dropProject (coherent : platform.rows.Coherent)
    (outside : projectId ∉
      callerProjects services authorization platform.state)
    (kept : ∀ other, other ≠ projectId →
      platform.collections other = collections other) :
    Agree services authorization platform.state
      (platform.dropProject projectId collections).state := by
  have differs : ∀ other,
      other ∈ callerProjects services authorization platform.state →
      other ≠ projectId := by
    rintro other accessible rfl
    exact outside accessible
  constructor
  case caller => rfl
  case scope =>
    intro other
    rw [mem_callerProjects_dropProject]
    exact ⟨fun accessible => ⟨accessible, differs other accessible⟩,
      fun both => both.1⟩
  case projects =>
    symm
    refine filter_filter_of_implies fun row _ accessible => ?_
    exact decide_eq_true (differs _ (of_decide_eq_true accessible))
  case documents =>
    have rows :
        (platform.dropProject projectId collections).state.documents.rows =
          (platform.rows.documents.filter fun row =>
            row.projectId ≠ projectId).map StoredFile.toDocumentRow := rfl
    have before : platform.state.documents.rows =
        platform.rows.documents.map StoredFile.toDocumentRow := rfl
    rw [rows, before, List.filter_map, List.filter_map]
    congr 1
    symm
    refine filter_filter_of_implies fun row _ accessible => ?_
    exact decide_eq_true (differs _ (of_decide_eq_true accessible))
  case jobs =>
    symm
    exact jobs_dropProject coherent _ differs
  case beliefs =>
    symm
    refine filter_filter_of_implies fun row _ accessible => ?_
    exact decide_eq_true (differs _ (of_decide_eq_true accessible))
  case collections =>
    intro other accessible
    exact kept other (differs other accessible)

end Left

/-! ## Orphaned collections -/

section Orphans

variable {Content Dense Sparse Score : Type} [LinearOrder Score]
  {services : Services Content Dense Sparse Score}
  {authorization : Option String} {state : State Dense Sparse}
  {left right : Uuid → Option (Collection Dense Sparse)}

omit [LinearOrder Score] in
theorem accessible_of_ok {accessibleIds : List Uuid}
    (returned : accessibleProjects services authorization state =
      .ok accessibleIds) :
    accessibleIds ⊆ state.accounts.projects.rows.map Project.id := by
  cases caller : currentUser services authorization state with
  | error failure =>
      rw [accessibleProjects, caller] at returned
      cases returned
  | ok user =>
      rw [accessibleProjects_of_user caller, Except.ok.injEq] at returned
      obtain ⟨part, isPart⟩ := accessible_eq_map_filter user state.accounts
      rw [← returned, isPart]
      exact List.map_subset _ (List.filter_subset_self _)

/-- A collection without a project is never read. -/
theorem respond_orphan
    (same : ∀ projectId ∈ state.accounts.projects.rows.map Project.id,
      left projectId = right projectId) (request : Request) :
    respond services authorization request
        { state with collections := left } =
      respond services authorization request
        { state with collections := right } := by
  have scope : ∀ collections,
      accessibleProjects services authorization
        { state with collections := collections } =
      accessibleProjects services authorization state := fun _ => rfl
  have caller : ∀ collections,
      currentUser services authorization
        { state with collections := collections } =
      currentUser services authorization state := fun _ => rfl
  cases request with
  | queryProject projectId body =>
      have answered : ∀ accessibleIds,
          query services { state with collections := left } body.question
            projectId accessibleIds body.topK =
          query services { state with collections := right } body.question
            projectId accessibleIds body.topK := by
        intro accessibleIds
        unfold query
        cases found : state.accounts.projects.get projectId with
        | none => rfl
        | some project =>
            obtain ⟨isRow, isId⟩ := Table.get_eq_some.mp found
            have sameHere : left projectId = right projectId := by
              apply same
              rw [← isId]
              exact List.mem_map_of_mem isRow
            have sameChunks := retrieve_congr services.search
              (fun _ : projectId ∈ accessibleIds => sameHere) body.question
              body.topK
            simp only [sameChunks]
            rfl
      simp only [respond, scope, caller, answered]
  | queryCrossProject body =>
      have answered : ∀ accessibleIds,
          accessibleProjects services authorization state =
            .ok accessibleIds →
          queryCrossProject services { state with collections := left }
            body.question accessibleIds body.topK =
          queryCrossProject services { state with collections := right }
            body.question accessibleIds body.topK := by
        intro accessibleIds returned
        have sameChunks := retrieveMulti_congr services.search
          (fun projectId accessible =>
            same projectId (accessible_of_ok returned accessible))
          accessibleIds body.question body.topK
        simp only [queryCrossProject, sameChunks]
      cases returned :
          accessibleProjects services authorization state with
      | error failure => simp only [respond, scope, caller, returned]; rfl
      | ok accessibleIds =>
          simp only [respond, scope, caller, returned, bind, Except.bind,
            answered accessibleIds returned]
  | _ => rfl

end Orphans

/-! ## The request -/

section Deletion

variable {Content Dense Sparse Score : Type} [LinearOrder Score]
  {server : Server Content Dense Sparse Score}
  {authorization : Option String} {chance : Chance}
  {platform after : Platform Dense Sparse} {projectId : Uuid}

theorem run_findProject_ok {accessibleIds : List Uuid} {project : Project}
    (returned : (findProject projectId accessibleIds).run platform =
      (.ok project, after)) :
    after = platform ∧ projectRow platform.rows projectId = some project := by
  obtain ⟨found, between, isFound, rest⟩ := Script.run_bind_eq_ok returned
  rw [select, Script.run_read] at isFound
  obtain ⟨isRow, rfl⟩ := Prod.mk.inj isFound
  cases found with
  | none => cases rest
  | some row =>
      obtain ⟨_, last, checked, returned⟩ := Script.run_bind_eq_ok rest
      rw [Script.run_finish] at checked
      rw [Script.run_pure] at returned
      obtain ⟨isProject, rfl⟩ := Prod.mk.inj returned
      refine ⟨(Prod.mk.inj checked).2.symm, ?_⟩
      rw [← Except.ok.inj isProject]
      exact Except.ok.inj isRow

/-- What a deletion leaves behind. -/
theorem run_deleteProject_ok {answer : Answer Content Score}
    (returned : (perform server authorization chance
      (.deleteProject projectId)).run platform = (.ok answer, after)) :
    projectId ∈ platform.rows.projectIds ∧
      after = platform.dropProject projectId
        (if chance.qdrantDown then platform.collections
          else Function.update platform.collections projectId none) := by
  obtain ⟨caller, first, isAdmin, rest⟩ := Script.run_bind_eq_ok returned
  obtain rfl := run_findAdmin_ok isAdmin
  obtain ⟨accessibleIds, second, isScope, rest⟩ :=
    Script.run_bind_eq_ok rest
  rw [run_findScope] at isScope
  obtain rfl := (Prod.mk.inj isScope).2
  obtain ⟨_, third, deleted, rest⟩ := Script.run_bind_eq_ok rest
  rw [Script.run_pure] at rest
  obtain rfl := (Prod.mk.inj rest).2
  obtain ⟨project, fourth, isProject, deletes⟩ :=
    Script.run_bind_eq_ok deleted
  obtain ⟨rfl, found⟩ := run_findProject_ok isProject
  refine ⟨mem_projectIds found, ?_⟩
  rw [Script.run_bind, run_commit
    (fourth.database.constraints.deleteProject projectId)] at deletes
  dsimp only at deletes
  rw [dropCollection, Script.run_transaction] at deletes
  by_cases down : chance.qdrantDown = true
  · simp only [if_pos down] at deletes ⊢
    exact (Prod.mk.inj deletes).2.symm
  · simp only [if_neg down] at deletes ⊢
    exact (Prod.mk.inj deletes).2.symm

/-- Whoever has no access to a project gets the answers after its deletion
that were given before. -/
theorem deleteProject_unnoticed {start : Platform Dense Sparse}
    (coherent : start.rows.Coherent) {admitted : Event → Prop}
    {pool : Pool Event (Platform Dense Sparse) HttpError
      (Answer Content Score)}
    (reachable : Reachable
      (served (Event.script server) admitted start) pool)
    {answer : Answer Content Score}
    (returned : (perform server authorization chance
      (.deleteProject projectId)).run pool.state = (.ok answer, after))
    {services : Services Content Dense Sparse Score}
    {header : Option String} {request : Request}
    {response : Response Content Score}
    (outside : projectId ∉ callerProjects services header pool.state.state)
    (otherJob : ∀ jobId job, request = .getJob jobId →
      pool.state.state.jobs.get jobId = some job →
      job.projectId ≠ projectId)
    (answered : respond services header request pool.state.state =
      .ok response) :
    respond services header request after.state = .ok response := by
  obtain ⟨_, rfl⟩ := run_deleteProject_ok returned
  have coherentNow := coherent_of_reachable coherent reachable
  by_cases isJob : ∃ jobId, request = .getJob jobId
  · obtain ⟨jobId, rfl⟩ := isJob
    obtain ⟨job, found, rfl⟩ := respond_getJob.mp answered
    have differs := otherJob jobId job rfl found
    have sameJobs := jobs_dropProject coherentNow [job.projectId]
      fun other isOther => List.mem_singleton.mp isOther ▸ differs
    refine respond_getJob.mpr ⟨job, ?_, rfl⟩
    exact Table.get_of_filter_eq sameJobs.symm found
      (decide_eq_true (List.mem_singleton.mpr rfl))
  · refine transports_respond request
      (fun jobId same => isJob ⟨jobId, same⟩) pool.state.state _ ?_ response
      answered
    refine agree_dropProject coherentNow outside fun other differs => ?_
    split
    · rfl
    · rw [Function.update_of_ne differs]

end Deletion

/-! ## Deletions among other requests -/

section Finality

variable {Content Dense Sparse Score : Type} {rows changed : Rows}
  {projectId : Uuid}

theorem RowChange.erased {powers : Powers}
    (change : RowChange powers rows changed) (valid : changed.Constraints)
    (differs : ∀ id, powers.drawn id → id ≠ projectId)
    (erased : rows.Erased projectId) : changed.Erased projectId := by
  cases change with
  | insertUpload document job isPending sameProject _ _ _ =>
      have other : document.projectId ≠ projectId := by
        rintro rfl
        exact erased.projects (valid.references.documentProject
          (List.mem_map_of_mem List.mem_concat_self))
      refine { erased with documents := ?_, jobs := ?_ }
      · intro row isRow
        rcases List.mem_append.mp isRow with isOld | isNew
        · exact erased.documents row isOld
        · rw [List.mem_singleton.mp isNew]
          exact other
      · intro row isRow
        rcases List.mem_append.mp isRow with isOld | isNew
        · exact erased.jobs row isOld
        · rw [List.mem_singleton.mp isNew, sameProject]
          exact other
  | insertProject admin row isDrawn =>
      refine { erased with projects := ?_ }
      intro isProject
      rw [Rows.projectIds, Rows.insertProject, List.map_append,
        List.mem_append] at isProject
      rcases isProject with isOld | isNew
      · exact erased.projects isOld
      · exact differs row.id isDrawn (List.mem_singleton.mp isNew).symm
  | updateProject admin other change sameId sameTeam isUpdate =>
      refine { erased with projects := ?_ }
      rw [Rows.projectIds_updateProject sameId]
      exact erased.projects
  | deleteProject admin other =>
      constructor
      case projects =>
        intro isProject
        obtain ⟨row, isRow, same⟩ := List.mem_map.mp isProject
        refine erased.projects (List.mem_map.mpr ⟨row, ?_, same⟩)
        exact (List.mem_filter.mp isRow).1
      case documents =>
        exact fun row isRow =>
          erased.documents row (List.mem_filter.mp isRow).1
      case jobs =>
        intro dropped isJob
        obtain ⟨job, isKept, rfl⟩ := List.mem_map.mp isJob
        exact erased.jobs job (List.mem_filter.mp isKept).1
      case summaries =>
        exact fun row isRow =>
          erased.summaries row (List.mem_filter.mp isRow).1
      case beliefs =>
        exact fun row isRow =>
          erased.beliefs row (List.mem_filter.mp isRow).1
  | _ => exact { erased with }

/-- What is gone stays gone. -/
def StaysErased (projectId : Uuid) (before after : Platform Dense Sparse) :
    Prop :=
  before.rows.Erased projectId → after.rows.Erased projectId

theorem staysErased_admits {powers : Powers}
    (differs : ∀ id, powers.drawn id → id ≠ projectId) :
    Admits powers (@StaysErased Dense Sparse projectId) where
  refl _ erased := erased
  trans _ _ _ left right erased := right (left erased)
  executes now after executed := by
    intro erased
    cases executed with
    | write database change =>
        exact change.erased database.constraints differs erased
    | _ => exact erased

variable [LinearOrder Score] {server : Server Content Dense Sparse Score}

/-- What a deletion of the project is promised. -/
def erasurePromise (projectId : Uuid) (event : Event)
    (platform : Platform Dense Sparse)
    (result : Except HttpError (Answer Content Score)) : Prop :=
  ∀ header chance answer,
    event = .request header (.deleteProject projectId) chance →
    result = .ok answer → platform.rows.Erased projectId

theorem deleteProject_meets (accessibleIds : List Uuid) (chance : Chance)
    (state : Platform Dense Sparse) :
    (deleteProject projectId accessibleIds chance).Meets
      (StaysErased projectId)
      (fun now result => result = .ok () → now.rows.Erased projectId)
      state := by
  have admits := @staysErased_admits Dense Sparse projectId
    (Powers.any (· ≠ projectId)) fun _ differs => differs
  refine Script.Meets.bind _ admits.refl admits.trans
    (admits.findProject projectId accessibleIds state) ?_ ?_
  · intro now project _ _
    refine Script.Meets.bind
      (fun later result => result = .ok () → later.rows.Erased projectId)
      admits.refl admits.trans ?_ ?_ ?_
    · refine Script.meets_transaction ?_ ?_
      · rintro later after ⟨⟩ _ committed
        obtain ⟨database, isChange, rfl⟩ := commit_cases
          (fun rows => rows.deleteProject projectId) committed
        have rows : Platform.rows { later with database := database } =
            later.rows.deleteProject projectId := isChange
        have erased : Rows.Erased projectId
            (Platform.rows { later with database := database }) := by
          rw [rows]
          exact erased_deleteProject later.rows projectId
        exact ⟨fun _ => erased, fun _ => erased⟩
      · rintro later failure _ _
        exact ⟨admits.refl later, by rintro ⟨⟩⟩
    · intro later _ _ erased
      refine Script.meets_transaction ?_ ?_
      · intro last after _ moved returned
        have isErased := moved (erased rfl)
        split at returned
        · cases returned
          exact ⟨admits.refl last, fun _ => isErased⟩
        · cases returned
          exact ⟨fun _ => isErased, fun _ => isErased⟩
      · intro last failure _ returned
        split at returned <;> cases returned
    · rintro later failure _ _ ⟨⟩
  · rintro now failure _ _ ⟨⟩

theorem erasure_meets {event : Event}
    (draws : event.draws (· ≠ projectId)) (state : Platform Dense Sparse) :
    (event.script server).Meets (StaysErased projectId)
      (erasurePromise projectId event) state := by
  have admits := @staysErased_admits Dense Sparse projectId
    (Powers.any (· ≠ projectId)) fun _ differs => differs
  by_cases deletes : ∃ header chance,
      event = .request header (.deleteProject projectId) chance
  · obtain ⟨header, chance, rfl⟩ := deletes
    refine Script.Meets.bind _ admits.refl admits.trans
      (admits.findAdmin _ state) ?_ ?_
    · intro now caller _ _
      refine Script.Meets.bind _ admits.refl admits.trans
        (admits.findScope _ now) ?_ ?_
      · intro later accessibleIds _ _
        refine Script.Meets.bind _ admits.refl admits.trans
          (deleteProject_meets accessibleIds chance later) ?_ ?_
        · intro last _ _ erased _ _ _ _ _
          exact erased rfl
        · rintro last failure _ _ _ _ _ _ ⟨⟩
      · rintro later failure _ _ _ _ _ _ ⟨⟩
    · rintro now failure _ _ _ _ _ _ ⟨⟩
  · refine (admits.any draws state).mono admits.refl admits.trans ?_
    intro now result _ _ header chance answer isDeletion _
    exact absurd ⟨header, chance, isDeletion⟩ deletes

/-- From the moment a deletion has returned, however requests interleave, no
row mentions the project, and whatever its collection holds no request
reads. -/
theorem deletion_final {start : Platform Dense Sparse}
    {pool : Pool Event (Platform Dense Sparse) HttpError
      (Answer Content Score)}
    (reachable : Reachable
      (served (Event.script server) (Event.draws (· ≠ projectId)) start)
      pool)
    {header : Option String} {chance : Chance}
    {answer : Answer Content Score}
    (returned : ⟨.request header (.deleteProject projectId) chance,
      .finish (.ok answer)⟩ ∈ pool.calls) :
    pool.state.rows.Erased projectId ∧
      ∀ (services : Services Content Dense Sparse Score) authorization
          request collection,
        respond services authorization request pool.state.state =
          respond services authorization request
            { pool.state.state with
              collections := Function.update pool.state.collections
                projectId collection } := by
  have admits := @staysErased_admits Dense Sparse projectId
    (Powers.any (· ≠ projectId)) fun _ differs => differs
  have kept := promisesKept_of_reachable admits.refl admits.trans
    (fun event now later result moved promised header chance answer
        isDeletion isOk =>
      moved (promised header chance answer isDeletion isOk))
    (fun event state draws _ => erasure_meets draws state) reachable
  have erased : pool.state.rows.Erased projectId :=
    kept.calls _ returned header chance answer rfl rfl
  refine ⟨erased, fun services authorization request collection => ?_⟩
  have same : ∀ other ∈ pool.state.rows.projectIds,
      pool.state.collections other =
        Function.update pool.state.collections projectId collection other :=
      by
    intro other isOther
    have differs : other ≠ projectId := by
      rintro rfl
      exact erased.projects isOther
    exact (Function.update_of_ne differs _ _).symm
  exact @respond_orphan Content Dense Sparse Score _ services authorization
    pool.state.state _ _ same request

end Finality

section Sample

def deletedPool : Pool Event (Platform Unit Unit) HttpError
    (Answer String Nat) :=
  finalState crewPool
    (trace (poolStep (Event.script sampleServer))
      (.arrive (.request adminHeader (.deleteProject 2) sampleChance) ::
        List.replicate 6 (.advance 0)) crewPool)

set_option maxRecDepth 20000 in
theorem sampleDeletion_final : deletedPool.state.rows.Erased 2 := by
  have reachable : Reachable
      (served (Event.script sampleServer) (Event.draws (· ≠ 2)) crewPlatform)
      deletedPool := by
    refine (served_trace ?_ crewPool).reachable (Reachable.initial rfl) _
      (finalState_mem_visited _ _)
    intro event arrives
    rw [List.mem_cons, PoolLabel.arrive.injEq] at arrives
    rcases arrives with rfl | later
    · have isFresh : sampleChance.id ≠ 2 := by decide
      exact isFresh
    · cases List.eq_of_mem_replicate later
  have returned :
      ⟨.request adminHeader (.deleteProject 2) sampleChance,
        .finish (.ok .done)⟩ ∈ deletedPool.calls := by
    exact List.mem_singleton.mpr rfl
  exact (deletion_final reachable returned).1

def afterDeletion : Platform Unit Unit :=
  ((perform sampleServer adminHeader sampleChance (.deleteProject 2)).run
    crewPlatform).2

def memberServices : Services String Unit Unit Nat :=
  { sampleServices with decodeSubject := sampleSecurity.decodeSubject 0 }

set_option maxRecDepth 20000 in
/-- The member still gets its project. -/
theorem sampleDeletion_unnoticed :
    respond memberServices sampleHeader (.getProject 1)
        (Platform.state afterDeletion) =
      .ok (.project {
        id := 1, name := "Apollo", description := none, teamId := 3,
        config := [], createdAt := 0 }) := by
  have reachable : Reachable
      (served (Event.script sampleServer) (fun _ => True) crewPlatform)
      crewPool := Reachable.initial rfl
  have coherent : crewPlatform.rows.Coherent :=
    ⟨fun _ isJob => (List.not_mem_nil isJob).elim,
      fun _ isSummary => (List.not_mem_nil isSummary).elim⟩
  have returned :
      (perform sampleServer adminHeader sampleChance (.deleteProject 2)).run
          crewPool.state = (.ok .done, afterDeletion) :=
    Prod.ext rfl rfl
  refine deleteProject_unnoticed coherent reachable returned
    (by decide +kernel) ?_ rfl
  rintro jobId job ⟨⟩

end Sample

end ProjectMemory.Api
