import ProjectMemory.Api.Endpoints
import ProjectMemory.Foundation.Isolation

/-!
# Project isolation

Two states look alike to a caller when they give the caller the same access
scope and agree on the rows and collections of its projects.  Every endpoint
that checks the scope transports success between such states.  The job
endpoint does not check it: there the law holds exactly for the jobs of
accessible projects.
-/

namespace ProjectMemory.Api

open Foundation Ingestion ProjectMemory.Core Retrieval

section Law

variable {Content Dense Sparse Score : Type}

/-- The access scope of a caller; it is empty without valid credentials. -/
def callerProjects (services : Services Content Dense Sparse Score)
    (authorization : Option String) (state : State Dense Sparse) :
    List Uuid :=
  match accessibleProjects services authorization state with
  | .ok accessibleIds => accessibleIds
  | .error _ => []

/-- The caller is the same user with the same access scope, and the states
agree on all rows and points of its projects. -/
structure Agree (services : Services Content Dense Sparse Score)
    (authorization : Option String) (left right : State Dense Sparse) :
    Prop where
  caller : currentUser services authorization left =
    currentUser services authorization right
  scope : ∀ projectId,
    projectId ∈ callerProjects services authorization left ↔
      projectId ∈ callerProjects services authorization right
  projects :
    (left.accounts.projects.rows.filter fun row =>
        row.id ∈ callerProjects services authorization left) =
      right.accounts.projects.rows.filter fun row =>
        row.id ∈ callerProjects services authorization left
  documents :
    (left.documents.rows.filter fun row =>
        row.projectId ∈ callerProjects services authorization left) =
      right.documents.rows.filter fun row =>
        row.projectId ∈ callerProjects services authorization left
  jobs :
    (left.jobs.rows.filter fun row =>
        row.projectId ∈ callerProjects services authorization left) =
      right.jobs.rows.filter fun row =>
        row.projectId ∈ callerProjects services authorization left
  beliefs :
    (left.tables.beliefs.filter fun row =>
        row.projectId ∈ callerProjects services authorization left) =
      right.tables.beliefs.filter fun row =>
        row.projectId ∈ callerProjects services authorization left
  collections :
    ∀ projectId ∈ callerProjects services authorization left,
      left.collections projectId = right.collections projectId

/-- The request asks for a job of a project outside the access scope of the
caller. -/
def AsksForForeignJob (services : Services Content Dense Sparse Score)
    (authorization : Option String) (state : State Dense Sparse) :
    Request → Prop
  | .getJob jobId => ∃ job, state.jobs.get jobId = some job ∧
      job.projectId ∉ callerProjects services authorization state
  | _ => False

end Law

/-! ## Services under an access scope -/

section Scoped

variable {Content Dense Sparse Score : Type}
  {services : Services Content Dense Sparse Score}
  {authorization : Option String} {accessibleIds : List Uuid}

/-- Agreement, with what `get_accessible_projects` has returned. -/
def Scoped (services : Services Content Dense Sparse Score)
    (authorization : Option String) (accessibleIds : List Uuid)
    (left right : State Dense Sparse) : Prop :=
  Agree services authorization left right ∧
    accessibleProjects services authorization left = .ok accessibleIds

theorem Scoped.callerProjects {left right : State Dense Sparse}
    (inScope : Scoped services authorization accessibleIds left right) :
    callerProjects services authorization left = accessibleIds := by
  rw [Api.callerProjects, inScope.2]

theorem accessibleProjects_of_user {state : State Dense Sparse}
    {user : User}
    (caller : currentUser services authorization state = .ok user) :
    accessibleProjects services authorization state =
      .ok (getAccessibleProjectIds user state.accounts) := by
  rw [accessibleProjects, caller]
  rfl

theorem Agree.accessibleProjects {left right : State Dense Sparse}
    (agree : Agree services authorization left right) :
    accessibleProjects services authorization left =
      accessibleProjects services authorization right := by
  cases caller : currentUser services authorization left with
  | error raised =>
      rw [Api.accessibleProjects, Api.accessibleProjects, ← agree.caller,
        caller]
      rfl
  | ok user =>
      have leftScope := accessibleProjects_of_user caller
      have rightScope :=
        accessibleProjects_of_user (agree.caller.symm.trans caller)
      have scope := agree.scope
      have projects := agree.projects
      have isLeft : Api.callerProjects services authorization left =
          getAccessibleProjectIds user left.accounts := by
        rw [Api.callerProjects, leftScope]
      have isRight : Api.callerProjects services authorization right =
          getAccessibleProjectIds user right.accounts := by
        rw [Api.callerProjects, rightScope]
      rw [isLeft, isRight] at scope
      rw [isLeft] at projects
      rw [leftScope, rightScope, accessible_congr scope projects]

theorem transports_accessibleProjects :
    Transports
      (fun left right : State Dense Sparse =>
        Agree services authorization left right)
      (accessibleProjects services authorization) :=
  transports_of_eq fun _ _ agree => agree.accessibleProjects

theorem filter_project_eq {Row : Type} {projectOf : Row → Uuid}
    {left right : List Row} {projectId : Uuid}
    (isAccessible : projectId ∈ accessibleIds)
    (same : (left.filter fun row => projectOf row ∈ accessibleIds) =
      right.filter fun row => projectOf row ∈ accessibleIds) :
    (left.filter fun row => projectOf row = projectId) =
      right.filter fun row => projectOf row = projectId := by
  have narrow : ∀ rows : List Row,
      (rows.filter fun row => projectOf row = projectId) =
        (rows.filter fun row => projectOf row ∈ accessibleIds).filter
          fun row => projectOf row = projectId := by
    intro rows
    rw [List.filter_filter]
    apply List.filter_congr
    intro row _
    by_cases ofProject : projectOf row = projectId
    · simp [ofProject, isAccessible]
    · simp [ofProject]
  rw [narrow left, narrow right, same]

theorem Scoped.project {left right : State Dense Sparse}
    (inScope : Scoped services authorization accessibleIds left right)
    {projectId : Uuid} {project : Project}
    (isAccessible : projectId ∈ accessibleIds)
    (found : left.accounts.projects.get projectId = some project) :
    right.accounts.projects.get projectId = some project := by
  have isId := (Table.get_eq_some.mp found).2
  apply Table.get_of_filter_eq inScope.1.projects found
  rw [inScope.callerProjects, isId]
  exact decide_eq_true isAccessible

theorem Scoped.beliefs {left right : State Dense Sparse}
    (inScope : Scoped services authorization accessibleIds left right)
    {projectId : Uuid} (isAccessible : projectId ∈ accessibleIds) :
    Cag.beliefsOf left.tables.beliefs projectId =
      Cag.beliefsOf right.tables.beliefs projectId := by
  have same := inScope.1.beliefs
  rw [inScope.callerProjects] at same
  exact filter_project_eq isAccessible same

theorem Scoped.getLatest {left right : State Dense Sparse}
    (inScope : Scoped services authorization accessibleIds left right)
    {projectId : Uuid} (isAccessible : projectId ∈ accessibleIds) :
    Cag.getLatest services.schema left.tables projectId =
      Cag.getLatest services.schema right.tables projectId := by
  simp only [Cag.getLatest, Cag.latestRow, inScope.beliefs isAccessible]

theorem Scoped.collection {left right : State Dense Sparse}
    (inScope : Scoped services authorization accessibleIds left right)
    {projectId : Uuid} (isAccessible : projectId ∈ accessibleIds) :
    left.collections projectId = right.collections projectId := by
  apply inScope.1.collections
  rw [inScope.callerProjects]
  exact isAccessible

/-- What follows a check of the scope may rely on the project being in it. -/
theorem transports_checkAccess {Value : Type} {projectId : Uuid}
    {detail : String}
    {related : State Dense Sparse → State Dense Sparse → Prop}
    {rest : State Dense Sparse → Except HttpError Value}
    (transports : projectId ∈ accessibleIds → Transports related rest) :
    Transports related fun state =>
      checkAccess projectId accessibleIds detail >>= fun _ =>
        rest state := by
  unfold checkAccess
  by_cases isAccessible : projectId ∈ accessibleIds
  · rw [if_neg (not_not.mpr isAccessible)]
    exact transports isAccessible
  · rw [if_pos isAccessible]
    exact transports_const _

theorem transports_getById (projectId : Uuid) :
    Transports (Scoped services authorization accessibleIds)
      fun state : State Dense Sparse =>
        getById state projectId accessibleIds := by
  intro left right inScope project returned
  change getById left projectId accessibleIds = .ok project at returned
  change getById right projectId accessibleIds = .ok project
  cases found : left.accounts.projects.get projectId with
  | none =>
      rw [getById, found] at returned
      cases returned
  | some row =>
      by_cases isAccessible : projectId ∈ accessibleIds
      · rw [getById, found] at returned
        rw [getById, inScope.project isAccessible found]
        exact returned
      · rw [getById, found] at returned
        simp only [checkAccess, if_pos isAccessible] at returned
        cases returned

theorem transports_listForUser :
    Transports (Scoped services authorization accessibleIds)
      fun state : State Dense Sparse =>
        (pure (listForUser services state accessibleIds) :
          Except HttpError (List Project)) := by
  apply transports_of_eq
  intro left right inScope
  have same := inScope.1.projects
  rw [inScope.callerProjects] at same
  rw [listForUser, listForUser, same]

theorem transports_listDocuments (projectId : Uuid) :
    Transports (Scoped services authorization accessibleIds)
      fun state : State Dense Sparse =>
        listDocuments services state projectId accessibleIds := by
  apply transports_checkAccess
  intro isAccessible
  apply transports_of_eq
  intro left right inScope
  have same := inScope.1.documents
  rw [inScope.callerProjects] at same
  rw [filter_project_eq isAccessible same]

theorem transports_getCag (projectId : Uuid) :
    Transports (Scoped services authorization accessibleIds)
      fun state : State Dense Sparse =>
        getCag services state projectId accessibleIds := by
  apply transports_checkAccess
  intro isAccessible
  apply transports_of_eq
  intro left right inScope
  rw [inScope.getLatest isAccessible]

theorem transports_listCagVersions (projectId : Uuid) :
    Transports (Scoped services authorization accessibleIds)
      fun state : State Dense Sparse =>
        listCagVersions services state projectId accessibleIds := by
  apply transports_checkAccess
  intro isAccessible
  apply transports_of_eq
  intro left right inScope
  rw [listVersions, listVersions, inScope.beliefs isAccessible]

/-- Outside the scope of the caller a question is not answered. -/
theorem query_outside {state : State Dense Sparse} {projectId : Uuid}
    (outside : projectId ∉ accessibleIds) (question : String) (topK : Nat)
    (response : QueryResponse Score) :
    query services state question projectId accessibleIds topK ≠
      .ok response := by
  intro returned
  unfold query at returned
  cases valid : validateQuestion question with
  | error raised =>
      rw [valid] at returned
      cases returned
  | ok _ =>
      rw [valid] at returned
      cases found : state.accounts.projects.get projectId with
      | none =>
          rw [found] at returned
          cases returned
      | some project =>
          rw [found, retrieve, if_pos outside] at returned
          cases returned

theorem transports_query (question : String) (projectId : Uuid)
    (topK : Nat) :
    Transports (Scoped services authorization accessibleIds)
      fun state : State Dense Sparse =>
        query services state question projectId accessibleIds topK := by
  intro left right inScope response returned
  by_cases isAccessible : projectId ∈ accessibleIds
  · change query services left question projectId accessibleIds topK =
      .ok response at returned
    change query services right question projectId accessibleIds topK =
      .ok response
    have sameChunks := retrieve_congr services.search
      (fun _ : projectId ∈ accessibleIds =>
        inScope.collection isAccessible) question topK
    cases found : left.accounts.projects.get projectId with
    | none =>
        rw [query, found] at returned
        cases valid : validateQuestion question <;>
          rw [valid] at returned <;> cases returned
    | some project =>
        rw [query, found, readableBeliefState,
          inScope.getLatest isAccessible, sameChunks] at returned
        rw [query, inScope.project isAccessible found,
          readableBeliefState]
        exact returned
  · exact absurd returned (query_outside isAccessible question topK response)

theorem transports_queryCrossProject [LinearOrder Score]
    (question : String) (topK : Nat) :
    Transports (Scoped services authorization accessibleIds)
      fun state : State Dense Sparse =>
        queryCrossProject services state question accessibleIds topK := by
  apply transports_of_eq
  intro left right inScope
  have sameChunks := retrieveMulti_congr services.search
    (fun _ => inScope.collection) accessibleIds question topK
  simp only [queryCrossProject, sameChunks]

theorem transports_scope {Value : Type}
    {service : List Uuid → State Dense Sparse → Except HttpError Value}
    (transports : ∀ accessibleIds,
      Transports (Scoped services authorization accessibleIds)
        (service accessibleIds)) (wrap : Value → Response Content Score) :
    Transports (Agree services authorization) fun state => do
      let accessibleIds ← accessibleProjects services authorization state
      return wrap (← service accessibleIds state) := by
  apply Transports.bind transports_accessibleProjects
  intro accessibleIds
  apply Transports.bind (transports accessibleIds)
  intro value
  exact transports_const _

theorem transports_user {Value : Type}
    {rest : User → State Dense Sparse → Except HttpError Value}
    (transports : ∀ user,
      Transports (Agree services authorization) (rest user)) :
    Transports (Agree services authorization) fun state =>
      currentUser services authorization state >>= fun user =>
        rest user state := by
  apply Transports.bind
    (transports_of_eq fun _ _ agree => agree.caller)
  intro user left right inScope
  exact transports user left right inScope.1

theorem transports_check {Value : Type} (check : Except HttpError Unit)
    {rest : State Dense Sparse → Except HttpError Value}
    (transports : Transports (Agree services authorization) rest) :
    Transports (Agree services authorization) fun state =>
      check >>= fun _ => rest state := by
  apply Transports.bind (transports_const check)
  intro _ left right inScope
  exact transports left right inScope.1

/-- Without a job outside the scope of the caller, the state looks the
same. -/
theorem agree_eraseJob {state : State Dense Sparse} {job : IngestionJob}
    (isJob : job ∈ state.jobs.rows)
    (foreign :
      job.projectId ∉ callerProjects services authorization state) :
    Agree services authorization state
      { state with jobs := state.jobs.erase job.id } where
  caller := rfl
  scope := fun _ => Iff.rfl
  projects := rfl
  documents := rfl
  jobs := by
    symm
    apply state.jobs.filter_erase
    intro row member same
    rw [state.jobs.eq_of_key_eq member isJob same]
    exact decide_eq_false foreign
  beliefs := rfl
  collections := fun _ _ => rfl

end Scoped

/-! ## Requests -/

section Requests

variable {Content Dense Sparse Score : Type} [LinearOrder Score]
  {services : Services Content Dense Sparse Score}
  {authorization : Option String}

/-- Every endpoint but the one for jobs transports success. -/
theorem transports_respond (request : Request)
    (notJob : ∀ jobId, request ≠ .getJob jobId) :
    Transports (Agree services authorization)
      (respond services authorization request :
        State Dense Sparse → Except HttpError (Response Content Score)) := by
  cases request with
  | listProjects =>
      exact transports_scope (fun _ => transports_listForUser) .projects
  | getProject projectId =>
      exact transports_scope (fun _ => transports_getById projectId) .project
  | listDocuments projectId =>
      exact transports_scope (fun _ => transports_listDocuments projectId)
        .documents
  | getJob jobId => exact absurd rfl (notJob jobId)
  | getCag projectId =>
      exact transports_scope (fun _ => transports_getCag projectId)
        .beliefState
  | listCagVersions projectId =>
      exact transports_scope (fun _ => transports_listCagVersions projectId)
        .versions
  | queryProject projectId body =>
      apply transports_user
      intro user
      apply transports_check
      exact transports_scope
        (fun _ => transports_query body.question projectId body.topK) .query
  | queryCrossProject body =>
      apply transports_user
      intro user
      apply transports_check
      apply transports_check
      exact transports_scope
        (fun _ => transports_queryCrossProject body.question body.topK)
        .query

theorem respond_getJob {state : State Dense Sparse} {jobId : Uuid}
    {response : Response Content Score} :
    respond services authorization (.getJob jobId) state = .ok response ↔
      ∃ job, state.jobs.get jobId = some job ∧ response = .job job := by
  cases found : state.jobs.get jobId with
  | none =>
      simp [respond, getJob, found, bind, Except.bind]
  | some job =>
      simp [respond, getJob, found, bind, Except.bind, pure, Except.pure,
        eq_comm]

/-- For every caller, state and request: what the request returns it returns
in every state that agrees on the projects of the caller, exactly when it does
not ask for a job of another project. -/
theorem isolated_iff (services : Services Content Dense Sparse Score)
    (authorization : Option String) (request : Request)
    (state : State Dense Sparse) :
    (∀ other, Agree services authorization state other →
      ∀ response, respond services authorization request state =
          .ok response →
        respond services authorization request other = .ok response) ↔
      ¬ AsksForForeignJob services authorization state request := by
  constructor
  · intro isolated asks
    cases request with
    | getJob jobId =>
        obtain ⟨job, found, foreign⟩ := asks
        obtain ⟨isJob, isId⟩ := Table.get_eq_some.mp found
        have returned := isolated _ (agree_eraseJob isJob foreign) _
          (respond_getJob.mpr ⟨job, found, rfl⟩)
        obtain ⟨other, stillFound, _⟩ := respond_getJob.mp returned
        rw [isId, Table.get_erase] at stillFound
        cases stillFound
    | _ => exact asks
  · intro asksNot other agree response returned
    by_cases isJob : ∃ jobId, request = .getJob jobId
    · obtain ⟨jobId, rfl⟩ := isJob
      obtain ⟨job, found, isResponse⟩ := respond_getJob.mp returned
      have accessible :
          job.projectId ∈ callerProjects services authorization state := by
        by_contra foreign
        exact asksNot ⟨job, found, foreign⟩
      have stillFound := Table.get_of_filter_eq agree.jobs found
        (decide_eq_true accessible)
      exact respond_getJob.mpr ⟨job, stillFound, isResponse⟩
    · exact transports_respond request
        (fun jobId same => isJob ⟨jobId, same⟩) state other agree response
        returned

end Requests

/-! ## A job that anyone can read -/

section Sample

def sampleServices : Services String Unit Unit Nat where
  schema := Cag.textSchema
  validationError := fun _ _ => "validation error"
  search := {
    embedQuery := fun _ => .ok ()
    sparseEmbedQuery := fun _ => .ok ()
    queryPoints := fun _ _ _ _ => .ok [] }
  decodeSubject := fun _ => none
  isAllowed := fun _ => true
  generate := fun _ _ => .ok ""
  queryModel := "model"
  projectOrder := OrderBy.stable _
  documentOrder := OrderBy.stable _
  versionOrder := OrderBy.stable _

def failedJob : IngestionJob where
  id := 7
  projectId := 1
  documentId := some 2
  status := .failed
  errorMessage := some "Unsupported file type: csv"
  createdAt := 0
  completedAt := none

def stateWithJob : State Unit Unit where
  accounts := {
    users := Table.empty
    members := []
    projects := Table.single {
      id := 1, name := "Apollo", description := none, teamId := 3,
      config := [], createdAt := 0 } }
  documents := Table.empty
  jobs := Table.single failedJob
  tables := { summaries := [], beliefs := [] }
  collections := fun _ => none

/-- Without credentials, a caller reads the job of a project, which a state
that differs only in that project does not have. -/
theorem unauthenticated_reads_job :
    ∃ other, Agree sampleServices none stateWithJob other ∧
      respond sampleServices none (.getJob 7) stateWithJob =
        .ok (.job failedJob) ∧
      respond sampleServices none (.getJob 7) other ≠
        .ok (.job failedJob) := by
  have isJob : failedJob ∈ stateWithJob.jobs.rows := List.mem_cons_self
  have foreign : failedJob.projectId ∉
      callerProjects sampleServices none stateWithJob := by
    intro accessible
    cases accessible
  refine ⟨_, agree_eraseJob isJob foreign, rfl, ?_⟩
  intro returned
  obtain ⟨job, found, _⟩ := respond_getJob.mp returned
  cases found

end Sample

end ProjectMemory.Api
