import ProjectMemory.Cag.Service
import ProjectMemory.Retrieval.Prompting

/-!
# The read endpoints

The routes that read projects, documents, jobs and belief states or answer
questions about them.  Each route depends on what FastAPI injects (the user of
the token, a required role, the rate limit, the access scope) and then calls
its service; the order of the checks is that of the source.
-/

namespace ProjectMemory.Api

open Foundation Ingestion ProjectMemory.Core Retrieval

section Endpoints

variable {Content Dense Sparse Score : Type}

/-- The database and the vector store. -/
structure State (Dense Sparse : Type) where
  accounts : Accounts
  documents : Table DocumentRow.id
  jobs : Table IngestionJob.id
  tables : Cag.Tables
  collections : Uuid → Option (Collection Dense Sparse)

/-- What the endpoints use besides the two stores. -/
structure Services (Content Dense Sparse Score : Type) where
  schema : Schema Content
  /-- The `ValidationError` for the stored state of a version. -/
  validationError : Uuid → Nat → String
  search : Search Dense Sparse Score
  decodeSubject : String → Option String
  /-- The sliding-window limiter, by user. -/
  isAllowed : Uuid → Bool
  /-- The LLM, from the model and the user prompt. -/
  generate : Json → String → Except String String
  /-- `litellm_query_model`. -/
  queryModel : String
  /-- `ORDER BY created_at, name` under the collation of the database. -/
  projectOrder : OrderBy Project.createdAt
  /-- `ORDER BY created_at DESC`. -/
  documentOrder : OrderBy fun row : DocumentRow =>
    OrderDual.toDual row.createdAt
  /-- `ORDER BY version DESC`. -/
  versionOrder : OrderBy fun row : BeliefState =>
    OrderDual.toDual row.version

/-- A `QueryRequest` that passed validation. -/
structure QueryRequest where
  question : String
  topK : Nat
  question_nonempty : question ≠ ""
  topK_bounds : 1 ≤ topK ∧ topK ≤ 20

inductive Request where
  | listProjects
  | getProject (projectId : Uuid)
  | listDocuments (projectId : Uuid)
  | getJob (jobId : Uuid)
  | getCag (projectId : Uuid)
  | listCagVersions (projectId : Uuid)
  | queryProject (projectId : Uuid) (body : QueryRequest)
  | queryCrossProject (body : QueryRequest)

structure BeliefStateVersionMeta where
  version : Nat
  rebuildType : RebuildType
  createdAt : Timestamp
  summaryCountCovered : Nat

structure SourceChunk (Score : Type) where
  chunk : RetrievedChunk Score
  label : String

structure QueryResponse (Score : Type) where
  answer : String
  sources : List (SourceChunk Score)
  beliefStateVersion : Option Nat
  grounded : Bool

inductive Response (Content Score : Type) where
  | projects (rows : List Project)
  | project (row : Project)
  | documents (rows : List DocumentRow)
  | job (row : IngestionJob)
  | beliefState (record : BeliefStateRecord Content)
  | versions (rows : List BeliefStateVersionMeta)
  | query (response : QueryResponse Score)

/-! ## Dependencies -/

def currentUser (services : Services Content Dense Sparse Score)
    (authorization : Option String) (state : State Dense Sparse) :
    Except HttpError User :=
  getCurrentUser services.decodeSubject authorization state.accounts

def accessibleProjects (services : Services Content Dense Sparse Score)
    (authorization : Option String) (state : State Dense Sparse) :
    Except HttpError (List Uuid) := do
  let user ← currentUser services authorization state
  return getAccessibleProjectIds user state.accounts

/-- `rate_limit_query`, for the user it depends on. -/
def rateLimitQuery (services : Services Content Dense Sparse Score)
    (user : User) : Except HttpError Unit :=
  if services.isAllowed user.id then .ok ()
  else .error ⟨429, "Query rate limit exceeded"⟩

/-- The check that most services and routes begin with. -/
def checkAccess (projectId : Uuid) (accessibleIds : List Uuid)
    (detail : String) : Except HttpError Unit :=
  if projectId ∉ accessibleIds then .error (accessDenied detail)
  else .ok ()

def outsideScope (projectId : Uuid) : String :=
  "Project " ++ projectId.str ++ " is outside the user's access scope"

/-! ## Services -/

/-- `ProjectService.get_by_id`. -/
def getById (state : State Dense Sparse) (projectId : Uuid)
    (accessibleIds : List Uuid) : Except HttpError Project :=
  match state.accounts.projects.get projectId with
  | none =>
      .error ⟨404, "Project " ++ projectId.str ++ " does not exist"⟩
  | some project => do
      checkAccess projectId accessibleIds (outsideScope projectId)
      return project

/-- `ProjectService.list_for_user`. -/
def listForUser (services : Services Content Dense Sparse Score)
    (state : State Dense Sparse) (accessibleIds : List Uuid) :
    List Project :=
  if accessibleIds = [] then []
  else
    services.projectOrder.sort
      (state.accounts.projects.rows.filter fun project =>
        project.id ∈ accessibleIds)

/-- `DocumentService.list_documents`. -/
def listDocuments (services : Services Content Dense Sparse Score)
    (state : State Dense Sparse) (projectId : Uuid)
    (accessibleIds : List Uuid) : Except HttpError (List DocumentRow) := do
  checkAccess projectId accessibleIds (outsideScope projectId)
  return services.documentOrder.sort
    (state.documents.rows.filter fun row => row.projectId = projectId)

/-- `DocumentService.get_job`. -/
def getJob (state : State Dense Sparse) (jobId : Uuid) :
    Except HttpError IngestionJob :=
  match state.jobs.get jobId with
  | none =>
      .error ⟨404, "Ingestion job " ++ jobId.str ++ " not found"⟩
  | some job => .ok job

def listVersions (services : Services Content Dense Sparse Score)
    (state : State Dense Sparse) (projectId : Uuid) :
    List BeliefStateVersionMeta :=
  (services.versionOrder.sort
    (Cag.beliefsOf state.tables.beliefs projectId)).map fun row => {
      version := row.version
      rebuildType := row.rebuildType
      createdAt := row.createdAt
      summaryCountCovered := row.summaryCountCovered }

def maxQuestionLength : Nat := 4000

def validateQuestion (question : String) : Except HttpError Unit :=
  if strip question.toList = [] then
    .error ⟨422, "Question cannot be empty"⟩
  else if maxQuestionLength < question.length then
    .error ⟨422, "Question exceeds maximum length of " ++
      toString maxQuestionLength ++ " characters"⟩
  else .ok ()

def toSourceChunks (chunks : List (RetrievedChunk Score)) :
    List (SourceChunk Score) :=
  chunks.mapIdx fun position chunk =>
    { chunk := chunk, label := "S" ++ toString (position + 1) }

/-- The answer of the LLM to a prompt over the chunks. -/
def answer (services : Services Content Dense Sparse Score) (model : Json)
    (beliefState : Option (BeliefStateRecord Content))
    (chunks : List (RetrievedChunk Score)) (question : String)
    (includeProjectId : Bool) : Except HttpError (QueryResponse Score) :=
  let prompt := buildUserPrompt
    (beliefState.map fun record => services.schema.dump record.state)
    chunks question includeProjectId
  match services.generate model prompt with
  | .error _ => .error ⟨503, "Query generation failed; please retry"⟩
  | .ok text =>
      .ok {
        answer := text
        sources := toSourceChunks chunks
        beliefStateVersion := beliefState.map BeliefStateRecord.version
        grounded := !chunks.isEmpty }

def noContent (answer : String) : QueryResponse Score where
  answer := answer
  sources := []
  beliefStateVersion := none
  grounded := false

/-- The latest belief state, or none where it cannot be read back. -/
def readableBeliefState (services : Services Content Dense Sparse Score)
    (state : State Dense Sparse) (projectId : Uuid) :
    Option (BeliefStateRecord Content) :=
  match Cag.getLatest services.schema state.tables projectId with
  | .ok record => record
  | .error _ => none

/-- `QueryService.query`.  That the project exists and what its belief state
is are read before the retriever checks the access scope. -/
def query (services : Services Content Dense Sparse Score)
    (state : State Dense Sparse) (question : String) (projectId : Uuid)
    (accessibleIds : List Uuid) (topK : Nat) :
    Except HttpError (QueryResponse Score) := do
  validateQuestion question
  match state.accounts.projects.get projectId with
  | none =>
      .error (internal ("Project " ++ projectId.str ++ " not found"))
  | some project =>
      let beliefState := readableBeliefState services state projectId
      let chunks ← retrieve services.search state.collections projectId
        question accessibleIds topK
      if chunks.isEmpty && beliefState.isNone then
        return noContent
          "No indexed content is available for this project yet."
      else
        answer services
          ((project.config.lookup "query_model").getD
            (.str services.queryModel))
          beliefState chunks question false

/-- `QueryService.query_cross_project`. -/
def queryCrossProject [LinearOrder Score]
    (services : Services Content Dense Sparse Score)
    (state : State Dense Sparse) (question : String)
    (accessibleIds : List Uuid) (topK : Nat) :
    Except HttpError (QueryResponse Score) := do
  validateQuestion question
  let chunks ←
    if accessibleIds = [] then .ok []
    else
      retrieveMulti services.search state.collections accessibleIds question
        accessibleIds topK
  if chunks.isEmpty then
    return noContent
      "No indexed content is available across any accessible projects."
  else
    answer services (.str services.queryModel) none chunks question true

/-! ## Routes -/

def getCag (services : Services Content Dense Sparse Score)
    (state : State Dense Sparse) (projectId : Uuid)
    (accessibleIds : List Uuid) :
    Except HttpError (BeliefStateRecord Content) := do
  checkAccess projectId accessibleIds "Access denied"
  match Cag.getLatest services.schema state.tables projectId with
  | .error failure =>
      .error (internal (failure.message services.validationError))
  | .ok none =>
      .error ⟨404,
        "No belief state exists for project " ++ projectId.str⟩
  | .ok (some record) => return record

def listCagVersions (services : Services Content Dense Sparse Score)
    (state : State Dense Sparse) (projectId : Uuid)
    (accessibleIds : List Uuid) :
    Except HttpError (List BeliefStateVersionMeta) := do
  checkAccess projectId accessibleIds "Access denied"
  return listVersions services state projectId

/-- A request with the value of its `Authorization` header. -/
def respond [LinearOrder Score]
    (services : Services Content Dense Sparse Score)
    (authorization : Option String) (request : Request)
    (state : State Dense Sparse) :
    Except HttpError (Response Content Score) :=
  match request with
  | .listProjects => do
      let accessibleIds ← accessibleProjects services authorization state
      return .projects (listForUser services state accessibleIds)
  | .getProject projectId => do
      let accessibleIds ← accessibleProjects services authorization state
      return .project (← getById state projectId accessibleIds)
  | .listDocuments projectId => do
      let accessibleIds ← accessibleProjects services authorization state
      return .documents
        (← listDocuments services state projectId accessibleIds)
  | .getJob jobId => return .job (← getJob state jobId)
  | .getCag projectId => do
      let accessibleIds ← accessibleProjects services authorization state
      return .beliefState (← getCag services state projectId accessibleIds)
  | .listCagVersions projectId => do
      let accessibleIds ← accessibleProjects services authorization state
      return .versions
        (← listCagVersions services state projectId accessibleIds)
  | .queryProject projectId body => do
      let user ← currentUser services authorization state
      rateLimitQuery services user
      let accessibleIds ← accessibleProjects services authorization state
      return .query
        (← query services state body.question projectId accessibleIds
          body.topK)
  | .queryCrossProject body => do
      let user ← currentUser services authorization state
      requireRole .admin user
      rateLimitQuery services user
      let accessibleIds ← accessibleProjects services authorization state
      return .query
        (← queryCrossProject services state body.question accessibleIds
          body.topK)

end Endpoints

end ProjectMemory.Api
