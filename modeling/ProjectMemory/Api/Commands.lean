import ProjectMemory.Api.Platform

/-!
# The requests

The routes with their services: accounts, teams, projects, uploads and
rebuilds.  What a service has read before it commits may be out of date when
it does; the constraints of the database are checked then, and only then.
-/

namespace ProjectMemory.Api

open Foundation Ingestion ProjectMemory.Core Retrieval

/-! ## Bodies that passed validation -/

/-- An `EmailStr` holds no control characters; a password may hold any. -/
structure UserCreate where
  email : String
  password : String
  password_long : 8 ≤ password.length
  email_storable : storable email = true

structure LoginRequest where
  email : String
  password : String
  email_storable : storable email = true

structure TeamCreate where
  name : String
  name_long : 2 ≤ name.length

structure ProjectUpdate where
  name : Option String
  description : Option String

inductive FileType where
  | markdown
  | txt
  | pdf
  deriving DecidableEq, Repr

def FileType.value : FileType → String
  | .markdown => "markdown"
  | .txt => "txt"
  | .pdf => "pdf"

section Commands

variable {Content Dense Sparse Score : Type}

/-! ## `AuthService` -/

def emailOf (email : String) (rows : Rows) : Option UserRow :=
  rows.users.find? fun row => row.email = email

def alreadyRegistered (email : String) : HttpError :=
  ⟨400, "Email " ++ email ++ " is already registered"⟩

/-- The `User` that `register` adds, with the defaults of its columns. -/
def newUser (data : UserCreate) (hashed : String) (chance : Chance)
    (began : Timestamp) : UserRow where
  id := chance.id
  role := "member"
  email := data.email
  hashedPassword := hashed
  isActive := true
  createdAt := began

theorem storable_newUser {security : Security} {hashed : String}
    (data : UserCreate) (chance : Chance) (began : Timestamp)
    (isHash : security.hashPassword chance.salt data.password = .ok hashed) :
    (newUser data hashed chance began).storable = true := by
  rw [UserRow.storable, Bool.and_eq_true, Bool.and_eq_true]
  exact ⟨⟨(by decide : storable "member" = true), data.email_storable⟩,
    security.hashed_storable isHash⟩

def register (security : Security) (data : UserCreate) (chance : Chance) :
    Action Dense Sparse UserRow := do
  let (existing, began) ← Script.read fun platform =>
    (emailOf data.email platform.rows, platform.clock)
  match existing with
  | some _ => Script.finish (.error (alreadyRegistered data.email))
  | none =>
      match security.hashPassword chance.salt data.password with
      | .error message => Script.finish (.error (internal message))
      | .ok hashed =>
          let user := newUser data hashed chance began
          commit (Rows.insertUser · user)
          refresh (userRow · user.id)

def invalidCredentials : HttpError :=
  ⟨401, "Invalid email or password"⟩

/-- The claims of `create_access_token`; `exp` is cut to seconds. -/
def claimsOf (security : Security) (user : User) (time : Timestamp) :
    Claims where
  subject := user.id.str
  role := user.role
  expires := (time + security.expireMinutes * 60000000) / 1000000

def login (security : Security) (data : LoginRequest) :
    Action Dense Sparse String := do
  match ← select (emailOf data.email) with
  | none => Script.finish (.error invalidCredentials)
  | some row =>
      match security.verifyPassword data.password row.hashedPassword with
      | .error message => Script.finish (.error (internal message))
      | .ok false => Script.finish (.error invalidCredentials)
      | .ok true =>
          let time ← now
          return security.encode (claimsOf security row.toUser time)

/-! ## `TeamService` -/

def teamMissing (teamId : Uuid) : HttpError :=
  ⟨404, "Team " ++ teamId.str ++ " does not exist"⟩

def userMissing (userId : Uuid) : HttpError :=
  ⟨404, "User " ++ userId.str ++ " does not exist"⟩

def alreadyMember (member : TeamMember) : HttpError :=
  ⟨400, "User " ++ member.userId.str ++ " is already a member of team " ++
    member.teamId.str⟩

def memberMissing (member : TeamMember) : HttpError :=
  ⟨404, "User " ++ member.userId.str ++ " is not a member of team " ++
    member.teamId.str⟩

def teamRow (rows : Rows) (teamId : Uuid) : Option TeamRow :=
  rows.teams.find? fun row => row.id = teamId

def newTeam (data : TeamCreate) (chance : Chance) (began : Timestamp) :
    TeamRow where
  id := chance.id
  name := data.name
  createdAt := began

def createTeam (data : TeamCreate) (chance : Chance) (began : Timestamp) :
    Action Dense Sparse TeamRow := do
  let team := newTeam data chance began
  commit (Rows.insertTeam · team)
  refresh (teamRow · team.id)

def listAll (teamOrder : OrderBy TeamRow.createdAt) :
    Action Dense Sparse (List TeamRow) :=
  select fun rows => teamOrder.sort rows.teams

/-- `_require_team` and `_require_user`: the row must be there. -/
def requireRow {Row : Type} (missing : HttpError) (view : Rows → Option Row) :
    Action Dense Sparse Unit := do
  match ← select view with
  | none => Script.finish (.error missing)
  | some _ => return ()

def requireTeam (teamId : Uuid) : Action Dense Sparse Unit :=
  requireRow (teamMissing teamId) (teamRow · teamId)

def requireUser (userId : Uuid) : Action Dense Sparse Unit :=
  requireRow (userMissing userId) (userRow · userId)

def addMember (member : TeamMember) : Action Dense Sparse Unit := do
  requireTeam member.teamId
  requireUser member.userId
  if ← select fun rows => decide (member ∈ rows.members) then
    Script.finish (.error (alreadyMember member))
  else commit (Rows.insertMember · member)

/-- A row that is gone when it is deleted is only warned about. -/
def removeMember (member : TeamMember) : Action Dense Sparse Unit := do
  requireTeam member.teamId
  if ← select fun rows => decide (member ∈ rows.members) then
    commit (Rows.deleteMember · member)
  else Script.finish (.error (memberMissing member))

/-! ## `ProjectService` -/

def projectMissing (projectId : Uuid) : HttpError :=
  ⟨404, "Project " ++ projectId.str ++ " does not exist"⟩

def projectRow (rows : Rows) (projectId : Uuid) : Option Project :=
  rows.projects.find? fun row => row.id = projectId

def createProject (data : ProjectCreate) (chance : Chance)
    (began : Timestamp) : Action Dense Sparse Project := do
  let team ← select (teamRow · data.teamId)
  match data.create (fun _ => team.isSome) chance.id began with
  | .error message => Script.finish (.error ⟨404, message⟩)
  | .ok project =>
      commit (Rows.insertProject · project)
      refresh (projectRow · project.id)

/-- `get_by_id`, for the scope that was read before. -/
def findProject (projectId : Uuid) (accessibleIds : List Uuid) :
    Action Dense Sparse Project := do
  match ← select (projectRow · projectId) with
  | none => Script.finish (.error (projectMissing projectId))
  | some project =>
      Script.finish
        (checkAccess projectId accessibleIds (outsideScope projectId))
      return project

/-- The columns that differ from what was read. -/
def ProjectUpdate.change (data : ProjectUpdate) (read row : Project) :
    Project :=
  { row with
    name :=
      match data.name with
      | some name => if name = read.name then row.name else name
      | none => row.name
    description :=
      match data.description with
      | some description =>
          if some description = read.description then row.description
          else some description
      | none => row.description }

def ProjectUpdate.changes (data : ProjectUpdate) (read : Project) : Bool :=
  data.name.any (fun name => name ≠ read.name) ||
    data.description.any fun description =>
      some description ≠ read.description

/-- An `UPDATE` that must match the row. -/
def flushUpdate (data : ProjectUpdate) (read : Project) :
    Action Dense Sparse Unit := do
  if data.changes read then
    Script.transaction fun platform =>
      match projectRow platform.rows read.id with
      | none => .error (internal "StaleDataError")
      | some _ => do
          let database ← Database.commit
            (platform.rows.updateProject read.id (data.change read))
          return ({ platform with database := database }, ())
  else return ()

def updateProject (projectId : Uuid) (data : ProjectUpdate)
    (accessibleIds : List Uuid) : Action Dense Sparse Project := do
  let project ← findProject projectId accessibleIds
  flushUpdate data project
  refresh (projectRow · projectId)

/-- `delete_collection`, whose `QdrantError` is only logged. -/
def dropCollection (projectId : Uuid) (chance : Chance) :
    Action Dense Sparse Unit :=
  Script.transaction fun platform =>
    if chance.qdrantDown then .ok (platform, ())
    else
      .ok ({ platform with
        collections := Function.update platform.collections projectId none },
        ())

def deleteProject (projectId : Uuid) (accessibleIds : List Uuid)
    (chance : Chance) : Action Dense Sparse Unit := do
  let _ ← findProject projectId accessibleIds
  commit (Rows.deleteProject · projectId)
  dropCollection projectId chance

/-! ## `DocumentService` -/

/-- What follows the last dot of a text. -/
def afterLastDot (text : List Char) : List Char :=
  (text.reverse.takeWhile (· ≠ '.')).reverse

def getExtension (lower : String → String) (filename : String) : String :=
  if '.' ∈ filename.toList then
    "." ++ lower (String.ofList (afterLastDot filename.toList))
  else ""

/-- `EXTENSION_TO_FILE_TYPE` and `SUPPORTED_EXTENSIONS`. -/
def extensionToFileType (extension : String) : Option FileType :=
  if extension = ".md" then some .markdown
  else if extension = ".txt" then some .txt
  else if extension = ".pdf" then some .pdf
  else none

def newDocument (projectId : Uuid) (filename : String) (fileType : FileType)
    (content : ByteArray) (chance : Chance) (began : Timestamp) :
    StoredFile where
  id := chance.id
  projectId := projectId
  filename := filename
  fileType := fileType.value
  createdAt := began
  rawBytes := content

def newJob (projectId : Uuid) (chance : Chance) (began : Timestamp) :
    IngestionJob where
  id := chance.jobId
  projectId := projectId
  documentId := some chance.id
  status := .pending
  errorMessage := none
  createdAt := began
  completedAt := none

def ingestJobId (jobId : Uuid) : String :=
  "ingest-" ++ jobId.str

/-- `enqueue_job("ingest_document", ...)`, which may raise. -/
def enqueueIngest (arguments : IngestCall) (chance : Chance) :
    Action Dense Sparse Unit :=
  Script.transaction fun platform =>
    if chance.redisDown then .error (internal "ConnectionError")
    else
      .ok ({ platform with
        ingestJobs := platform.ingestJobs.offer (ingestJobId arguments.jobId)
          arguments }, ())

def DocumentService.upload (lower : String → String) (projectId : Uuid)
    (filename : String) (fileType : FileType) (content : ByteArray)
    (accessibleIds : List Uuid) (chance : Chance) (began : Timestamp) :
    Action Dense Sparse IngestionJob := do
  Script.finish
    (checkAccess projectId accessibleIds (outsideScope projectId))
  let extension := getExtension lower filename
  if (extensionToFileType extension).isNone then
    Script.finish (.error
      ⟨400, "File type '" ++ extension ++ "' is not supported"⟩)
  else
    let document :=
      newDocument projectId filename fileType content chance began
    let job := newJob projectId chance began
    commit fun rows => rows.insertUpload document job
    enqueueIngest ⟨job.id, some document.id, projectId⟩ chance
    return job

/-- The route, for an upload without a file name `none`. -/
def uploadDocument (server : Server Content Dense Sparse Score)
    (projectId : Uuid) (filename : Option String) (content : ByteArray)
    (accessibleIds : List Uuid) (chance : Chance) (began : Timestamp) :
    Action Dense Sparse IngestionJob :=
  let name := filename.getD ""
  let extension := getExtension server.lower name
  match extensionToFileType extension with
  | none =>
      Script.finish (.error ⟨400, "Unsupported file type: " ++ extension⟩)
  | some fileType =>
      if server.maxUploadSizeMb * 1024 * 1024 < content.size then
        Script.finish (.error
          ⟨400, "File exceeds maximum upload size of " ++
            toString server.maxUploadSizeMb ++ "MB"⟩)
      else
        DocumentService.upload server.lower projectId
          (if name = "" then "unknown" else name) fileType content
          accessibleIds chance began

/-! ## Rebuilds -/

def requestRebuild (projectId : Uuid) (mode : Cag.Mode)
    (accessibleIds : List Uuid) (chance : Chance) :
    Action Dense Sparse RebuildResponse := do
  Script.finish (checkAccess projectId accessibleIds "Access denied")
  Script.transaction fun platform =>
    if chance.redisDown then .error (internal "ConnectionError")
    else
      let result := enqueueRebuild platform.rebuildJobs projectId mode
      .ok ({ platform with
        rebuildJobs := result.getD platform.rebuildJobs },
        { queued := true, deduplicated := result.isNone })

/-! ## Routes -/

inductive Command where
  | register (data : UserCreate)
  | login (data : LoginRequest)
  | getMe
  | createTeam (data : TeamCreate)
  | listTeams
  | addTeamMember (member : TeamMember)
  | removeTeamMember (member : TeamMember)
  | createProject (data : ProjectCreate)
  | updateProject (projectId : Uuid) (data : ProjectUpdate)
  | deleteProject (projectId : Uuid)
  | uploadDocument (projectId : Uuid) (filename : Option String)
      (content : ByteArray)
  | rebuildCag (projectId : Uuid) (mode : Cag.Mode)
  /-- A read endpoint, answered from one state. -/
  | look (request : Request)

inductive Answer (Content Score : Type) where
  | user (row : UserRow)
  | token (accessToken : String)
  | team (row : TeamRow)
  | teams (rows : List TeamRow)
  | done
  | project (row : Project)
  | job (row : IngestionJob)
  | rebuild (response : RebuildResponse)
  | look (response : Response Content Score)

/-- A request of the API, or time that passes. -/
inductive Event where
  | request (authorization : Option String) (command : Command)
      (chance : Chance)
  | elapse (duration : Nat)

variable [LinearOrder Score]

/-- A read endpoint. -/
def look (server : Server Content Dense Sparse Score)
    (authorization : Option String) (request : Request) :
    Action Dense Sparse (Response Content Score) :=
  Script.transaction fun platform => do
    let response ← respond
      { server.services with
        decodeSubject := server.security.decodeSubject platform.clock }
      authorization request platform.state
    return (platform, response)

def perform (server : Server Content Dense Sparse Score)
    (authorization : Option String) (chance : Chance) :
    Command → Action Dense Sparse (Answer Content Score)
  | .register data => do
      return .user (← register server.security data chance)
  | .login data => do return .token (← login server.security data)
  | .getMe => do
      return .user (← findCaller server.security authorization).row
  | .createTeam data => do
      let caller ← findAdmin server.security authorization
      return .team (← createTeam data chance caller.began)
  | .listTeams => do
      let _ ← findAdmin server.security authorization
      return .teams (← listAll server.teamOrder)
  | .addTeamMember member => do
      let _ ← findAdmin server.security authorization
      addMember member
      return .done
  | .removeTeamMember member => do
      let _ ← findAdmin server.security authorization
      removeMember member
      return .done
  | .createProject data => do
      let caller ← findAdmin server.security authorization
      return .project (← createProject data chance caller.began)
  | .updateProject projectId data => do
      let caller ← findAdmin server.security authorization
      let accessibleIds ← findScope caller.user
      return .project (← updateProject projectId data accessibleIds)
  | .deleteProject projectId => do
      let caller ← findAdmin server.security authorization
      let accessibleIds ← findScope caller.user
      deleteProject projectId accessibleIds chance
      return .done
  | .uploadDocument projectId filename content => do
      let caller ← findCaller server.security authorization
      let accessibleIds ← findScope caller.user
      return .job (← uploadDocument server projectId filename content
        accessibleIds chance caller.began)
  | .rebuildCag projectId mode => do
      let caller ← findAdmin server.security authorization
      let accessibleIds ← findScope caller.user
      return .rebuild
        (← requestRebuild projectId mode accessibleIds chance)
  | .look request => do
      return .look (← look server authorization request)

def Event.script (server : Server Content Dense Sparse Score) :
    Event → Action Dense Sparse (Answer Content Score)
  | .request authorization command chance =>
      perform server authorization chance command
  | .elapse duration =>
      Script.transaction fun platform =>
        .ok ({ platform with clock := platform.clock + duration }, .done)

end Commands

end ProjectMemory.Api
