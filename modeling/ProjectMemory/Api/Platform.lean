import ProjectMemory.Api.Database
import ProjectMemory.Foundation.JobQueue
import ProjectMemory.Foundation.Script
import ProjectMemory.Ingestion.Halting
import ProjectMemory.Workers.Ingest

/-!
# The platform

Everything the requests share: the clock, the database, the collections and
the two kinds of jobs.  A request is a script on it, one statement at a time;
between two statements other requests may commit.
-/

namespace ProjectMemory.Api

open Foundation Ingestion ProjectMemory.Core Retrieval

section State

variable {Content Dense Sparse Score Value : Type}

/-- The arguments of a queued `ingest_document`. -/
structure IngestCall where
  jobId : Uuid
  documentId : Option Uuid
  projectId : Uuid
  deriving DecidableEq, Repr

structure Platform (Dense Sparse : Type) where
  clock : Timestamp
  database : Database
  collections : Uuid → Option (Collection Dense Sparse)
  ingestJobs : JobQueue String IngestCall
  rebuildJobs : RebuildJobs

abbrev Action (Dense Sparse Value : Type) :=
  Script (Platform Dense Sparse) HttpError Value

def Platform.rows (platform : Platform Dense Sparse) : Rows :=
  platform.database.rows

def Platform.accounts (platform : Platform Dense Sparse) : Accounts :=
  platform.database.accounts

/-- What the read endpoints see. -/
def Platform.state (platform : Platform Dense Sparse) :
    State Dense Sparse where
  accounts := platform.accounts
  documents := {
    rows := platform.rows.documents.map StoredFile.toDocumentRow
    unique := by
      rw [List.map_map]
      exact platform.database.constraints.unique.documents }
  jobs := ⟨platform.rows.jobs, platform.database.constraints.unique.jobs⟩
  tables := platform.rows.tables
  collections := platform.collections

/-- The `exp` of a token is a number of seconds. -/
structure Claims where
  subject : String
  role : String
  expires : Nat

/-- `app.core.security`. -/
structure Security where
  encode : Claims → String
  /-- The `sub` of a token whose signature is valid and which has not
  expired. -/
  decodeSubject : Timestamp → String → Option String
  /-- The hash of a password under a salt, or what passlib raises: it does not
  take every text. -/
  hashPassword : String → String → Except String String
  /-- A bcrypt hash is ASCII text. -/
  hashed_storable : ∀ {salt password hashed},
    hashPassword salt password = .ok hashed → storable hashed = true
  verifyPassword : String → String → Except String Bool
  /-- `jwt_expire_minutes`. -/
  expireMinutes : Nat

/-- What the API uses besides the platform. -/
structure Server (Content Dense Sparse Score : Type) where
  services : Services Content Dense Sparse Score
  security : Security
  maxUploadSizeMb : Nat
  /-- `str.lower`. -/
  lower : String → String
  /-- `ORDER BY created_at, name`. -/
  teamOrder : OrderBy TeamRow.createdAt

/-- What is generated for a request, and which services are down when it calls
them. -/
structure Chance where
  id : Uuid
  jobId : Uuid
  salt : String
  qdrantDown : Bool
  redisDown : Bool

/-! ## Statements -/

/-- A statement that changes the rows; it is committed or refused. -/
def commit (change : Rows → Rows) : Action Dense Sparse Unit :=
  Script.transaction fun platform => do
    let database ← Database.commit (change platform.rows)
    return ({ platform with database := database }, ())

def select (view : Rows → Value) : Action Dense Sparse Value :=
  Script.read fun platform => view platform.rows

/-- `session.refresh`: the row must still be there. -/
def refresh (view : Rows → Option Value) : Action Dense Sparse Value :=
  Script.transaction fun platform =>
    match view platform.rows with
    | none => .error (internal "Could not refresh instance")
    | some row => .ok (platform, row)

def now : Action Dense Sparse Timestamp :=
  Script.read Platform.clock

/-! ## Dependencies -/

/-- The user of a request, with `now()` in the transaction that begins when
the user is looked up. -/
structure Caller where
  row : UserRow
  began : Timestamp

def Caller.user (caller : Caller) : User :=
  caller.row.toUser

def userRow (rows : Rows) (userId : Uuid) : Option UserRow :=
  rows.users.find? fun row => row.id = userId

/-- The user of a token at a time. -/
def authenticate (security : Security) (authorization : Option String)
    (time : Timestamp) (platform : Platform Dense Sparse) :
    Except HttpError User :=
  getCurrentUser (security.decodeSubject time) authorization
    platform.accounts

/-- `get_current_user`. -/
def findCaller (security : Security) (authorization : Option String) :
    Action Dense Sparse Caller := do
  let time ← now
  Script.transaction fun platform => do
    let user ← authenticate security authorization time platform
    match userRow platform.rows user.id with
    | none => .error unauthorized
    | some row => return (platform, { row := row, began := platform.clock })

/-- `require_role(Role.ADMIN)`. -/
def findAdmin (security : Security) (authorization : Option String) :
    Action Dense Sparse Caller := do
  let caller ← findCaller security authorization
  Script.finish (requireRole .admin caller.user)
  return caller

/-- `get_accessible_project_ids`. -/
def findScope (user : User) : Action Dense Sparse (List Uuid) :=
  match Role.ofString user.role with
  | none => return []
  | some .member => do
      let teamIds ← Script.read fun platform =>
        Core.teamIds platform.accounts user
      if teamIds = [] then return []
      else
        select fun rows =>
          (rows.projects.filter fun project => project.teamId ∈ teamIds).map
            Project.id
  | some _ => select Rows.projectIds

end State

/-! ## Rules -/

section Rules

variable {Content Dense Sparse Score Value : Type} {security : Security}
  {authorization : Option String}
  {related : Platform Dense Sparse → Platform Dense Sparse → Prop}

theorem commit_cases (change : Rows → Rows)
    {platform after : Platform Dense Sparse}
    (committed : (do
      let database ← Database.commit (change platform.rows)
      return ({ platform with database := database }, ()) :
        Except HttpError (Platform Dense Sparse × Unit)) =
      .ok (after, ())) :
    ∃ database, database.rows = change platform.rows ∧
      after = { platform with database := database } := by
  cases outcome : Database.commit (change platform.rows) with
  | error failure =>
      rw [outcome] at committed
      cases committed
  | ok database =>
      rw [outcome] at committed
      cases committed
      exact ⟨database, Database.rows_of_commit outcome, rfl⟩

theorem keeps_commit (reflexive : ∀ state, related state state)
    {change : Rows → Rows}
    (moves : ∀ now database, database.rows = change now.rows →
      related now { now with database := database }) :
    Script.Keeps related (commit change) := by
  refine Script.keeps_transaction reflexive ?_
  intro now after _ committed
  obtain ⟨database, isChange, rfl⟩ := commit_cases _ committed
  exact moves now database isChange

theorem keeps_refresh (reflexive : ∀ state, related state state)
    (view : Rows → Option Value) :
    Script.Keeps related (refresh view : Action Dense Sparse Value) := by
  refine Script.keeps_transaction reflexive ?_
  intro now after value returned
  split at returned
  · cases returned
  · cases returned
    exact reflexive now

/-- A row that nobody removes is read back. -/
theorem meets_refresh {view : Rows → Option Value} (row : Value)
    (reflexive : ∀ state, related state state)
    {promise : Platform Dense Sparse → Except HttpError Value → Prop}
    {state : Platform Dense Sparse}
    (present : ∀ now, related state now → view now.rows = some row)
    (promised : ∀ now, related state now → promise now (.ok row)) :
    (refresh view).Meets related promise state := by
  refine Script.meets_transaction ?_ ?_
  · intro now after value moved returned
    simp only [present now moved] at returned
    cases returned
    exact ⟨reflexive now, promised now moved⟩
  · intro now failure moved returned
    simp only [present now moved] at returned
    cases returned

/-- The user that the `sub` of a bearer token names. -/
def namedUser (decodeSubject : String → Option String)
    (authorization : Option String) : Option Uuid :=
  match authorization with
  | none => none
  | some header =>
      let (scheme, token) := partitionBlank header.toList
      if scheme.map Char.toLower ≠ "bearer".toList ∨ token = [] then none
      else (decodeSubject (String.ofList token)).bind Uuid.parse

theorem getCurrentUser_ok_iff {decodeSubject : String → Option String}
    {accounts : Accounts} {user : User} :
    getCurrentUser decodeSubject authorization accounts = .ok user ↔
      ∃ userId, namedUser decodeSubject authorization = some userId ∧
        accounts.users.get userId = some user := by
  unfold getCurrentUser namedUser
  cases authorization with
  | none => simp
  | some header =>
      dsimp only
      split
      · simp
      · cases (decodeSubject _).bind Uuid.parse with
        | none => simp
        | some userId =>
            cases found : accounts.users.get userId <;> simp [found]

theorem get_user_iff {platform : Platform Dense Sparse} {userId : Uuid}
    {user : User} :
    platform.accounts.users.get userId = some user ↔
      (∃ row ∈ platform.rows.users, row.toUser = user) ∧
        user.id = userId := by
  rw [Table.get_eq_some]
  refine and_congr_left fun _ => ?_
  exact List.mem_map

theorem toUser_of_userRow {platform : Platform Dense Sparse} {user : User}
    {row : UserRow} (isUser : ∃ other ∈ platform.rows.users,
      other.toUser = user)
    (found : userRow platform.rows user.id = some row) :
    row.toUser = user := by
  obtain ⟨other, isOther, rfl⟩ := isUser
  obtain ⟨isRow, sameId⟩ := find_key_eq_some found
  rw [List.inj_on_of_nodup_map platform.database.constraints.unique.users
    isRow isOther sameId]

/-- The caller is a user of the state in which it is found, named by the
token at some time. -/
def Found (security : Security) (authorization : Option String)
    (platform : Platform Dense Sparse) (caller : Caller) : Prop :=
  caller.row ∈ platform.rows.users ∧
    ∃ time, authenticate security authorization time platform =
      .ok caller.user

theorem findCaller_meets (reflexive : ∀ state, related state state)
    (transitive : ∀ first second third,
      related first second → related second third → related first third)
    (state : Platform Dense Sparse) :
    (findCaller security authorization).Meets related
      (fun now result => ∀ caller, result = .ok caller →
        Found security authorization now caller) state := by
  refine Script.Meets.bind _ reflexive transitive
    (Script.keeps_read reflexive _ state) ?_ ?_
  · intro read time _ _
    refine Script.meets_transaction ?_ ?_
    · intro now after caller _ returned
      cases authenticated : authenticate security authorization time now with
      | error failure =>
          rw [authenticated] at returned
          cases returned
      | ok user =>
          simp only [authenticated, bind, Except.bind] at returned
          cases found : userRow now.rows user.id with
          | none =>
              rw [found] at returned
              cases returned
          | some row =>
              rw [found] at returned
              cases returned
              refine ⟨reflexive now, ?_⟩
              rintro _ ⟨⟩
              have isUser := getCurrentUser_ok_iff.mp authenticated
              obtain ⟨_, _, isGot⟩ := isUser
              have same := toUser_of_userRow (get_user_iff.mp isGot).1 found
              refine ⟨(find_key_eq_some found).1, time, ?_⟩
              rw [Caller.user, same]
              exact authenticated
    · intro now failure _ _
      refine ⟨reflexive now, ?_⟩
      rintro _ ⟨⟩
  · intro now failure _ _
    rintro _ ⟨⟩

end Rules

end ProjectMemory.Api
