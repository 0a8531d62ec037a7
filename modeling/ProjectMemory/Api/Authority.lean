import ProjectMemory.Api.Isolation
import ProjectMemory.Api.Statements

/-!
# What requests without an admin can do

However the requests of callers who are no admins interleave, they add users
who are members and documents of projects that some of these callers could
access before; nothing else changes, and no access scope does.
-/

namespace ProjectMemory.Api

open Foundation ProjectMemory.Core Retrieval

section Authority

variable {Content Dense Sparse Score : Type}

/-- The second list is the first with rows added that meet a condition. -/
def Appended {Row : Type} (condition : Row → Prop) (before after : List Row) :
    Prop :=
  ∃ added, after = before ++ added ∧ ∀ row ∈ added, condition row

/-- What changes from one state to the next: users who are members, and
pending jobs with documents of certain projects, are added. -/
structure Confined (reach : Uuid → Prop)
    (before after : Platform Dense Sparse) : Prop where
  users : Appended (fun row => row.role = "member") before.rows.users
    after.rows.users
  documents : Appended (fun row => reach row.projectId)
    before.rows.documents after.rows.documents
  jobs : Appended (fun row => row.status = .pending ∧ reach row.projectId)
    before.rows.jobs after.rows.jobs
  teams : after.rows.teams = before.rows.teams
  members : after.rows.members = before.rows.members
  projects : after.rows.projects = before.rows.projects
  tables : after.rows.tables = before.rows.tables
  collections : after.collections = before.collections
  rebuildJobs : after.rebuildJobs = before.rebuildJobs
  ingestJobs : ∀ id job, after.ingestJobs id = some job →
    before.ingestJobs id = some job ∨ reach job.arguments.projectId
  keptJobs : ∀ id job, before.ingestJobs id = some job →
    after.ingestJobs id = some job

/-- A header that never authenticates an admin of the state. -/
def Unprivileged (security : Security) (start : Platform Dense Sparse)
    (authorization : Option String) : Prop :=
  ∀ time user,
    authenticate security authorization time start = .ok user →
    requireRole .admin user ≠ .ok ()

/-- The projects that the callers of certain headers can access. -/
def Reaches (security : Security) (start : Platform Dense Sparse)
    (headers : Option String → Prop) (projectId : Uuid) : Prop :=
  ∃ authorization time user, headers authorization ∧
    authenticate security authorization time start = .ok user ∧
    projectId ∈ getAccessibleProjectIds user start.accounts

/-- The request carries one of the headers. -/
def Event.carries (headers : Option String → Prop) : Event → Prop
  | .request authorization _ _ => headers authorization
  | .elapse _ => True

end Authority

/-! ## The relation -/

section Relation

variable {Content Dense Sparse Score Row : Type} {condition : Row → Prop}
  {before after : List Row} {reach : Uuid → Prop}

theorem Appended.refl (rows : List Row) : Appended condition rows rows :=
  ⟨[], (List.append_nil rows).symm, fun _ isRow =>
    absurd isRow List.not_mem_nil⟩

theorem Appended.trans {last : List Row}
    (first : Appended condition before after)
    (second : Appended condition after last) :
    Appended condition before last := by
  obtain ⟨added, rfl, meets⟩ := first
  obtain ⟨further, rfl, meetsToo⟩ := second
  refine ⟨added ++ further, List.append_assoc _ _ _, fun row isRow => ?_⟩
  rcases List.mem_append.mp isRow with isAdded | isFurther
  · exact meets row isAdded
  · exact meetsToo row isFurther

theorem Appended.snoc (rows : List Row) {row : Row} (meets : condition row) :
    Appended condition rows (rows ++ [row]) := by
  refine ⟨[row], rfl, fun other isRow => ?_⟩
  rw [List.mem_singleton.mp isRow]
  exact meets

theorem Appended.mem_cases (appended : Appended condition before after)
    {row : Row} (isRow : row ∈ after) : row ∈ before ∨ condition row := by
  obtain ⟨added, rfl, meets⟩ := appended
  exact (List.mem_append.mp isRow).imp_right (meets row)

theorem Confined.refl (platform : Platform Dense Sparse) :
    Confined reach platform platform where
  users := Appended.refl _
  documents := Appended.refl _
  jobs := Appended.refl _
  teams := rfl
  members := rfl
  projects := rfl
  tables := rfl
  collections := rfl
  rebuildJobs := rfl
  ingestJobs := fun _ _ found => Or.inl found
  keptJobs := fun _ _ found => found

theorem Confined.trans (first second third : Platform Dense Sparse)
    (left : Confined reach first second)
    (right : Confined reach second third) : Confined reach first third where
  users := left.users.trans right.users
  documents := left.documents.trans right.documents
  jobs := left.jobs.trans right.jobs
  teams := right.teams.trans left.teams
  members := right.members.trans left.members
  projects := right.projects.trans left.projects
  tables := right.tables.trans left.tables
  collections := right.collections.trans left.collections
  rebuildJobs := right.rebuildJobs.trans left.rebuildJobs
  ingestJobs := by
    intro id job found
    rcases right.ingestJobs id job found with before | reached
    · exact left.ingestJobs id job before
    · exact Or.inr reached
  keptJobs := fun id job found =>
    right.keptJobs id job (left.keptJobs id job found)

/-- What a request may do that no admin makes. -/
def withoutAdmin (reach : Uuid → Prop) : Powers where
  privileged := False
  reach := reach
  drawn := fun _ => True
  uploads := fun _ _ _ => True
  updates := fun _ _ => True

theorem Confined.write {now : Platform Dense Sparse} {database : Database}
    {changed : Rows} (change : RowChange (withoutAdmin reach) now.rows changed)
    (committed : database.rows = changed) :
    Confined reach now { now with database := database } := by
  have rows : Platform.rows { now with database := database } = changed :=
    committed
  cases change with
  | insertUser row isMember _ =>
      refine { Confined.refl now with
        users := ?_, documents := ?_, jobs := ?_, teams := ?_,
        members := ?_, projects := ?_, tables := ?_ } <;> rw [rows]
      · exact Appended.snoc _ isMember
      · exact Appended.refl _
      · exact Appended.refl _
      all_goals rfl
  | insertUpload document job isPending sameProject _ reached _ =>
      refine { Confined.refl now with
        users := ?_, documents := ?_, jobs := ?_, teams := ?_,
        members := ?_, projects := ?_, tables := ?_ } <;> rw [rows]
      · exact Appended.refl _
      · exact Appended.snoc _ reached
      · exact Appended.snoc _ ⟨isPending, sameProject ▸ reached⟩
      all_goals rfl
  | _ => contradiction

theorem Confined.enqueueIngest {now : Platform Dense Sparse}
    {arguments : IngestCall} (reached : reach arguments.projectId) :
    Confined reach now { now with
      ingestJobs := now.ingestJobs.offer (ingestJobId arguments.jobId)
        arguments } := by
  refine { Confined.refl now with ingestJobs := ?_, keptJobs := ?_ }
  · intro id job found
    by_cases own : id = ingestJobId arguments.jobId
    · subst own
      dsimp only at found
      rw [JobQueue.offer_own] at found
      cases before : now.ingestJobs (ingestJobId arguments.jobId) with
      | some other =>
          rw [before] at found
          exact Or.inl found
      | none =>
          rw [before] at found
          cases found
          exact Or.inr reached
    · left
      rw [← found]
      exact (JobQueue.offer_of_ne own).symm
  · intro id job found
    exact JobQueue.offer_of_some found

/-- Without an admin's privilege, each statement keeps to the relation. -/
theorem confined_admits :
    Admits (withoutAdmin reach) (@Confined Dense Sparse reach) where
  refl := Confined.refl
  trans := Confined.trans
  executes now after executed := by
    cases executed with
    | write database change => exact Confined.write change rfl
    | enqueueIngest arguments documentId ofDocument reached isUpload =>
        exact Confined.enqueueIngest reached
    | elapse duration => exact { Confined.refl now with }
    | dropCollection admin => exact admin.elim
    | enqueueRebuild admin => exact admin.elim

end Relation

/-! ## Callers -/

section Callers

variable {Content Dense Sparse Score : Type} {reach : Uuid → Prop}
  {security : Security} {authorization : Option String}
  {headers : Option String → Prop}
  {start now : Platform Dense Sparse} {user : User} {time : Timestamp}

theorem Confined.fresh (confined : Confined reach start now) {row : UserRow}
    (isRow : row ∈ now.rows.users) (isNew : row ∉ start.rows.users) :
    row.id ∉ start.rows.userIds := by
  intro taken
  obtain ⟨other, isOther, sameId⟩ := List.mem_map.mp taken
  obtain ⟨added, isNow, _⟩ := confined.users
  have otherNow : other ∈ now.rows.users := by
    rw [isNow]
    exact List.mem_append_left _ isOther
  have same := List.inj_on_of_nodup_map
    now.database.constraints.unique.users otherNow isRow sameId
  exact isNew (same ▸ isOther)

/-- A user of a later state was a user before, or is a member of no team. -/
theorem Confined.authenticate (confined : Confined reach start now)
    (authenticated :
      Api.authenticate security authorization time now = .ok user) :
    Api.authenticate security authorization time start = .ok user ∨
      user.role = "member" ∧ user.id ∉ start.rows.userIds := by
  obtain ⟨userId, named, found⟩ := getCurrentUser_ok_iff.mp authenticated
  obtain ⟨⟨row, isRow, rfl⟩, isId⟩ := get_user_iff.mp found
  by_cases isOld : row ∈ start.rows.users
  · left
    refine getCurrentUser_ok_iff.mpr ⟨userId, named, ?_⟩
    exact get_user_iff.mpr ⟨⟨row, isOld, rfl⟩, isId⟩
  · right
    exact ⟨(confined.users.mem_cases isRow).resolve_left isOld,
      confined.fresh isRow isOld⟩

theorem Confined.unprivileged (confined : Confined reach start now)
    (unprivileged : Unprivileged security start authorization)
    (authenticated :
      Api.authenticate security authorization time now = .ok user) :
    requireRole .admin user ≠ .ok () := by
  rcases confined.authenticate authenticated with before | ⟨isMember, _⟩
  · exact unprivileged time user before
  · rw [requireRole, isMember]
    decide

theorem teamIds_eq_nil (fresh : user.id ∉ start.rows.userIds) :
    teamIds start.accounts user = [] := by
  refine List.map_eq_nil_iff.mpr (List.filter_eq_nil_iff.mpr ?_)
  intro member isMember same
  apply fresh
  rw [← of_decide_eq_true same]
  exact start.database.constraints.references.memberUser
    (List.mem_map_of_mem isMember)

/-- Whoever is no admin reaches no more later than before. -/
theorem Confined.reaches (confined : Confined reach start now)
    (carried : headers authorization)
    (authenticated :
      Api.authenticate security authorization time now = .ok user)
    {projectId : Uuid}
    (accessible : projectId ∈ getAccessibleProjectIds user start.accounts) :
    Reaches security start headers projectId := by
  rcases confined.authenticate authenticated with before | ⟨isMember, fresh⟩
  · exact ⟨authorization, time, user, carried, before, accessible⟩
  · have isRole : Role.ofString user.role = some .member := by
      rw [isMember]
      rfl
    rw [getAccessibleProjectIds, isRole] at accessible
    simp only [teamIds_eq_nil fresh, if_true, List.not_mem_nil] at accessible

theorem Confined.teamIds (confined : Confined reach start now)
    (user : User) :
    teamIds now.accounts user = teamIds start.accounts user := by
  have members : now.accounts.members = start.accounts.members :=
    confined.members
  rw [Core.teamIds, Core.teamIds, members]

/-- The scope of a user is read in two steps, and is what it was before. -/
theorem findScope_meets {state : Platform Dense Sparse}
    (confined : Confined reach start state)
    (noAdmin : requireRole .admin user ≠ .ok ()) :
    (findScope user).Meets (Confined reach)
      (fun _ result => ∀ accessibleIds, result = .ok accessibleIds →
        accessibleIds = getAccessibleProjectIds user start.accounts)
      state := by
  unfold findScope getAccessibleProjectIds
  cases isRole : Role.ofString user.role with
  | none =>
      rintro _ ⟨⟩
      rfl
  | some role =>
      cases role with
      | member =>
          refine Script.Meets.bind
            (fun _ result => ∀ ids, result = .ok ids →
              ids = Core.teamIds start.accounts user)
            Confined.refl Confined.trans ?_ ?_ ?_
          · refine Script.meets_read Confined.refl ?_
            rintro now moved _ ⟨⟩
            exact (Confined.trans _ _ _ confined moved).teamIds user
          · intro now ids moved isTeams
            rw [isTeams ids rfl]
            dsimp only
            split
            · rintro _ ⟨⟩
              rfl
            · refine Script.meets_read Confined.refl ?_
              rintro later movedOn _ ⟨⟩
              have further := Confined.trans _ _ _ confined
                (Confined.trans _ _ _ moved movedOn)
              have projects :
                  later.rows.projects = start.accounts.projects.rows :=
                further.projects
              dsimp only
              rw [projects]
          · rintro _ _ _ _ _ ⟨⟩
      | admin =>
          exact absurd (by rw [requireRole, isRole]; rfl) noAdmin
      | superAdmin =>
          exact absurd (by rw [requireRole, isRole]; rfl) noAdmin

end Callers

/-! ## Requests -/

section Requests

variable {Content Dense Sparse Score Value : Type} {reach : Uuid → Prop}
  {server : Server Content Dense Sparse Score} {security : Security}
  {authorization : Option String} {headers : Option String → Prop}
  {start state : Platform Dense Sparse} {chance : Chance}

/-- Whatever needs an admin is refused. -/
theorem findAdmin_meets {rest : Caller → Action Dense Sparse Value}
    (confined : Confined reach start state)
    (unprivileged : Unprivileged security start authorization) :
    (findAdmin security authorization >>= rest).Meets (Confined reach)
      (fun _ _ => True) state := by
  refine Script.Meets.bind
    (fun _ result => ∀ caller, result ≠ .ok caller)
    Confined.refl Confined.trans ?_ ?_ ?_
  · refine Script.Meets.bind _ Confined.refl Confined.trans
      (findCaller_meets Confined.refl Confined.trans state) ?_ ?_
    · intro now caller moved found
      obtain ⟨_, time, authenticated⟩ := found caller rfl
      have refused := (Confined.trans _ _ _ confined moved).unprivileged
        unprivileged authenticated
      cases outcome : requireRole .admin caller.user with
      | ok _ => exact absurd outcome refused
      | error failure =>
          rintro _ ⟨⟩
    · rintro now failure _ _ _ ⟨⟩
  · intro now caller _ none
    exact absurd rfl (none caller)
  · intros
    trivial

theorem perform_meets {headers : Option String → Prop}
    (confined :
      Confined (Reaches server.security start headers) start state)
    (carried : headers authorization)
    (unprivileged : Unprivileged server.security start authorization)
    [LinearOrder Score] (command : Command) :
    (perform server authorization chance command).Meets
      (Confined (Reaches server.security start headers))
      (fun _ _ => True) state := by
  have admits := @confined_admits Dense Sparse
    (Reaches server.security start headers)
  cases command with
  | register data => exact admits.answered (admits.register trivial _ data) _ state
  | login data => exact admits.answered (admits.login _ data) _ state
  | getMe => exact admits.answered (admits.findCaller _) _ state
  | uploadDocument projectId filename content =>
      refine Script.Meets.bind _ Confined.refl Confined.trans
        (findCaller_meets Confined.refl Confined.trans state) ?_ ?_
      · intro now caller moved found
        obtain ⟨_, time, authenticated⟩ := found caller rfl
        have confinedNow := Confined.trans _ _ _ confined moved
        have noAdmin := confinedNow.unprivileged unprivileged authenticated
        refine Script.Meets.bind _ Confined.refl Confined.trans
          (findScope_meets confinedNow noAdmin) ?_ ?_
        · intro later accessibleIds _ isScope
          refine admits.answered
            (admits.uploadDocument ?_ trivial trivial _ _ _) _ later
          intro accessible
          rw [isScope accessibleIds rfl] at accessible
          exact confinedNow.reaches carried authenticated accessible
        · intros
          trivial
      · intros
        trivial
  | look request => exact admits.answered (admits.look _ request) _ state
  | _ => exact findAdmin_meets confined unprivileged

/-- Requests whose headers authenticate no admin change nothing but this,
however they interleave, and change nobody's access scope. -/
theorem confined_of_unprivileged [LinearOrder Score]
    (unprivileged : ∀ authorization, headers authorization →
      Unprivileged server.security start authorization)
    {pool : Pool Event (Platform Dense Sparse) HttpError
      (Answer Content Score)}
    (reachable : Reachable
      (served (Event.script server) (Event.carries headers) start) pool) :
    Confined (Reaches server.security start headers) start pool.state ∧
      ∀ row ∈ pool.state.rows.users,
        (row ∈ start.rows.users ∧
          getAccessibleProjectIds row.toUser pool.state.accounts =
            getAccessibleProjectIds row.toUser start.accounts) ∨
        (row.role = "member" ∧
          getAccessibleProjectIds row.toUser pool.state.accounts = []) := by
  have arrives : ∀ event state, Event.carries headers event →
      Confined (Reaches server.security start headers) start state →
      (event.script server).Meets
        (Confined (Reaches server.security start headers))
        (fun _ _ => True) state := by
    intro event state carried confined
    cases event with
    | request authorization command chance =>
        exact perform_meets confined carried
          (unprivileged authorization carried) command
    | elapse duration => exact confined_admits.elapse duration state
  have confined := (promisesKept_of_reachable Confined.refl Confined.trans
    (fun _ _ _ _ _ promised => promised) arrives reachable).state
  refine ⟨confined, fun row isRow => ?_⟩
  have sameScope : getAccessibleProjectIds row.toUser pool.state.accounts =
      getAccessibleProjectIds row.toUser start.accounts := by
    have projects :
        pool.state.accounts.projects.rows = start.accounts.projects.rows :=
      confined.projects
    rw [getAccessibleProjectIds, getAccessibleProjectIds,
      confined.teamIds, projects]
  by_cases isOld : row ∈ start.rows.users
  · exact Or.inl ⟨isOld, sameScope⟩
  · right
    have isMember := (confined.users.mem_cases isRow).resolve_left isOld
    have isRole : Role.ofString row.role = some .member := by
      rw [isMember]
      rfl
    refine ⟨isMember, ?_⟩
    rw [sameScope, getAccessibleProjectIds, isRole]
    exact if_pos (teamIds_eq_nil (confined.fresh isRow isOld))

end Requests

section Sample

/-- A password of at most 4096 characters without a NUL character. -/
def checkPassword (password : String) : Except String Unit :=
  if 4096 < password.length then
    .error "password exceeds maximum allowed size"
  else if storable password then .ok ()
  else .error "bcrypt does not allow NULL bytes in password"

/-- Tokens that carry their expiry in unary, in front of the subject. -/
def sampleSecurity : Security where
  encode claims := String.ofList
    (List.replicate claims.expires '.' ++ claims.subject.toList)
  decodeSubject time token :=
    if time < (token.toList.takeWhile (· = '.')).length * 1000000 then
      some (String.ofList (token.toList.dropWhile (· = '.')))
    else none
  hashPassword salt password := do
    checkPassword password
    if storable (salt ++ password) then return salt ++ password
    else .error "invalid salt"
  hashed_storable := by
    intro salt password hashed isHash
    cases checked : checkPassword password with
    | error message =>
        rw [checked] at isHash
        cases isHash
    | ok _ =>
        rw [checked] at isHash
        dsimp only [bind, Except.bind] at isHash
        split at isHash
        · rename_i isStorable
          cases isHash
          exact isStorable
        · cases isHash
  verifyPassword password hashed := do
    checkPassword password
    return decide (password.toList <:+ hashed.toList)
  expireMinutes := 1

def sampleServer : Server String Unit Unit Nat where
  services := sampleServices
  security := sampleSecurity
  maxUploadSizeMb := 50
  lower := id
  teamOrder := OrderBy.stable _

theorem sampleEmail_storable : storable "ada@example.org" = true := by
  decide

/-- A project of a team with one member. -/
def samplePlatform : Platform Unit Unit where
  clock := 0
  database := {
    rows := {
      users := [{
        id := 5, role := "member", email := "ada@example.org",
        hashedPassword := "saltpassword", isActive := true, createdAt := 0 }]
      teams := [{ id := 3, name := "Crew", createdAt := 0 }]
      members := [{ userId := 5, teamId := 3 }]
      projects := [{
        id := 1, name := "Apollo", description := none, teamId := 3,
        config := [], createdAt := 0 }]
      documents := []
      jobs := []
      tables := { summaries := [], beliefs := [] } }
    constraints := by decide +kernel }
  collections := fun _ => none
  ingestJobs := fun _ => none
  rebuildJobs := fun _ => none

def sampleChance : Chance where
  id := 8
  jobId := 9
  salt := "salt"
  qdrantDown := false
  redisDown := false

/-- The token that the member of the sample is given at time zero. -/
def sampleHeader : Option String :=
  some ("Bearer " ++ sampleSecurity.encode
    (claimsOf sampleSecurity { id := 5, role := "member" } 0))

/-- The member uploads a document. -/
def sampleUpload : List (PoolLabel Event) :=
  .arrive (.request sampleHeader
    (.uploadDocument 1 (some "notes.md") ByteArray.empty) sampleChance) ::
    List.replicate 6 (.advance 0)

def samplePool : Pool Event (Platform Unit Unit) HttpError
    (Answer String Nat) where
  state := samplePlatform
  calls := []

def uploadedPool : Pool Event (Platform Unit Unit) HttpError
    (Answer String Nat) :=
  finalState samplePool
    (trace (poolStep (Event.script sampleServer)) sampleUpload samplePool)

theorem uploadedPool_reachable :
    Reachable
      (served (Event.script sampleServer)
        (Event.carries (· = sampleHeader)) samplePlatform) uploadedPool := by
  refine (served_trace ?_ samplePool).reachable (Reachable.initial rfl) _
    (finalState_mem_visited _ _)
  intro event arrives
  rw [sampleUpload, List.mem_cons, PoolLabel.arrive.injEq] at arrives
  rcases arrives with rfl | later
  · rfl
  · cases List.eq_of_mem_replicate later

theorem sample_unprivileged (authorization : Option String) :
    Unprivileged sampleSecurity samplePlatform authorization := by
  intro time user authenticated
  obtain ⟨_, _, found⟩ := getCurrentUser_ok_iff.mp authenticated
  obtain ⟨⟨row, isRow, rfl⟩, _⟩ := get_user_iff.mp found
  rw [List.mem_singleton.mp isRow]
  decide

theorem sampleUpload_confined :
    uploadedPool.state.rows.documents.map (fun row => row.projectId) = [1] ∧
      Confined (Reaches sampleSecurity samplePlatform (· = sampleHeader))
        samplePlatform uploadedPool.state :=
  ⟨by decide +kernel,
    (@confined_of_unprivileged _ _ _ _ sampleServer _ _ _
      (fun authorization _ => sample_unprivileged authorization) _
      uploadedPool_reachable).1⟩

/-- An admin, a member with one project, and a project of another team. -/
def crewPlatform : Platform Unit Unit :=
  { samplePlatform with
    database := {
      rows := { samplePlatform.rows with
        users := samplePlatform.rows.users ++ [{
          id := 6, role := "admin", email := "grace@example.org",
          hashedPassword := "saltpassword", isActive := true,
          createdAt := 0 }]
        teams := samplePlatform.rows.teams ++
          [{ id := 4, name := "Staff", createdAt := 0 }]
        projects := samplePlatform.rows.projects ++ [{
          id := 2, name := "Gemini", description := none, teamId := 4,
          config := [], createdAt := 0 }] }
      constraints := by decide +kernel } }

def adminHeader : Option String :=
  some ("Bearer " ++ sampleSecurity.encode
    (claimsOf sampleSecurity { id := 6, role := "admin" } 0))

def crewPool : Pool Event (Platform Unit Unit) HttpError
    (Answer String Nat) where
  state := crewPlatform
  calls := []

end Sample

end ProjectMemory.Api
