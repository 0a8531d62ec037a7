import ProjectMemory.Api.Authority

/-!
# A request alone

While nothing else is committed between its statements, a request never runs
into a key of the database: what it checks first is enough.  It is answered,
or refused with a status below 500, and then it has changed nothing.  It fails
with status 500 only where passlib cannot take its password or Postgres one of
its texts, and has changed nothing then either.
-/

namespace ProjectMemory.Api

open Foundation Ingestion ProjectMemory.Core Retrieval

section Clean

variable {Content Dense Sparse Score Value Result : Type}

/-- The generated identifiers are new, and the job queue is up. -/
structure Chance.Fresh (chance : Chance) (platform : Platform Dense Sparse) :
    Prop where
  user : chance.id ∉ platform.rows.userIds
  team : chance.id ∉ platform.rows.teamIds
  project : chance.id ∉ platform.rows.projectIds
  document : chance.id ∉ platform.rows.documentIds
  job : chance.jobId ∉ platform.rows.jobs.map IngestionJob.id
  redis : chance.redisDown = false

abbrev Refusal (failure : HttpError) : Prop :=
  failure.status ∈ [400, 401, 403, 404]

/-- What a request leaves is clean: a refusal or an excused failure has
changed nothing. -/
def Clean (excused : HttpError → Prop) (platform : Platform Dense Sparse)
    (outcome : Except HttpError Value × Platform Dense Sparse) : Prop :=
  ∀ failure, outcome.1 = .error failure →
    (Refusal failure ∨ excused failure) ∧ outcome.2 = platform

variable {platform after : Platform Dense Sparse}
  {excused : HttpError → Prop}

theorem clean_ok (value : Value) :
    Clean excused platform ((.ok value : Except HttpError Value), after) := by
  rintro failure ⟨⟩

theorem clean_finish {result : Except HttpError Value}
    (refusal : ∀ failure, result = .error failure →
      Refusal failure) :
    Clean excused platform ((Script.finish result).run platform) :=
  fun failure failed => ⟨Or.inl (refusal failure failed), rfl⟩

theorem clean_excused {failure : HttpError} (isExcused : excused failure) :
    Clean excused platform
      ((Script.finish (.error failure) : Action Dense Sparse Value).run
        platform) := by
  rintro other ⟨⟩
  exact ⟨Or.inr isExcused, rfl⟩

/-- A clean first part that changes nothing, and a clean rest. -/
theorem clean_bind {script : Action Dense Sparse Value}
    {rest : Value → Action Dense Sparse Result}
    (clean : Clean excused platform (script.run platform))
    (continues : ∀ value changed, script.run platform = (.ok value, changed) →
      Clean excused platform ((rest value).run changed)) :
    Clean excused platform ((script >>= rest).run platform) := by
  rw [Script.run_bind]
  cases outcome : script.run platform with
  | mk result changed =>
      cases result with
      | ok value => exact continues value changed outcome
      | error failure =>
          rintro other ⟨⟩
          rw [outcome] at clean
          exact clean failure rfl

/-- The rest of a script whose first part changes nothing. -/
theorem clean_bind_of_run {script : Action Dense Sparse Value}
    {rest : Value → Action Dense Sparse Result}
    (result : Except HttpError Value)
    (ran : script.run platform = (result, platform))
    (refusal : ∀ failure, result = .error failure → Refusal failure)
    (continues : ∀ value, result = .ok value →
      Clean excused platform ((rest value).run platform)) :
    Clean excused platform ((script >>= rest).run platform) := by
  refine clean_bind ?_ ?_
  · rw [ran]
    exact fun failure failed => ⟨Or.inl (refusal failure failed), rfl⟩
  · intro value changed outcome
    rw [ran] at outcome
    cases outcome
    exact continues value rfl

theorem clean_read {view : Platform Dense Sparse → Value}
    {rest : Value → Action Dense Sparse Result}
    (continues : Clean excused platform ((rest (view platform)).run platform)) :
    Clean excused platform ((Script.read view >>= rest).run platform) := by
  refine clean_bind_of_run _ (Script.run_read view platform) ?_ ?_
  · rintro _ ⟨⟩
  · rintro _ ⟨⟩
    exact continues

theorem clean_finish_bind {result : Except HttpError Value}
    {rest : Value → Action Dense Sparse Result}
    (refusal : ∀ failure, result = .error failure → Refusal failure)
    (continues : ∀ value, result = .ok value →
      Clean excused platform ((rest value).run platform)) :
    Clean excused platform ((Script.finish result >>= rest).run platform) :=
  clean_bind_of_run _ (Script.run_finish result platform) refusal continues

theorem run_commit {change : Rows → Rows}
    (valid : (change platform.rows).Constraints) :
    (commit change).run platform =
      (.ok (), { platform with database := ⟨change platform.rows, valid⟩ }) :=
    by
  rw [commit, Script.run_transaction, Database.commit_of_constraints valid]
  rfl

theorem run_refresh {view : Rows → Option Value} (row : Value)
    (present : view platform.rows = some row) :
    (refresh view).run platform = (.ok row, platform) := by
  rw [refresh, Script.run_transaction, present]

theorem run_commit_text {change : Rows → Rows}
    (noText : ¬ (change platform.rows).Texts) :
    (commit change).run platform =
      (.error (internal "DBAPIError"), platform) := by
  have broken : ¬ (change platform.rows).Constraints :=
    fun valid => noText valid.texts
  rw [commit, Script.run_transaction, Database.commit, dif_neg broken,
    if_neg noText]
  rfl

/-- A commit that keeps the constraints as far as it can store its texts. -/
theorem clean_commit {change : Rows → Rows} {isStorable : Bool}
    {rest : Unit → Action Dense Sparse Result}
    (noText : isStorable = false → ¬ (change platform.rows).Texts)
    (isExcused : isStorable = false → excused (internal "DBAPIError"))
    (keeps : isStorable = true → (change platform.rows).Constraints)
    (continues : ∀ valid, Clean excused platform ((rest ()).run
      { platform with database := ⟨change platform.rows, valid⟩ })) :
    Clean excused platform ((commit change >>= rest).run platform) := by
  rw [Script.run_bind]
  cases isStorable with
  | true =>
      rw [run_commit (keeps rfl)]
      exact continues (keeps rfl)
  | false =>
      rw [run_commit_text (noText rfl)]
      rintro failure ⟨⟩
      exact ⟨Or.inr (isExcused rfl), rfl⟩

/-- A row is written and read back. -/
theorem clean_store {change : Rows → Rows} {view : Rows → Option Value}
    {isStorable : Bool} (row : Value)
    (noText : isStorable = false → ¬ (change platform.rows).Texts)
    (isExcused : isStorable = false → excused (internal "DBAPIError"))
    (keeps : isStorable = true → (change platform.rows).Constraints)
    (present : view (change platform.rows) = some row) :
    Clean excused platform
      ((commit change >>= fun _ => refresh view).run platform) := by
  refine clean_commit noText isExcused keeps fun valid => ?_
  rw [run_refresh row present]
  exact clean_ok row

theorem clean_answer {script : Action Dense Sparse Value}
    (clean : Clean excused platform (script.run platform)) (answer : Value → Result) :
    Clean excused platform
      ((script >>= fun value => pure (answer value)).run platform) := by
  refine clean_bind clean fun value changed _ => ?_
  exact clean_ok (answer value)

end Clean

/-! ## Dependencies -/

section Dependencies

variable {Content Dense Sparse Score Result : Type}
  {platform : Platform Dense Sparse} {security : Security}
  {authorization : Option String} {excused : HttpError → Prop}

theorem authenticate_error {time : Timestamp} {failure : HttpError}
    (failed : authenticate security authorization time platform =
      .error failure) : failure = unauthorized := by
  unfold authenticate getCurrentUser at failed
  split at failed
  · cases failed
    rfl
  · dsimp only at failed
    split at failed
    · cases failed
      rfl
    · split at failed
      · cases failed
        rfl
      · split at failed
        · cases failed
          rfl
        · cases failed

/-- The caller, for a request that is alone. -/
def callerOf (security : Security) (authorization : Option String)
    (platform : Platform Dense Sparse) : Except HttpError Caller := do
  let user ← authenticate security authorization platform.clock platform
  match userRow platform.rows user.id with
  | none => .error unauthorized
  | some row => return { row := row, began := platform.clock }

theorem run_findCaller :
    (findCaller security authorization).run platform =
      (callerOf security authorization platform, platform) := by
  rw [findCaller, now, Script.run_bind, Script.run_read]
  dsimp only
  rw [Script.run_transaction, callerOf]
  cases authenticate security authorization platform.clock platform with
  | error failure => rfl
  | ok user =>
      simp only [bind, Except.bind]
      cases userRow platform.rows user.id <;> rfl

theorem callerOf_error {failure : HttpError}
    (failed : callerOf security authorization platform = .error failure) :
    Refusal failure := by
  unfold callerOf at failed
  cases authenticated :
      authenticate security authorization platform.clock platform with
  | error other =>
      rw [authenticated] at failed
      cases failed
      rw [authenticate_error authenticated]
      decide
  | ok user =>
      rw [authenticated] at failed
      simp only [bind, Except.bind] at failed
      split at failed
      · cases failed
        decide
      · cases failed

theorem clean_findCaller {rest : Caller → Action Dense Sparse Result}
    (continues : ∀ caller, Clean excused platform ((rest caller).run platform)) :
    Clean excused platform
      ((findCaller security authorization >>= rest).run platform) :=
  clean_bind_of_run _ run_findCaller (fun _ => callerOf_error)
    fun caller _ => continues caller

theorem requireRole_error {required : Role} {user : User}
    {failure : HttpError} (failed : requireRole required user =
      .error failure) : Refusal failure := by
  unfold requireRole at failed
  split at failed
  · cases failed
    decide
  · split at failed
    · cases failed
    · cases failed
      decide

theorem clean_findAdmin {rest : Caller → Action Dense Sparse Result}
    (continues : ∀ caller, Clean excused platform ((rest caller).run platform)) :
    Clean excused platform
      ((findAdmin security authorization >>= rest).run platform) := by
  have ran : (findAdmin security authorization).run platform =
      ((do
        let caller ← callerOf security authorization platform
        requireRole .admin caller.user
        return caller), platform) := by
    rw [findAdmin, Script.run_bind, run_findCaller]
    cases callerOf security authorization platform with
    | error failure => rfl
    | ok caller =>
        dsimp only
        rw [Script.run_bind, Script.run_finish]
        simp only [bind, Except.bind]
        cases requireRole .admin caller.user <;> rfl
  refine clean_bind_of_run _ ran ?_ fun caller _ => continues caller
  intro failure failed
  cases found : callerOf security authorization platform with
  | error other =>
      rw [found] at failed
      cases failed
      exact callerOf_error found
  | ok caller =>
      rw [found] at failed
      cases role : requireRole .admin caller.user with
      | error other =>
          simp only [bind, Except.bind, role] at failed
          cases failed
          exact requireRole_error role
      | ok _ =>
          simp only [bind, Except.bind, role] at failed
          cases failed

theorem run_findScope (user : User) :
    (findScope user).run platform =
      (.ok (getAccessibleProjectIds user platform.accounts), platform) := by
  unfold findScope getAccessibleProjectIds
  cases Role.ofString user.role with
  | none => rfl
  | some role =>
      cases role with
      | member =>
          dsimp only
          rw [Script.run_bind, Script.run_read]
          dsimp only
          split
          · rfl
          · rfl
      | admin => rfl
      | superAdmin => rfl

theorem clean_findScope {user : User}
    {rest : List Uuid → Action Dense Sparse Result}
    (continues : Clean excused platform
      ((rest (getAccessibleProjectIds user platform.accounts)).run
        platform)) :
    Clean excused platform ((findScope user >>= rest).run platform) := by
  refine clean_bind_of_run _ (run_findScope user) ?_ ?_
  · rintro _ ⟨⟩
  · rintro _ ⟨⟩
    exact continues

theorem checkAccess_error {projectId : Uuid} {accessibleIds : List Uuid}
    {detail : String} {failure : HttpError}
    (failed : checkAccess projectId accessibleIds detail = .error failure) :
    Refusal failure := by
  unfold checkAccess at failed
  split at failed
  · cases failed
    simp [Refusal, accessDenied]
  · cases failed

theorem accessible_subset (user : User) :
    getAccessibleProjectIds user platform.accounts ⊆
      platform.rows.projectIds := by
  obtain ⟨part, isPart⟩ := accessible_eq_map_filter user platform.accounts
  rw [isPart]
  exact List.map_subset _ (List.filter_subset_self _)

end Dependencies

/-! ## What may fail -/

/-- Postgres takes the texts of a request. -/
def Command.storable : Command → Bool
  | .createTeam data => ProjectMemory.storable data.name
  | .createProject data =>
      ProjectMemory.storable data.name &&
        data.description.all ProjectMemory.storable &&
        (Json.obj data.config).storable
  | .updateProject _ data =>
      data.name.all ProjectMemory.storable &&
        data.description.all ProjectMemory.storable
  | .uploadDocument _ filename _ => filename.all ProjectMemory.storable
  | _ => true

/-- Passlib does not take the password of the request, or Postgres not one of
its texts. -/
inductive Command.Fails (security : Security) (chance : Chance)
    (rows : Rows) : Command → HttpError → Prop where
  | hash {data : UserCreate} {message : String} :
      security.hashPassword chance.salt data.password = .error message →
      Fails security chance rows (.register data) (internal message)
  | verify {data : LoginRequest} {row : UserRow} {message : String} :
      emailOf data.email rows = some row →
      security.verifyPassword data.password row.hashedPassword =
        .error message →
      Fails security chance rows (.login data) (internal message)
  | text {command : Command} :
      command.storable = false →
      Fails security chance rows command (internal "DBAPIError")

/-! ## Services -/

section Services

variable {Content Dense Sparse Score : Type}
  {server : Server Content Dense Sparse Score}
  {platform after : Platform Dense Sparse} {security : Security}
  {authorization : Option String} {chance : Chance}
  {excused : HttpError → Prop}

theorem clean_register (fresh : chance.Fresh platform) (data : UserCreate)
    (hashFails : ∀ message,
      security.hashPassword chance.salt data.password = .error message →
        excused (internal message)) :
    Clean excused platform ((register security data chance).run platform) := by
  refine clean_read ?_
  cases found : emailOf data.email platform.rows with
  | some row =>
      refine clean_finish ?_
      rintro _ ⟨⟩
      simp [Refusal, alreadyRegistered]
  | none =>
      cases isHash : security.hashPassword chance.salt data.password with
      | error message => exact clean_excused (hashFails message isHash)
      | ok hashed =>
          let user := newUser data hashed chance platform.clock
          have isStorable := storable_newUser data chance platform.clock isHash
          have valid := @Rows.Constraints.insertUser _
            platform.database.constraints user fresh.user
            (find_key_eq_none.mp found) isStorable
          rw [Script.run_bind, run_commit valid]
          dsimp only
          rw [run_refresh user (find_key_snoc fresh.user)]
          exact clean_ok user

theorem clean_login (data : LoginRequest)
    (verifyFails : ∀ row message, emailOf data.email platform.rows = some row →
      security.verifyPassword data.password row.hashedPassword =
        .error message → excused (internal message)) :
    Clean excused platform ((login security data).run platform) := by
  refine clean_read ?_
  cases found : emailOf data.email platform.rows with
  | none =>
      refine clean_finish ?_
      rintro _ ⟨⟩
      decide
  | some row =>
      dsimp only
      split
      · rename_i message failed
        exact clean_excused (verifyFails row message found failed)
      · refine clean_finish ?_
        rintro _ ⟨⟩
        decide
      · exact clean_read (clean_ok _)

theorem clean_createTeam (fresh : chance.Fresh platform) (data : TeamCreate)
    (began : Timestamp)
    (textFails : (Command.createTeam data).storable = false →
      excused (internal "DBAPIError")) :
    Clean excused platform ((createTeam data chance began).run platform) := by
  refine clean_store (newTeam data chance began) ?_ textFails ?_ ?_
  · intro notStorable texts
    have isStorable := texts.teams (newTeam data chance began)
      List.mem_concat_self
    exact Bool.false_ne_true (notStorable.symm.trans isStorable)
  · exact @Rows.Constraints.insertTeam _ platform.database.constraints
      (newTeam data chance began) fresh.team
  · exact find_key_snoc fresh.team

theorem run_findCaller_ok {security : Security} {caller : Caller}
    (returned : (findCaller security authorization).run platform =
      (.ok caller, after)) : after = platform := by
  rw [run_findCaller] at returned
  exact (Prod.mk.inj returned).2.symm

theorem run_findAdmin_ok {security : Security} {caller : Caller}
    (returned : (findAdmin security authorization).run platform =
      (.ok caller, after)) : after = platform := by
  obtain ⟨found, between, isFound, rest⟩ := Script.run_bind_eq_ok returned
  have same := run_findCaller_ok isFound
  obtain ⟨_, last, checked, returned⟩ := Script.run_bind_eq_ok rest
  rw [Script.run_finish] at checked
  rw [Script.run_pure] at returned
  rw [← (Prod.mk.inj returned).2, ← (Prod.mk.inj checked).2, same]

/-- The rest of a script after the check that a row is there. -/
theorem clean_requireRow {Row Result : Type} {view : Rows → Option Row}
    {missing : HttpError} {rest : Unit → Action Dense Sparse Result}
    (refusal : Refusal missing)
    (continues : ∀ row, view platform.rows = some row →
      Clean excused platform ((rest ()).run platform)) :
    Clean excused platform
      ((requireRow missing view >>= rest).run platform) := by
  cases found : view platform.rows with
  | none =>
      refine clean_bind_of_run (.error missing) ?_ ?_ ?_
      · rw [requireRow, Script.run_bind, select, Script.run_read, found]
        rfl
      · rintro _ ⟨⟩
        exact refusal
      · rintro _ ⟨⟩
  | some row =>
      refine clean_bind_of_run (.ok ()) ?_ ?_ ?_
      · rw [requireRow, Script.run_bind, select, Script.run_read, found]
        rfl
      · rintro _ ⟨⟩
      · exact fun _ _ => continues row found

theorem clean_requireTeam {teamId : Uuid} {Result : Type}
    {rest : Unit → Action Dense Sparse Result}
    (continues : teamId ∈ platform.rows.teamIds →
      Clean excused platform ((rest ()).run platform)) :
    Clean excused platform ((requireTeam teamId >>= rest).run platform) := by
  refine clean_requireRow (by simp [Refusal, teamMissing]) ?_
  intro row found
  obtain ⟨isRow, rfl⟩ := find_key_eq_some found
  exact continues (List.mem_map_of_mem isRow)

theorem clean_requireUser {userId : Uuid} {Result : Type}
    {rest : Unit → Action Dense Sparse Result}
    (continues : userId ∈ platform.rows.userIds →
      Clean excused platform ((rest ()).run platform)) :
    Clean excused platform ((requireUser userId >>= rest).run platform) := by
  refine clean_requireRow (by simp [Refusal, userMissing]) ?_
  intro row found
  obtain ⟨isRow, rfl⟩ := find_key_eq_some found
  exact continues (List.mem_map_of_mem isRow)

theorem clean_addMember (member : TeamMember) :
    Clean excused platform ((addMember member).run platform) := by
  refine clean_requireTeam fun isTeam => clean_requireUser fun isUser =>
    clean_read ?_
  by_cases isMember : member ∈ platform.rows.members
  · rw [if_pos (decide_eq_true isMember)]
    refine clean_finish ?_
    rintro _ ⟨⟩
    simp [Refusal, alreadyMember]
  · rw [if_neg (by simpa using isMember)]
    rw [run_commit (platform.database.constraints.insertMember isMember isUser
      isTeam)]
    exact clean_ok ()

theorem clean_removeMember (member : TeamMember) :
    Clean excused platform ((removeMember member).run platform) := by
  refine clean_requireTeam fun _ => clean_read ?_
  by_cases isMember : member ∈ platform.rows.members
  · rw [if_pos (decide_eq_true isMember),
      run_commit (platform.database.constraints.deleteMember member)]
    exact clean_ok ()
  · rw [if_neg (by simpa using isMember)]
    refine clean_finish ?_
    rintro _ ⟨⟩
    simp [Refusal, memberMissing]

theorem clean_createProject (fresh : chance.Fresh platform)
    (data : ProjectCreate) (began : Timestamp)
    (textFails : (Command.createProject data).storable = false →
      excused (internal "DBAPIError")) :
    Clean excused platform
      ((createProject data chance began).run platform) := by
  refine clean_read ?_
  cases found : teamRow platform.rows data.teamId with
  | none =>
      simp only [ProjectCreate.create, found, Option.isSome_none,
        Bool.false_eq_true, if_false]
      refine clean_finish ?_
      rintro _ ⟨⟩
      simp [Refusal]
  | some row =>
      obtain ⟨isRow, isTeam⟩ := find_key_eq_some found
      simp only [ProjectCreate.create, found, Option.isSome_some, if_true]
      let project : Project := {
        id := chance.id
        name := data.name
        description := data.description
        teamId := data.teamId
        config := data.config
        createdAt := began }
      refine clean_store project ?_ textFails ?_ ?_
      · intro notStorable texts
        have isStorable := texts.projects project List.mem_concat_self
        exact Bool.false_ne_true (notStorable.symm.trans isStorable)
      · refine @Rows.Constraints.insertProject _
          platform.database.constraints project fresh.project ?_
        change data.teamId ∈ platform.rows.teamIds
        rw [← isTeam]
        exact List.mem_map_of_mem isRow
      · exact @find_key_snoc _ _ _ Project.id _ project fresh.project

theorem clean_findProject {projectId : Uuid} {accessibleIds : List Uuid}
    {Result : Type} {rest : Project → Action Dense Sparse Result}
    (continues : ∀ project, projectRow platform.rows projectId =
        some project → Clean excused platform ((rest project).run platform)) :
    Clean excused platform
      ((findProject projectId accessibleIds >>= rest).run platform) := by
  cases found : projectRow platform.rows projectId with
  | none =>
      have ran : (findProject projectId accessibleIds).run platform =
          (.error (projectMissing projectId), platform) := by
        rw [findProject, Script.run_bind, select, Script.run_read, found]
        rfl
      refine clean_bind_of_run _ ran ?_ ?_
      · rintro _ ⟨⟩
        simp [Refusal, projectMissing]
      · rintro _ ⟨⟩
  | some project =>
      have ran : (findProject projectId accessibleIds).run platform =
          ((checkAccess projectId accessibleIds
            (outsideScope projectId)).map (fun _ => project), platform) := by
        rw [findProject, Script.run_bind, select, Script.run_read, found]
        dsimp only
        rw [Script.run_bind, Script.run_finish]
        cases checkAccess projectId accessibleIds
          (outsideScope projectId) <;> rfl
      refine clean_bind_of_run _ ran ?_ ?_
      · intro failure failed
        cases checked : checkAccess projectId accessibleIds
            (outsideScope projectId) with
        | ok _ =>
            rw [checked] at failed
            cases failed
        | error other =>
            rw [checked] at failed
            cases failed
            exact checkAccess_error checked
      · intro other isOther
        cases checked : checkAccess projectId accessibleIds
            (outsideScope projectId) with
        | ok _ =>
            rw [checked] at isOther
            cases isOther
            exact continues project found
        | error _ =>
            rw [checked] at isOther
            cases isOther

theorem mem_projectIds {projectId : Uuid} {project : Project}
    (found : projectRow platform.rows projectId = some project) :
    projectId ∈ platform.rows.projectIds := by
  obtain ⟨isRow, rfl⟩ := find_key_eq_some found
  exact List.mem_map_of_mem isRow

theorem change_self (data : ProjectUpdate) (read : Project) :
    data.change read read =
      { read with
        name := data.name.getD read.name
        description := data.description.or read.description } := by
  have name : (data.change read read).name = data.name.getD read.name := by
    cases isName : data.name with
    | none => simp only [ProjectUpdate.change, isName, Option.getD_none]
    | some name =>
        simp only [ProjectUpdate.change, isName, Option.getD_some]
        split
        · rename_i same
          exact same.symm
        · rfl
  have description : (data.change read read).description =
      data.description.or read.description := by
    cases isDescription : data.description with
    | none => simp only [ProjectUpdate.change, isDescription, Option.none_or]
    | some description =>
        simp only [ProjectUpdate.change, isDescription, Option.some_or]
        split
        · rename_i same
          exact same.symm
        · rfl
  rw [← name, ← description]
  rfl

/-- An update stores what it sets and keeps the rest. -/
theorem storable_change {projectId : Uuid} {data : ProjectUpdate}
    (isStorable : (Command.updateProject projectId data).storable = true)
    (read row : Project) (wasStorable : projectStorable row = true) :
    projectStorable (data.change read row) = true := by
  rw [Command.storable, Bool.and_eq_true] at isStorable
  unfold projectStorable at wasStorable ⊢
  simp only [Bool.and_eq_true] at wasStorable ⊢
  obtain ⟨⟨name, description⟩, config⟩ := wasStorable
  refine ⟨⟨?_, ?_⟩, config⟩
  · unfold ProjectUpdate.change
    cases isName : data.name with
    | none => exact name
    | some other =>
        dsimp only
        rw [isName] at isStorable
        split
        · exact name
        · exact isStorable.1
  · unfold ProjectUpdate.change
    cases isDescription : data.description with
    | none => exact description
    | some other =>
        dsimp only
        rw [isDescription] at isStorable
        split
        · exact description
        · exact isStorable.2

/-- What was read is not what cannot be stored. -/
theorem storable_of_change {projectId : Uuid} {data : ProjectUpdate}
    {read : Project}
    (isStorable : projectStorable (data.change read read) = true) :
    (Command.updateProject projectId data).storable = true := by
  rw [change_self] at isStorable
  unfold projectStorable at isStorable
  simp only [Bool.and_eq_true] at isStorable
  obtain ⟨⟨name, description⟩, _⟩ := isStorable
  rw [Command.storable, Bool.and_eq_true]
  constructor
  · cases isName : data.name with
    | none => rfl
    | some other =>
        rw [isName] at name
        exact name
  · cases isDescription : data.description with
    | none => rfl
    | some other =>
        rw [isDescription] at description
        exact description

theorem clean_updateProject {projectId : Uuid} (data : ProjectUpdate)
    (accessibleIds : List Uuid)
    (textFails : (Command.updateProject projectId data).storable = false →
      excused (internal "DBAPIError")) :
    Clean excused platform
      ((updateProject projectId data accessibleIds).run platform) := by
  refine clean_findProject fun project found => ?_
  obtain ⟨isRow, isId⟩ := find_key_eq_some found
  by_cases changes : data.changes project = true
  · have flushes : (flushUpdate data project).run platform =
        (commit (Rows.updateProject · project.id (data.change project))).run
          platform := by
      rw [← isId] at found
      rw [flushUpdate, if_pos changes, Script.run_transaction, commit,
        Script.run_transaction]
      simp only [found]
    rw [Script.run_bind, flushes, ← Script.run_bind]
    refine clean_commit ?_ textFails ?_ ?_
    · intro notStorable texts
      have isChanged : data.change project project ∈
          (platform.rows.updateProject project.id
            (data.change project)).projects :=
        List.mem_map.mpr ⟨project, isRow, if_pos rfl⟩
      have isStorable := @storable_of_change projectId _ _
        (texts.projects _ isChanged)
      exact Bool.false_ne_true (notStorable.symm.trans isStorable)
    · intro isStorable
      exact platform.database.constraints.updateProject (fun _ => rfl)
        (fun _ => rfl) (storable_change isStorable project)
    · intro valid
      cases after : projectRow (platform.rows.updateProject project.id
          (data.change project)) projectId with
      | none =>
          exfalso
          refine find_key_eq_none.mp after ?_
          have sameIds := @Rows.projectIds_updateProject platform.rows
            project.id (data.change project) fun _ => rfl
          change projectId ∈ Rows.projectIds _
          rw [sameIds, ← isId]
          exact List.mem_map_of_mem isRow
      | some row =>
          rw [run_refresh row after]
          exact clean_ok row
  · rw [Script.run_bind, flushUpdate, if_neg changes, Script.run_pure]
    dsimp only
    rw [run_refresh project found]
    exact clean_ok project

theorem clean_deleteProject {projectId : Uuid} (accessibleIds : List Uuid) :
    Clean excused platform
      ((deleteProject projectId accessibleIds chance).run platform) := by
  refine clean_findProject fun project found => ?_
  rw [Script.run_bind,
    run_commit (platform.database.constraints.deleteProject projectId)]
  dsimp only
  rw [dropCollection, Script.run_transaction]
  split
  · exact clean_ok _
  · rename_i failure refused
    split at refused <;> cases refused

theorem clean_upload (fresh : chance.Fresh platform)
    {lower : String → String} {projectId : Uuid} {filename : String}
    {fileType : FileType} {content : ByteArray} {accessibleIds : List Uuid}
    (began : Timestamp) (known : accessibleIds ⊆ platform.rows.projectIds)
    (textFails : storable filename = false →
      excused (internal "DBAPIError")) :
    Clean excused platform
      ((DocumentService.upload lower projectId filename fileType content
        accessibleIds chance began).run platform) := by
  refine clean_finish_bind (fun _ => checkAccess_error) fun _ checked => ?_
  dsimp only
  split
  · refine clean_finish ?_
    rintro _ ⟨⟩
    simp [Refusal]
  · have isProject : projectId ∈ platform.rows.projectIds := by
      unfold checkAccess at checked
      split at checked
      · cases checked
      · rename_i accessible
        exact known (not_not.mp accessible)
    refine clean_commit (fun notStorable texts => ?_) textFails
      (fun isStorable => ?_) fun valid => ?_
    · have isStorable := texts.documents
        (newDocument projectId filename fileType content chance began)
        List.mem_concat_self
      rw [StoredFile.storable, Bool.and_eq_true] at isStorable
      exact Bool.false_ne_true (notStorable.symm.trans isStorable.1)
    · refine platform.database.constraints.insertUpload fresh.document
        fresh.job isProject rfl rfl ?_ rfl
      have typeStorable : storable fileType.value = true := by
        cases fileType <;> decide
      rw [StoredFile.storable, Bool.and_eq_true]
      exact ⟨isStorable, typeStorable⟩
    · rw [Script.run_bind, enqueueIngest, Script.run_transaction]
      simp only [fresh.redis, Bool.false_eq_true, if_false]
      exact clean_ok _

theorem clean_uploadDocument (fresh : chance.Fresh platform)
    {projectId : Uuid} (filename : Option String) (content : ByteArray)
    {accessibleIds : List Uuid} (began : Timestamp)
    (known : accessibleIds ⊆ platform.rows.projectIds)
    (textFails :
      (Command.uploadDocument projectId filename content).storable = false →
        excused (internal "DBAPIError")) :
    Clean excused platform
      ((uploadDocument server projectId filename content accessibleIds chance
        began).run platform) := by
  cases typed : extensionToFileType
      (getExtension server.lower (filename.getD "")) with
  | none =>
      simp only [uploadDocument, typed]
      refine clean_finish ?_
      rintro _ ⟨⟩
      simp [Refusal]
  | some fileType =>
      simp only [uploadDocument, typed]
      split
      · refine clean_finish ?_
        rintro _ ⟨⟩
        simp [Refusal]
      · refine clean_upload fresh began known fun notStorable => ?_
        refine textFails ?_
        cases filename with
        | none => exact absurd notStorable (by decide)
        | some name =>
            dsimp only [Option.getD_some] at notStorable
            split at notStorable
            · exact absurd notStorable (by decide)
            · exact notStorable

theorem clean_requestRebuild (fresh : chance.Fresh platform)
    {projectId : Uuid} (mode : Cag.Mode) (accessibleIds : List Uuid) :
    Clean excused platform
      ((requestRebuild projectId mode accessibleIds chance).run
        platform) := by
  refine clean_finish_bind (fun _ => checkAccess_error) fun _ _ => ?_
  rw [Script.run_transaction]
  simp only [fresh.redis, Bool.false_eq_true, if_false]
  exact clean_ok _

/-- Alone, a request whose generated identifiers are new is answered, or
refused with a status below 500, or fails because passlib does not take its
password or Postgres not one of its texts.  Unless it is answered, it has
changed nothing. -/
theorem perform_clean [LinearOrder Score] (fresh : chance.Fresh platform)
    (command : Command) (isWrite : ∀ request, command ≠ .look request) :
    Clean (command.Fails server.security chance platform.rows) platform
      ((perform server authorization chance command).run platform) := by
  cases command with
  | register data =>
      exact clean_answer (clean_register fresh data fun _ failed =>
        .hash failed) _
  | login data =>
      exact clean_answer (clean_login data fun _ _ found failed =>
        .verify found failed) _
  | getMe => exact clean_findCaller fun caller => clean_ok _
  | createTeam data =>
      exact clean_findAdmin fun caller =>
        clean_answer (clean_createTeam fresh data _ .text) _
  | listTeams => exact clean_findAdmin fun _ => clean_read (clean_ok _)
  | addTeamMember member =>
      exact clean_findAdmin fun _ =>
        clean_answer (clean_addMember member) _
  | removeTeamMember member =>
      exact clean_findAdmin fun _ =>
        clean_answer (clean_removeMember member) _
  | createProject data =>
      exact clean_findAdmin fun caller =>
        clean_answer (clean_createProject fresh data _ .text) _
  | updateProject projectId data =>
      exact clean_findAdmin fun caller => clean_findScope
        (clean_answer (clean_updateProject data _ .text) _)
  | deleteProject projectId =>
      exact clean_findAdmin fun caller => clean_findScope
        (clean_answer (clean_deleteProject _) _)
  | uploadDocument projectId filename content =>
      exact clean_findCaller fun caller => clean_findScope
        (clean_answer (clean_uploadDocument fresh filename content _
          (accessible_subset _) .text) _)
  | rebuildCag projectId mode =>
      exact clean_findAdmin fun caller => clean_findScope
        (clean_answer (clean_requestRebuild fresh mode _) _)
  | look request => exact absurd rfl (isWrite request)

end Services

section Sample

def sampleDuplicate : UserCreate where
  email := "ada@example.org"
  password := "password"
  password_long := by decide
  email_storable := sampleEmail_storable

/-- A team whose name ends with a NUL character. -/
def unstorableTeam : TeamCreate where
  name := String.ofList ['c', 'r', 'e', 'w', Char.ofNat 0]
  name_long := by decide

theorem sampleChance_fresh : sampleChance.Fresh samplePlatform := by
  constructor <;> decide

theorem sampleChance_fresh_crew : sampleChance.Fresh crewPlatform := by
  constructor <;> decide

/-- The email is registered already; the name of the team cannot be stored. -/
theorem sampleDuplicate_clean :
    ((perform sampleServer none sampleChance
        (.register sampleDuplicate)).run samplePlatform).2 =
          samplePlatform ∧
      (Command.createTeam unstorableTeam).Fails sampleSecurity sampleChance
        crewPlatform.rows (internal "DBAPIError") ∧
      ((perform sampleServer adminHeader sampleChance
        (.createTeam unstorableTeam)).run crewPlatform).2 = crewPlatform := by
  have duplicate := @perform_clean String Unit Unit Nat sampleServer _ none
    _ _ sampleChance_fresh (.register sampleDuplicate)
    (fun _ => by rintro ⟨⟩) (alreadyRegistered "ada@example.org") rfl
  have unstorable := @perform_clean String Unit Unit Nat sampleServer _
    adminHeader _ _ sampleChance_fresh_crew (.createTeam unstorableTeam)
    (fun _ => by rintro ⟨⟩) (internal "DBAPIError") rfl
  refine ⟨duplicate.2, unstorable.1.resolve_left ?_, unstorable.2⟩
  decide

end Sample

end ProjectMemory.Api
