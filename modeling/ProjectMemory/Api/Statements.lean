import ProjectMemory.Api.Commands

/-!
# What a statement can do

Every statement of a request reads, or changes the platform in one of a few
ways.  A relation between states that these keep is kept by every request.
-/

namespace ProjectMemory.Api

open Foundation Ingestion ProjectMemory.Core Retrieval

/-- What requests may do: whether an admin makes them, the projects they may
upload to, the identifiers their rows draw, and what they change of
projects. -/
structure Powers where
  privileged : Prop
  reach : Uuid → Prop
  drawn : Uuid → Prop
  /-- The job, the document and the project of an upload. -/
  uploads : Uuid → Uuid → Uuid → Prop
  updates : Uuid → (Project → Project) → Prop

/-- What a transaction of the API does to the rows. -/
inductive RowChange (powers : Powers) (rows : Rows) : Rows → Prop where
  | insertUser (row : UserRow) (isMember : row.role = "member")
      (isDrawn : powers.drawn row.id) :
      RowChange powers rows (rows.insertUser row)
  | insertUpload (document : StoredFile) (job : IngestionJob)
      (isPending : job.status = .pending)
      (sameProject : job.projectId = document.projectId)
      (ofDocument : job.documentId = some document.id)
      (reached : powers.reach document.projectId)
      (isDrawn : powers.drawn document.id)
      (isUpload : powers.uploads job.id document.id document.projectId) :
      RowChange powers rows (rows.insertUpload document job)
  | insertTeam (admin : powers.privileged) (row : TeamRow)
      (isDrawn : powers.drawn row.id) :
      RowChange powers rows (rows.insertTeam row)
  | insertMember (admin : powers.privileged) (row : TeamMember) :
      RowChange powers rows (rows.insertMember row)
  | deleteMember (admin : powers.privileged) (row : TeamMember) :
      RowChange powers rows (rows.deleteMember row)
  | insertProject (admin : powers.privileged) (row : Project)
      (isDrawn : powers.drawn row.id) :
      RowChange powers rows (rows.insertProject row)
  | updateProject (admin : powers.privileged) (projectId : Uuid)
      (change : Project → Project)
      (sameId : ∀ row, (change row).id = row.id)
      (sameTeam : ∀ row, (change row).teamId = row.teamId)
      (isUpdate : powers.updates projectId change) :
      RowChange powers rows (rows.updateProject projectId change)
  | deleteProject (admin : powers.privileged) (projectId : Uuid) :
      RowChange powers rows (rows.deleteProject projectId)

section Statements

variable {Content Dense Sparse Score Value : Type}

/-- What a statement does to the platform, if it does anything. -/
inductive Executes (powers : Powers) (now : Platform Dense Sparse) :
    Platform Dense Sparse → Prop where
  | write (database : Database)
      (change : RowChange powers now.rows database.rows) :
      Executes powers now { now with database := database }
  | enqueueIngest (arguments : IngestCall) (documentId : Uuid)
      (ofDocument : arguments.documentId = some documentId)
      (reached : powers.reach arguments.projectId)
      (isUpload :
        powers.uploads arguments.jobId documentId arguments.projectId) :
      Executes powers now { now with
        ingestJobs := now.ingestJobs.offer (ingestJobId arguments.jobId)
          arguments }
  | dropCollection (admin : powers.privileged) (projectId : Uuid) :
      Executes powers now { now with
        collections := Function.update now.collections projectId none }
  | enqueueRebuild (admin : powers.privileged) (projectId : Uuid)
      (mode : Cag.Mode) :
      Executes powers now { now with
        rebuildJobs := (enqueueRebuild now.rebuildJobs projectId mode).getD
          now.rebuildJobs }
  | elapse (duration : Nat) :
      Executes powers now
        { now with clock := now.clock + duration }

/-- A preorder that these statements move along. -/
structure Admits (powers : Powers)
    (related : Platform Dense Sparse → Platform Dense Sparse → Prop) :
    Prop where
  refl : ∀ state, related state state
  trans : ∀ first second third,
    related first second → related second third → related first third
  executes : ∀ now after, Executes powers now after →
    related now after

variable {powers : Powers}
  {related : Platform Dense Sparse → Platform Dense Sparse → Prop}
  {server : Server Content Dense Sparse Score}
  {authorization : Option String} {chance : Chance}

namespace Admits

section Anyone

variable (admits : Admits powers related)

include admits

theorem bind {Result : Type} {script : Action Dense Sparse Value}
    {rest : Value → Action Dense Sparse Result}
    (keeps : Script.Keeps related script)
    (continues : ∀ value, Script.Keeps related (rest value)) :
    Script.Keeps related (script >>= rest) :=
  keeps.bind admits.refl admits.trans continues

theorem read (view : Platform Dense Sparse → Value) :
    Script.Keeps related (Script.read view : Action Dense Sparse Value) :=
  Script.keeps_read admits.refl view

theorem commit {change : Rows → Rows}
    (isChange : ∀ rows, RowChange powers rows (change rows)) :
    Script.Keeps related (Api.commit change) := by
  refine keeps_commit admits.refl ?_
  intro now database same
  refine admits.executes _ _ (.write database ?_)
  rw [same]
  exact isChange now.rows

theorem refresh (view : Rows → Option Value) :
    Script.Keeps related (Api.refresh view) :=
  keeps_refresh admits.refl view

theorem findCaller (security : Security) :
    Script.Keeps related (findCaller security authorization) := by
  intro state
  refine (findCaller_meets admits.refl admits.trans state).mono admits.refl
    admits.trans ?_
  intros
  trivial

theorem findAdmin (security : Security) :
    Script.Keeps related (findAdmin security authorization) :=
  admits.bind (admits.findCaller security) fun _ =>
    admits.bind (Script.keeps_finish _) fun _ => Script.keeps_finish _

theorem findScope (user : User) :
    Script.Keeps related (findScope user) := by
  unfold Api.findScope
  split
  · exact Script.keeps_finish _
  · refine admits.bind (admits.read _) fun teamIds => ?_
    split
    · exact Script.keeps_finish _
    · exact admits.read _
  · exact admits.read _

theorem register (isDrawn : powers.drawn chance.id) (security : Security)
    (data : UserCreate) :
    Script.Keeps related (register security data chance) := by
  refine admits.bind (admits.read _) ?_
  rintro ⟨existing, began⟩
  cases existing with
  | some row => exact Script.keeps_finish _
  | none =>
      dsimp only
      split
      · exact Script.keeps_finish _
      · exact admits.bind
          (admits.commit fun rows => .insertUser _ rfl isDrawn)
          fun _ => admits.refresh _

theorem login (security : Security) (data : LoginRequest) :
    Script.Keeps related (login security data) := by
  refine admits.bind (admits.read _) fun found => ?_
  cases found with
  | none => exact Script.keeps_finish _
  | some row =>
      dsimp only
      split
      · exact Script.keeps_finish _
      · exact Script.keeps_finish _
      · exact admits.bind (admits.read _) fun _ => Script.keeps_finish _

/-- An upload adds to a project of the scope only. -/
theorem upload {lower : String → String} {projectId : Uuid}
    {accessibleIds : List Uuid}
    (reached : projectId ∈ accessibleIds → powers.reach projectId)
    (isDrawn : powers.drawn chance.id)
    (isUpload : powers.uploads chance.jobId chance.id projectId)
    (filename : String) (fileType : FileType) (content : ByteArray)
    (began : Timestamp) :
    Script.Keeps related
      (DocumentService.upload lower projectId filename fileType content
        accessibleIds chance began) := by
  unfold DocumentService.upload checkAccess
  by_cases accessible : projectId ∈ accessibleIds
  · refine admits.bind (Script.keeps_finish _) fun _ => ?_
    dsimp only
    split
    · exact Script.keeps_finish _
    · refine admits.bind (admits.commit fun rows =>
          .insertUpload _ _ rfl rfl rfl (reached accessible) isDrawn
            isUpload) fun _ =>
        admits.bind ?_ fun _ => Script.keeps_finish _
      refine Script.keeps_transaction admits.refl ?_
      intro now after _ returned
      split at returned
      · cases returned
      · cases returned
        exact admits.executes _ _
          (.enqueueIngest _ chance.id rfl (reached accessible) isUpload)
  · rw [if_pos accessible]
    exact Script.keeps_finish _

theorem uploadDocument {projectId : Uuid} {accessibleIds : List Uuid}
    (reached : projectId ∈ accessibleIds → powers.reach projectId)
    (isDrawn : powers.drawn chance.id)
    (isUpload : powers.uploads chance.jobId chance.id projectId)
    (filename : Option String) (content : ByteArray) (began : Timestamp) :
    Script.Keeps related
      (uploadDocument server projectId filename content accessibleIds chance
        began) := by
  cases typed : extensionToFileType
      (getExtension server.lower (filename.getD "")) with
  | none =>
      simp only [Api.uploadDocument, typed]
      exact Script.keeps_finish _
  | some fileType =>
      simp only [Api.uploadDocument, typed]
      split
      · exact Script.keeps_finish _
      · exact admits.upload reached isDrawn isUpload _ _ _ _

theorem look (authorization : Option String) (request : Request)
    [LinearOrder Score] :
    Script.Keeps related
      (look server authorization request) := by
  refine Script.keeps_transaction admits.refl ?_
  intro now after response returned
  cases outcome : respond
      { server.services with
        decodeSubject := server.security.decodeSubject now.clock }
      authorization request now.state with
  | error failure =>
      rw [outcome] at returned
      cases returned
  | ok value =>
      rw [outcome] at returned
      cases returned
      exact admits.refl now

theorem answered {Result : Type} {script : Action Dense Sparse Value}
    (keeps : Script.Keeps related script) (answer : Value → Result) :
    Script.Keeps related (script >>= fun value => pure (answer value)) :=
  admits.bind keeps fun _ => Script.keeps_finish _

theorem elapse (duration : Nat) [LinearOrder Score] :
    Script.Keeps related ((Event.elapse duration).script server) := by
  unfold Event.script
  refine Script.keeps_transaction admits.refl ?_
  intro now after answer returned
  cases returned
  exact admits.executes _ _ (.elapse duration)

theorem requireRow {Row : Type} (missing : HttpError)
    (view : Rows → Option Row) :
    Script.Keeps related (requireRow missing view) := by
  refine admits.bind (admits.read _) fun found => ?_
  cases found <;> exact Script.keeps_finish _

/-- What is found is the row of the project. -/
theorem findProject_meets {projectId : Uuid} {accessibleIds : List Uuid}
    {promise : Platform Dense Sparse → Except HttpError Project → Prop}
    {state : Platform Dense Sparse}
    (found : ∀ now project, related state now →
      projectRow now.rows projectId = some project →
        promise now (.ok project))
    (fails : ∀ now failure, related state now →
      promise now (.error failure)) :
    (Api.findProject projectId accessibleIds).Meets related promise
      state := by
  refine Script.meets_bind (Script.meets_read admits.refl ?_)
  intro now moved
  dsimp only
  cases isRow : projectRow now.rows projectId with
  | none => exact fails now _ moved
  | some project =>
      refine Script.meets_bind ?_
      cases checkAccess projectId accessibleIds (outsideScope projectId) with
      | error failure => exact fails now failure moved
      | ok _ => exact found now project moved isRow

theorem findProject (projectId : Uuid) (accessibleIds : List Uuid) :
    Script.Keeps related (findProject projectId accessibleIds) :=
  fun _ => admits.findProject_meets (fun _ _ _ _ => trivial)
    fun _ _ _ => trivial

end Anyone

section Admin

variable (admits : Admits powers related) (admin : powers.privileged)

include admits admin

theorem addMember (member : TeamMember) :
    Script.Keeps related (addMember member) := by
  refine admits.bind (admits.requireRow _ _) fun _ =>
    admits.bind (admits.requireRow _ _) fun _ =>
      admits.bind (admits.read _) fun found => ?_
  cases found with
  | true => exact Script.keeps_finish _
  | false => exact admits.commit fun rows => .insertMember admin member

theorem removeMember (member : TeamMember) :
    Script.Keeps related (removeMember member) := by
  refine admits.bind (admits.requireRow _ _) fun _ =>
    admits.bind (admits.read _) fun found => ?_
  cases found with
  | true => exact admits.commit fun rows => .deleteMember admin member
  | false => exact Script.keeps_finish _

theorem createProject (isDrawn : powers.drawn chance.id)
    (data : ProjectCreate) (began : Timestamp) :
    Script.Keeps related (createProject data chance began) := by
  refine admits.bind (admits.read _) fun team => ?_
  cases created : data.create (fun _ => team.isSome) chance.id began with
  | error message => exact Script.keeps_finish _
  | ok project =>
      have isId : chance.id = project.id := by
        unfold ProjectCreate.create at created
        split at created
        · cases created
          rfl
        · cases created
      exact admits.bind
        (admits.commit fun rows => .insertProject admin project
          (isId ▸ isDrawn)) fun _ => admits.refresh _

theorem flushUpdate (data : ProjectUpdate) (project : Project)
    (isUpdate : powers.updates project.id (data.change project)) :
    Script.Keeps related (flushUpdate data project) := by
  unfold Api.flushUpdate
  split
  · refine Script.keeps_transaction admits.refl ?_
    intro now after _ returned
    split at returned
    · cases returned
    · obtain ⟨database, same, rfl⟩ := commit_cases
        (fun rows => rows.updateProject project.id (data.change project))
        returned
      refine admits.executes _ _ (.write database ?_)
      rw [same]
      exact .updateProject admin _ _ (fun _ => rfl) (fun _ => rfl) isUpdate
  · exact Script.keeps_finish _

theorem updateProject (projectId : Uuid) (data : ProjectUpdate)
    (isUpdate : ∀ read, powers.updates projectId (data.change read))
    (accessibleIds : List Uuid) :
    Script.Keeps related (updateProject projectId data accessibleIds) := by
  intro state
  refine Script.Meets.bind
    (fun _ result => ∀ project, result = .ok project →
      project.id = projectId) admits.refl admits.trans
    (admits.findProject_meets ?_ ?_) ?_ fun _ _ _ _ => trivial
  · rintro now project _ isRow _ ⟨⟩
    exact (find_key_eq_some isRow).2
  · rintro now failure _ _ ⟨⟩
  · intro now project _ isOwn
    have update : powers.updates project.id (data.change project) := by
      rw [isOwn project rfl]
      exact isUpdate project
    exact admits.bind (admits.flushUpdate admin _ _ update)
      (fun _ => admits.refresh _) now

theorem deleteProject (projectId : Uuid) (accessibleIds : List Uuid) :
    Script.Keeps related (deleteProject projectId accessibleIds chance) := by
  refine admits.bind (admits.findProject _ _) fun _ =>
    admits.bind (admits.commit fun rows => .deleteProject admin projectId)
      fun _ => ?_
  refine Script.keeps_transaction admits.refl ?_
  intro now after _ returned
  split at returned
  · cases returned
    exact admits.refl now
  · cases returned
    exact admits.executes _ _ (.dropCollection admin projectId)

theorem requestRebuild (projectId : Uuid) (mode : Cag.Mode)
    (accessibleIds : List Uuid) :
    Script.Keeps related
      (requestRebuild projectId mode accessibleIds chance) := by
  refine admits.bind (Script.keeps_finish _) fun _ => ?_
  refine Script.keeps_transaction admits.refl ?_
  intro now after _ returned
  split at returned
  · cases returned
  · cases returned
    exact admits.executes _ _ (.enqueueRebuild admin projectId mode)

end Admin

end Admits

variable [LinearOrder Score]

/-- What every statement keeps, every request keeps. -/
theorem Admits.perform (admits : Admits powers related)
    (admin : powers.privileged) (reached : ∀ id, powers.reach id)
    (isDrawn : powers.drawn chance.id)
    (command : Command)
    (isUpload : ∀ projectId filename content,
      command = .uploadDocument projectId filename content →
      powers.uploads chance.jobId chance.id projectId)
    (isUpdate : ∀ projectId data, command = .updateProject projectId data →
      ∀ read, powers.updates projectId (data.change read)) :
    Script.Keeps related
      (perform server authorization chance command) := by
  cases command with
  | register data =>
      exact admits.answered (admits.register isDrawn _ data) _
  | login data => exact admits.answered (admits.login _ data) _
  | getMe => exact admits.answered (admits.findCaller _) _
  | createTeam data =>
      refine admits.bind (admits.findAdmin _) fun caller =>
        admits.answered ?_ _
      exact admits.bind
        (admits.commit fun rows => .insertTeam admin _ isDrawn)
        fun _ => admits.refresh _
  | listTeams =>
      exact admits.bind (admits.findAdmin _) fun _ =>
        admits.answered (admits.read _) _
  | addTeamMember member =>
      exact admits.bind (admits.findAdmin _) fun _ =>
        admits.answered (admits.addMember admin member) _
  | removeTeamMember member =>
      exact admits.bind (admits.findAdmin _) fun _ =>
        admits.answered (admits.removeMember admin member) _
  | createProject data =>
      exact admits.bind (admits.findAdmin _) fun caller =>
        admits.answered (admits.createProject admin isDrawn data _) _
  | updateProject projectId data =>
      exact admits.bind (admits.findAdmin _) fun caller =>
        admits.bind (admits.findScope _) fun _ =>
          admits.answered (admits.updateProject admin projectId data
            (isUpdate projectId data rfl) _) _
  | deleteProject projectId =>
      exact admits.bind (admits.findAdmin _) fun caller =>
        admits.bind (admits.findScope _) fun _ =>
          admits.answered (admits.deleteProject admin projectId _) _
  | uploadDocument projectId filename content =>
      exact admits.bind (admits.findCaller _) fun caller =>
        admits.bind (admits.findScope _) fun _ =>
          admits.answered
            (admits.uploadDocument (fun _ => reached _) isDrawn
              (isUpload projectId filename content rfl) _ _ _) _
  | rebuildCag projectId mode =>
      exact admits.bind (admits.findAdmin _) fun caller =>
        admits.bind (admits.findScope _) fun _ =>
          admits.answered (admits.requestRebuild admin projectId mode _) _
  | look request => exact admits.answered (admits.look _ request) _

/-- What is generated for the event is what may be drawn, and what it changes
of a project is what may be changed. -/
def Event.Allowed (powers : Powers) : Event → Prop
  | .request _ command chance =>
      powers.drawn chance.id ∧
        (∀ projectId filename content,
          command = .uploadDocument projectId filename content →
          powers.uploads chance.jobId chance.id projectId) ∧
        ∀ projectId data, command = .updateProject projectId data →
          ∀ read, powers.updates projectId (data.change read)
  | .elapse _ => True

theorem Admits.event (admits : Admits powers related)
    (admin : powers.privileged) (reached : ∀ id, powers.reach id)
    {event : Event} (allowed : event.Allowed powers) :
    Script.Keeps related (event.script server) := by
  cases event with
  | request authorization command chance =>
      obtain ⟨isDrawn, isUpload, isUpdate⟩ := allowed
      exact admits.perform admin reached isDrawn command isUpload isUpdate
  | elapse duration => exact admits.elapse duration

/-- The identifier that is generated for a row of the event. -/
def Event.draws (drawn : Uuid → Prop) : Event → Prop
  | .request _ _ chance => drawn chance.id
  | .elapse _ => True

theorem Event.draws_any (event : Event) : event.draws fun _ => True := by
  cases event with
  | request authorization command chance => trivial
  | elapse duration => trivial

/-- What every event may do. -/
def Powers.any (drawn : Uuid → Prop) : Powers where
  privileged := True
  reach := fun _ => True
  drawn := drawn
  uploads := fun _ _ _ => True
  updates := fun _ _ => True

theorem Admits.any {drawn : Uuid → Prop}
    (admits : Admits (Powers.any drawn) related) {event : Event}
    (draws : event.draws drawn) :
    Script.Keeps related (event.script server) := by
  refine admits.event trivial (fun _ => trivial) ?_
  cases event with
  | request authorization command chance =>
      exact ⟨draws, fun _ _ _ _ => trivial, fun _ _ _ _ => trivial⟩
  | elapse duration => trivial

end Statements

end ProjectMemory.Api
