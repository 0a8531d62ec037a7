import Mathlib.Tactic.MkIffOfInductiveProp
import ProjectMemory.Api.Rebuild
import ProjectMemory.Foundation.Cascade

/-!
# The database

The tables as Postgres keeps them.  A statement that would break a primary
key, a unique constraint or a foreign key is refused, and so is one that
would store a text with a NUL character.  Deleting a project deletes every
row that refers to it.
-/

namespace ProjectMemory.Api

open Foundation ProjectMemory.Core Retrieval

structure UserRow extends User where
  email : String
  hashedPassword : String
  isActive : Bool
  createdAt : Timestamp
  deriving DecidableEq, Repr

structure TeamRow where
  id : Uuid
  name : String
  createdAt : Timestamp
  deriving DecidableEq, Repr

/-- A row of `documents` with its bytes. -/
structure StoredFile extends DocumentRow where
  rawBytes : ByteArray

/-- The rows of all tables. -/
structure Rows where
  users : List UserRow
  teams : List TeamRow
  members : List TeamMember
  projects : List Project
  documents : List StoredFile
  jobs : List IngestionJob
  tables : Cag.Tables

namespace Rows

def userIds (rows : Rows) : List Uuid :=
  rows.users.map fun row => row.id

def teamIds (rows : Rows) : List Uuid :=
  rows.teams.map TeamRow.id

def projectIds (rows : Rows) : List Uuid :=
  rows.projects.map Project.id

def documentIds (rows : Rows) : List Uuid :=
  rows.documents.map fun row => row.id

/-- The primary keys and the unique constraints. -/
@[mk_iff]
structure Unique (rows : Rows) : Prop where
  users : rows.userIds.Nodup
  emails : (rows.users.map UserRow.email).Nodup
  teams : rows.teamIds.Nodup
  members : rows.members.Nodup
  projects : rows.projectIds.Nodup
  documents : rows.documentIds.Nodup
  jobs : (rows.jobs.map IngestionJob.id).Nodup
  summaries : (rows.tables.summaries.map DocumentSummary.documentId).Nodup
  versions : (rows.tables.beliefs.map Cag.rowKey).Nodup

/-- The foreign keys. -/
@[mk_iff]
structure References (rows : Rows) : Prop where
  memberUser : rows.members.map TeamMember.userId ⊆ rows.userIds
  memberTeam : rows.members.map TeamMember.teamId ⊆ rows.teamIds
  projectTeam : rows.projects.map Project.teamId ⊆ rows.teamIds
  documentProject :
    (rows.documents.map fun row => row.projectId) ⊆ rows.projectIds
  jobProject : rows.jobs.map IngestionJob.projectId ⊆ rows.projectIds
  jobDocument :
    rows.jobs.filterMap IngestionJob.documentId ⊆ rows.documentIds
  summaryDocument :
    rows.tables.summaries.map DocumentSummary.documentId ⊆ rows.documentIds
  summaryProject :
    rows.tables.summaries.map DocumentSummary.projectId ⊆ rows.projectIds
  beliefProject :
    rows.tables.beliefs.map BeliefState.projectId ⊆ rows.projectIds

end Rows

/-! ## Texts -/

def UserRow.storable (row : UserRow) : Bool :=
  ProjectMemory.storable row.role && ProjectMemory.storable row.email &&
    ProjectMemory.storable row.hashedPassword

def TeamRow.storable (row : TeamRow) : Bool :=
  ProjectMemory.storable row.name

def projectStorable (row : Project) : Bool :=
  storable row.name && row.description.all storable &&
    (Json.obj row.config).storable

def StoredFile.storable (row : StoredFile) : Bool :=
  ProjectMemory.storable row.filename && ProjectMemory.storable row.fileType

def jobStorable (row : IngestionJob) : Bool :=
  row.errorMessage.all storable

namespace Rows

/-- The texts of all rows. -/
@[mk_iff]
structure Texts (rows : Rows) : Prop where
  users : ∀ row ∈ rows.users, row.storable = true
  teams : ∀ row ∈ rows.teams, row.storable = true
  projects : ∀ row ∈ rows.projects, projectStorable row = true
  documents : ∀ row ∈ rows.documents, row.storable = true
  jobs : ∀ row ∈ rows.jobs, jobStorable row = true
  beliefs : ∀ row ∈ rows.tables.beliefs, row.state.storable = true

@[mk_iff]
structure Constraints (rows : Rows) : Prop where
  unique : rows.Unique
  references : rows.References
  texts : rows.Texts

instance (rows : Rows) : Decidable rows.Unique :=
  decidable_of_iff' _ (unique_iff rows)

instance (rows : Rows) : Decidable rows.References :=
  decidable_of_iff' _ (references_iff rows)

instance (rows : Rows) : Decidable rows.Texts :=
  decidable_of_iff' _ (texts_iff rows)

instance (rows : Rows) : Decidable rows.Constraints :=
  decidable_of_iff' _ (constraints_iff rows)

/-! ## Statements -/

def insertUser (rows : Rows) (row : UserRow) : Rows :=
  { rows with users := rows.users ++ [row] }

def insertTeam (rows : Rows) (row : TeamRow) : Rows :=
  { rows with teams := rows.teams ++ [row] }

def insertMember (rows : Rows) (row : TeamMember) : Rows :=
  { rows with members := rows.members ++ [row] }

def deleteMember (rows : Rows) (row : TeamMember) : Rows :=
  { rows with members := rows.members.filter (· ≠ row) }

def insertProject (rows : Rows) (row : Project) : Rows :=
  { rows with projects := rows.projects ++ [row] }

def updateProject (rows : Rows) (projectId : Uuid)
    (change : Project → Project) : Rows :=
  { rows with
    projects := rows.projects.map fun row =>
      if row.id = projectId then change row else row }

/-- The rows of a document and of its ingestion job. -/
def insertUpload (rows : Rows) (document : StoredFile)
    (job : IngestionJob) : Rows :=
  { rows with
    documents := rows.documents ++ [document]
    jobs := rows.jobs ++ [job] }

/-- `ON DELETE SET NULL` of a job's document. -/
def dropDocument (gone : Uuid → Bool) (job : IngestionJob) : IngestionJob :=
  { job with documentId := job.documentId.filter fun id => !gone id }

/-- The document is one of the project. -/
def isDocumentOf (rows : Rows) (projectId documentId : Uuid) : Bool :=
  rows.documents.any fun row =>
    row.id = documentId && row.projectId = projectId

/-- `DELETE FROM projects`, with `ON DELETE CASCADE`. -/
def deleteProject (rows : Rows) (projectId : Uuid) : Rows :=
  { rows with
    projects := rows.projects.filter fun row => row.id ≠ projectId
    documents := rows.documents.filter fun row => row.projectId ≠ projectId
    jobs :=
      (rows.jobs.filter fun row => row.projectId ≠ projectId).map
        (dropDocument (rows.isDocumentOf projectId))
    tables := {
      summaries := rows.tables.summaries.filter fun row =>
        row.projectId ≠ projectId ∧
          rows.isDocumentOf projectId row.documentId = false
      beliefs := rows.tables.beliefs.filter fun row =>
        row.projectId ≠ projectId } }

/-! ## What the statements keep -/

section Kept

variable {rows : Rows}

theorem Constraints.insertUser (valid : rows.Constraints) {row : UserRow}
    (freshId : row.id ∉ rows.userIds)
    (freshEmail : row.email ∉ rows.users.map UserRow.email)
    (isStorable : row.storable = true) :
    (rows.insertUser row).Constraints where
  unique := { valid.unique with
    users := nodup_map_snoc valid.unique.users freshId
    emails := nodup_map_snoc valid.unique.emails freshEmail }
  references := { valid.references with
    memberUser := subset_map_snoc valid.references.memberUser row }
  texts := { valid.texts with
    users := forall_mem_snoc valid.texts.users isStorable }

theorem Constraints.insertTeam (valid : rows.Constraints) {row : TeamRow}
    (freshId : row.id ∉ rows.teamIds) (isStorable : row.storable = true) :
    (rows.insertTeam row).Constraints where
  unique := { valid.unique with
    teams := nodup_map_snoc valid.unique.teams freshId }
  references := { valid.references with
    memberTeam := subset_map_snoc valid.references.memberTeam row
    projectTeam := subset_map_snoc valid.references.projectTeam row }
  texts := { valid.texts with
    teams := forall_mem_snoc valid.texts.teams isStorable }

theorem Constraints.insertMember (valid : rows.Constraints)
    {row : TeamMember} (isNew : row ∉ rows.members)
    (user : row.userId ∈ rows.userIds) (team : row.teamId ∈ rows.teamIds) :
    (rows.insertMember row).Constraints where
  unique := { valid.unique with
    members := by
      have distinct := List.Nodup.concat isNew valid.unique.members
      rwa [List.concat_eq_append] at distinct }
  references := { valid.references with
    memberUser := map_snoc_subset valid.references.memberUser user
    memberTeam := map_snoc_subset valid.references.memberTeam team }
  texts := { valid.texts with }

theorem Constraints.deleteMember (valid : rows.Constraints)
    (row : TeamMember) : (rows.deleteMember row).Constraints where
  unique := { valid.unique with
    members := valid.unique.members.filter _ }
  references := { valid.references with
    memberUser := filter_subset valid.references.memberUser _
    memberTeam := filter_subset valid.references.memberTeam _ }
  texts := { valid.texts with }

theorem Constraints.insertProject (valid : rows.Constraints) {row : Project}
    (freshId : row.id ∉ rows.projectIds) (team : row.teamId ∈ rows.teamIds)
    (isStorable : projectStorable row = true) :
    (rows.insertProject row).Constraints where
  unique := { valid.unique with
    projects := nodup_map_snoc valid.unique.projects freshId }
  references := { valid.references with
    projectTeam := map_snoc_subset valid.references.projectTeam team
    documentProject :=
      subset_map_snoc valid.references.documentProject row
    jobProject := subset_map_snoc valid.references.jobProject row
    summaryProject := subset_map_snoc valid.references.summaryProject row
    beliefProject := subset_map_snoc valid.references.beliefProject row }
  texts := { valid.texts with
    projects := forall_mem_snoc valid.texts.projects isStorable }

theorem projectIds_updateProject {projectId : Uuid}
    {change : Project → Project}
    (sameId : ∀ row, (change row).id = row.id) :
    (rows.updateProject projectId change).projectIds = rows.projectIds := by
  rw [projectIds, projectIds, updateProject, List.map_map]
  refine List.map_congr_left fun row _ => ?_
  rw [Function.comp_apply]
  split
  · exact sameId row
  · rfl

theorem Constraints.updateProject (valid : rows.Constraints)
    {projectId : Uuid} {change : Project → Project}
    (sameId : ∀ row, (change row).id = row.id)
    (sameTeam : ∀ row, (change row).teamId = row.teamId)
    (staysStorable : ∀ row, projectStorable row = true →
      projectStorable (change row) = true) :
    (rows.updateProject projectId change).Constraints := by
  have ids := @projectIds_updateProject rows projectId change sameId
  have teams :
      (rows.updateProject projectId change).projects.map Project.teamId =
        rows.projects.map Project.teamId := by
    rw [Rows.updateProject, List.map_map]
    refine List.map_congr_left fun row _ => ?_
    rw [Function.comp_apply]
    split
    · exact sameTeam row
    · rfl
  have unique := valid.unique
  have references := valid.references
  refine ⟨{ unique with projects := ?_ }, { references with
    projectTeam := ?_
    documentProject := ?_
    jobProject := ?_
    summaryProject := ?_
    beliefProject := ?_ }, { valid.texts with projects := ?_ }⟩
  · rw [ids]
    exact unique.projects
  · rw [teams]
    exact references.projectTeam
  · rw [ids]
    exact references.documentProject
  · rw [ids]
    exact references.jobProject
  · rw [ids]
    exact references.summaryProject
  · rw [ids]
    exact references.beliefProject
  · intro row isRow
    obtain ⟨old, isOld, rfl⟩ := List.mem_map.mp isRow
    have wasStorable := valid.texts.projects old isOld
    split
    · exact staysStorable old wasStorable
    · exact wasStorable

theorem Constraints.insertUpload (valid : rows.Constraints)
    {document : StoredFile} {job : IngestionJob}
    (freshDocument : document.id ∉ rows.documentIds)
    (freshJob : job.id ∉ rows.jobs.map IngestionJob.id)
    (project : document.projectId ∈ rows.projectIds)
    (sameProject : job.projectId = document.projectId)
    (ofDocument : job.documentId = some document.id)
    (isStorable : document.storable = true)
    (jobIsStorable : jobStorable job = true) :
    (rows.insertUpload document job).Constraints where
  unique := { valid.unique with
    documents := nodup_map_snoc valid.unique.documents freshDocument
    jobs := nodup_map_snoc valid.unique.jobs freshJob }
  references := { valid.references with
    documentProject := map_snoc_subset valid.references.documentProject project
    jobProject := by
      refine map_snoc_subset valid.references.jobProject ?_
      rw [sameProject]
      exact project
    jobDocument := by
      have before := subset_map_snoc valid.references.jobDocument document
      intro id isDocument
      rw [Rows.insertUpload, List.filterMap_append, List.mem_append]
        at isDocument
      rcases isDocument with old | isNew
      · exact before old
      · rw [List.filterMap_cons_some ofDocument, List.filterMap_nil,
          List.mem_singleton] at isNew
        rw [isNew]
        exact List.mem_map_of_mem (List.mem_concat_self)
    summaryDocument :=
      subset_map_snoc valid.references.summaryDocument document }
  texts := { valid.texts with
    documents := forall_mem_snoc valid.texts.documents isStorable
    jobs := forall_mem_snoc valid.texts.jobs jobIsStorable }

theorem isDocumentOf_eq_false {projectId documentId : Uuid}
    (other : rows.isDocumentOf projectId documentId = false)
    {row : StoredFile} (isRow : row ∈ rows.documents)
    (same : row.id = documentId) : row.projectId ≠ projectId := by
  intro ofProject
  have isDocument : rows.isDocumentOf projectId documentId = true :=
    List.any_eq_true.mpr ⟨row, isRow, by simp [same, ofProject]⟩
  rw [isDocument] at other
  cases other

/-- Deleting a project breaks no constraint: whatever refers to it or to one
of its documents goes with it. -/
theorem Constraints.deleteProject (valid : rows.Constraints)
    (projectId : Uuid) : (rows.deleteProject projectId).Constraints := by
  have ofProject {Child : Type} {children : List Child}
      {ref : Child → Uuid} (refers : children.map ref ⊆ rows.projectIds)
      {keep : Child → Bool}
      (kept : ∀ child, keep child = true → ref child ≠ projectId) :
      (children.filter keep).map ref ⊆
        (rows.deleteProject projectId).projectIds := by
    refine cascade_subset refers fun child _ isKept parent _ same => ?_
    rw [decide_eq_true_eq, same]
    exact kept child isKept
  constructor
  case unique =>
    exact { valid.unique with
      projects := nodup_map_filter valid.unique.projects _
      documents := nodup_map_filter valid.unique.documents _
      jobs := by
        rw [Rows.deleteProject, List.map_map]
        exact nodup_map_filter valid.unique.jobs _
      summaries := nodup_map_filter valid.unique.summaries _
      versions := nodup_map_filter valid.unique.versions _ }
  case references =>
    exact { valid.references with
      projectTeam := filter_subset valid.references.projectTeam _
      documentProject := ofProject valid.references.documentProject
        fun _ kept => of_decide_eq_true kept
      jobProject := by
        rw [Rows.deleteProject, List.map_map]
        exact ofProject valid.references.jobProject
          fun _ kept => of_decide_eq_true kept
      jobDocument := by
        intro id isDocument
        obtain ⟨dropped, isJob, found⟩ := List.mem_filterMap.mp isDocument
        obtain ⟨job, isKept, rfl⟩ := List.mem_map.mp isJob
        obtain ⟨hasDocument, stays⟩ := Option.filter_eq_some_iff.mp found
        have known := valid.references.jobDocument (List.mem_filterMap.mpr
          ⟨job, (List.mem_filter.mp isKept).1, hasDocument⟩)
        obtain ⟨row, isRow, same⟩ := List.mem_map.mp known
        have other := isDocumentOf_eq_false
          (Bool.not_eq_true' _ ▸ stays) isRow same
        rw [← same]
        exact List.mem_map_of_mem
          (List.mem_filter.mpr ⟨isRow, decide_eq_true other⟩)
      summaryDocument := by
        refine cascade_subset valid.references.summaryDocument
          fun child _ kept parent isParent same => ?_
        exact decide_eq_true (isDocumentOf_eq_false
          (of_decide_eq_true kept).2 isParent same)
      summaryProject := ofProject valid.references.summaryProject
        fun _ kept => (of_decide_eq_true kept).1
      beliefProject := ofProject valid.references.beliefProject
        fun _ kept => of_decide_eq_true kept }
  case texts =>
    exact { valid.texts with
      projects := forall_mem_filter valid.texts.projects _
      documents := forall_mem_filter valid.texts.documents _
      jobs := by
        intro row isRow
        obtain ⟨old, isOld, rfl⟩ := List.mem_map.mp isRow
        exact valid.texts.jobs old (List.mem_filter.mp isOld).1
      beliefs := forall_mem_filter valid.texts.beliefs _ }

end Kept

end Rows

/-- A database that meets its constraints. -/
structure Database where
  rows : Rows
  constraints : rows.Constraints

namespace Database

def empty : Database where
  rows := ⟨[], [], [], [], [], [], ⟨[], []⟩⟩
  constraints := by decide

/-- A commit is refused where it would break a constraint or store a NUL
character. -/
def commit (rows : Rows) : Except HttpError Database :=
  if constraints : rows.Constraints then .ok ⟨rows, constraints⟩
  else if rows.Texts then .error (internal "IntegrityError")
  else .error (internal "DBAPIError")

theorem rows_of_commit {rows : Rows} {database : Database}
    (committed : commit rows = .ok database) : database.rows = rows := by
  unfold commit at committed
  split at committed
  · cases committed
    rfl
  · split at committed <;> cases committed

theorem commit_of_constraints {rows : Rows} (valid : rows.Constraints) :
    commit rows = .ok ⟨rows, valid⟩ :=
  dif_pos valid

/-- What the read endpoints and the access scope see of the tables. -/
def accounts (database : Database) : Accounts where
  users := {
    rows := database.rows.users.map UserRow.toUser
    unique := by
      rw [List.map_map]
      exact database.constraints.unique.users }
  members := database.rows.members
  projects := ⟨database.rows.projects, database.constraints.unique.projects⟩

end Database

end ProjectMemory.Api
