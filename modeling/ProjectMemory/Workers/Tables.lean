import ProjectMemory.Api.Database
import ProjectMemory.Workers.Interleaving

/-!
# The tables as a run sees them

A run looks its rows up by their ids.  Its store is a view of the tables:
what uploading a document and deleting a project do to the tables, they do to
the view.
-/

namespace ProjectMemory.Workers

open Foundation Ingestion

/-- The columns of a document that a worker reads. -/
def storedDocument (file : Api.StoredFile) : StoredDocument where
  id := file.id
  projectId := file.projectId
  document := {
    filename := file.filename
    fileType := file.fileType
    rawBytes := file.rawBytes }

section Views

variable {Dense Sparse : Type}

/-- `DELETE FROM projects`, with what the foreign keys do. -/
def Store.deleteProject (store : Store Dense Sparse)
    (rows : List StoredDocument) (projectId : Uuid) : Store Dense Sparse :=
  let gone (documentId : Uuid) : Bool := rows.any fun row =>
    row.id = documentId && row.projectId = projectId
  { store with
    jobs := fun id => (store.jobs id).bind fun job =>
      if job.projectId = projectId then none
      else some { job with
        documentId := job.documentId.filter fun documentId =>
          !gone documentId }
    documents := fun id => if gone id then none else store.documents id
    projects := Function.update store.projects projectId none
    tables := {
      summaries := store.tables.summaries.filter fun row =>
        row.projectId ≠ projectId ∧ gone row.documentId = false
      beliefs := store.tables.beliefs.filter fun row =>
        row.projectId ≠ projectId } }

/-- The store holds the rows under their ids. -/
structure Shows (rows : Api.Rows) (store : Store Dense Sparse) : Prop where
  jobs : store.jobs = fun id => rows.jobs.find? fun job => job.id = id
  documents : store.documents = fun id =>
    (rows.documents.find? fun row => row.id = id).map fun row =>
      (storedDocument row).document
  projects : ∀ id, (store.projects id).isSome = true ↔ id ∈ rows.projectIds
  tables : store.tables = rows.tables

variable {rows : Api.Rows} {store : Store Dense Sparse}

theorem Shows.upload (shown : Shows rows store) {file : Api.StoredFile}
    {jobId : Uuid} {now : Timestamp}
    (freshDocument : file.id ∉ rows.documentIds)
    (freshJob : jobId ∉ rows.jobs.map IngestionJob.id) :
    Shows
      (rows.insertUpload file (uploadedJob (storedDocument file) jobId now))
      (store.upload (storedDocument file) jobId now) := by
  refine ⟨?_, ?_, shown.projects, shown.tables⟩
  · have added := @find_key_append _ _ _ IngestionJob.id rows.jobs
      (uploadedJob (storedDocument file) jobId now) freshJob
    rw [Store.upload, shown.jobs]
    exact added.symm
  · have added := @find_key_append _ _ _
      (fun row : Api.StoredFile => row.id) rows.documents file freshDocument
    rw [Store.upload, shown.documents]
    funext id
    have here := congrFun added id
    dsimp only [Api.Rows.insertUpload] at here ⊢
    rw [here]
    by_cases own : id = file.id
    · subst own
      rw [Function.update_self, Option.map_some]
      exact Function.update_self _ _ _
    · rw [Function.update_of_ne own]
      exact Function.update_of_ne own _ _

theorem any_storedDocument (rows : Api.Rows) (projectId documentId : Uuid) :
    ((rows.documents.map storedDocument).any fun row =>
      row.id = documentId && row.projectId = projectId) =
      rows.isDocumentOf projectId documentId := by
  rw [List.any_map]
  rfl

theorem Shows.jobs_deleteProject (shown : Shows rows store)
    (unique : rows.Unique) (projectId id : Uuid) :
    (store.deleteProject (rows.documents.map storedDocument)
        projectId).jobs id =
      (rows.deleteProject projectId).jobs.find? fun job => job.id = id := by
  have kept := @find_key_filter _ _ _ IngestionJob.id rows.jobs id
    unique.jobs fun row => row.projectId ≠ projectId
  rw [Store.deleteProject, Api.Rows.deleteProject, shown.jobs]
  dsimp only
  rw [List.find?_map]
  change _ = ((rows.jobs.filter fun row =>
    row.projectId ≠ projectId).find? fun job => job.id = id).map _
  rw [kept]
  cases rows.jobs.find? fun job => job.id = id with
  | none => rfl
  | some job =>
      rw [Option.bind_some, Option.filter_some]
      by_cases own : job.projectId = projectId
      · rw [if_pos own, if_neg (by simp [own])]
        rfl
      · rw [if_neg own, if_pos (decide_eq_true own), Option.map_some]
        simp only [any_storedDocument]
        rfl

/-- Under its id a document is found to be one of the project or not. -/
theorem isDocumentOf_iff (unique : rows.Unique) {projectId : Uuid}
    {row : Api.StoredFile} (isRow : row ∈ rows.documents) :
    rows.isDocumentOf projectId row.id = true ↔
      row.projectId = projectId := by
  constructor
  · intro isDocument
    obtain ⟨other, isOther, same⟩ := List.any_eq_true.mp isDocument
    rw [Bool.and_eq_true, decide_eq_true_eq, decide_eq_true_eq] at same
    rw [List.inj_on_of_nodup_map unique.documents isRow isOther
      same.1.symm]
    exact same.2
  · rintro rfl
    refine List.any_eq_true.mpr ⟨row, isRow, ?_⟩
    rw [decide_eq_true rfl, decide_eq_true rfl]
    rfl

theorem Shows.documents_deleteProject (shown : Shows rows store)
    (unique : rows.Unique) (projectId id : Uuid) :
    (store.deleteProject (rows.documents.map storedDocument)
        projectId).documents id =
      ((rows.deleteProject projectId).documents.find? fun row =>
        row.id = id).map fun row => (storedDocument row).document := by
  have kept := @find_key_filter _ _ _ (fun row : Api.StoredFile => row.id)
    rows.documents id unique.documents fun row => row.projectId ≠ projectId
  rw [Store.deleteProject, Api.Rows.deleteProject, shown.documents]
  simp only [any_storedDocument]
  rw [kept]
  cases found : rows.documents.find? fun row => row.id = id with
  | none => exact ite_self none
  | some row =>
      obtain ⟨isRow, rfl⟩ := find_key_eq_some found
      have isOf := @isDocumentOf_iff rows unique projectId row isRow
      rw [Option.filter_some]
      by_cases own : row.projectId = projectId
      · rw [if_pos (isOf.mpr own), if_neg (by simp [own])]
        rfl
      · rw [if_neg (own ∘ isOf.mp), if_pos (decide_eq_true own)]

theorem Shows.projects_deleteProject (shown : Shows rows store)
    (projectId id : Uuid) :
    ((store.deleteProject (rows.documents.map storedDocument)
        projectId).projects id).isSome = true ↔
      id ∈ (rows.deleteProject projectId).projectIds := by
  rw [Store.deleteProject, Api.Rows.projectIds, Api.Rows.deleteProject]
  dsimp only
  by_cases own : id = projectId
  · subst own
    rw [Function.update_self]
    constructor
    · exact fun isThere => absurd isThere Bool.false_ne_true
    · intro kept
      obtain ⟨row, isRow, same⟩ := List.mem_map.mp kept
      exact absurd same (of_decide_eq_true (List.mem_filter.mp isRow).2)
  · rw [Function.update_of_ne own, shown.projects]
    constructor
    · intro isThere
      obtain ⟨row, isRow, rfl⟩ := List.mem_map.mp isThere
      exact List.mem_map_of_mem
        (List.mem_filter.mpr ⟨isRow, decide_eq_true own⟩)
    · intro kept
      exact (List.filter_sublist.map Project.id).subset kept

/-- The deletion of a project is the same in the tables and in the view. -/
theorem Shows.deleteProject (shown : Shows rows store)
    (unique : rows.Unique) (projectId : Uuid) :
    Shows (rows.deleteProject projectId)
      (store.deleteProject (rows.documents.map storedDocument)
        projectId) where
  jobs := funext (shown.jobs_deleteProject unique projectId)
  documents := funext (shown.documents_deleteProject unique projectId)
  projects := shown.projects_deleteProject projectId
  tables := by
    rw [Store.deleteProject, Api.Rows.deleteProject, shown.tables]
    simp only [any_storedDocument]

end Views

end ProjectMemory.Workers
