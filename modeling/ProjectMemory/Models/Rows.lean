import ProjectMemory.Models.Json
import ProjectMemory.Models.Uuid

/-!
# Rows of the tables

`document_summaries` is the event log of a project, `belief_states` its
versioned summary and `ingestion_jobs` the progress of its uploads.  A
timestamp is a number of microseconds.

Of a summary's JSON document the queries here read one key only, and the row
keeps what they read: the value of `summary["raw_text_fallback"].as_boolean()`,
with `none` for SQL `NULL`.
-/

namespace ProjectMemory

abbrev Timestamp := Nat

inductive RebuildType where
  | incremental
  | full
  deriving DecidableEq, Repr

structure DocumentSummary where
  id : Uuid
  documentId : Uuid
  projectId : Uuid
  rawTextFallback : Option Bool
  createdAt : Timestamp
  deriving DecidableEq, Repr

structure User where
  id : Uuid
  role : String
  deriving DecidableEq, Repr

structure TeamMember where
  userId : Uuid
  teamId : Uuid
  deriving DecidableEq, Repr

structure Project where
  id : Uuid
  name : String
  description : Option String
  teamId : Uuid
  config : List (String × Json)
  createdAt : Timestamp
  deriving Repr

/-- A row of `documents` without its bytes. -/
structure DocumentRow where
  id : Uuid
  projectId : Uuid
  filename : String
  fileType : String
  createdAt : Timestamp
  deriving DecidableEq, Repr

inductive JobStatus where
  | pending
  | running
  | complete
  | failed
  deriving DecidableEq, Repr

structure IngestionJob where
  id : Uuid
  projectId : Uuid
  documentId : Option Uuid
  status : JobStatus
  errorMessage : Option String
  createdAt : Timestamp
  completedAt : Option Timestamp
  deriving DecidableEq, Repr

structure BeliefState where
  id : Uuid
  projectId : Uuid
  version : Nat
  state : Json
  rebuildType : RebuildType
  lastSummaryCreatedAt : Timestamp
  summaryCountCovered : Nat
  createdAt : Timestamp
  deriving Repr

/-- What the program gets to see of a stored row: the same columns with the
stored JSON read back as validated content. -/
structure BeliefStateRecord (Content : Type) where
  id : Uuid
  projectId : Uuid
  version : Nat
  rebuildType : RebuildType
  lastSummaryCreatedAt : Timestamp
  summaryCountCovered : Nat
  createdAt : Timestamp
  state : Content

/-- The validated content type together with its encoding: `model_dump` in
JSON mode and `model_validate`, which may reject a stored value. -/
structure Schema (Content : Type) where
  dump : Content → Json
  validate : Json → Option Content

end ProjectMemory
