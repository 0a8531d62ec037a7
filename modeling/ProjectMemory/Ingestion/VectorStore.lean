import Mathlib.Data.Set.Function
import ProjectMemory.Foundation.KeyedStore
import ProjectMemory.Ingestion.Chunker
import ProjectMemory.Models.Rows

/-!
# From stored bytes to points

A document is parsed, chunked and embedded, and every chunk becomes a point of
the project's collection.  The identifier of a point is the `uuid5` of the
document and the number of the chunk, so indexing a document again writes the
same points.

The PDF reader, the two embedding models and the hash behind `uuid5` are
parameters.
-/

namespace ProjectMemory.Ingestion

open Foundation

/-- The libraries behind the pipeline. -/
structure Libraries (Dense Sparse : Type) where
  /-- The text of the `UnicodeDecodeError` for bytes that are not UTF-8. -/
  decodeError : ByteArray → String
  extractPdfText : ByteArray → Except String String
  embed : List String → Except String (List Dense)
  sparseEmbed : List String → Except String (List Sparse)
  /-- `uuid.uuid5` in `CHUNK_NAMESPACE`. -/
  uuid5 : String → Uuid

/-- The columns of a document that ingestion reads. -/
structure Document where
  filename : String
  fileType : String
  rawBytes : ByteArray

/-- The keys of a project's configuration that ingestion reads. -/
structure ProjectConfig where
  chunkSize : Option Int
  chunkOverlap : Option Int
  chunkingStrategy : Option String
  cagRebuildThreshold : Option Nat

section Indexing

variable {Dense Sparse : Type}

def normalizeWhitespace (text : String) : String :=
  String.ofList (strip (collapseNewlines 0 text.toList))

def parseFile (libraries : Libraries Dense Sparse) (content : ByteArray)
    (fileType : String) : Except String String :=
  if fileType = "markdown" ∨ fileType = "txt" then
    match String.fromUTF8? content with
    | some text => .ok (normalizeWhitespace text)
    | none => .error (libraries.decodeError content)
  else if fileType = "pdf" then
    (libraries.extractPdfText content).map normalizeWhitespace
  else
    .error ("Unsupported file type: " ++ fileType)

/-- The chunks of a document with its dense and sparse vectors. -/
structure Indexed (Dense Sparse : Type) where
  results : List (Chunk × Dense)
  sparseResults : List (Chunk × Sparse)

/-- `zip(chunks, vectors, strict=True)`. -/
def zipStrict {Vector : Type} (chunks : List Chunk)
    (vectors : List Vector) : Except String (List (Chunk × Vector)) :=
  if vectors.length < chunks.length then
    .error "zip() argument 2 is shorter than argument 1"
  else if chunks.length < vectors.length then
    .error "zip() argument 2 is longer than argument 1"
  else
    .ok (chunks.zip vectors)

/-- The chunks of a document, each with the name of its file. -/
def documentChunks (libraries : Libraries Dense Sparse) (document : Document)
    (config : ProjectConfig) : Option (Except String (List Chunk)) :=
  match parseFile libraries document.rawBytes document.fileType with
  | .error message => some (.error message)
  | .ok text =>
      match ChunkingStrategy.ofString
          (config.chunkingStrategy.getD "naive") with
      | .error message => some (.error message)
      | .ok strategy =>
          (chunkText text strategy (config.chunkSize.getD 512)
            (config.chunkOverlap.getD 64)).map fun result =>
              result.map fun chunks =>
                chunks.map fun chunk =>
                  { chunk with filename := some document.filename }

/-- `_index_document`; `none` where the chunking never returns. -/
def indexDocument (libraries : Libraries Dense Sparse) (document : Document)
    (config : ProjectConfig) :
    Option (Except String (Indexed Dense Sparse)) :=
  (documentChunks libraries document config).map fun result => do
    let chunks ← result
    let texts := chunks.map Chunk.text
    let vectors ← libraries.embed texts
    let results ← zipStrict chunks vectors
    let sparseVectors ← libraries.sparseEmbed texts
    let sparseResults ← zipStrict chunks sparseVectors
    return { results := results, sparseResults := sparseResults }

end Indexing

/-! ## Points -/

section Points

variable {Dense Sparse : Type}

structure Payload where
  documentId : String
  projectId : String
  chunkIndex : Nat
  text : String
  filename : String
  createdAt : Timestamp
  deriving DecidableEq, Repr

structure Point (Dense Sparse : Type) where
  dense : Dense
  bm25 : Option Sparse
  payload : Payload

def Point.IsOf (point : Point Dense Sparse) (documentId : Uuid) : Prop :=
  point.payload.documentId = documentId.str

/-- A collection maps the identifiers of its points to the points. -/
abbrev Collection (Dense Sparse : Type) :=
  String → Option (Point Dense Sparse)

/-- The name whose hash identifies a chunk. -/
def pointName (documentId : Uuid) (index : Nat) : String :=
  documentId.str ++ ":" ++ toString index

/-- The identifier of the point of a chunk. -/
def pointId (libraries : Libraries Dense Sparse) (documentId : Uuid)
    (index : Nat) : String :=
  (libraries.uuid5 (pointName documentId index)).str

/-- The points `upsert` writes. -/
def pointsOf (libraries : Libraries Dense Sparse)
    (projectId documentId : Uuid) (indexed : Indexed Dense Sparse)
    (now : Timestamp) : List (String × Point Dense Sparse) :=
  indexed.results.map fun (chunk, vector) =>
    (pointId libraries documentId chunk.index, {
      dense := vector
      -- in a dictionary the last vector of an index wins
      bm25 :=
        (indexed.sparseResults.reverse.find? fun sparse =>
          sparse.1.index = chunk.index).map Prod.snd
      payload := {
        documentId := documentId.str
        projectId := projectId.str
        chunkIndex := chunk.index
        text := chunk.text
        filename := chunk.filename.getD ""
        createdAt := now } })

/-- Only a document without chunks has no points. -/
theorem pointsOf_isEmpty {libraries : Libraries Dense Sparse}
    {projectId documentId : Uuid} {indexed : Indexed Dense Sparse}
    {now : Timestamp} :
    (pointsOf libraries projectId documentId indexed now).isEmpty = true ↔
      indexed.results = [] := by
  rw [List.isEmpty_iff, pointsOf, List.map_eq_nil_iff]

/-- Two chunks with one name are chunks of one document with one number. -/
theorem pointName_injective {leftId rightId : Uuid} {left right : Nat}
    (same : pointName leftId left = pointName rightId right) :
    leftId = rightId ∧ left = right := by
  have characters := congrArg String.toList same
  simp only [pointName, String.toList_append, Uuid.toList_str,
    List.append_assoc] at characters
  have parts := List.append_inj characters (by simp)
  have tails := (List.append_inj parts.2 rfl).2
  refine ⟨Uuid.chars_injective parts.1, ?_⟩
  exact repr_injective (String.toList_inj.mp tails)

/-- Where the hash tells the names in use apart, the identifiers of points
differ. -/
theorem pointId_injective {libraries : Libraries Dense Sparse}
    {names : Set String} (injective : Set.InjOn libraries.uuid5 names)
    {leftId rightId : Uuid} {left right : Nat}
    (leftUsed : pointName leftId left ∈ names)
    (rightUsed : pointName rightId right ∈ names)
    (same : pointId libraries leftId left =
      pointId libraries rightId right) :
    leftId = rightId ∧ left = right :=
  pointName_injective
    (injective leftUsed rightUsed (Uuid.str_injective same))

theorem filename_documentChunks {libraries : Libraries Dense Sparse}
    {document : Document} {config : ProjectConfig} {chunks : List Chunk}
    (cut : documentChunks libraries document config = some (.ok chunks)) :
    ∀ chunk ∈ chunks, chunk.filename = some document.filename := by
  unfold documentChunks at cut
  split at cut
  · cases cut
  · split at cut
    · cases cut
    · obtain ⟨outcome, _, named⟩ := Option.map_eq_some_iff.mp cut
      cases outcome with
      | error message => cases named
      | ok bare =>
          simp only [Except.map, Except.ok.injEq] at named
          intro chunk member
          rw [← named] at member
          obtain ⟨original, _, rfl⟩ := List.mem_map.mp member
          rfl

theorem index_documentChunks {libraries : Libraries Dense Sparse}
    {document : Document} {config : ProjectConfig} {chunks : List Chunk}
    (cut : documentChunks libraries document config = some (.ok chunks)) :
    chunks.map Chunk.index = List.range chunks.length := by
  unfold documentChunks at cut
  split at cut
  · cases cut
  · split at cut
    · cases cut
    · obtain ⟨outcome, bareCut, named⟩ := Option.map_eq_some_iff.mp cut
      cases outcome with
      | error message => cases named
      | ok bare =>
          simp only [Except.map, Except.ok.injEq] at named
          have numbered := index_chunkText bareCut
          rw [← named, List.map_map, List.length_map]
          exact numbered

theorem map_fst_zipStrict {Vector : Type} {chunks : List Chunk}
    {vectors : List Vector} {pairs : List (Chunk × Vector)}
    (zipped : zipStrict chunks vectors = .ok pairs) :
    pairs.map Prod.fst = chunks := by
  unfold zipStrict at zipped
  split at zipped
  · cases zipped
  · rename_i notShorter
    split at zipped
    · cases zipped
    · rw [Except.ok.injEq] at zipped
      rw [← zipped, List.map_fst_zip (by omega)]

/-- The dense vectors of a document belong to its chunks. -/
theorem documentChunks_of_indexDocument
    {libraries : Libraries Dense Sparse} {document : Document}
    {config : ProjectConfig} {indexed : Indexed Dense Sparse}
    (indexedAs :
      indexDocument libraries document config = some (.ok indexed)) :
    documentChunks libraries document config =
      some (.ok (indexed.results.map Prod.fst)) := by
  obtain ⟨outcome, cut, result⟩ := Option.map_eq_some_iff.mp indexedAs
  cases outcome with
  | error message => cases result
  | ok chunks =>
      rw [cut]
      simp only [bind, Except.bind] at result
      split at result
      · cases result
      · split at result
        · cases result
        · rename_i zipped
          split at result
          · cases result
          · split at result
            · cases result
            · simp only [pure, Except.pure, Except.ok.injEq] at result
              rw [← result, map_fst_zipStrict zipped]

end Points

end ProjectMemory.Ingestion
