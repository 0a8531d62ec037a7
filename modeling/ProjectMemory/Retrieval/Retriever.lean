import ProjectMemory.Core.Access
import ProjectMemory.Ingestion.VectorStore

/-!
# Retrieval

A search ranks the points of one project's collection.  The retriever refuses
projects outside the access scope of the caller before it embeds the question;
over several projects it merges the answers by score.

The embedding models and Qdrant's ranking are parameters: the ranking sees the
points of the named collection only.
-/

namespace ProjectMemory.Retrieval

open Foundation Ingestion ProjectMemory.Core

section Retriever

variable {Dense Sparse Score : Type}

structure ScoredPoint (Score : Type) where
  payload : Payload
  score : Score

structure RetrievedChunk (Score : Type) where
  documentId : Uuid
  chunkIndex : Nat
  text : String
  filename : String
  score : Score
  projectId : Uuid

/-- The models that embed a question and the search of Qdrant. -/
structure Search (Dense Sparse Score : Type) where
  embedQuery : String → Except String Dense
  sparseEmbedQuery : String → Except String Sparse
  queryPoints : Collection Dense Sparse → Dense → Sparse → Nat →
    Except String (List (ScoredPoint Score))

/-- An exception no handler is registered for. -/
def internal (message : String) : HttpError :=
  ⟨500, message⟩

def orInternal {Value : Type} (result : Except String Value) :
    Except HttpError Value :=
  result.mapError internal

def toChunk (point : ScoredPoint Score) (projectId : Uuid) :
    Except HttpError (RetrievedChunk Score) :=
  match Uuid.parse point.payload.documentId with
  | none => .error (internal "badly formed hexadecimal UUID string")
  | some documentId =>
      .ok {
        documentId := documentId
        chunkIndex := point.payload.chunkIndex
        text := point.payload.text
        filename := point.payload.filename
        score := point.score
        projectId := projectId }

def hybridSearch (search : Search Dense Sparse Score)
    (collections : Uuid → Option (Collection Dense Sparse))
    (projectId : Uuid) (dense : Dense) (sparse : Sparse) (topK : Nat) :
    Except HttpError (List (ScoredPoint Score)) :=
  match collections projectId with
  | none => .ok []
  | some collection =>
      (search.queryPoints collection dense sparse topK).mapError
        fun message =>
          internal ("Failed to hybrid search collection for project " ++
            projectId.str ++ ": " ++ message)

def retrieve (search : Search Dense Sparse Score)
    (collections : Uuid → Option (Collection Dense Sparse))
    (projectId : Uuid) (queryText : String) (accessibleIds : List Uuid)
    (topK : Nat) : Except HttpError (List (RetrievedChunk Score)) :=
  if projectId ∉ accessibleIds then
    .error (accessDenied
      ("Project " ++ projectId.str ++ " is not accessible"))
  else do
    let dense ← orInternal (search.embedQuery queryText)
    let sparse ← orInternal (search.sparseEmbedQuery queryText)
    let points ←
      hybridSearch search collections projectId dense sparse topK
    points.mapM (toChunk · projectId)

/-- `merged.sort(key=score, reverse=True)`: by falling score, chunks of one
score in the order they came in. -/
def sortByScore [LinearOrder Score] (chunks : List (RetrievedChunk Score)) :
    List (RetrievedChunk Score) :=
  chunks.mergeSort fun left right => right.score ≤ left.score

def retrieveMulti [LinearOrder Score] (search : Search Dense Sparse Score)
    (collections : Uuid → Option (Collection Dense Sparse))
    (projectIds : List Uuid) (queryText : String)
    (accessibleIds : List Uuid) (topK : Nat) :
    Except HttpError (List (RetrievedChunk Score)) :=
  match projectIds.find? (· ∉ accessibleIds) with
  | some projectId =>
      .error (accessDenied
        ("Project " ++ projectId.str ++ " is not accessible"))
  | none => do
      let perProject ← projectIds.mapM fun projectId =>
        retrieve search collections projectId queryText accessibleIds topK
      return (sortByScore perProject.flatten).take topK

theorem retrieve_congr (search : Search Dense Sparse Score)
    {left right : Uuid → Option (Collection Dense Sparse)}
    {projectId : Uuid} {accessibleIds : List Uuid}
    (same : projectId ∈ accessibleIds → left projectId = right projectId)
    (queryText : String) (topK : Nat) :
    retrieve search left projectId queryText accessibleIds topK =
      retrieve search right projectId queryText accessibleIds topK := by
  unfold retrieve
  split
  · rfl
  · rename_i isAccessible
    simp only [hybridSearch, same (not_not.mp isAccessible)]

/-- Retrieval over several projects reads accessible collections only. -/
theorem retrieveMulti_congr [LinearOrder Score]
    (search : Search Dense Sparse Score)
    {left right : Uuid → Option (Collection Dense Sparse)}
    {accessibleIds : List Uuid}
    (same : ∀ projectId ∈ accessibleIds, left projectId = right projectId)
    (projectIds : List Uuid) (queryText : String) (topK : Nat) :
    retrieveMulti search left projectIds queryText accessibleIds topK =
      retrieveMulti search right projectIds queryText accessibleIds
        topK := by
  have sameRetrieve :
      (fun projectId =>
        retrieve search left projectId queryText accessibleIds topK) =
      fun projectId =>
        retrieve search right projectId queryText accessibleIds topK := by
    funext projectId
    exact retrieve_congr search (same projectId) queryText topK
  simp only [retrieveMulti, sameRetrieve]

end Retriever

end ProjectMemory.Retrieval
