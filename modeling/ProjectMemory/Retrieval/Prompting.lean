import ProjectMemory.Retrieval.Retriever

/-!
# The prompt

The belief state and the retrieved passages stand in regions that end with a
closing marker; the same text inside a region is written differently, so that
it cannot end the region.  The question follows after the last region.
-/

namespace ProjectMemory.Retrieval

open Foundation

section Prompt

variable {Score : Type}

/-- `_seal`. -/
def sealText (text : List Char) : List Char :=
  replaceAll "</sources>".toList "<\\/sources>".toList
    (replaceAll "</project_state>".toList "<\\/project_state>".toList text)

def sourceHeader (includeProjectId : Bool) (label : Nat)
    (chunk : RetrievedChunk Score) : List Char :=
  "[S".toList ++ (toString label).toList ++ "] filename=\"".toList ++
    sealText chunk.filename.toList ++ "\" document_id=\"".toList ++
    chunk.documentId.chars ++ "\" chunk=".toList ++
    (toString chunk.chunkIndex).toList ++
    if includeProjectId then
      " project_id=\"".toList ++ chunk.projectId.chars ++ "\"".toList
    else []

/-- The lines of the passages from a label on. -/
def sourceLines (includeProjectId : Bool) :
    Nat → List (RetrievedChunk Score) → List (List Char)
  | _, [] => []
  | label, chunk :: chunks =>
      sourceHeader includeProjectId label chunk ::
        sealText chunk.text.toList :: [] ::
        sourceLines includeProjectId (label + 1) chunks

/-- `build_user_prompt`, from the JSON of the belief state. -/
def buildUserPrompt (beliefState : Option Json)
    (chunks : List (RetrievedChunk Score)) (question : String)
    (includeProjectId : Bool) : String :=
  let state :=
    match beliefState with
    | some content =>
        ["<project_state>".toList, sealText content.dumps,
          "</project_state>".toList]
    | none => ["(no project state available)".toList]
  String.ofList (List.intercalate ['\n']
    (state ++ [[], "<sources>".toList] ++
      sourceLines includeProjectId 1 chunks ++
      ["</sources>".toList, [], "Question:".toList, question.toList]))

end Prompt

end ProjectMemory.Retrieval
