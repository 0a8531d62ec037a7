import ProjectMemory.Models.Json

/-!
# Summarizing a document

`summarize_document` asks the LLM for a JSON object and returns whatever object
it gets.  When there is none it returns a fallback, which says so under
`raw_text_fallback`.
-/

namespace ProjectMemory.Ingestion

structure Message where
  role : String
  content : String
  deriving DecidableEq, Repr

def summarySystemPrompt : String :=
  "You are a project memory extraction system. " ++
    "Return only valid JSON matching the requested schema."

/-- `_SUMMARY_PROMPT` up to the file name. -/
def summaryInstructions : String :=
  "You are an expert software project memory extraction system.\n\n" ++
  "Your task is to analyze a document and extract durable, retrieval-optimized " ++
  "knowledge for a long-term AI memory engine.\n\n" ++
  "The output will be stored inside a Context-Augmented Generation (CAG) system " ++
  "that combines vector retrieval (RAG), evolving project belief states, semantic " ++
  "memory, and architectural context tracking.\n\n" ++
  "Focus on preserving:\n" ++
  "- technical intent\n" ++
  "- architectural decisions\n" ++
  "- implementation details\n" ++
  "- APIs, models, systems, workflows\n" ++
  "- constraints and assumptions\n" ++
  "- important entities and concepts\n\n" ++
  "Avoid:\n" ++
  "- fluff, repetition, vague summaries\n" ++
  "- generic phrasing\n" ++
  "- speculative information\n\n" ++
  "Rules:\n" ++
  "- Return ONLY valid JSON\n" ++
  "- No markdown, no explanations, no code fences\n" ++
  "- Every field must exist — use empty arrays when no data exists\n" ++
  "- Do not invent information not present in the document\n" ++
  "- Keep summaries dense and information-rich\n\n" ++
  "Required JSON schema:\n" ++
  "\x7b\n" ++
  "  \"summary\": \"Concise high-signal overview of the document\",\n" ++
  "  \"key_points\": [\"...\"],\n" ++
  "  \"technical_concepts\": [\"...\"],\n" ++
  "  \"architectural_components\": [\"...\"],\n" ++
  "  \"decisions\": [\x7b\"decision\": \"...\", \"reasoning\": \"...\"\x7d],\n" ++
  "  \"action_items\": [\n" ++
  "    \x7b\"task\": \"...\", \"owner\": \"...\", \"status\": \"open|in_progress|done|unknown\"\x7d\n" ++
  "  ],\n" ++
  "  \"entities\": \x7b\n" ++
  "    \"people\": [\"...\"], \"organizations\": [\"...\"], \"technologies\": [\"...\"],\n" ++
  "    \"repositories\": [\"...\"], \"services\": [\"...\"]\n" ++
  "  \x7d,\n" ++
  "  \"topics\": [\"...\"],\n" ++
  "  \"important_relationships\": " ++
  "[\x7b\"source\": \"...\", \"relationship\": \"...\", \"target\": \"...\"\x7d],\n" ++
  "  \"document_type\": \"meeting_notes|architecture|specification|code|" ++
  "design_doc|research|other\",\n" ++
  "  \"confidence\": 0.0\n" ++
  "\x7d\n\n" ++
  "Field requirements:\n" ++
  "- key_points: max 8 items\n" ++
  "- technical_concepts: libraries, algorithms, protocols, infrastructure, patterns\n" ++
  "- architectural_components: services, databases, APIs, pipelines, agents, subsystems\n" ++
  "- topics: short retrieval-friendly tags\n" ++
  "- confidence: float between 0 and 1 representing extraction confidence\n\n"

/-- `_SUMMARY_PROMPT.format(filename=filename, text=text)`. -/
def summaryPrompt (filename text : String) : String :=
  summaryInstructions ++ "Document filename: " ++ filename ++
    "\n\nDocument content:\n" ++ text ++ "\n"

def summaryMessages (filename text : String) : List Message :=
  [{ role := "system", content := summarySystemPrompt },
    { role := "user", content := summaryPrompt filename text }]

/-- `_FALLBACK`. -/
def summaryFallback : List (String × Json) :=
  [("summary", .str "Failed to summarize document"),
    ("key_points", .arr []),
    ("technical_concepts", .arr []),
    ("architectural_components", .arr []),
    ("decisions", .arr []),
    ("action_items", .arr []),
    ("entities", .obj [
      ("people", .arr []),
      ("organizations", .arr []),
      ("technologies", .arr []),
      ("repositories", .arr []),
      ("services", .arr [])]),
    ("topics", .arr []),
    ("important_relationships", .arr []),
    ("document_type", .str "other"),
    ("confidence", .num 0 1),
    ("raw_text_fallback", .bool true)]

/-- The exceptions of `json.loads`; only the first is caught. -/
inductive LoadsError where
  | jsonDecode (message : String)
  | other (message : String)
  deriving DecidableEq, Repr

/-- An LLM: its answer to some messages from a model with a token limit, or
the text of an `LLMError`. -/
abbrev LlmCall := List Message → String → Nat → Except String String

def summarizeDocument (llmCall : LlmCall)
    (loads : String → Except LoadsError Json)
    (text filename model : String) :
    Except String (List (String × Json)) :=
  match llmCall (summaryMessages filename text) model 8000 with
  | .error _ => .ok summaryFallback
  | .ok answer =>
      match loads answer with
      | .ok (.obj parsed) => .ok parsed
      | .ok _ => .ok summaryFallback
      | .error (.jsonDecode _) => .ok summaryFallback
      | .error (.other message) => .error message

/-- One of the three paths to the fallback is taken: the call failed, its
answer is not JSON, or it is JSON and not an object. -/
def tookFallback (llmCall : LlmCall)
    (loads : String → Except LoadsError Json)
    (text filename model : String) : Bool :=
  match llmCall (summaryMessages filename text) model 8000 with
  | .error _ => true
  | .ok answer =>
      match loads answer with
      | .ok (.obj _) => false
      | .ok _ => true
      | .error (.jsonDecode _) => true
      | .error (.other _) => false

section Lemmas

variable {llmCall : LlmCall} {loads : String → Except LoadsError Json}
  {text filename model : String}

/-- A returned object is the fallback or what the LLM answered. -/
theorem summarizeDocument_cases {members : List (String × Json)}
    (returned :
      summarizeDocument llmCall loads text filename model = .ok members) :
    (tookFallback llmCall loads text filename model = true ∧
        members = summaryFallback) ∨
      (tookFallback llmCall loads text filename model = false ∧
        ∃ answer, llmCall (summaryMessages filename text) model 8000 =
            .ok answer ∧
          loads answer = .ok (.obj members)) := by
  unfold summarizeDocument at returned
  unfold tookFallback
  cases answered : llmCall (summaryMessages filename text) model 8000 with
  | error message =>
      rw [answered] at returned
      exact Or.inl ⟨rfl, (Except.ok.inj returned).symm⟩
  | ok answer =>
      simp only [answered] at returned ⊢
      cases parsed : loads answer with
      | error failure =>
          cases failure with
          | jsonDecode message =>
              rw [parsed] at returned
              exact Or.inl ⟨rfl, (Except.ok.inj returned).symm⟩
          | other message =>
              rw [parsed] at returned
              cases returned
      | ok value =>
          simp only [parsed] at returned ⊢
          cases value with
          | obj found =>
              cases returned
              exact Or.inr ⟨rfl, answer, rfl, parsed⟩
          | _ => exact Or.inl ⟨rfl, (Except.ok.inj returned).symm⟩

theorem member_summaryFallback :
    Json.member summaryFallback "raw_text_fallback" = some (.bool true) :=
  rfl

end Lemmas

end ProjectMemory.Ingestion
