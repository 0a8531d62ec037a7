import ProjectMemory.Foundation.Calendar
import ProjectMemory.Models.Json
import ProjectMemory.Models.Rows

/-!
# The prompts of the belief-state jobs

The texts that ask for a digest of some summaries and for the merge of some
digests, and those that ask for a first state and for an update of one.
-/

namespace ProjectMemory.Cag

open Foundation

/-- What the prompts read of a summary and of its document. -/
structure LoggedSummary where
  id : Uuid
  filename : Option String
  createdAt : Timestamp
  summary : List (String × Json)

/-- `_CAP_INSTRUCTIONS`. -/
def capInstructions : String :=
  "Strict schema caps (enforce these exactly):\n" ++
  "- project_summary: required string, max 5000 characters\n" ++
  "- decisions: required list, max 100 items; each item has:\n" ++
  "    - description: required string, max 500 characters\n" ++
  "    - approximate_date: ISO date string (YYYY-MM-DD) or null\n" ++
  "    - summary_id_ref: the UUID of the summary that introduced this decision, " ++
  "or null\n" ++
  "- open_items: required list, max 100 items; each item has:\n" ++
  "    - description: required string, max 500 characters\n" ++
  "    - first_seen_summary_id: the UUID of the first summary mentioning this item, " ++
  "or null\n" ++
  "- key_people: required list, max 50 items; each item has:\n" ++
  "    - name: required string, max 120 characters\n" ++
  "    - role: string or null, max 120 characters\n" ++
  "- recurring_themes: required list of strings, max 30 items; each string max 80 " ++
  "characters\n" ++
  "Do not include any fields not listed above.\n"

/-- `_BATCH_DIGEST_BODY` up to the summaries. -/
def batchDigestBody : String :=
  "You are producing an intermediate digest for a hierarchical project belief-state " ++
  "rebuild.\n\n" ++
  "Given the following batch of document summaries, produce a single JSON object matching " ++
  "the exact schema below. This digest will later be merged with other digests, so it must " ++
  "be dense and self-contained.\n\n" ++
  "Rules for this digest:\n" ++
  "1. Capture all decisions, open items, key people, and recurring themes from the batch.\n" ++
  "2. Do not invent information not present in the summaries.\n" ++
  "3. Carry the summary id of the source summary as summary_id_ref for decisions and " ++
  "first_seen_summary_id for open_items whenever applicable.\n" ++
  "4. Resolve contradictions inside this batch by preferring the LATER in-content date; " ++
  "use document filename dates or decision approximate_date when present. " ++
  "If no in-content date exists, prefer the later event-log entry (later created_at / " ++
  "newer summary). Drop superseded entries; do not keep both.\n" ++
  "5. Close (remove) open_items that the batch explicitly shows as resolved.\n" ++
  "6. Return ONLY valid JSON. No markdown, no explanations, no code fences.\n\n" ++
  "Document summaries (in chronological order):\n"

/-- `_DIGEST_MERGE_BODY` up to the digests. -/
def digestMergeBody : String :=
  "You are merging intermediate digests during a hierarchical project belief-state rebuild.\n\n" ++
  "Given the following chronologically-ordered intermediate digests, produce a single merged " ++
  "JSON object matching the exact schema below.\n\n" ++
  "Rules for merging:\n" ++
  "1. Combine all decisions, open items, key people, and recurring themes from the digests.\n" ++
  "2. The digests are provided in chronological order (earliest first, latest last). " ++
  "LATER digests supersede EARLIER digests on conflict.\n" ++
  "3. Match entries by summary_id_ref when present. Otherwise, match only when both " ++
  "case-insensitive description AND approximate_date are equal. Treat entries with " ++
  "different dates or no matching ref as distinct.\n" ++
  "4. Close (remove) open_items from earlier digests that later digests explicitly show " ++
  "as resolved.\n" ++
  "5. Do not invent information not present in the digests.\n" ++
  "6. Return ONLY valid JSON. No markdown, no explanations, no code fences.\n\n" ++
  "Intermediate digests (in chronological order):\n"

/-- What both prompts end with. -/
def promptEnd : String :=
  "\n\nOutput JSON:" ++ "\n" ++ capInstructions

/-- `_format_summary`. -/
def formatSummary (summary : LoggedSummary) : String :=
  "--- summary id: " ++ summary.id.str ++ " | filename: " ++
    summary.filename.getD "unknown" ++ " | created_at: " ++
    isoformat summary.createdAt ++ " ---\n" ++
    String.ofList ((Json.obj summary.summary).dumpsIndent 0)

/-- The digest prompt of a batch that is not empty. -/
def batchDigestPrompt (summaries : List LoggedSummary) : String :=
  batchDigestBody ++ "\n\n".intercalate (summaries.map formatSummary) ++
    promptEnd

def formatBatchDigestPrompt (summaries : List LoggedSummary) :
    Except String String :=
  if summaries.isEmpty then
    .error "At least one summary is required for batch digest"
  else .ok (batchDigestPrompt summaries)

section Merge

variable {Content : Type}

/-- The merge prompt of a batch that is not empty. -/
def digestMergePrompt (schema : Schema Content) (digests : List Content) :
    String :=
  digestMergeBody ++
    "\n\n".intercalate (digests.map fun digest =>
      String.ofList ((schema.dump digest).dumpsIndent 0)) ++
    promptEnd

def formatDigestMergePrompt (schema : Schema Content)
    (digests : List Content) : Except String String :=
  if digests.isEmpty then
    .error "At least one digest is required for merge"
  else .ok (digestMergePrompt schema digests)

end Merge

/-! ## The prompts of an update -/

section Update

/-- `INITIAL_GENERATION_PROMPT` up to the summaries. -/
def initialHeader : String :=
  "You are updating a structured project belief state for a hybrid RAG/CAG " ++
  "knowledge system.\n\n" ++
  "Given the following document summaries, produce a single JSON object matching " ++
  "the exact schema below.\n\n" ++ capInstructions ++
  "\nEach summary is prefixed with its summary id, document filename, and " ++
  "created_at timestamp.\n" ++
  "Use the summary id as summary_id_ref for decisions and " ++
  "first_seen_summary_id for open_items when applicable.\n" ++
  "Do not invent information that is not present in the summaries.\n" ++
  "If the summaries contain no decisions, open items, key people, or recurring " ++
  "themes, return empty lists for those fields.\n" ++
  "Return ONLY valid JSON. No markdown, no explanations, no code fences.\n\n" ++
  "Document summaries:\n"

/-- `INCREMENTAL_UPDATE_PROMPT` up to the state. -/
def incrementalHeader : String :=
  "You are incrementally updating a structured project belief state for a hybrid " ++
  "RAG/CAG knowledge system.\n\n" ++
  "Current belief state JSON:\n"

/-- `INCREMENTAL_UPDATE_PROMPT` after the window. -/
def incrementalFooter : String :=
  "\n\nEach summary is prefixed with its summary id, document filename, and " ++
  "created_at timestamp.\n\n" ++
  "Produce a single updated JSON object matching the exact same schema as the " ++
  "current state.\n\n" ++ capInstructions ++ "\n" ++
  "Conflict-resolution rules (apply in this order):\n" ++
  "1. When new information contradicts an existing decision or open item, prefer " ++
  "the claim with the LATER in-content date.\n" ++
  "   Use decision approximate_date or document filename dates when present.\n" ++
  "   If no in-content date exists, prefer the later event-log entry " ++
  "(later created_at / newer summary).\n" ++
  "2. Record the superseding decision and DROP the superseded one; do not keep " ++
  "both.\n" ++
  "3. Close (remove) open_items that the new window explicitly shows as resolved.\n" ++
  "4. Preserve untouched entries verbatim. Do NOT re-paraphrase entries the new " ++
  "window does not mention.\n" ++
  "   This is the primary drift-control instruction.\n\n" ++
  "Use the summary id as summary_id_ref for decisions and " ++
  "first_seen_summary_id for open_items when applicable.\n" ++
  "Do not invent information that is not present in the current state or the new " ++
  "window.\n" ++
  "Return ONLY valid JSON. No markdown, no explanations, no code fences.\n\n" ++
  "Output JSON:"

/-- The formatted summaries of a window. -/
def windowText (window : List LoggedSummary) : String :=
  "\n\n".intercalate (window.map formatSummary)

def formatInitialPrompt (summaries : List LoggedSummary) :
    Except String String :=
  if summaries.isEmpty then
    .error "At least one summary is required for initial generation"
  else .ok (initialHeader ++ windowText summaries ++ "\n\nOutput JSON:")

def formatIncrementalPrompt (currentState : Json)
    (window : List LoggedSummary) : Except String String :=
  if window.isEmpty then
    .error "At least one summary is required for incremental update"
  else
    .ok (incrementalHeader ++ String.ofList (currentState.dumpsIndent 0) ++
      "\n\nNew document summaries to integrate:\n" ++ windowText window ++
      incrementalFooter)

end Update

end ProjectMemory.Cag
