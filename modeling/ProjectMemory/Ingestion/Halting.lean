import ProjectMemory.Foundation.Words
import ProjectMemory.Ingestion.Chunker
import ProjectMemory.Models.Rows

/-!
# When chunking comes to an end

A project is created with any configuration whatsoever.  The two numbers that
chunking takes from it, or from the defaults, decide whether the windows of a
long text move forward.
-/

namespace ProjectMemory.Ingestion

open Foundation

/-! ## The project and its numbers -/

/-- A `ProjectCreate` that passed validation. -/
structure ProjectCreate where
  name : String
  description : Option String
  teamId : Uuid
  config : List (String × Json)
  name_long : 2 ≤ name.length

/-- `ProjectService.create`, for the row's generated columns. -/
def ProjectCreate.create (teams : Uuid → Bool) (id : Uuid) (now : Timestamp)
    (data : ProjectCreate) : Except String Project :=
  if teams data.teamId then
    .ok {
      id := id
      name := data.name
      description := data.description
      teamId := data.teamId
      config := data.config
      createdAt := now }
  else .error ("Team " ++ data.teamId.str ++ " does not exist")

/-- The `int` that a JSON value is read as; `bool` is a kind of `int`. -/
def integerOf : Json → Option Int
  | .num mantissa 0 => some mantissa
  | .bool value => some (if value then 1 else 0)
  | _ => none

/-- `config.get(key, default)`, if that is an integer. -/
def configInteger (config : List (String × Json)) (key : String)
    (default : Int) : Option Int :=
  match Json.member config key with
  | none => some default
  | some value => integerOf value

/-- `chunk_size` and `chunk_overlap` as `_index_document` reads them. -/
def chunkingIntegers (config : List (String × Json)) : Option (Int × Int) := do
  let chunkSize ← configInteger config "chunk_size" 512
  let overlap ← configInteger config "chunk_overlap" 64
  return (chunkSize, overlap)

/-! ## Halting -/

/-- `_naive_chunk`, with its loop cut off after some rounds. -/
def naiveChunkWithin (rounds : Nat) (text : String)
    (chunkSize overlap : Int) : Option (List Chunk) :=
  if strip text.toList = [] then some []
  else
    let words := splitWords text.toList
    if words.length ≤ chunkSize then
      some [{ text := text, index := 0, filename := none }]
    else naiveChunkLoop words chunkSize (chunkSize - overlap) rounds 0 0

/-- Some number of rounds is enough. -/
def NaiveChunkHalts (text : String) (chunkSize overlap : Int) : Prop :=
  ∃ rounds, (naiveChunkWithin rounds text chunkSize overlap).isSome = true

/-- Only a text of many words reaches the loop. -/
theorem naiveChunkWithin_isSome {text : String} {chunkSize overlap : Int}
    (rounds : Nat) :
    (naiveChunkWithin rounds text chunkSize overlap).isSome = true ↔
      splitWords text.toList = [] ∨
        (splitWords text.toList).length ≤ chunkSize ∨
        (naiveChunkLoop (splitWords text.toList) chunkSize
          (chunkSize - overlap) rounds 0 0).isSome = true := by
  rw [naiveChunkWithin, ← strip_eq_nil_iff_splitWords]
  by_cases blank : strip text.toList = []
  · rw [if_pos blank]
    exact iff_of_true rfl (Or.inl blank)
  · rw [if_neg blank, or_iff_right blank]
    simp only
    by_cases short : (splitWords text.toList).length ≤ chunkSize
    · rw [if_pos short]
      exact iff_of_true rfl (Or.inl short)
    · rw [if_neg short, or_iff_right short]

theorem naiveChunkHalts_iff {text : String} {chunkSize overlap : Int} :
    NaiveChunkHalts text chunkSize overlap ↔
      splitWords text.toList = [] ∨
        (splitWords text.toList).length ≤ chunkSize ∨
        overlap < chunkSize := by
  constructor
  · rintro ⟨rounds, halted⟩
    rcases (naiveChunkWithin_isSome rounds).mp halted with
      blank | short | ended
    · exact Or.inl blank
    · exact Or.inr (Or.inl short)
    · by_contra running
      have some : splitWords text.toList ≠ [] :=
        fun blank => running (Or.inl blank)
      have positive := List.length_pos_iff.mpr some
      have still : chunkSize - overlap ≤ 0 := by
        by_contra forward
        exact running (Or.inr (Or.inr (by omega)))
      rw [naiveChunkLoop_eq_none still rounds 0 0 (by omega)] at ended
      cases ended
  · intro condition
    refine ⟨(splitWords text.toList).length,
      (naiveChunkWithin_isSome _).mpr ?_⟩
    refine condition.imp_right (Or.imp_right fun forward => ?_)
    exact naiveChunkLoop_isSome (by omega) _ 0 0 (by omega)

/-- `naiveChunk` allows as many rounds as are ever needed. -/
theorem naiveChunk_isSome_iff {text : String} {chunkSize overlap : Int} :
    (naiveChunk text chunkSize overlap).isSome = true ↔
      NaiveChunkHalts text chunkSize overlap := by
  have same : naiveChunk text chunkSize overlap =
      naiveChunkWithin (splitWords text.toList).length text chunkSize overlap :=
    rfl
  constructor
  · intro halted
    exact ⟨(splitWords text.toList).length, halted⟩
  · intro halts
    rw [same, naiveChunkWithin_isSome]
    refine (naiveChunkHalts_iff.mp halts).imp_right
      (Or.imp_right fun forward => ?_)
    exact naiveChunkLoop_isSome (by omega) _ 0 0 (by omega)

/-- The texts of a created project on which chunking comes to an end. -/
theorem create_halts_iff {teams : Uuid → Bool} {id : Uuid} {now : Timestamp}
    {data : ProjectCreate} {project : Project}
    (created : data.create teams id now = .ok project)
    {chunkSize overlap : Int}
    (numbers : chunkingIntegers project.config = some (chunkSize, overlap))
    (text : String) :
    chunkingIntegers data.config = some (chunkSize, overlap) ∧
      (NaiveChunkHalts text chunkSize overlap ↔
        splitWords text.toList = [] ∨
          (splitWords text.toList).length ≤ chunkSize ∨
          overlap < chunkSize) := by
  refine ⟨?_, naiveChunkHalts_iff⟩
  unfold ProjectCreate.create at created
  by_cases exist : teams data.teamId = true
  · rw [if_pos exist] at created
    cases created
    exact numbers
  · rw [if_neg exist] at created
    cases created

/-- A project with a small `chunk_size` and nothing else in its
configuration. -/
def smallChunks : ProjectCreate where
  name := "notes"
  description := none
  teamId := 1
  config := [("chunk_size", .num 2 0)]
  name_long := by decide

/-- A text of two words is one chunk; a longer one is never done with. -/
theorem create_halts_iff_smallChunks :
    chunkingIntegers smallChunks.config = some (2, 64) ∧
      NaiveChunkHalts "sync notes" 2 64 ∧
      ¬NaiveChunkHalts "sync the notes daily" 2 64 := by
  have condition := @create_halts_iff (fun _ => true) 2 0 smallChunks _ rfl
    2 64 rfl
  refine ⟨(condition "").1, (condition "sync notes").2.mpr ?_,
    mt (condition "sync the notes daily").2.mp ?_⟩
  · exact .inr (.inl (by decide))
  · decide

theorem smallChunks_neverHalts :
    ∃ project, smallChunks.create (fun _ => true) 2 0 = .ok project ∧
      chunkingIntegers project.config = some (2, 64) ∧
      ¬NaiveChunkHalts "a b c" 2 64 := by
  refine ⟨_, rfl, rfl, ?_⟩
  rw [naiveChunkHalts_iff]
  decide

end ProjectMemory.Ingestion
