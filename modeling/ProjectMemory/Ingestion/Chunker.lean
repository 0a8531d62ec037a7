import Mathlib.Data.List.Range
import ProjectMemory.Foundation.Text

/-!
# Chunking

`chunk_text` with the naive strategy: a text of at most `chunk_size` words is
one chunk, a longer one is cut into overlapping windows of words.  The loop
that cuts it comes to an end only if the windows move forward.
-/

namespace ProjectMemory.Ingestion

open Foundation

inductive ChunkingStrategy where
  | naive
  | contextual
  | late
  deriving DecidableEq, Repr

def ChunkingStrategy.ofString (value : String) :
    Except String ChunkingStrategy :=
  if value = "naive" then .ok .naive
  else if value = "contextual" then .ok .contextual
  else if value = "late" then .ok .late
  else .error ("'" ++ value ++ "' is not a valid ChunkingStrategy")

/-- A chunk; of its metadata only the file name is used. -/
structure Chunk where
  text : String
  index : Nat
  filename : Option String
  deriving DecidableEq, Repr

/-- The loop of `_naive_chunk`, for at most `fuel` rounds; `none` if it has
not come to its end by then. -/
def naiveChunkLoop (words : List (List Char)) (chunkSize step : Int) :
    Nat → Int → Nat → Option (List Chunk)
  | 0, start, _ => if start < words.length then none else some []
  | fuel + 1, start, index =>
      if start < words.length then
        let window := slice words start (start + chunkSize)
        let chunk : Chunk := {
          text := String.ofList (List.intercalate [' '] window)
          index := index
          filename := none }
        (naiveChunkLoop words chunkSize step fuel (start + step)
          (index + 1)).map (chunk :: ·)
      else some []

/-- `_naive_chunk`; `none` where it never returns. -/
def naiveChunk (text : String) (chunkSize overlap : Int) :
    Option (List Chunk) :=
  if strip text.toList = [] then some []
  else
    let words := splitWords text.toList
    if words.length ≤ chunkSize then
      some [{ text := text, index := 0, filename := none }]
    else
      naiveChunkLoop words chunkSize (chunkSize - overlap) words.length 0 0

/-- `chunk_text`; `none` where it never returns. -/
def chunkText (text : String) (strategy : ChunkingStrategy)
    (chunkSize overlap : Int) : Option (Except String (List Chunk)) :=
  match strategy with
  | .naive => (naiveChunk text chunkSize overlap).map .ok
  | .contextual => some (.error "contextual chunking not yet implemented")
  | .late => some (.error "late chunking not yet implemented")

section Fuel

variable {words : List (List Char)} {chunkSize step : Int}

/-- Windows that move forward need no more rounds than there are words. -/
theorem naiveChunkLoop_isSome (forward : 1 ≤ step) :
    ∀ (fuel : Nat) (start : Int) (index : Nat),
      words.length ≤ start + fuel →
      (naiveChunkLoop words chunkSize step fuel start index).isSome = true
  | 0, start, index, enough => by
      have ended : ¬ start < words.length := by omega
      simp [naiveChunkLoop, ended]
  | fuel + 1, start, index, enough => by
      simp only [naiveChunkLoop]
      split
      · rw [Option.isSome_map]
        exact naiveChunkLoop_isSome forward fuel _ _ (by omega)
      · rfl

/-- Windows that do not move forward never come to an end, however many rounds
are allowed. -/
theorem naiveChunkLoop_eq_none (still : step ≤ 0) :
    ∀ (fuel : Nat) (start : Int) (index : Nat),
      start < words.length →
      naiveChunkLoop words chunkSize step fuel start index = none
  | 0, start, index, inside => by
      simp [naiveChunkLoop, inside]
  | fuel + 1, start, index, inside => by
      simp only [naiveChunkLoop, if_pos inside]
      rw [naiveChunkLoop_eq_none still fuel _ _ (by omega)]
      rfl

end Fuel

theorem index_naiveChunkLoop {words : List (List Char)}
    {chunkSize step : Int} :
    ∀ {fuel : Nat} {start : Int} {index : Nat} {chunks : List Chunk},
      naiveChunkLoop words chunkSize step fuel start index = some chunks →
      chunks.map Chunk.index = List.range' index chunks.length
  | 0, start, index, chunks, cut => by
      simp only [naiveChunkLoop] at cut
      split at cut
      · cases cut
      · rw [Option.some.injEq] at cut
        rw [← cut]
        rfl
  | fuel + 1, start, index, chunks, cut => by
      simp only [naiveChunkLoop] at cut
      split at cut
      · obtain ⟨rest, restCut, rfl⟩ := Option.map_eq_some_iff.mp cut
        rw [List.map_cons, index_naiveChunkLoop restCut, List.length_cons,
          List.range'_succ]
      · rw [Option.some.injEq] at cut
        rw [← cut]
        rfl

theorem index_chunkText {text : String} {strategy : ChunkingStrategy}
    {chunkSize overlap : Int} {chunks : List Chunk}
    (cut : chunkText text strategy chunkSize overlap = some (.ok chunks)) :
    chunks.map Chunk.index = List.range chunks.length := by
  cases strategy with
  | contextual => cases cut
  | late => cases cut
  | naive =>
      obtain ⟨found, isFound, same⟩ := Option.map_eq_some_iff.mp cut
      rw [Except.ok.injEq] at same
      subst same
      rw [List.range_eq_range']
      unfold naiveChunk at isFound
      split at isFound
      · rw [Option.some.injEq] at isFound
        rw [← isFound]
        rfl
      · simp only at isFound
        split at isFound
        · rw [Option.some.injEq] at isFound
          rw [← isFound]
          rfl
        · exact index_naiveChunkLoop isFound

end ProjectMemory.Ingestion
