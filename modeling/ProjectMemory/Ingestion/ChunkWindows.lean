import ProjectMemory.Foundation.Windows
import ProjectMemory.Foundation.Words
import ProjectMemory.Ingestion.Chunker

/-!
# Chunks are windows

The naive strategy cuts a long text into the windows of its words.  Nothing is
lost or invented, and what two neighbours share keeps every short run of words
together in one of them.
-/

namespace ProjectMemory.Ingestion

open Foundation

def Chunk.words (chunk : Chunk) : List (List Char) :=
  splitWords chunk.text.toList

/-- The chunks of some windows, numbered from an index on. -/
def windowChunks : Nat → List (List (List Char)) → List Chunk
  | _, [] => []
  | index, window :: windows =>
      { text := String.ofList (List.intercalate [' '] window)
        index := index
        filename := none } :: windowChunks (index + 1) windows

/-- The chunks of a text of more than `size` words. -/
structure IsWindowing (size step : Nat) (words : List (List Char))
    (chunks : List Chunk) : Prop where
  count : chunks.length = (words.length + step - 1) / step
  indices : chunks.map Chunk.index = List.range chunks.length
  windows : ∀ round chunk, chunks[round]? = some chunk →
    chunk.words = words.extract (round * step)
      (min (round * step + size) words.length)
  nonempty : ∀ chunk ∈ chunks, chunk.words ≠ []
  flatten : (chunks.map fun chunk =>
    chunk.words.take (min step chunk.words.length)).flatten = words

section Loop

variable {words : List (List Char)} {size step : Nat}

theorem slice_natCast {start : Nat} (inside : start < words.length)
    (size : Nat) :
    slice words start ((start : Int) + size) = (words.drop start).take size := by
  have first : sliceBound words.length start = start := by
    rw [sliceBound, if_neg (by omega)]
    omega
  have last : sliceBound words.length ((start : Int) + size) =
      min (start + size) words.length := by
    rw [sliceBound, if_neg (by omega)]
    omega
  rw [slice, first, last, List.drop_take]
  by_cases long : start + size ≤ words.length
  · rw [Nat.min_eq_left long, Nat.add_sub_cancel_left]
  · have length : (words.drop start).length = words.length - start :=
      List.length_drop
    rw [Nat.min_eq_right (by omega), List.take_of_length_le (by omega),
      List.take_of_length_le (by omega)]

/-- The loop makes a chunk of every window. -/
theorem naiveChunkLoop_eq (forward : 1 ≤ step) :
    ∀ (fuel start index : Nat), words.length ≤ start + fuel →
      naiveChunkLoop words size step fuel start index =
        some (windowChunks index (windows size step (words.drop start)))
  | 0, start, index, enough => by
      have ended : ¬((start : Int) < words.length) := by omega
      have noRounds : (0 + step - 1) / step = 0 := Nat.div_eq_of_lt (by omega)
      rw [naiveChunkLoop, if_neg ended, List.drop_of_length_le (by omega),
        windows, List.length_nil, noRounds]
      rfl
  | fuel + 1, start, index, enough => by
      rw [naiveChunkLoop]
      by_cases inside : start < words.length
      · have some : words.drop start ≠ [] := by
          apply List.ne_nil_of_length_pos
          rw [List.length_drop]
          omega
        have later : naiveChunkLoop words size step fuel ((start : Int) + step)
            (index + 1) = _ :=
          naiveChunkLoop_eq forward fuel (start + step) (index + 1) (by omega)
        rw [if_pos (by omega), later, windows_of_ne_nil forward some,
          List.drop_drop, slice_natCast inside]
        rfl
      · have noRounds : (0 + step - 1) / step = 0 :=
          Nat.div_eq_of_lt (by omega)
        rw [if_neg (by omega), List.drop_of_length_le (by omega), windows,
          List.length_nil, noRounds]
        rfl

end Loop

section Chunks

theorem words_windowChunks {pieces : List (List (List Char))}
    (areWords : ∀ window ∈ pieces, ∀ word ∈ window, IsWord word)
    (index : Nat) :
    (windowChunks index pieces).map Chunk.words = pieces := by
  induction pieces generalizing index with
  | nil => rfl
  | cons window pieces inductionHypothesis =>
      have later := inductionHypothesis
        (fun other member => areWords other
          (List.mem_cons_of_mem window member)) (index + 1)
      rw [windowChunks, List.map_cons, later, Chunk.words,
        String.toList_ofList,
        splitWords_intercalate (areWords window List.mem_cons_self)]

theorem length_windowChunks (pieces : List (List (List Char)))
    (index : Nat) : (windowChunks index pieces).length = pieces.length := by
  induction pieces generalizing index with
  | nil => rfl
  | cons window pieces inductionHypothesis =>
      rw [windowChunks, List.length_cons, inductionHypothesis,
        List.length_cons]

theorem index_windowChunks (pieces : List (List (List Char)))
    (index : Nat) :
    (windowChunks index pieces).map Chunk.index =
      List.range' index pieces.length := by
  induction pieces generalizing index with
  | nil => rfl
  | cons window pieces inductionHypothesis =>
      rw [windowChunks, List.map_cons, inductionHypothesis, List.length_cons,
        List.range'_succ]

theorem mem_of_mem_windows {words window : List (List Char)}
    {size step : Nat} (member : window ∈ windows size step words) :
    ∀ word ∈ window, word ∈ words := by
  obtain ⟨round, found⟩ := List.getElem?_of_mem member
  rw [(getElem?_windows found).2]
  intro word isWord
  exact List.mem_of_mem_drop (List.mem_of_mem_take isWord)

/-- The chunks of the windows of some words. -/
theorem isWindowing_windowChunks {words : List (List Char)}
    (areWords : ∀ word ∈ words, IsWord word) {size step : Nat}
    (forward : 1 ≤ step) (covers : step ≤ size) :
    IsWindowing size step words (windowChunks 0 (windows size step words)) := by
  have contents : (windowChunks 0 (windows size step words)).map Chunk.words =
      windows size step words :=
    words_windowChunks (fun window member word isWord =>
      areWords word (mem_of_mem_windows member word isWord)) 0
  refine {
    count := ?_
    indices := ?_
    windows := ?_
    nonempty := ?_
    flatten := ?_ }
  · rw [length_windowChunks, length_windows]
  · rw [index_windowChunks, length_windowChunks, List.range_eq_range']
  · intro round chunk found
    have isWindow : (windows size step words)[round]? = some chunk.words := by
      rw [← contents, List.getElem?_map, found]
      rfl
    rw [(getElem?_windows isWindow).2, List.extract_eq_take_drop]
    by_cases long : round * step + size ≤ words.length
    · rw [Nat.min_eq_left long, Nat.add_sub_cancel_left]
    · have length : (words.drop (round * step)).length =
          words.length - round * step := List.length_drop
      rw [Nat.min_eq_right (by omega), List.take_of_length_le (by omega),
        List.take_of_length_le (by omega)]
  · intro chunk member
    apply ne_nil_of_mem_windows (Nat.le_trans forward covers) forward
    rw [← contents]
    exact List.mem_map_of_mem member
  · have same : ((windowChunks 0 (windows size step words)).map fun chunk =>
        chunk.words.take (min step chunk.words.length)) =
        (windows size step words).map (List.take step) := by
      conv_rhs => rw [← contents, List.map_map]
      refine List.map_congr_left fun chunk _ => ?_
      rw [Function.comp_apply, ← List.take_eq_take_min]
    rw [same, flatten_take_windows forward covers]

end Chunks

section Cases

variable {text : String} {chunkSize overlap : Nat}

theorem chunkText_of_empty (empty : splitWords text.toList = []) :
    chunkText text .naive chunkSize overlap = some (.ok []) := by
  have blank : strip text.toList = [] := by
    rw [strip_eq_nil_iff_splitWords, empty]
  unfold chunkText naiveChunk
  rw [if_pos blank]
  rfl

/-- A short text is one chunk, with its white space as it was. -/
theorem chunkText_of_short (nonempty : splitWords text.toList ≠ [])
    (short : (splitWords text.toList).length ≤ chunkSize) :
    chunkText text .naive chunkSize overlap =
      some (.ok [{ text := text, index := 0, filename := none }]) := by
  have notBlank : strip text.toList ≠ [] := by
    rw [ne_eq, strip_eq_nil_iff_splitWords]
    exact nonempty
  unfold chunkText naiveChunk
  rw [if_neg notBlank]
  simp only
  rw [if_pos (by omega)]
  rfl

theorem chunkText_of_long (smaller : overlap < chunkSize)
    (long : chunkSize < (splitWords text.toList).length) :
    chunkText text .naive chunkSize overlap =
      some (.ok (windowChunks 0 (windows chunkSize (chunkSize - overlap)
        (splitWords text.toList)))) := by
  have notBlank : strip text.toList ≠ [] := by
    rw [ne_eq, strip_eq_nil_iff_splitWords]
    exact List.ne_nil_of_length_pos (by omega)
  have step : (chunkSize : Int) - overlap = (chunkSize - overlap : Nat) := by
    omega
  have cut : naiveChunkLoop (splitWords text.toList) chunkSize
      (chunkSize - overlap : Nat) (splitWords text.toList).length 0 0 = _ :=
    naiveChunkLoop_eq (by omega) (splitWords text.toList).length 0 0 (by omega)
  unfold chunkText naiveChunk
  rw [if_neg notBlank]
  simp only
  rw [if_neg (by omega), step]
  rw [List.drop_zero] at cut
  exact congrArg (Option.map Except.ok) cut

end Cases

/-- The naive strategy loses and invents nothing, and every short run of words
lies inside one chunk. -/
theorem chunkText_windows (text : String) {chunkSize overlap : Nat}
    (smaller : overlap < chunkSize) :
    ∃ chunks,
      chunkText text .naive chunkSize overlap = some (.ok chunks) ∧
      (splitWords text.toList = [] → chunks = []) ∧
      (1 ≤ (splitWords text.toList).length →
        (splitWords text.toList).length ≤ chunkSize →
        ∃ chunk, chunks = [chunk] ∧ chunk.words = splitWords text.toList) ∧
      (chunkSize < (splitWords text.toList).length →
        IsWindowing chunkSize (chunkSize - overlap) (splitWords text.toList)
          chunks) ∧
      ∀ start count, 1 ≤ count → count ≤ overlap + 1 →
        start + count ≤ (splitWords text.toList).length →
        ∃ round chunk, chunks[round]? = some chunk ∧
          chunk.words = (splitWords text.toList).extract
            (round * (chunkSize - overlap))
            (min (round * (chunkSize - overlap) + chunkSize)
              (splitWords text.toList).length) ∧
          round * (chunkSize - overlap) ≤ start ∧
          start + count ≤ min (round * (chunkSize - overlap) + chunkSize)
            (splitWords text.toList).length := by
  by_cases empty : splitWords text.toList = []
  · refine ⟨[], chunkText_of_empty empty, fun _ => rfl, ?_, ?_, ?_⟩
    · intro some
      rw [empty] at some
      cases some
    · intro long
      rw [empty] at long
      cases long
    · intro start count some _ inside
      rw [empty, List.length_nil] at inside
      omega
  · by_cases short : (splitWords text.toList).length ≤ chunkSize
    · have whole : Chunk.words { text := text, index := 0, filename := none } =
          splitWords text.toList := rfl
      refine ⟨_, chunkText_of_short empty short,
        fun none => absurd none empty, fun _ _ => ⟨_, rfl, whole⟩, ?_, ?_⟩
      · intro long
        omega
      · intro start count some _ inside
        refine ⟨0, _, rfl, ?_, by omega, by omega⟩
        rw [whole, Nat.zero_mul, Nat.zero_add, Nat.min_eq_right short,
          List.extract_eq_take_drop, List.drop_zero, Nat.sub_zero,
          List.take_length]
    · have areWords : ∀ word ∈ splitWords text.toList, IsWord word :=
        fun _ member => isWord_of_mem_splitWords member
      have forward : 1 ≤ chunkSize - overlap := by omega
      have covers : chunkSize - overlap ≤ chunkSize := Nat.sub_le _ _
      have windowing := isWindowing_windowChunks areWords forward covers
      refine ⟨_, chunkText_of_long smaller (not_le.mp short),
        fun none => absurd none empty, fun _ few => absurd few short,
        fun _ => windowing, ?_⟩
      intro start count some run inside
      have fits : count ≤ chunkSize - (chunkSize - overlap) + 1 := by omega
      obtain ⟨round, isRound, before, after⟩ :=
        exists_window_of_run forward some inside fits covers
      rw [← windowing.count] at isRound
      exact ⟨round, _, List.getElem?_eq_getElem isRound,
        windowing.windows round _ (List.getElem?_eq_getElem isRound),
        before, after⟩

theorem chunkText_windows_ofFive :
    ∃ chunks,
      chunkText "a b c d e" .naive (3 : Nat) (1 : Nat) = some (.ok chunks) ∧
      IsWindowing 3 2 (splitWords "a b c d e".toList) chunks := by
  obtain ⟨chunks, cut, _, _, long, _⟩ :=
    @chunkText_windows "a b c d e" 3 1 (by decide)
  exact ⟨chunks, cut, long (by decide)⟩

end ProjectMemory.Ingestion
