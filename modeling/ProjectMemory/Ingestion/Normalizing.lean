import ProjectMemory.Foundation.Newlines
import ProjectMemory.Ingestion.Chunker
import ProjectMemory.Ingestion.VectorStore

/-!
# Normalized texts

What a parsed file looks like after `_normalize_whitespace`: the words of the
text are still there, and a second normalization finds nothing to do.
-/

namespace ProjectMemory.Ingestion

open Foundation

/-- A text after its normalization. -/
structure IsNormalForm (text result : String) : Prop where
  fewNewlines : ¬ "\n\n\n".toList <:+: result.toList
  edges : result = "" ∨ ∃ first last,
    result.toList.head? = some first ∧ isSpace first = false ∧
      result.toList.getLast? = some last ∧ isSpace last = false
  words : splitWords result.toList = splitWords text.toList
  chunks : ∀ chunkSize overlap : Int,
    chunkSize < (splitWords text.toList).length →
      naiveChunk result chunkSize overlap = naiveChunk text chunkSize overlap
  fixed : normalizeWhitespace result = result

theorem splitWords_normalizeWhitespace (text : String) :
    splitWords (normalizeWhitespace text).toList = splitWords text.toList := by
  rw [normalizeWhitespace, String.toList_ofList, splitWords_strip,
    splitWords_collapseNewlines]

theorem not_isInfix_normalizeWhitespace (text : String) :
    ¬ threeNewlines <:+: (normalizeWhitespace text).toList := by
  rw [normalizeWhitespace, String.toList_ofList]
  intro inside
  exact not_isInfix_collapseNewlines (Nat.zero_le 2)
    (inside.trans (strip_isInfix (collapseNewlines 0 text.toList)))

theorem solidEdges_normalizeWhitespace (text : String) :
    SolidEdges (normalizeWhitespace text).toList := by
  rw [normalizeWhitespace, String.toList_ofList]
  exact solidEdges_strip _

/-- Short runs and solid edges are all that normalization looks for. -/
theorem normalizeWhitespace_of_short_solid {text : String}
    (short : ¬ threeNewlines <:+: text.toList)
    (solid : SolidEdges text.toList) : normalizeWhitespace text = text := by
  have kept : collapseNewlines 0 text.toList = text.toList :=
    collapseNewlines_of_not_isInfix (Nat.zero_le 2) short
  rw [normalizeWhitespace, kept, strip_of_solidEdges solid,
    String.ofList_toList]

/-- The loop of the chunker reads nothing but the words. -/
theorem naiveChunk_congr {left right : String} {chunkSize overlap : Int}
    (same : splitWords left.toList = splitWords right.toList)
    (long : chunkSize < (splitWords right.toList).length) :
    naiveChunk left chunkSize overlap = naiveChunk right chunkSize overlap := by
  have sameBlank : strip left.toList = [] ↔ strip right.toList = [] := by
    rw [strip_eq_nil_iff_splitWords, strip_eq_nil_iff_splitWords, same]
  unfold naiveChunk
  by_cases blank : strip right.toList = []
  · rw [if_pos blank, if_pos (sameBlank.mpr blank)]
  · rw [if_neg blank, if_neg (mt sameBlank.mp blank)]
    simp only [same]
    rw [if_neg (by omega), if_neg (by omega)]

/-- Normalization leaves the words, and nothing for a second one to do. -/
theorem isNormalForm_normalizeWhitespace (text : String) :
    IsNormalForm text (normalizeWhitespace text) where
  fewNewlines := not_isInfix_normalizeWhitespace text
  edges := by
    have solid := solidEdges_normalizeWhitespace text
    by_cases empty : (normalizeWhitespace text).toList = []
    · exact Or.inl (String.toList_eq_nil_iff.mp empty)
    · have isFirst := List.head?_eq_some_head empty
      have isLast := List.getLast?_eq_some_getLast empty
      exact Or.inr ⟨_, _, isFirst, solid.first _ isFirst, isLast,
        solid.last _ isLast⟩
  words := splitWords_normalizeWhitespace text
  chunks := fun _ _ long =>
    naiveChunk_congr (splitWords_normalizeWhitespace text) long
  fixed := normalizeWhitespace_of_short_solid
    (not_isInfix_normalizeWhitespace text)
    (solidEdges_normalizeWhitespace text)

example : normalizeWhitespace " a\n\n\n\n\tb \n" = "a\n\n\tb" := by decide

end ProjectMemory.Ingestion
