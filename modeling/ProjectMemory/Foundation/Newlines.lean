import ProjectMemory.Foundation.Markers
import ProjectMemory.Foundation.Words

/-!
# Runs of newlines and blank edges

Shortening the runs of newlines and stripping the edges of a text leave its
words alone.  A text with short runs and solid edges is left as it is.
-/

namespace Foundation

def threeNewlines : List Char := ['\n', '\n', '\n']

/-! ## Runs -/

section Runs

theorem not_isInfix_short {text : List Char} (short : text.length < 3) :
    ¬ threeNewlines <:+: text := by
  intro inside
  have long : threeNewlines.length ≤ text.length := inside.length_le
  have three : threeNewlines.length = 3 := rfl
  omega

theorem notMem_threeNewlines {char : Char} (other : char ≠ '\n') :
    char ∉ threeNewlines := by
  simp [threeNewlines, other]

theorem replicate_append_newline (seen : Nat) (rest : List Char) :
    List.replicate seen '\n' ++ '\n' :: rest =
      List.replicate (seen + 1) '\n' ++ rest := by
  rw [List.replicate_succ', List.append_assoc, List.singleton_append]

/-- No run of newlines is left that is longer than two, those before the text
included. -/
theorem not_isInfix_collapseNewlines :
    ∀ {seen : Nat} {text : List Char}, seen ≤ 2 →
      ¬ threeNewlines <:+:
        List.replicate seen '\n' ++ collapseNewlines seen text
  | seen, [], few => by
      apply not_isInfix_short
      rw [collapseNewlines, List.append_nil, List.length_replicate]
      omega
  | seen, char :: rest, few => by
      rw [collapseNewlines]
      by_cases newline : char = '\n'
      · rw [if_pos newline]
        by_cases short : seen < 2
        · rw [if_pos short, newline, replicate_append_newline]
          exact not_isInfix_collapseNewlines (by omega)
        · rw [if_neg short]
          exact not_isInfix_collapseNewlines few
      · rw [if_neg newline,
          isInfix_append_cons_iff (notMem_threeNewlines newline)]
        rintro (before | after)
        · apply not_isInfix_short _ before
          rw [List.length_replicate]
          omega
        · exact @not_isInfix_collapseNewlines 0 rest (by omega) after

/-- Where no run is longer than two, nothing is dropped. -/
theorem collapseNewlines_of_not_isInfix :
    ∀ {seen : Nat} {text : List Char}, seen ≤ 2 →
      (¬ threeNewlines <:+: List.replicate seen '\n' ++ text) →
      collapseNewlines seen text = text
  | _, [], _, _ => rfl
  | seen, char :: rest, few, free => by
      rw [collapseNewlines]
      by_cases newline : char = '\n'
      · rw [newline, replicate_append_newline] at free
        have short : seen < 2 := by
          by_contra long
          have two : seen = 2 := by omega
          rw [two] at free
          exact free List.infix_append_left
        rw [if_pos newline, if_pos short,
          collapseNewlines_of_not_isInfix (by omega) free]
      · rw [isInfix_append_cons_iff (notMem_threeNewlines newline),
          not_or] at free
        rw [if_neg newline,
          @collapseNewlines_of_not_isInfix 0 rest (by omega) free.2]

end Runs

/-! ## Words -/

section Words

/-- Newlines are dropped only after newlines, where no word has begun. -/
theorem splitWordsFrom_collapseNewlines {text : List Char} :
    ∀ {seen : Nat} {begun : List Char}, (seen ≠ 0 → begun = []) →
      splitWordsFrom begun (collapseNewlines seen text) =
        splitWordsFrom begun text := by
  induction text with
  | nil =>
      intro seen begun _
      rfl
  | cons char rest inductionHypothesis =>
      intro seen begun between
      rw [collapseNewlines]
      by_cases newline : char = '\n'
      · have space : isSpace char = true := by
          rw [newline]
          decide
        rw [if_pos newline]
        by_cases short : seen < 2
        · rw [if_pos short, splitWordsFrom, splitWordsFrom, if_pos space,
            if_pos space, inductionHypothesis fun _ => rfl]
        · have notBegun : begun = [] := between (by omega)
          rw [if_neg short, splitWordsFrom, if_pos space, if_pos notBegun,
            inductionHypothesis fun _ => notBegun, notBegun]
      · have fresh {word : List Char} :
            splitWordsFrom word (collapseNewlines 0 rest) =
              splitWordsFrom word rest :=
          inductionHypothesis fun some => absurd rfl some
        rw [if_neg newline, splitWordsFrom, splitWordsFrom, fresh, fresh]

theorem splitWords_collapseNewlines (text : List Char) :
    splitWords (collapseNewlines 0 text) = splitWords text :=
  splitWordsFrom_collapseNewlines fun some => absurd rfl some

theorem splitWords_dropWhile (text : List Char) :
    splitWords (text.dropWhile isSpace) = splitWords text := by
  induction text with
  | nil => rfl
  | cons char rest inductionHypothesis =>
      by_cases space : isSpace char = true
      · rw [List.dropWhile_cons_of_pos space, inductionHypothesis, splitWords,
          splitWords, splitWordsFrom, if_pos space, if_pos rfl]
      · rw [List.dropWhile_cons_of_neg space]

/-- White space at the end ends the last word, as the end of the text does. -/
theorem splitWordsFrom_append_blank {blank : List Char}
    (isBlank : ∀ char ∈ blank, isSpace char = true) (begun text : List Char) :
    splitWordsFrom begun (text ++ blank) = splitWordsFrom begun text := by
  induction text generalizing begun with
  | nil =>
      cases blank with
      | nil => rfl
      | cons char blank =>
          have nothing : splitWordsFrom [] blank = [] :=
            splitWordsFrom_eq_nil.mpr ⟨rfl, fun other member =>
              isBlank other (List.mem_cons_of_mem char member)⟩
          rw [List.nil_append, splitWordsFrom, splitWordsFrom,
            if_pos (isBlank char List.mem_cons_self), nothing]
  | cons char rest inductionHypothesis =>
      rw [List.cons_append, splitWordsFrom, splitWordsFrom,
        inductionHypothesis, inductionHypothesis]

theorem splitWords_strip (text : List Char) :
    splitWords (strip text) = splitWords text := by
  have blank : ∀ char ∈ (text.dropWhile isSpace).rtakeWhile isSpace,
      isSpace char = true := fun _ member => List.mem_rtakeWhile_imp member
  have same := splitWordsFrom_append_blank blank []
    ((text.dropWhile isSpace).rdropWhile isSpace)
  rw [List.rdropWhile_append_rtakeWhile] at same
  rw [strip, splitWords, ← same]
  exact splitWords_dropWhile text

end Words

/-! ## Edges -/

section Edges

/-- A text with no white space at its edges, unless it is empty. -/
structure SolidEdges (text : List Char) : Prop where
  first : ∀ char, text.head? = some char → isSpace char = false
  last : ∀ char, text.getLast? = some char → isSpace char = false

theorem solidEdges_strip (text : List Char) : SolidEdges (strip text) where
  first := by
    intro char isFirst
    obtain ⟨rest, whole⟩ :=
      List.rdropWhile_prefix isSpace (text.dropWhile isSpace)
    have isHead : (text.dropWhile isSpace).head? = some char := by
      rw [← whole, List.head?_append, ← strip, isFirst]
      rfl
    have nonempty : text.dropWhile isSpace ≠ [] := by
      intro empty
      rw [empty] at isHead
      cases isHead
    have notSpace := List.head_dropWhile_not isSpace nonempty
    rw [(List.head_eq_iff_head?_eq_some nonempty).mpr isHead] at notSpace
    exact notSpace
  last := by
    intro char isLast
    have nonempty : strip text ≠ [] := by
      intro empty
      rw [empty] at isLast
      cases isLast
    have notSpace : ¬isSpace ((strip text).getLast nonempty) = true :=
      List.rdropWhile_last_not isSpace (text.dropWhile isSpace) nonempty
    rw [List.getLast?_eq_some_getLast nonempty, Option.some.injEq] at isLast
    rw [isLast, Bool.not_eq_true] at notSpace
    exact notSpace

theorem strip_of_solidEdges {text : List Char} (solid : SolidEdges text) :
    strip text = text := by
  have front : text.dropWhile isSpace = text := by
    cases text with
    | nil => rfl
    | cons char rest =>
        have notSpace := solid.first char rfl
        rw [List.dropWhile_cons_of_neg (by simp [notSpace])]
  rw [strip, front, List.rdropWhile_eq_self_iff]
  intro nonempty
  have notSpace := solid.last _ (List.getLast?_eq_some_getLast nonempty)
  simp [notSpace]

theorem strip_isInfix (text : List Char) : strip text <:+: text :=
  (List.rdropWhile_prefix isSpace (text.dropWhile isSpace)).isInfix.trans
    (List.dropWhile_suffix isSpace).isInfix

end Edges

end Foundation
