import ProjectMemory.Foundation.Text

/-!
# Markers in a text

A marker that does not contain a given item cannot lie across it, so that the
occurrences of a marker in a text are those in the pieces between separators.
A replacement that writes its pattern differently leaves no occurrence of it,
neither of the pattern nor of another marker that was not there before.
-/

namespace Foundation

universe u

section Junction

variable {Item : Type u} {marker left right : List Item} {item : Item}

/-- An occurrence lies on one side of an item that it does not contain. -/
theorem occurrence_append_cons
    (absent : item ∉ marker) {before after : List Item}
    (split : left ++ item :: right = before ++ marker ++ after) :
    (∃ rest, left = before ++ marker ++ rest ∧
        after = rest ++ item :: right) ∨
      ∃ rest, before = left ++ item :: rest ∧
        right = rest ++ marker ++ after := by
  rcases List.append_eq_append_iff.mp split with
    ⟨rest, whole, tail⟩ | ⟨rest, whole, tail⟩
  · rcases List.append_eq_append_iff.mp whole with
      ⟨middle, isLeft, isMarker⟩ | ⟨middle, isBefore, isRest⟩
    · cases rest with
      | nil =>
          refine Or.inl ⟨[], ?_, tail.symm⟩
          rw [isLeft, isMarker]
          simp
      | cons first rest =>
          injection tail with isFirst _
          subst isFirst
          rw [isMarker] at absent
          simp at absent
    · subst isRest
      cases middle with
      | nil =>
          cases marker with
          | nil =>
              refine Or.inl ⟨[], ?_, tail.symm⟩
              rw [isBefore]
              simp
          | cons first marker =>
              injection tail with isFirst _
              subst isFirst
              simp at absent
      | cons first middle =>
          injection tail with isFirst isRight
          subst isFirst
          exact Or.inr ⟨middle, isBefore, isRight⟩
  · exact Or.inl ⟨rest, whole, tail⟩

theorem isInfix_append_cons_iff (absent : item ∉ marker) :
    marker <:+: left ++ item :: right ↔
      marker <:+: left ∨ marker <:+: right := by
  constructor
  · rintro ⟨before, after, split⟩
    rcases occurrence_append_cons absent split.symm with
      ⟨rest, isLeft, _⟩ | ⟨rest, _, isRight⟩
    · exact Or.inl ⟨before, rest, isLeft.symm⟩
    · exact Or.inr ⟨rest, after, isRight.symm⟩
  · rintro (inLeft | inRight)
    · exact List.infix_append_of_infix_left inLeft
    · exact List.infix_append_of_infix_right
        (List.infix_cons_iff.mpr (Or.inr inRight))

/-- A marker between two items that it does not contain, in a text that is
otherwise free of it, occurs there only. -/
theorem occurrence_unique
    {opening closing : Item}
    (absentOpening : opening ∉ marker) (absentClosing : closing ∉ marker)
    (freeLeft : ¬ marker <:+: left) (freeRight : ¬ marker <:+: right)
    {before after : List Item} :
    left ++ opening :: (marker ++ closing :: right) =
        before ++ marker ++ after ↔
      before = left ++ [opening] ∧ after = closing :: right := by
  constructor
  · intro split
    rcases occurrence_append_cons absentOpening split with
      ⟨rest, isLeft, _⟩ | ⟨skipped, isBefore, tail⟩
    · exact absurd ⟨before, rest, isLeft.symm⟩ freeLeft
    · rcases occurrence_append_cons absentClosing tail with
        ⟨rest, isMarker, isAfter⟩ | ⟨rest, _, isRight⟩
      · have lengths := congrArg List.length isMarker
        simp only [List.length_append] at lengths
        have noSkipped : skipped = [] :=
          List.length_eq_zero_iff.mp (by omega)
        have noRest : rest = [] := List.length_eq_zero_iff.mp (by omega)
        subst noSkipped noRest
        exact ⟨isBefore, isAfter⟩
      · exact absurd ⟨rest, after, isRight.symm⟩ freeRight
  · rintro ⟨rfl, rfl⟩
    simp

/-- Items other than the first of a marker can be put in front of a text. -/
theorem isInfix_append_iff_of_notMem {first : Item} (absent : first ∉ left) :
    first :: marker <:+: left ++ right ↔ first :: marker <:+: right := by
  induction left with
  | nil => rfl
  | cons item left inductionHypothesis =>
      have different : first ≠ item :=
        fun same => absent (same ▸ List.mem_cons_self)
      have notPrefix : ¬ first :: marker <+: item :: (left ++ right) :=
        fun isPrefix => different (List.cons_prefix_cons.mp isPrefix).1
      rw [List.cons_append, List.infix_cons_iff,
        inductionHypothesis fun member => absent (List.mem_cons_of_mem _ member)]
      exact or_iff_right notPrefix

theorem not_isInfix_of_notMem {first : Item} (absent : first ∉ left) :
    ¬ first :: marker <:+: left :=
  fun inLeft => absent (inLeft.subset List.mem_cons_self)

end Junction

/-! ## Lines -/

section Lines

variable {Item : Type u} {separator : Item} {marker : List Item}

theorem isInfix_intercalate_of_mem {separator line : List Item}
    {lines : List (List Item)} (member : line ∈ lines) :
    line <:+: separator.intercalate lines := by
  induction lines with
  | nil => cases member
  | cons first lines inductionHypothesis =>
      cases lines with
      | nil =>
          have same : line = first := List.mem_singleton.mp member
          subst same
          exact ⟨[], [], by simp⟩
      | cons next lines =>
          rw [List.intercalate_cons_cons]
          rcases List.mem_cons.mp member with rfl | later
          · exact List.infix_append_of_infix_left List.infix_append_left
          · exact List.infix_append_of_infix_right
              (inductionHypothesis later)

theorem intercalate_append {first second : List (List Item)}
    (firstNonempty : first ≠ []) (secondNonempty : second ≠ []) :
    [separator].intercalate (first ++ second) =
      [separator].intercalate first ++
        separator :: [separator].intercalate second := by
  induction first with
  | nil => exact absurd rfl firstNonempty
  | cons line first inductionHypothesis =>
      cases first with
      | nil =>
          rw [List.singleton_append,
            List.intercalate_cons_of_ne_nil secondNonempty]
          simp
      | cons next first =>
          have tail := inductionHypothesis (List.cons_ne_nil next first)
          simp only [List.cons_append, List.intercalate_cons_cons] at tail ⊢
          rw [tail]
          simp

/-- A marker without the separator occurs in the joined lines exactly when it
occurs in one of them. -/
theorem isInfix_intercalate_iff (absent : separator ∉ marker)
    {lines : List (List Item)} (nonempty : lines ≠ []) :
    marker <:+: [separator].intercalate lines ↔
      ∃ line ∈ lines, marker <:+: line := by
  induction lines with
  | nil => exact absurd rfl nonempty
  | cons line lines inductionHypothesis =>
      cases lines with
      | nil => simp
      | cons next lines =>
          rw [List.intercalate_cons_cons, List.append_assoc,
            List.singleton_append, isInfix_append_cons_iff absent,
            inductionHypothesis (List.cons_ne_nil next lines)]
          simp only [List.exists_mem_cons_iff]

/-- A text consists of lines, among them an opening and a closing marker
around the lines of a region, and the closing marker occurs nowhere else in
it. -/
structure Encloses (separator : Item) (opening closing : List Item)
    (before region after : List (List Item)) (text : List Item) : Prop where
  shape : text = [separator].intercalate
    (before ++ opening :: (region ++ closing :: after))
  once : ∀ left right, text = left ++ closing ++ right ↔
    left = [separator].intercalate (before ++ opening :: region) ++
        [separator] ∧
      right = separator :: [separator].intercalate after

/-- A region is closed once where no other line contains its marker. -/
theorem encloses_of_lines {opening closing : List Item}
    {before region after : List (List Item)}
    (absent : separator ∉ closing) (closed : after ≠ [])
    (freeBefore : ∀ line ∈ before ++ opening :: region, ¬ closing <:+: line)
    (freeAfter : ∀ line ∈ after, ¬ closing <:+: line) :
    Encloses separator opening closing before region after
      ([separator].intercalate
        (before ++ opening :: (region ++ closing :: after))) := by
  have opened : before ++ opening :: region ≠ [] := by simp
  have split : [separator].intercalate
      (before ++ opening :: (region ++ closing :: after)) =
      [separator].intercalate (before ++ opening :: region) ++
        separator :: (closing ++
          separator :: [separator].intercalate after) := by
    have whole : [separator].intercalate
        ((before ++ opening :: region) ++ closing :: after) =
          [separator].intercalate (before ++ opening :: region) ++
            separator :: [separator].intercalate (closing :: after) :=
      intercalate_append opened (List.cons_ne_nil closing after)
    rw [List.append_assoc, List.cons_append] at whole
    rw [whole, List.intercalate_cons_of_ne_nil closed, List.append_assoc,
      List.singleton_append]
  refine ⟨rfl, fun left right => ?_⟩
  rw [split]
  refine occurrence_unique absent absent ?_ ?_
  · rw [isInfix_intercalate_iff absent opened]
    rintro ⟨line, member, occurs⟩
    exact freeBefore line member occurs
  · rw [isInfix_intercalate_iff absent closed]
    rintro ⟨line, member, occurs⟩
    exact freeAfter line member occurs

end Lines

/-! ## Replacements -/

section Replacement

variable {pattern replacement : List Char} {item : Char}

theorem isPrefixOf_append_cons_iff (absent : item ∉ pattern)
    {left right : List Char} :
    pattern.isPrefixOf (left ++ item :: right) = pattern.isPrefixOf left := by
  induction left generalizing pattern with
  | nil =>
      cases pattern with
      | nil => rfl
      | cons first pattern =>
          have different : (first == item) = false :=
            beq_false_of_ne fun same => absent (same ▸ List.mem_cons_self)
          simp [List.isPrefixOf, different]
  | cons char left inductionHypothesis =>
      cases pattern with
      | nil => rfl
      | cons first pattern =>
          have absentRest : item ∉ pattern :=
            fun member => absent (List.mem_cons_of_mem _ member)
          simp [List.isPrefixOf, inductionHypothesis absentRest]

private theorem replaceFrom_append_cons
    (absent : item ∉ pattern) (nonempty : pattern ≠ [])
    {left right : List Char} :
    ∀ skip, skip ≤ left.length →
      replaceFrom pattern replacement skip (left ++ item :: right) =
        replaceFrom pattern replacement skip left ++
          item :: replaceFrom pattern replacement 0 right := by
  induction left with
  | nil =>
      intro skip bound
      have noSkip : skip = 0 := Nat.le_zero.mp bound
      subst noSkip
      have notHere : pattern.isPrefixOf (item :: right) = false := by
        rw [← List.nil_append (item :: right),
          isPrefixOf_append_cons_iff absent]
        cases pattern with
        | nil => exact absurd rfl nonempty
        | cons first pattern => rfl
      simp [replaceFrom, notHere]
  | cons char left inductionHypothesis =>
      intro skip bound
      cases skip with
      | succ skip =>
          exact inductionHypothesis skip (Nat.le_of_succ_le_succ bound)
      | zero =>
          have sameHere :
              pattern.isPrefixOf ((char :: left) ++ item :: right) =
                pattern.isPrefixOf (char :: left) :=
            isPrefixOf_append_cons_iff absent
          rw [List.cons_append] at sameHere ⊢
          rw [replaceFrom, replaceFrom, sameHere]
          split
          · rename_i here
            have short : pattern.length ≤ left.length + 1 :=
              (List.isPrefixOf_iff_prefix.mp here).length_le
            rw [inductionHypothesis _ (by omega), List.append_assoc]
          · rw [inductionHypothesis 0 (Nat.zero_le _), List.cons_append]

/-- A replacement works on the pieces between separators. -/
theorem replaceAll_append_cons
    (absent : item ∉ pattern) (nonempty : pattern ≠ [])
    (left right : List Char) :
    replaceAll pattern replacement (left ++ item :: right) =
      replaceAll pattern replacement left ++
        item :: replaceAll pattern replacement right :=
  replaceFrom_append_cons absent nonempty 0 (Nat.zero_le _)

/-- What stands in front of the next replacement was there before. -/
theorem isPrefix_of_isPrefix_replaceFrom {first : Char} {marker : List Char}
    (absent : first ∉ marker) {text : List Char}
    (isPrefix :
      marker <+: replaceFrom pattern (first :: replacement) 0 text) :
    marker <+: text := by
  induction marker generalizing text with
  | nil => exact List.nil_prefix
  | cons char marker inductionHypothesis =>
      cases text with
      | nil => exact isPrefix
      | cons head text =>
          rw [replaceFrom] at isPrefix
          split at isPrefix
          · have same : char = first :=
              (List.cons_prefix_cons.mp isPrefix).1
            exact absurd (same ▸ List.mem_cons_self) absent
          · have parts := List.cons_prefix_cons.mp isPrefix
            exact List.cons_prefix_cons.mpr ⟨parts.1,
              inductionHypothesis
                (fun member => absent (List.mem_cons_of_mem _ member))
                parts.2⟩

/-- A replacement that differs from a marker after their common first
character leaves only those occurrences of the marker that were there and
did not stand where the pattern stood. -/
theorem not_isInfix_replaceFrom {first second other : Char}
    {marker : List Char}
    (freshMarker : first ∉ second :: marker)
    (freshReplacement : first ∉ other :: replacement)
    (different : second ≠ other)
    {text : List Char}
    (replaced : ∀ after, after <:+ text →
      first :: second :: marker <+: after → pattern.isPrefixOf after = true) :
    ∀ skip, ¬ first :: second :: marker <:+:
      replaceFrom pattern (first :: other :: replacement) skip text := by
  induction text with
  | nil =>
      intro skip occurs
      rw [replaceFrom] at occurs
      cases List.infix_nil.mp occurs
  | cons char text inductionHypothesis =>
      have notLater := inductionHypothesis fun after isSuffix =>
        replaced after (isSuffix.trans (List.suffix_cons char text))
      intro skip
      cases skip with
      | succ skip => exact notLater skip
      | zero =>
          rw [replaceFrom]
          split
          · rw [List.cons_append, List.infix_cons_iff,
              isInfix_append_iff_of_notMem freshReplacement]
            rintro (here | later)
            · have afterFirst := (List.cons_prefix_cons.mp here).2
              exact different (List.cons_prefix_cons.mp afterFirst).1
            · exact notLater _ later
          · rename_i notPattern
            rw [List.infix_cons_iff]
            rintro (here | later)
            · have parts := List.cons_prefix_cons.mp here
              have wasThere : first :: second :: marker <+: char :: text :=
                List.cons_prefix_cons.mpr ⟨parts.1,
                  isPrefix_of_isPrefix_replaceFrom freshMarker parts.2⟩
              exact notPattern
                (replaced (char :: text) List.suffix_rfl wasThere)
            · exact notLater 0 later

/-- A text without the pattern stays as it is. -/
theorem replaceAll_of_not_isInfix {text : List Char}
    (free : ¬ pattern <:+: text) :
    replaceAll pattern replacement text = text := by
  unfold replaceAll
  induction text with
  | nil => rfl
  | cons char text inductionHypothesis =>
      rw [List.infix_cons_iff] at free
      have notHere : ¬ pattern.isPrefixOf (char :: text) = true := by
        intro here
        exact free (Or.inl (List.isPrefixOf_iff_prefix.mp here))
      have later := inductionHypothesis fun occurs => free (Or.inr occurs)
      rw [replaceFrom, if_neg notHere, later]

theorem not_isInfix_replaceAll_self {first second other : Char}
    {marker : List Char}
    (freshMarker : first ∉ second :: marker)
    (freshReplacement : first ∉ other :: replacement)
    (different : second ≠ other) (text : List Char) :
    ¬ first :: second :: marker <:+:
      replaceAll (first :: second :: marker) (first :: other :: replacement)
        text :=
  not_isInfix_replaceFrom freshMarker freshReplacement different
    (fun _ _ isPrefix => List.isPrefixOf_iff_prefix.mpr isPrefix) 0

/-- The replacement of one marker does not bring back another. -/
theorem not_isInfix_replaceAll_of_not {first second other : Char}
    {marker : List Char}
    (freshMarker : first ∉ second :: marker)
    (freshReplacement : first ∉ other :: replacement)
    (different : second ≠ other) {text : List Char}
    (free : ¬ first :: second :: marker <:+: text) :
    ¬ first :: second :: marker <:+:
      replaceAll pattern (first :: other :: replacement) text :=
  not_isInfix_replaceFrom freshMarker freshReplacement different
    (fun _ isSuffix isPrefix =>
      absurd (isPrefix.isInfix.trans isSuffix.isInfix) free) 0

end Replacement

end Foundation
