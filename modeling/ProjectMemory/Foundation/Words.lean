import ProjectMemory.Foundation.Text

/-!
# Words

What `str.split` finds in a text, and that it finds the words again that were
joined with blanks.
-/

namespace Foundation

/-- A maximal run of characters: not empty and without white space. -/
structure IsWord (word : List Char) : Prop where
  nonempty : word ≠ []
  solid : ∀ char ∈ word, isSpace char = false

/-- The characters of a word go to the word that was begun. -/
theorem splitWordsFrom_append {more : List Char}
    (solid : ∀ char ∈ more, isSpace char = false) (word rest : List Char) :
    splitWordsFrom word (more ++ rest) = splitWordsFrom (word ++ more) rest := by
  induction more generalizing word with
  | nil => rw [List.nil_append, List.append_nil]
  | cons char more inductionHypothesis =>
      have notSpace := solid char List.mem_cons_self
      have later := inductionHypothesis
        (fun other member => solid other (List.mem_cons_of_mem char member))
        (word ++ [char])
      rw [List.cons_append, splitWordsFrom, if_neg (by simp [notSpace]), later,
        List.append_assoc, List.singleton_append]

theorem isWord_of_mem_splitWordsFrom {text : List Char} :
    ∀ {begun : List Char}, (∀ char ∈ begun, isSpace char = false) →
      ∀ word ∈ splitWordsFrom begun text, IsWord word := by
  induction text with
  | nil =>
      intro begun solid word member
      rw [splitWordsFrom] at member
      by_cases empty : begun = []
      · rw [if_pos empty] at member
        cases member
      · rw [if_neg empty, List.mem_singleton] at member
        rw [member]
        exact ⟨empty, solid⟩
  | cons char rest inductionHypothesis =>
      intro begun solid word member
      have nothingBegun : ∀ char ∈ ([] : List Char), isSpace char = false :=
        fun _ none => absurd none List.not_mem_nil
      rw [splitWordsFrom] at member
      by_cases space : isSpace char = true
      · rw [if_pos space] at member
        by_cases empty : begun = []
        · rw [if_pos empty] at member
          exact inductionHypothesis nothingBegun word member
        · rw [if_neg empty] at member
          rcases List.mem_cons.mp member with first | later
          · rw [first]
            exact ⟨empty, solid⟩
          · exact inductionHypothesis nothingBegun word later
      · rw [if_neg space] at member
        apply inductionHypothesis _ word member
        intro other isOther
        rcases List.mem_append.mp isOther with earlier | last
        · exact solid other earlier
        · rw [List.mem_singleton.mp last]
          exact (Bool.not_eq_true _).mp space

theorem isWord_of_mem_splitWords {text word : List Char}
    (member : word ∈ splitWords text) : IsWord word :=
  isWord_of_mem_splitWordsFrom (fun _ none => absurd none List.not_mem_nil)
    word member

/-- Words joined with blanks are split into the same words again. -/
theorem splitWords_intercalate :
    ∀ {words : List (List Char)}, (∀ word ∈ words, IsWord word) →
      splitWords (List.intercalate [' '] words) = words
  | [], _ => rfl
  | [word], areWords => by
      have isWord := areWords word List.mem_cons_self
      have split := splitWordsFrom_append isWord.solid [] []
      rw [List.append_nil, List.nil_append, splitWordsFrom,
        if_neg isWord.nonempty] at split
      rw [List.intercalate_singleton, splitWords, split]
  | word :: second :: rest, areWords => by
      have isWord := areWords word List.mem_cons_self
      have later := splitWords_intercalate fun other member =>
        areWords other (List.mem_cons_of_mem word member)
      have blank : isSpace ' ' = true := by decide
      rw [List.intercalate_cons_cons, List.append_assoc, splitWords,
        splitWordsFrom_append isWord.solid, List.nil_append,
        List.singleton_append, splitWordsFrom, if_pos blank,
        if_neg isWord.nonempty]
      exact congrArg (List.cons word) later

/-! ## Blank texts -/

theorem splitWordsFrom_eq_nil {begun text : List Char} :
    splitWordsFrom begun text = [] ↔
      begun = [] ∧ ∀ char ∈ text, isSpace char = true := by
  induction text generalizing begun with
  | nil =>
      rw [splitWordsFrom]
      by_cases empty : begun = [] <;> simp [empty]
  | cons char rest inductionHypothesis =>
      rw [splitWordsFrom, List.forall_mem_cons]
      by_cases space : isSpace char = true
      · rw [if_pos space]
        by_cases empty : begun = []
        · rw [if_pos empty, inductionHypothesis]
          simp [empty, space]
        · rw [if_neg empty]
          simp [empty]
      · rw [if_neg space, inductionHypothesis]
        simp [space]

theorem splitWords_eq_nil {text : List Char} :
    splitWords text = [] ↔ ∀ char ∈ text, isSpace char = true := by
  rw [splitWords, splitWordsFrom_eq_nil]
  exact and_iff_right rfl

/-- A text is blank when it is all white space. -/
theorem strip_eq_nil {text : List Char} :
    strip text = [] ↔ ∀ char ∈ text, isSpace char = true := by
  rw [strip, List.rdropWhile_eq_nil_iff]
  constructor
  · intro blank
    have dropped : text.dropWhile isSpace = [] := by
      by_contra some
      have first := List.head_dropWhile_not isSpace some
      rw [blank _ (List.head_mem some)] at first
      cases first
    exact List.dropWhile_eq_nil_iff.mp dropped
  · intro blank char member
    exact blank char ((List.dropWhile_suffix isSpace).subset member)

theorem strip_eq_nil_iff_splitWords {text : List Char} :
    strip text = [] ↔ splitWords text = [] := by
  rw [strip_eq_nil, splitWords_eq_nil]

end Foundation
