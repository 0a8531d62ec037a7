import ProjectMemory.Models.BeliefState
import ProjectMemory.Models.RoundTrip
import ProjectMemory.Retrieval.Sealing

/-!
# The sealed belief state

Sealing puts a backslash in front of a slash inside a JSON string, and JSON
reads `\/` as a slash.  The line of the belief state is therefore another text
of the same value.
-/

namespace ProjectMemory

open Foundation

namespace Json

/-! ## The characters of written strings -/

/-- What escapes are made of. -/
def isPrintable (char : Char) : Bool :=
  32 ≤ char.toNat && char ≠ '<'

abbrev Printable (text : List Char) : Prop :=
  text.all isPrintable = true

theorem printable_unicodeEscape (code : Nat) :
    Printable (unicodeEscape code) := by
  have table : ∀ digit < 16, isPrintable (Nat.digitChar digit) = true := by
    decide
  refine List.all_eq_true.mpr fun char member => ?_
  rcases List.mem_cons.mp member with backslash | rest
  · rw [backslash]
    decide
  · rcases List.mem_cons.mp rest with letter | digits
    · rw [letter]
      decide
    · obtain ⟨digit, small, isDigit⟩ := mem_fixedDigits (by decide) digits
      rw [isDigit]
      exact table digit small

theorem Printable.append {left right : List Char}
    (isLeft : Printable left) (isRight : Printable right) :
    Printable (left ++ right) := by
  rw [Printable, List.all_append, isLeft, isRight]
  rfl

/-- A character is written as it is, or with a backslash in front. -/
theorem escapeChar_cases (char : Char) :
    (escapeChar char = [char] ∧ 32 ≤ char.toNat) ∨
      ∃ more, escapeChar char = '\\' :: more ∧
        Printable ('\\' :: more) := by
  unfold escapeChar
  simp only
  split_ifs with _ _ _ _ _ _ _ printable _
  all_goals first
    | exact Or.inl ⟨rfl, printable.1⟩
    | exact Or.inr ⟨_, rfl, printable_unicodeEscape _⟩
    | exact Or.inr ⟨_, rfl, (printable_unicodeEscape _).append
        (printable_unicodeEscape _)⟩
    | exact Or.inr ⟨_, rfl, by decide⟩

theorem WritesChar.cases {char : Char} {written : List Char}
    (writes : WritesChar char written) :
    (written = [char] ∧ 32 ≤ char.toNat) ∨
      ∃ more, written = '\\' :: more ∧ Printable ('\\' :: more) := by
  cases writes with
  | escaped char => exact escapeChar_cases char
  | slash => exact Or.inr ⟨_, rfl, by decide⟩

theorem not_mem_of_printable {text : List Char} (printable : Printable text) :
    '<' ∉ text := by
  intro member
  have isPrintable := List.all_eq_true.mp printable '<' member
  revert isPrintable
  decide

theorem WritesText.append {left right leftText rightText : List Char}
    (writesLeft : WritesText left leftText)
    (writesRight : WritesText right rightText) :
    WritesText (left ++ right) (leftText ++ rightText) := by
  induction writesLeft with
  | nil => exact writesRight
  | cons char _ inductionHypothesis =>
      rw [List.cons_append, List.append_assoc]
      exact .cons char inductionHypothesis

/-- Characters that stand for themselves. -/
abbrev Plain (text : List Char) : Prop :=
  (text.all fun char => escapeChar char = [char]) = true

theorem writesText_plain {text : List Char} (plain : Plain text) :
    WritesText text text := by
  induction text with
  | nil => exact .nil
  | cons char text inductionHypothesis =>
      rw [Plain, List.all_cons, Bool.and_eq_true] at plain
      have itself := WritesChar.escaped char
      rw [of_decide_eq_true plain.1] at itself
      exact .cons itself (inductionHypothesis plain.2)

/-- In front of a written text, plain characters are the written ones. -/
theorem WritesText.split_plain {plain : List Char} (isPlain : Plain plain) :
    ∀ {chars text : List Char}, WritesText chars (plain ++ text) →
      ∃ rest, chars = plain ++ rest ∧ WritesText rest text := by
  induction plain with
  | nil =>
      intro chars text writes
      exact ⟨chars, rfl, writes⟩
  | cons first plain inductionHypothesis =>
      intro chars text writes
      rw [Plain, List.all_cons, Bool.and_eq_true] at isPlain
      have itself := of_decide_eq_true isPlain.1
      generalize isWhole : first :: plain ++ text = whole at writes
      cases writes with
      | nil => cases isWhole
      | @cons char chars written more writesChar writes =>
          rcases writesChar.cases with ⟨isWritten, _⟩ | ⟨escape, isWritten, _⟩
          · rw [isWritten, List.cons_append, List.singleton_append,
              List.cons.injEq] at isWhole
            rw [← isWhole.2] at writes
            obtain ⟨rest, isRest, writesRest⟩ :=
              inductionHypothesis isPlain.2 writes
            exact ⟨rest, by rw [isRest, ← isWhole.1, List.cons_append],
              writesRest⟩
          · rw [isWritten, List.cons_append, List.cons_append,
              List.cons.injEq] at isWhole
            rw [isWhole.1] at itself
            cases itself

end Json

/-! ## Replacing a marker in written text -/

section Replacement

/-- Text without the first character of a pattern stays as it is. -/
theorem replaceAll_append_of_notMem {first : Char}
    {pattern replacement left : List Char} (absent : first ∉ left)
    (right : List Char) :
    replaceAll (first :: pattern) replacement (left ++ right) =
      left ++ replaceAll (first :: pattern) replacement right := by
  induction left with
  | nil => rfl
  | cons char left inductionHypothesis =>
      have different : first ≠ char :=
        fun same => absent (same ▸ List.mem_cons_self)
      have absentRest : first ∉ left :=
        fun member => absent (List.mem_cons_of_mem char member)
      have notHere : (first :: pattern).isPrefixOf
          (char :: (left ++ right)) = false := by
        rw [List.isPrefixOf, beq_false_of_ne different, Bool.false_and]
      rw [List.cons_append, replaceAll, replaceFrom, notHere]
      exact congrArg (List.cons char) (inductionHypothesis absentRest)

theorem replaceFrom_skip (pattern replacement : List Char) :
    ∀ skipped rest : List Char,
      replaceFrom pattern replacement skipped.length (skipped ++ rest) =
        replaceFrom pattern replacement 0 rest
  | [], _ => rfl
  | _ :: skipped, rest => replaceFrom_skip pattern replacement skipped rest

theorem replaceAll_pattern {pattern : List Char} (nonempty : pattern ≠ [])
    (replacement rest : List Char) :
    replaceAll pattern replacement (pattern ++ rest) =
      replacement ++ replaceAll pattern replacement rest := by
  cases pattern with
  | nil => exact absurd rfl nonempty
  | cons first pattern =>
      have here : (first :: pattern).isPrefixOf
          (first :: (pattern ++ rest)) = true :=
        List.isPrefixOf_iff_prefix.mpr (List.prefix_append _ rest)
      rw [List.cons_append, replaceAll, replaceFrom, here, if_pos rfl,
        List.length_cons, Nat.add_sub_cancel]
      exact congrArg (replacement ++ ·)
        (replaceFrom_skip (first :: pattern) replacement pattern rest)

end Replacement

namespace Json

/-- What a closing marker contains after its slash: characters that stand for
themselves in a string and nowhere else. -/
def isMarkerChar (char : Char) : Bool :=
  escapeChar char = [char] &&
    !List.contains ['[', ']', '\x7b', '\x7d', ',', ':'] char

theorem mem_dumpsNumber {mantissa : Int} {exponent : Nat} {char : Char}
    (member : char ∈ dumpsNumber mantissa exponent) :
    char = '-' ∨ char = '.' ∨ char.isDigit = true := by
  rw [dumpsNumber_eq, unsignedDigits] at member
  rcases List.mem_append.mp member with sign | digits
  · by_cases negative : mantissa < 0
    · rw [if_pos negative] at sign
      exact Or.inl (List.mem_singleton.mp sign)
    · rw [if_neg negative] at sign
      cases sign
  · rcases List.mem_append.mp digits with whole | fraction
    · exact Or.inr (Or.inr
        (Nat.isDigit_of_mem_toDigits (by decide) (by decide) whole))
    · by_cases integer : exponent = 0
      · rw [if_pos integer] at fraction
        cases fraction
      · rw [if_neg integer] at fraction
        rcases List.mem_cons.mp fraction with point | later
        · exact Or.inr (Or.inl point)
        · exact Or.inr (Or.inr (isDigit_of_mem_fixedDigits later))

theorem not_mem_dumpsNumber (mantissa : Int) (exponent : Nat) :
    '<' ∉ dumpsNumber mantissa exponent := by
  intro member
  rcases mem_dumpsNumber member with sign | point | digit
  · cases sign
  · cases point
  · cases digit

section Seal

variable {name : List Char} (marker : name.all isMarkerChar = true)

/-- One of the two replacements of `_seal`. -/
def sealMarker (name text : List Char) : List Char :=
  replaceAll ('<' :: '/' :: name) ('<' :: '\\' :: '/' :: name) text

theorem sealMarker_of_notMem {text : List Char} (absent : '<' ∉ text) :
    sealMarker name text = text := by
  have unchanged : sealMarker name (text ++ []) = text ++ sealMarker name [] :=
    replaceAll_append_of_notMem absent []
  rw [List.append_nil] at unchanged
  exact unchanged.trans (List.append_nil text)

include marker

theorem plain_marker : Plain ('<' :: '/' :: name) := by
  have plain : Plain name := by
    refine List.all_eq_true.mpr fun char member => ?_
    have isMarker := List.all_eq_true.mp marker char member
    rw [isMarkerChar, Bool.and_eq_true] at isMarker
    exact isMarker.1
  rw [Plain, List.all_cons, List.all_cons, plain]
  decide

theorem writesText_sealed :
    WritesText ('<' :: '/' :: name) ('<' :: '\\' :: '/' :: name) := by
  have plain := plain_marker marker
  rw [Plain, List.all_cons, List.all_cons, Bool.and_eq_true,
    Bool.and_eq_true] at plain
  have opening : WritesChar '<' ['<'] := WritesChar.escaped '<'
  exact .cons opening (.cons .slash (writesText_plain plain.2.2))

/-- A marker in a written string starts and ends with written characters, and
sealing writes the same characters in another way. -/
theorem WritesText.seal {chars text : List Char}
    (writes : WritesText chars text) :
    WritesText chars (sealMarker name text) := by
  generalize bound : text.length = length
  induction length using Nat.strongRecOn generalizing chars text with
  | ind length inductionHypothesis =>
      cases writes with
      | nil => exact .nil
      | @cons char chars written text writesChar writes =>
          have some := List.length_pos_iff.mpr writesChar.ne_nil
          rw [List.length_append] at bound
          have later := inductionHypothesis text.length (by omega) writes rfl
          rcases writesChar.cases with ⟨isWritten, _⟩ |
            ⟨escape, isWritten, printable⟩
          · by_cases here : ('<' :: '/' :: name).isPrefixOf
              (char :: text) = true
            · obtain ⟨after, isText⟩ := List.isPrefixOf_iff_prefix.mp here
              have whole : WritesText (char :: chars)
                  ('<' :: '/' :: name ++ after) := by
                have both := WritesText.cons writesChar writes
                rw [isWritten, List.singleton_append, ← isText] at both
                exact both
              obtain ⟨rest, isChars, writesRest⟩ :=
                whole.split_plain (plain_marker marker)
              have shorter := congrArg List.length isText
              simp only [List.length_append, List.length_cons] at shorter
              have sealedRest := inductionHypothesis after.length (by omega)
                writesRest rfl
              rw [isWritten, List.singleton_append, ← isText, isChars,
                sealMarker, replaceAll_pattern (List.cons_ne_nil _ _)]
              exact (writesText_sealed marker).append sealedRest
            · have unchanged : sealMarker name (written ++ text) =
                  written ++ sealMarker name text := by
                rw [isWritten, List.singleton_append, sealMarker, replaceAll,
                  replaceFrom, if_neg here]
                rfl
              rw [unchanged]
              exact .cons writesChar later
          · have unchanged : sealMarker name (written ++ text) =
                written ++ sealMarker name text := by
              rw [isWritten]
              exact replaceAll_append_of_notMem
                (not_mem_of_printable printable) text
            rw [unchanged]
            exact .cons writesChar later

theorem not_mem_marker {char : Char} (never : isMarkerChar char = false)
    (other : char ≠ '<' ∧ char ≠ '/') : char ∉ '<' :: '/' :: name := by
  intro member
  rcases List.mem_cons.mp member with first | rest
  · exact other.1 first
  · rcases List.mem_cons.mp rest with second | inName
    · exact other.2 second
    · have isMarker := List.all_eq_true.mp marker char inName
      rw [never] at isMarker
      cases isMarker

theorem sealMarker_append_cons {char : Char}
    (never : isMarkerChar char = false) (other : char ≠ '<' ∧ char ≠ '/')
    (left right : List Char) :
    sealMarker name (left ++ char :: right) =
      sealMarker name left ++ char :: sealMarker name right :=
  replaceAll_append_cons (not_mem_marker marker never other)
    (List.cons_ne_nil _ _) left right

theorem sealMarker_cons {char : Char} (never : isMarkerChar char = false)
    (other : char ≠ '<' ∧ char ≠ '/') (text : List Char) :
    sealMarker name (char :: text) = char :: sealMarker name text :=
  sealMarker_append_cons marker never other [] text

/-- Sealing works inside a pair of delimiters. -/
theorem sealMarker_enclosed {opening closing : Char}
    (neverOpening : isMarkerChar opening = false)
    (otherOpening : opening ≠ '<' ∧ opening ≠ '/')
    (neverClosing : isMarkerChar closing = false)
    (otherClosing : closing ≠ '<' ∧ closing ≠ '/') (text : List Char) :
    sealMarker name (opening :: text ++ [closing]) =
      opening :: sealMarker name text ++ [closing] := by
  rw [List.cons_append, sealMarker_cons marker neverOpening otherOpening,
    sealMarker_append_cons marker neverClosing otherClosing]
  rfl

/-- Sealing works in the name and in the value of a member. -/
theorem sealMarker_member (key text : List Char) :
    sealMarker name ('"' :: key ++ '"' :: ':' :: text) =
      '"' :: sealMarker name key ++ '"' :: ':' :: sealMarker name text := by
  rw [List.cons_append, sealMarker_cons marker (by decide) (by decide),
    sealMarker_append_cons marker (by decide) (by decide),
    sealMarker_cons marker (by decide) (by decide)]
  rfl

mutual

/-- A sealed text of a value is read as the same value. -/
theorem Writes.seal {value : Json} {text : List Char} :
    Writes value text → Writes value (sealMarker name text)
  | .null => by
      rw [sealMarker_of_notMem (by decide)]
      exact .null
  | .bool value => by
      rw [sealMarker_of_notMem (by cases value <;> decide)]
      exact .bool value
  | .num mantissa exponent => by
      rw [sealMarker_of_notMem (not_mem_dumpsNumber mantissa exponent)]
      exact .num mantissa exponent
  | .str writes => by
      rw [sealMarker_enclosed marker (by decide) (by decide) (by decide)
        (by decide)]
      exact .str (writes.seal marker)
  | .emptyArr => by
      rw [sealMarker_of_notMem (by decide)]
      exact .emptyArr
  | .arr writes => by
      rw [sealMarker_enclosed marker (by decide) (by decide) (by decide)
        (by decide)]
      exact .arr writes.seal
  | .emptyObj => by
      rw [sealMarker_of_notMem (by decide)]
      exact .emptyObj
  | .obj writes => by
      rw [sealMarker_enclosed marker (by decide) (by decide) (by decide)
        (by decide)]
      exact .obj writes.seal

theorem WritesItems.seal {items : List Json} {text : List Char} :
    WritesItems items text → WritesItems items (sealMarker name text)
  | .last writes => .last writes.seal
  | .cons writes more => by
      rw [sealMarker_append_cons marker (by decide) (by decide)]
      exact .cons writes.seal more.seal

theorem WritesMembers.seal {members : List (String × Json)}
    {text : List Char} :
    WritesMembers members text → WritesMembers members (sealMarker name text)
  | .last named writes => by
      rw [sealMarker_member marker]
      exact .last (named.seal marker) writes.seal
  | .cons named writes more => by
      rw [sealMarker_append_cons marker (by decide) (by decide),
        sealMarker_member marker]
      exact .cons (named.seal marker) writes.seal more.seal

end

end Seal

/-! ## Written values are one line -/

/-- No control characters. -/
abbrev OneLine (text : List Char) : Prop :=
  (text.all fun char => 32 ≤ char.toNat) = true

theorem oneLine_dumpsNumber (mantissa : Int) (exponent : Nat) :
    OneLine (dumpsNumber mantissa exponent) := by
  refine List.all_eq_true.mpr fun char member => ?_
  rcases mem_dumpsNumber member with sign | point | digit
  · rw [sign]
    decide
  · rw [point]
    decide
  · rw [Char.isDigit, Bool.and_eq_true] at digit
    have above : 48 ≤ char.toNat := of_decide_eq_true digit.1
    exact decide_eq_true (by omega)

theorem Printable.oneLine {text : List Char} (printable : Printable text) :
    OneLine text := by
  refine List.all_eq_true.mpr fun char member => ?_
  have isPrintable := List.all_eq_true.mp printable char member
  rw [Json.isPrintable, Bool.and_eq_true] at isPrintable
  exact isPrintable.1

theorem WritesText.oneLine {chars text : List Char}
    (writes : WritesText chars text) : OneLine text := by
  induction writes with
  | nil => rfl
  | cons writesChar _ inductionHypothesis =>
      rw [OneLine, List.all_append, inductionHypothesis, Bool.and_true]
      rcases writesChar.cases with ⟨isWritten, visible⟩ |
        ⟨escape, isWritten, printable⟩
      · rw [isWritten, List.all_cons, decide_eq_true visible]
        rfl
      · rw [isWritten]
        exact printable.oneLine

theorem OneLine.enclosed {text : List Char} (oneLine : OneLine text)
    {opening closing : Char} (isOpening : 32 ≤ opening.toNat)
    (isClosing : 32 ≤ closing.toNat) :
    OneLine (opening :: text ++ [closing]) := by
  rw [OneLine, List.all_append, List.all_cons, oneLine,
    decide_eq_true isOpening, List.all_cons, decide_eq_true isClosing]
  rfl

mutual

theorem Writes.oneLine {value : Json} {text : List Char} :
    Writes value text → OneLine text
  | .null => by decide
  | .bool true => by decide
  | .bool false => by decide
  | .num mantissa exponent => oneLine_dumpsNumber mantissa exponent
  | .str writes => writes.oneLine.enclosed (by decide) (by decide)
  | .emptyArr => by decide
  | .arr writes => writes.oneLine.enclosed (by decide) (by decide)
  | .emptyObj => by decide
  | .obj writes => writes.oneLine.enclosed (by decide) (by decide)

theorem WritesItems.oneLine {items : List Json} {text : List Char} :
    WritesItems items text → OneLine text
  | .last writes => writes.oneLine
  | .cons writes more => by
      rw [OneLine, List.all_append, List.all_cons, writes.oneLine,
        more.oneLine]
      rfl

theorem WritesMembers.oneLine {members : List (String × Json)}
    {text : List Char} : WritesMembers members text → OneLine text
  | .last named writes => by
      rw [OneLine, List.all_append, List.all_cons, List.all_cons,
        List.all_cons, named.oneLine, writes.oneLine]
      rfl
  | .cons named writes more => by
      rw [OneLine, List.all_append, List.all_append, List.all_cons,
        List.all_cons, List.all_cons, List.all_cons, named.oneLine,
        writes.oneLine, more.oneLine]
      rfl

end

end Json

/-! ## The line of the belief state -/

namespace Retrieval

section Line

variable {Score : Type}

theorem writes_sealText {value : Json} {text : List Char}
    (writes : Json.Writes value text) : Json.Writes value (sealText text) := by
  have projectState := writes.seal
    (by decide : "project_state>".toList.all Json.isMarkerChar = true)
  exact projectState.seal
    (by decide : "sources>".toList.all Json.isMarkerChar = true)

/-- Reading the sealed line gives back the state that was dumped. -/
theorem projectState_decodes (content : BeliefStateContent)
    (chunks : List (RetrievedChunk Score)) (question : String)
    (includeProjectId : Bool) :
    ∃ line rest,
      (buildUserPrompt (some (Schema.beliefState.dump content)) chunks question
        includeProjectId).toList =
          "<project_state>\n".toList ++ line ++ "\n</project_state>\n".toList ++
            rest ∧
      '\n' ∉ line ∧
      Json.loads line = some (Schema.beliefState.dump content) := by
  have writes := writes_sealText
    (Json.writes_dumps (Schema.beliefState.dump content))
  refine ⟨sealText (Schema.beliefState.dump content).dumps, ?_⟩
  refine ⟨List.intercalate ['\n'] ([] :: "<sources>".toList ::
    (sourceLines includeProjectId 1 chunks ++
      ["</sources>".toList, [], "Question:".toList, question.toList])),
    ?_, ?_, Json.loads_of_writes writes⟩
  · have opening : "<project_state>\n".toList =
        "<project_state>".toList ++ ['\n'] := rfl
    have closing : "\n</project_state>\n".toList =
        ['\n'] ++ ("</project_state>".toList ++ ['\n']) := rfl
    unfold buildUserPrompt
    simp only [String.toList_ofList, List.cons_append, List.nil_append]
    rw [List.intercalate_cons_cons, List.intercalate_cons_cons,
      List.intercalate_cons_cons, opening, closing]
    simp only [List.append_assoc]
  · intro newline
    have visible := List.all_eq_true.mp writes.oneLine '\n' newline
    revert visible
    decide

end Line

end Retrieval

end ProjectMemory
