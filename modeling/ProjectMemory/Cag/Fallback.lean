import ProjectMemory.Cag.Service
import ProjectMemory.Ingestion.Summarizer

/-!
# The fallback filter

The queries of the event log leave out summaries flagged as fallbacks.  They
read the flag out of the stored JSON as text and cast it to a boolean, a cast
that accepts some spellings and raises on all other texts; so one row can make
every query of its project fail.
-/

namespace ProjectMemory.Cag

open Foundation Ingestion

/-! ## The cast of Postgres -/

section Cast

/-- The characters `isspace` accepts in the C locale. -/
def isBlank (char : Char) : Bool :=
  char = ' ' || (9 ≤ char.toNat && char.toNat ≤ 13)

/-- What the cast compares: the text without surrounding blanks, in lower
case. -/
def spelling (text : List Char) : List Char :=
  ((text.dropWhile isBlank).rdropWhile isBlank).map Char.toLower

/-- `true`, `yes`, `on`, `1` and the unique prefixes of these. -/
def trueSpellings : List (List Char) :=
  ["t", "tr", "tru", "true", "y", "ye", "yes", "on", "1"].map String.toList

/-- `false`, `no`, `off`, `0` and the unique prefixes of these. -/
def falseSpellings : List (List Char) :=
  ["f", "fa", "fal", "fals", "false", "n", "no", "of", "off", "0"].map
    String.toList

/-- `CAST(text AS BOOLEAN)`. -/
def castBoolean (text : List Char) : Except String Bool :=
  if spelling text ∈ trueSpellings then .ok true
  else if spelling text ∈ falseSpellings then .ok false
  else
    .error ("invalid input syntax for type boolean: \"" ++
      String.ofList text ++ "\"")

/-- `summary ->> key` from the value under the key.  The text of an array or
an object differs from this one in its blanks and in the order of members,
which no cast gets to see. -/
def extractText : Option Json → Option (List Char)
  | none => none
  | some .null => none
  | some (.str text) => some text.toList
  | some value => some value.dumps

/-- `as_boolean()`; `none` is `NULL`. -/
def asBoolean (value : Option Json) : Except String (Option Bool) :=
  match extractText value with
  | none => .ok none
  | some text => (castBoolean text).map some

end Cast

/-! ## The predicate of the queries -/

section Predicate

/-- A row of `document_summaries` with its JSON. -/
structure StoredSummary where
  id : Uuid
  documentId : Uuid
  projectId : Uuid
  summary : List (String × Json)
  createdAt : Timestamp

/-- What the queries see of a row. -/
def StoredSummary.read (row : StoredSummary) : Except String DocumentSummary :=
  (asBoolean (Json.member row.summary "raw_text_fallback")).map fun flag => {
    id := row.id
    documentId := row.documentId
    projectId := row.projectId
    rawTextFallback := flag
    createdAt := row.createdAt }

/-- `coalesce(summary["raw_text_fallback"].as_boolean(), false) IS FALSE`. -/
def StoredSummary.notFallback (row : StoredSummary) : Except String Bool := do
  let flag ← asBoolean (Json.member row.summary "raw_text_fallback")
  pure (flag.getD false == false)

/-- A query that evaluates the predicate on every row of a project. -/
def readLog (rows : List StoredSummary) (projectId : Uuid) :
    Except String (List DocumentSummary) :=
  (rows.filter fun row => row.projectId = projectId).mapM StoredSummary.read

end Predicate

/-! ## When the flag is read as false -/

section Unflagged

/-- The value under `raw_text_fallback` says that a summary is no fallback:
it is missing, null, false, zero, or a text that spells one of the last
two. -/
inductive Unflagged : Option Json → Prop
  | missing : Unflagged none
  | null : Unflagged (some .null)
  | false : Unflagged (some (.bool false))
  | zero : Unflagged (some (.num 0 0))
  | spelled {text : String} :
      spelling text.toList ∈ falseSpellings → Unflagged (some (.str text))

theorem castBoolean_eq_false {text : List Char} :
    castBoolean text = .ok false ↔ spelling text ∈ falseSpellings := by
  have disjoint : ∀ word ∈ falseSpellings, word ∉ trueSpellings := by
    decide
  unfold castBoolean
  by_cases isTrue : spelling text ∈ trueSpellings
  · rw [if_pos isTrue]
    refine iff_of_false (by simp) fun isFalse => ?_
    exact disjoint _ isFalse isTrue
  · rw [if_neg isTrue]
    by_cases isFalse : spelling text ∈ falseSpellings <;> simp [isFalse]

/-- A text that starts with a character other than a blank keeps it. -/
theorem spelling_cons {first : Char} {rest : List Char}
    (visible : isBlank first = false) :
    ∃ others, spelling (first :: rest) = first.toLower :: others := by
  have notDropped : (first :: rest).dropWhile isBlank = first :: rest := by
    rw [List.dropWhile_cons, visible]
    rfl
  have nonempty : (first :: rest).rdropWhile isBlank ≠ [] := by
    intro empty
    have blank := List.rdropWhile_eq_nil_iff.mp empty first List.mem_cons_self
    rw [visible] at blank
    cases blank
  obtain ⟨suffix, split⟩ := List.rdropWhile_prefix isBlank
    (l := first :: rest)
  cases kept : (first :: rest).rdropWhile isBlank with
  | nil => exact absurd kept nonempty
  | cons head others =>
      rw [kept, List.cons_append, List.cons.injEq] at split
      refine ⟨others.map Char.toLower, ?_⟩
      rw [spelling, notDropped, kept, split.1, List.map_cons]

def isNumeric (char : Char) : Bool :=
  char.isDigit || char = '-' || char = '.'

theorem isNumeric_visible {char : Char} (numeric : isNumeric char = true) :
    isBlank char = false ∧ char.toLower = char := by
  have bounds : 45 ≤ char.toNat ∧ char.toNat ≤ 57 := by
    simp only [isNumeric, Bool.or_eq_true, decide_eq_true_eq] at numeric
    rcases numeric with (digit | rfl) | rfl
    · simp only [Char.isDigit, Bool.and_eq_true, decide_eq_true_eq] at digit
      have lower : 48 ≤ char.toNat := digit.1
      have upper : char.toNat ≤ 57 := digit.2
      omega
    · decide
    · decide
  constructor
  · simp only [isBlank, Bool.or_eq_false_iff, decide_eq_false_iff_not,
      Bool.and_eq_false_iff]
    refine ⟨?_, Or.inr (by omega)⟩
    rintro rfl
    exact absurd bounds.1 (by decide)
  · unfold Char.toLower
    rw [dif_neg]
    rintro ⟨above, _⟩
    have lower : 65 ≤ char.toNat := above
    omega

theorem spelling_numeric {text : List Char}
    (numeric : ∀ char ∈ text, isNumeric char = true) :
    spelling text = text := by
  have visible : ∀ char ∈ text, isBlank char = false := fun char member =>
    (isNumeric_visible (numeric char member)).1
  have notDropped : text.dropWhile isBlank = text := by
    rw [List.dropWhile_eq_self_iff]
    intro nonempty
    simp [visible _ (List.getElem_mem nonempty)]
  have notCut : text.rdropWhile isBlank = text := by
    rw [List.rdropWhile_eq_self_iff]
    intro nonempty
    simp [visible _ (List.getLast_mem nonempty)]
  rw [spelling, notDropped, notCut]
  have unchanged : text.map Char.toLower = text.map id :=
    List.map_congr_left fun char member =>
      (isNumeric_visible (numeric char member)).2
  rw [unchanged, List.map_id]

theorem isNumeric_of_isDigit {char : Char} (digit : char.isDigit = true) :
    isNumeric char = true := by
  rw [isNumeric, digit]
  rfl

theorem isNumeric_dumpsNumber (mantissa : Int) (exponent : Nat) :
    ∀ char ∈ Json.dumpsNumber mantissa exponent, isNumeric char = true := by
  have whole : ∀ char ∈ (toString
      (mantissa.natAbs / 10 ^ exponent)).toList, isNumeric char = true :=
    fun char member => isNumeric_of_isDigit (isDigit_of_mem_repr member)
  have sign : ∀ char ∈ (if mantissa < 0 then ['-'] else []),
      isNumeric char = true := by
    intro char member
    split at member
    · rw [List.mem_singleton.mp member]
      rfl
    · cases member
  have digits : ∀ digit < 10, isNumeric (Nat.digitChar digit) = true := by
    decide
  intro char member
  simp only [Json.dumpsNumber] at member
  split at member
  · rcases List.mem_append.mp member with isSign | isWhole
    · exact sign char isSign
    · exact whole char isWhole
  · rcases List.mem_append.mp member with front | isFraction
    · rcases List.mem_append.mp front with isSign | isWhole
      · exact sign char isSign
      · exact whole char isWhole
    · rcases List.mem_cons.mp isFraction with rfl | isDigit
      · rfl
      · obtain ⟨digit, bound, rfl⟩ := mem_fixedDigits (by decide) isDigit
        exact digits digit bound

theorem dumpsNumber_eq_zero {mantissa : Int} {exponent : Nat} :
    Json.dumpsNumber mantissa exponent = ['0'] ↔
      mantissa = 0 ∧ exponent = 0 := by
  constructor
  · intro isZero
    have notIn {char : Char} (other : char ≠ '0') :
        char ∉ Json.dumpsNumber mantissa exponent := by
      rw [isZero, List.mem_singleton]
      exact other
    have noPoint := @notIn '.' (by decide)
    have noSign := @notIn '-' (by decide)
    have whole : exponent = 0 := by
      by_contra fraction
      simp [Json.dumpsNumber, fraction] at noPoint
    subst whole
    have positive : ¬ mantissa < 0 := by
      intro negative
      simp [Json.dumpsNumber, negative] at noSign
    simp only [Json.dumpsNumber, if_true, if_neg positive,
      List.nil_append, Nat.pow_zero, Nat.div_one] at isZero
    have sameText : Nat.repr mantissa.natAbs = Nat.repr 0 :=
      String.toList_inj.mp isZero
    exact ⟨Int.natAbs_eq_zero.mp (repr_injective sameText), rfl⟩
  · rintro ⟨rfl, rfl⟩
    rfl

/-- Of the numbers only zero, written without a fraction, is read as false. -/
theorem castBoolean_dumpsNumber {mantissa : Int} {exponent : Nat} :
    castBoolean (Json.dumpsNumber mantissa exponent) = .ok false ↔
      mantissa = 0 ∧ exponent = 0 := by
  have onlyZero : ∀ word ∈ falseSpellings,
      word.all isNumeric = true → word = ['0'] := by
    decide
  have numeric := isNumeric_dumpsNumber mantissa exponent
  rw [castBoolean_eq_false, spelling_numeric numeric,
    ← dumpsNumber_eq_zero]
  constructor
  · intro isFalse
    exact onlyZero _ isFalse (List.all_eq_true.mpr numeric)
  · intro isZero
    rw [isZero]
    decide

theorem castBoolean_bracket {first : Char} {rest : List Char}
    (bracket : first = '[' ∨ first = '\x7b') :
    castBoolean (first :: rest) ≠ .ok false := by
  have noBracket : ∀ word ∈ falseSpellings,
      word.head? ≠ some '[' ∧ word.head? ≠ some '\x7b' := by
    decide
  intro isFalse
  rw [castBoolean_eq_false] at isFalse
  have visible : isBlank first = false := by
    rcases bracket with rfl | rfl <;> rfl
  obtain ⟨others, spelled⟩ := @spelling_cons first rest visible
  rw [spelled] at isFalse
  rcases bracket with rfl | rfl
  · exact (noBracket _ isFalse).1 rfl
  · exact (noBracket _ isFalse).2 rfl

/-- The predicate evaluates and keeps a row exactly when its flag says so. -/
theorem asBoolean_keeps_iff {value : Option Json} :
    (∃ flag, asBoolean value = .ok flag ∧ flag.getD false = false) ↔
      Unflagged value := by
  have keeps {text : List Char} (extracted : extractText value = some text) :
      (∃ flag, asBoolean value = .ok flag ∧ flag.getD false = false) ↔
        castBoolean text = .ok false := by
    simp only [asBoolean, extracted]
    cases castBoolean text <;> simp [Except.map]
  cases value with
  | none => exact iff_of_true ⟨none, rfl, rfl⟩ Unflagged.missing
  | some json =>
      cases json with
      | null => exact iff_of_true ⟨none, rfl, rfl⟩ Unflagged.null
      | bool flag =>
          rw [keeps rfl]
          cases flag with
          | false => exact iff_of_true rfl Unflagged.false
          | true =>
              refine iff_of_false (by decide) fun unflagged => ?_
              cases unflagged
      | num mantissa exponent =>
          rw [keeps rfl, Json.dumps, castBoolean_dumpsNumber]
          constructor
          · rintro ⟨rfl, rfl⟩
            exact Unflagged.zero
          · intro unflagged
            cases unflagged
            exact ⟨rfl, rfl⟩
      | str text =>
          rw [keeps rfl, castBoolean_eq_false]
          constructor
          · exact Unflagged.spelled
          · intro unflagged
            cases unflagged with
            | spelled spelled => exact spelled
      | arr items =>
          rw [keeps rfl]
          refine iff_of_false (castBoolean_bracket (Or.inl rfl))
            fun unflagged => ?_
          cases unflagged
      | obj members =>
          rw [keeps rfl]
          refine iff_of_false (castBoolean_bracket (Or.inr rfl))
            fun unflagged => ?_
          cases unflagged

end Unflagged

/-! ## Producer and filter -/

section Agreement

variable {llmCall : LlmCall} {loads : String → Except LoadsError Json}
  {text filename model : String} {row : StoredSummary}

/-- The predicate evaluates on the row, and excludes it just when the summary
is a fallback. -/
def FilterAgrees (llmCall : LlmCall)
    (loads : String → Except LoadsError Json)
    (text filename model : String) (row : StoredSummary) : Prop :=
  ∃ kept, row.notFallback = .ok kept ∧
    (kept = false ↔ tookFallback llmCall loads text filename model = true)

theorem notFallback_eq_true :
    row.notFallback = .ok true ↔
      Unflagged (Json.member row.summary "raw_text_fallback") := by
  rw [← asBoolean_keeps_iff]
  unfold StoredSummary.notFallback
  cases asBoolean (Json.member row.summary "raw_text_fallback") with
  | error message => simp [bind, Except.bind]
  | ok flag => simp [bind, Except.bind, pure, Except.pure]

/-- The queries filter what they read with the predicate of the rows. -/
theorem notFallback_read :
    row.notFallback = row.read.map notFallback := by
  unfold StoredSummary.notFallback StoredSummary.read
  cases asBoolean (Json.member row.summary "raw_text_fallback") <;> rfl

/-- A summary and the filter agree exactly when the summary is a fallback, or
the object the LLM answered does not claim to be one. -/
theorem fallback_agrees_iff
    (stored : summarizeDocument llmCall loads text filename model =
      .ok row.summary) :
    FilterAgrees llmCall loads text filename model row ↔
      tookFallback llmCall loads text filename model = true ∨
        Unflagged (Json.member row.summary "raw_text_fallback") := by
  rcases summarizeDocument_cases stored with
    ⟨took, isFallback⟩ | ⟨took, answer, _, _⟩
  · refine iff_of_true ⟨false, ?_, ?_⟩ (Or.inl took)
    · rw [StoredSummary.notFallback, isFallback, member_summaryFallback]
      rfl
    · exact iff_of_true rfl took
  · rw [FilterAgrees, took, ← notFallback_eq_true]
    constructor
    · rintro ⟨kept, evaluated, agrees⟩
      cases kept with
      | false => cases agrees.mp rfl
      | true => exact Or.inr evaluated
    · rintro (impossible | evaluated)
      · cases impossible
      · exact ⟨true, evaluated, by simp⟩

end Agreement

section Answers

/-- An LLM that answers an object with one text under `raw_text_fallback`. -/
def flaggedAnswer (flag : String) : String :=
  "\x7b\"raw_text_fallback\": \"" ++ flag ++ "\"\x7d"

def answering (flag : String) : LlmCall :=
  fun _ _ _ => .ok (flaggedAnswer flag)

/-- `json.loads`, as far as that answer goes. -/
def loadsFlagged (flag text : String) : Except LoadsError Json :=
  if text = flaggedAnswer flag then
    .ok (.obj [("raw_text_fallback", .str flag)])
  else
    .error (.jsonDecode "Expecting value: line 1 column 1 (char 0)")

def flaggedRow (flag : String) : StoredSummary where
  id := 4
  documentId := 2
  projectId := 1
  summary := [("raw_text_fallback", .str flag)]
  createdAt := 5

theorem fallback_agrees_off :
    FilterAgrees (answering " Off") (loadsFlagged " Off") "text" "notes.md"
      "gpt-4o-mini" (flaggedRow " Off") :=
  (fallback_agrees_iff rfl).mpr (Or.inr (Unflagged.spelled (by decide)))

/-- The flag of the LLM's object has no boolean spelling: the summary is no
fallback, and the queries of its project raise. -/
theorem fallback_disagrees_maybe :
    summarizeDocument (answering "maybe") (loadsFlagged "maybe") "text"
        "notes.md" "gpt-4o-mini" = .ok (flaggedRow "maybe").summary ∧
      ¬ FilterAgrees (answering "maybe") (loadsFlagged "maybe") "text"
        "notes.md" "gpt-4o-mini" (flaggedRow "maybe") ∧
      readLog [flaggedRow "maybe"] 1 =
        .error "invalid input syntax for type boolean: \"maybe\"" := by
  refine ⟨rfl, ?_, rfl⟩
  rintro ⟨kept, evaluated, _⟩
  cases evaluated

end Answers

end ProjectMemory.Cag
