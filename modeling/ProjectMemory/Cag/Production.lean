import ProjectMemory.Cag.Budget

/-!
# The budget in production

With a budget of 100,000 tokens some digests fit alone of which two do not fit
together.  A rebuild is then safe exactly as long as the log is one batch.
-/

namespace ProjectMemory.Cag

open Foundation Ingestion

/-! ## The settings -/

section Settings

/-- The settings of a rebuild of belief states. -/
def beliefSettings (readAnswer : String → Except AnswerError BeliefStateContent)
    (projectId : Uuid) (contextModel : String) (budget : Nat) :
    ReduceSettings BeliefStateContent where
  schema := Schema.beliefState
  readAnswer := readAnswer
  projectId := projectId
  contextModel := contextModel
  cagMaxPromptTokens := budget

variable {readAnswer : String → Except AnswerError BeliefStateContent}
  {projectId : Uuid} {contextModel : String} {budget : Nat}

theorem within_beliefSettings (prompt : String) :
    (beliefSettings readAnswer projectId contextModel budget).Within prompt ↔
      estimatedTokens prompt ≤ budget := Iff.rfl

theorem fitsAlone_beliefSettings (digest : BeliefStateContent) :
    (beliefSettings readAnswer projectId contextModel budget).FitsAlone
        digest ↔
      estimatedTokens (digestMergePrompt Schema.beliefState [digest]) ≤
        budget := Iff.rfl

theorem schema_beliefSettings :
    (beliefSettings readAnswer projectId contextModel budget).schema =
      Schema.beliefState := rfl

theorem readAnswer_beliefSettings :
    (beliefSettings readAnswer projectId contextModel budget).readAnswer =
      readAnswer := rfl

end Settings

/-! ## Lengths of indented JSON -/

section Lengths

theorem length_flatMap_replicate {char : Char} {size : Nat}
    (escaped : (Json.escapeChar char).length = size) (count : Nat) :
    ((List.replicate count char).flatMap Json.escapeChar).length =
      count * size := by
  induction count with
  | zero => rw [Nat.zero_mul]; rfl
  | succ count inductionHypothesis =>
      rw [List.replicate_succ, List.flatMap_cons, List.length_append,
        inductionHypothesis, escaped, Nat.succ_mul, Nat.add_comm]

theorem length_dumpsString_replicate {char : Char} {size : Nat}
    (escaped : (Json.escapeChar char).length = size) (count : Nat) :
    (Json.dumpsString (String.ofList (List.replicate count char))).length =
      count * size + 2 := by
  rw [Json.dumpsString, String.toList_ofList, List.length_append,
    List.length_cons, length_flatMap_replicate escaped, List.length_singleton]

theorem length_intercalate_replicate (separator item : List Char)
    (count : Nat) :
    (List.intercalate separator (List.replicate count item)).length =
      count * item.length + (count - 1) * separator.length := by
  induction count with
  | zero => simp
  | succ count inductionHypothesis =>
      cases count with
      | zero => simp
      | succ count =>
          rw [List.replicate_succ, List.replicate_succ,
            List.intercalate_cons_cons, ← List.replicate_succ,
            List.length_append, List.length_append, inductionHypothesis]
          simp only [Nat.add_sub_cancel, Nat.succ_mul]
          omega

theorem dumpsIndentItems_replicate (depth count : Nat) (item : Json) :
    Json.dumpsIndentItems depth (List.replicate count item) =
      List.replicate count (item.dumpsIndent depth) := by
  induction count with
  | zero => rfl
  | succ count inductionHypothesis =>
      rw [List.replicate_succ, Json.dumpsIndentItems, inductionHypothesis,
        List.replicate_succ]

theorem length_summaryBody (text : String) :
    ((Json.obj [("summary", .str text)]).dumpsIndent 0).length =
      (Json.dumpsString text).length + 17 := by
  have key : (Json.dumpsString "summary").length = 9 := by decide
  have separator : (": ".toList).length = 2 := by decide
  simp only [Json.dumpsIndent, Json.dumpsIndentMembers, Json.dumps,
    List.isEmpty_cons, Bool.false_eq_true, if_false,
    List.intercalate_singleton, List.length_append, List.length_cons,
    List.length_nil, Json.lineBreak, List.length_replicate, key, separator]
  omega

theorem length_formatSummary (summary : LoggedSummary) :
    (formatSummary summary).length ≤
      117 + (summary.filename.getD "unknown").length +
        ((Json.obj summary.summary).dumpsIndent 0).length ∧
    ((Json.obj summary.summary).dumpsIndent 0).length ≤
      (formatSummary summary).length := by
  have created := length_isoformat_le summary.createdAt
  have opening : ("--- summary id: ").length = 16 := by decide
  have file : (" | filename: ").length = 13 := by decide
  have time : (" | created_at: ").length = 15 := by decide
  have closing : (" ---\n").length = 5 := by decide
  have id : summary.id.str.length = 36 := by
    rw [Uuid.str, String.length_ofList, Uuid.length_chars]
  have body : (String.ofList ((Json.obj summary.summary).dumpsIndent
      0)).length = ((Json.obj summary.summary).dumpsIndent 0).length :=
    String.length_ofList
  unfold formatSummary
  generalize String.ofList ((Json.obj summary.summary).dumpsIndent 0) = text
    at body ⊢
  simp only [String.length_append, opening, file, time, closing, id, body]
  omega

end Lengths

/-! ## Digests that are long -/

section Digests

/-- An open item without a reference. -/
def plainItem (description : Capped 500) : OpenItem where
  description := description
  firstSeenSummaryId := none

/-- A digest with nothing but copies of an open item. -/
def itemsDigest (count : Nat) (few : count ≤ 100) (description : Capped 500) :
    BeliefStateContent where
  projectSummary := ⟨"", by decide⟩
  decisions := Schema.noItems Decision 100
  openItems := ⟨List.replicate count (plainItem description), by
    rw [List.length_replicate]
    exact few⟩
  keyPeople := Schema.noItems KeyPerson 50
  recurringThemes := Schema.noItems (Capped 80) 30

theorem length_plainItem (description : Capped 500) :
    ((Schema.openItem.dump (plainItem description)).dumpsIndent 2).length =
      (Json.dumpsString description.val).length + 66 := by
  have key : (Json.dumpsString "description").length = 13 := by decide
  have otherKey : (Json.dumpsString "first_seen_summary_id").length = 23 := by
    decide
  have separator : (": ".toList).length = 2 := by decide
  have null : ("null".toList).length = 4 := by decide
  simp only [Schema.openItem, plainItem, Schema.capped,
    Schema.text, Schema.nullable, Json.dumpsIndent, Json.dumpsIndentMembers,
    Json.dumps, List.isEmpty_cons, Bool.false_eq_true, if_false,
    List.intercalate_cons_cons, List.intercalate_singleton,
    List.length_append, List.length_cons, List.length_nil, Json.lineBreak,
    List.length_replicate, key, otherKey, separator, null]
  omega

theorem length_itemsDigest {count : Nat} (some : 1 ≤ count)
    (few : count ≤ 100) (description : Capped 500) :
    (digestText Schema.beliefState
      (itemsDigest count few description)).length =
        count * ((Json.dumpsString description.val).length + 72) + 114 := by
  have item := length_plainItem description
  have separator : (": ".toList).length = 2 := by decide
  have brackets : ("[]".toList).length = 2 := by decide
  have summary : (Json.dumpsString "project_summary").length = 17 := by decide
  have empty : (Json.dumpsString "").length = 2 := by decide
  have decisions : (Json.dumpsString "decisions").length = 11 := by decide
  have openItems : (Json.dumpsString "open_items").length = 12 := by decide
  have people : (Json.dumpsString "key_people").length = 12 := by decide
  have themes : (Json.dumpsString "recurring_themes").length = 18 := by decide
  have copies : (List.replicate count (plainItem description)).map
      Schema.openItem.dump =
        List.replicate count (Schema.openItem.dump (plainItem description)) :=
    List.map_replicate
  have notEmpty : (List.replicate count
      (Schema.openItem.dump (plainItem description))).isEmpty = false :=
    isEmpty_eq_false (List.ne_nil_of_length_pos (by
      rw [List.length_replicate]
      exact some))
  simp only [digestText, String.length_ofList, Schema.beliefState, itemsDigest,
    Schema.list, Schema.noItems, Schema.capped, Schema.text, Json.dumpsIndent,
    Json.dumpsIndentMembers, Json.dumps, List.isEmpty_cons, Bool.false_eq_true,
    if_false, List.map_nil, List.isEmpty_nil, if_true,
    List.intercalate_cons_cons, List.intercalate_singleton,
    List.length_append, List.length_cons, List.length_nil, Json.lineBreak,
    List.length_replicate, copies, notEmpty, separator, brackets, summary,
    empty, decisions, openItems, people, themes, dumpsIndentItems_replicate,
    length_intercalate_replicate, item]
  obtain ⟨more, rfl⟩ := Nat.exists_eq_add_of_le' some
  simp only [Nat.add_sub_cancel, Nat.succ_mul, Nat.mul_add]
  omega

theorem length_le_utf8ByteSize (text : String) :
    text.length ≤ text.utf8ByteSize := by
  have ofList (chars : List Char) :
      chars.length ≤ (String.ofList chars).utf8ByteSize := by
    induction chars with
    | nil => exact Nat.zero_le _
    | cons char chars inductionHypothesis =>
        have positive := char.utf8Size_pos
        rw [String.ofList_cons, String.utf8ByteSize_append,
          String.utf8ByteSize_singleton, List.length_cons]
        omega
  have whole := ofList text.toList
  rwa [String.ofList_toList, String.length_toList] at whole

theorem length_digestMergeBody : digestMergeBody.length ≤ 2000 := by
  have size : digestMergeBody.utf8ByteSize ≤ 2000 := by
    unfold digestMergeBody
    simp only [String.utf8ByteSize_append]
    decide +kernel
  exact Nat.le_trans (length_le_utf8ByteSize _) size

theorem length_batchDigestBody : batchDigestBody.length ≤ 2000 := by
  have size : batchDigestBody.utf8ByteSize ≤ 2000 := by
    unfold batchDigestBody
    simp only [String.utf8ByteSize_append]
    decide +kernel
  exact Nat.le_trans (length_le_utf8ByteSize _) size

theorem length_promptEnd : promptEnd.length ≤ 2000 := by
  have size : promptEnd.utf8ByteSize ≤ 2000 := by
    unfold promptEnd capInstructions
    simp only [String.utf8ByteSize_append]
    decide +kernel
  exact Nat.le_trans (length_le_utf8ByteSize _) size

/-- A description as long as it may be, each character written with six. -/
def longDescription : Capped 500 :=
  ⟨String.ofList (List.replicate 500 'é'), decide_eq_true (by
    rw [String.length_ofList, List.length_replicate])⟩

theorem length_longDescription :
    (Json.dumpsString longDescription.val).length = 3002 := by
  have escaped : (Json.escapeChar 'é').length = 6 := by decide
  have length := length_dumpsString_replicate escaped 500
  exact length

/-- The merge prompt of copies of a digest with a hundred such items. -/
theorem length_longPrompt (copies : Nat) :
    (digestMergePrompt Schema.beliefState (List.replicate copies
      (itemsDigest 100 (Nat.le_refl 100) longDescription))).length =
        digestMergeBody.length + (copies * 307514 + 2 * (copies - 1)) +
          promptEnd.length := by
  rw [length_digestMergePrompt, List.map_replicate, List.sum_replicate_nat,
    List.length_replicate, length_itemsDigest (by decide),
    length_longDescription]

section Default

variable {readAnswer : String → Except AnswerError BeliefStateContent}
  {projectId : Uuid} {contextModel : String}

theorem fitsAlone_long :
    (beliefSettings readAnswer projectId contextModel 100000).FitsAlone
      (itemsDigest 100 (Nat.le_refl 100) longDescription) := by
  have length := length_longPrompt 1
  have body := length_digestMergeBody
  have ending := length_promptEnd
  rw [List.replicate_one] at length
  rw [fitsAlone_beliefSettings, estimatedTokens, length]
  generalize digestMergeBody.length = bodyLength at body ⊢
  generalize promptEnd.length = endingLength at ending ⊢
  clear length
  omega

/-- With the default budget a log of several batches is always in danger. -/
theorem batchesFit_default {log : List LoggedSummary} (nonempty : log ≠ []) :
    (beliefSettings readAnswer projectId contextModel 100000).BatchesFit
        rebuildBatchSize.val log ↔
      log.length ≤ rebuildBatchSize.val ∧
        estimatedTokens (batchDigestPrompt log) ≤ 100000 := by
  constructor
  · intro fit
    have short : log.length ≤ rebuildBatchSize.val := by
      by_contra long
      have size : rebuildBatchSize.val = 40 := rfl
      have within := fit.merges (Nat.lt_of_not_le long) _ fitsAlone_long
      rw [within_beliefSettings, schema_beliefSettings, estimatedTokens,
        length_longPrompt] at within
      have several : 2 ≤ min rebuildBatchSize.val
          ((log.length + rebuildBatchSize.val - 1) / rebuildBatchSize.val) := by
        rw [size] at long ⊢
        omega
      omega
    have one := batches_of_length_le nonempty short
    refine ⟨short, fit.digests log ?_⟩
    rw [one]
    exact List.mem_singleton_self log
  · rintro ⟨short, within⟩
    refine ⟨?_, fun long => absurd short (Nat.not_le_of_lt long)⟩
    rw [batches_of_length_le nonempty short]
    intro batch member
    rw [List.mem_singleton.mp member]
    exact within

/-- A rebuild from the whole log always returns a state exactly where the
batches of the log are within the budget and so are merges of equal digests;
with the default budget that is a log of one batch within the budget. -/
theorem returnsState_iff_within
    (reads : ∀ digest, ∃ text, readAnswer text = .ok digest)
    (projectId : Uuid) (contextModel : String) (budget : Nat)
    (log : List LoggedSummary) :
    ((beliefSettings readAnswer projectId contextModel budget).ReturnsState
        rebuildBatchSize.val log ↔
      ((∃ digest, (beliefSettings readAnswer projectId contextModel
          budget).FitsAlone digest) →
        log ≠ [] ∧ (beliefSettings readAnswer projectId contextModel
          budget).BatchesFit rebuildBatchSize.val log)) ∧
    (budget = 100000 →
      ((beliefSettings readAnswer projectId contextModel budget).ReturnsState
          rebuildBatchSize.val log ↔
        log ≠ [] ∧ log.length ≤ rebuildBatchSize.val ∧
          estimatedTokens (batchDigestPrompt log) ≤ 100000)) := by
  have condition := @returnsState_iff _
    (beliefSettings readAnswer projectId contextModel budget) reads log
  refine ⟨condition, fun isDefault => ?_⟩
  subst isDefault
  rw [condition]
  constructor
  · intro fit
    have both := fit ⟨_, fitsAlone_long⟩
    exact ⟨both.1, (batchesFit_default both.1).mp both.2⟩
  · rintro ⟨nonempty, within⟩ _
    exact ⟨nonempty, (batchesFit_default nonempty).mpr within⟩

theorem reads_readBeliefState (digest : BeliefStateContent) :
    ∃ text, readBeliefState (fun _ => "") text = .ok digest :=
  ⟨_, readBeliefState_dumps (fun _ => "") digest⟩

/-- The default settings, with a reader that says nothing about a text it
refuses. -/
def productionSettings : ReduceSettings BeliefStateContent :=
  beliefSettings (readBeliefState fun _ => "") 0 "gpt-4o-mini" 100000

/-- A summary with one text. -/
def noteSummary (text : String) (number : Nat) : LoggedSummary where
  id := BitVec.ofNat 128 number
  filename := some "notes.md"
  createdAt := number * 1000000
  summary := [("summary", .str text)]

theorem length_noteSummary (text : String) (number : Nat) :
    (Json.dumpsString text).length ≤
        (formatSummary (noteSummary text number)).length ∧
      (formatSummary (noteSummary text number)).length ≤
        (Json.dumpsString text).length + 142 := by
  have bounds := length_formatSummary (noteSummary text number)
  have body : ((Json.obj (noteSummary text number).summary).dumpsIndent
      0).length = (Json.dumpsString text).length + 17 :=
    length_summaryBody text
  have name : ((noteSummary text number).filename.getD "unknown").length = 8 := by
    exact (by decide : ("notes.md").length = 8)
  rw [body, name] at bounds
  omega

/-- A log of short summaries. -/
def plainLog (count : Nat) : List LoggedSummary :=
  (List.range count).map (noteSummary "Ship it")

theorem length_plainLog (count : Nat) : (plainLog count).length = count := by
  rw [plainLog, List.length_map, List.length_range]

theorem estimatedTokens_plainLog {count : Nat} (few : count ≤ 1000) :
    estimatedTokens (batchDigestPrompt (plainLog count)) ≤ 100000 := by
  have short : ∀ summary ∈ plainLog count,
      (formatSummary summary).length ≤ 151 := by
    intro summary member
    obtain ⟨number, _, rfl⟩ := List.mem_map.mp member
    have bounds := (length_noteSummary "Ship it" number).2
    have text : (Json.dumpsString "Ship it").length = 9 := by decide
    rwa [text] at bounds
  have sum := sum_map_le short
  have body := length_batchDigestBody
  have ending := length_promptEnd
  have length := length_batchDigestPrompt (plainLog count)
  rw [length_plainLog] at sum length
  rw [estimatedTokens, length]
  generalize batchDigestBody.length = bodyLength at body ⊢
  generalize promptEnd.length = endingLength at ending ⊢
  clear length
  omega

/-- Forty short summaries never raise.  One more needs a merge, and two
digests that fit alone need not fit together. -/
theorem returnsState_iff_within_plainLog :
    productionSettings.ReturnsState rebuildBatchSize.val (plainLog 40) ∧
      ¬ productionSettings.ReturnsState rebuildBatchSize.val (plainLog 41) := by
  have condition := fun count =>
    (returnsState_iff_within reads_readBeliefState 0 "gpt-4o-mini" 100000
      (plainLog count)).2 rfl
  refine ⟨(condition 40).mpr ⟨?_, ?_, estimatedTokens_plainLog (by decide)⟩,
    fun returns => ?_⟩
  · exact List.ne_nil_of_length_pos (by rw [length_plainLog]; decide)
  · rw [length_plainLog]
    decide
  · have few := ((condition 41).mp returns).2.1
    rw [length_plainLog] at few
    exact absurd few (by decide)

end Default

end Digests

/-! ## A log that is too large -/

section Crowded

theorem le_sum_map {Item : Type} {size : Item → Nat} {bound : Nat}
    {items : List Item} (least : ∀ item ∈ items, bound ≤ size item) :
    items.length * bound ≤ (items.map size).sum := by
  induction items with
  | nil => exact Nat.le_of_eq (Nat.zero_mul bound)
  | cons item items inductionHypothesis =>
      rw [List.forall_mem_cons] at least
      have later := inductionHypothesis least.2
      rw [List.map_cons, List.sum_cons, List.length_cons, Nat.succ_mul,
        Nat.add_comm]
      exact Nat.add_le_add least.1 later

/-- The text of a summary of some thousand words. -/
def crowdedText : String :=
  String.ofList (List.replicate 11000 'a')

def crowdedSummary (number : Nat) : LoggedSummary :=
  noteSummary crowdedText number

def crowdedLog : List LoggedSummary :=
  (List.range 40).map crowdedSummary

theorem length_crowdedText :
    (Json.dumpsString crowdedText).length = 11002 := by
  have escaped : (Json.escapeChar 'a').length = 1 := by decide
  have length := length_dumpsString_replicate escaped 11000
  exact length

theorem length_crowdedSummary (number : Nat) :
    11000 ≤ (formatSummary (crowdedSummary number)).length ∧
      (formatSummary (crowdedSummary number)).length ≤ 12000 := by
  have bounds := length_noteSummary crowdedText number
  rw [length_crowdedText] at bounds
  rw [crowdedSummary]
  omega

theorem within_crowdedSummary (number : Nat) :
    productionSettings.Within
      (batchDigestPrompt [crowdedSummary number]) := by
  have bounds := length_crowdedSummary number
  have body := length_batchDigestBody
  have ending := length_promptEnd
  have length := length_batchDigestPrompt [crowdedSummary number]
  rw [productionSettings, within_beliefSettings, estimatedTokens, length,
    List.map_singleton, List.sum_singleton, List.length_singleton]
  generalize batchDigestBody.length = bodyLength at body ⊢
  generalize promptEnd.length = endingLength at ending ⊢
  generalize (formatSummary (crowdedSummary number)).length = size at bounds ⊢
  clear length
  omega

theorem crowdedLog_too_long :
    100000 < estimatedTokens (batchDigestPrompt crowdedLog) := by
  have least : ∀ summary ∈ crowdedLog, 11000 ≤ (formatSummary summary).length := by
    intro summary member
    obtain ⟨number, _, isSummary⟩ := List.mem_map.mp member
    rw [← isSummary]
    exact (length_crowdedSummary number).1
  have sum := le_sum_map least
  have length : crowdedLog.length = 40 := by
    rw [crowdedLog, List.length_map, List.length_range]
  rw [length] at sum
  rw [estimatedTokens, length_batchDigestPrompt]
  generalize batchDigestBody.length = bodyLength
  generalize promptEnd.length = endingLength
  omega

/-- A small digest, and the answer that is read as it. -/
def smallDigest : BeliefStateContent :=
  itemsDigest 1 (by decide) ⟨"Ship it", by decide⟩

def smallAnswer : String :=
  String.ofList (Schema.beliefState.dump smallDigest).dumps

theorem readAnswer_smallAnswer :
    productionSettings.readAnswer smallAnswer =
      .ok smallDigest := by
  rw [smallAnswer, productionSettings, readAnswer_beliefSettings,
    readBeliefState_dumps]

theorem length_smallDigest :
    (digestText Schema.beliefState smallDigest).length = 195 := by
  have description : (Json.dumpsString "Ship it").length = 9 := by decide
  rw [smallDigest, length_itemsDigest (Nat.le_refl 1), description]

theorem fitsAlone_smallDigest :
    productionSettings.FitsAlone smallDigest := by
  have body := length_digestMergeBody
  have ending := length_promptEnd
  have length := length_digestMergePrompt Schema.beliefState [smallDigest]
  rw [List.map_singleton, List.sum_singleton, List.length_singleton,
    length_smallDigest] at length
  rw [productionSettings, fitsAlone_beliefSettings, estimatedTokens, length]
  generalize digestMergeBody.length = bodyLength at body ⊢
  generalize promptEnd.length = endingLength at ending ⊢
  clear length
  omega

/-- Forty summaries fit alone and every answer is a small digest, and still the
reduce raises. -/
theorem crowdedLog_exceeds :
    (∀ summary ∈ crowdedLog, productionSettings.Within
      (batchDigestPrompt [summary])) ∧
    productionSettings.Answers
      productionSettings.FitsAlone
      (sayAlways smallAnswer) ∧
    ∃ estimated chat,
      hierarchicalReduce
        (productionSettings.withLlm (sayAlways smallAnswer))
        none crowdedLog rebuildBatchSize.val { memory := (), calls := [] } =
          some (.error (.llmError (overBudget 0 estimated 100000)), chat) := by
  refine ⟨?_, ?_, ?_⟩
  · intro summary member
    obtain ⟨number, _, isSummary⟩ := List.mem_map.mp member
    rw [← isSummary]
    exact within_crowdedSummary number
  · intro memory messages
    exact ⟨smallAnswer, (), smallDigest, rfl,
      readAnswer_smallAnswer, fitsAlone_smallDigest⟩
  · have length : crowdedLog.length = 40 := by
      rw [crowdedLog, List.length_map, List.length_range]
    have nonempty : crowdedLog ≠ [] :=
      List.ne_nil_of_length_pos (by omega)
    obtain ⟨chat, reduced⟩ := @reduce_of_exceeds Unit BeliefStateContent
      (productionSettings.withLlm (sayAlways smallAnswer)) crowdedLog nonempty
      rebuildBatchSize.val (Nat.le_of_eq length) crowdedLog_too_long
      { memory := (), calls := [] }
    exact ⟨_, chat, reduced⟩

end Crowded

end ProjectMemory.Cag
