import Mathlib.Algebra.GroupWithZero.Nat
import ProjectMemory.Cag.Reduce
import ProjectMemory.Cag.Service

/-!
# The token budget of a rebuild

Batches are cut by the number of their inputs and prompts are refused by their
length.  A reduce keeps within its budget where the batches of the log do, and
where as many digests as a merge may get do, whenever one of them does.
-/

namespace ProjectMemory.Cag

open Foundation Ingestion

/-! ## The length of a prompt -/

section Lengths

theorem length_intercalate (separator : String) (parts : List String) :
    (separator.intercalate parts).length =
      (parts.map String.length).sum +
        separator.length * (parts.length - 1) := by
  induction parts with
  | nil => rfl
  | cons part parts inductionHypothesis =>
      cases parts with
      | nil =>
          rw [String.intercalate_singleton]
          simp
      | cons second parts =>
          rw [String.intercalate_cons_cons, String.length_append,
            String.length_append, inductionHypothesis]
          simp only [List.map_cons, List.sum_cons, List.length_cons,
            Nat.add_sub_cancel, Nat.mul_add, Nat.mul_one]
          omega

variable {Content : Type} (schema : Schema Content)

/-- A digest in a merge prompt. -/
def digestText (digest : Content) : String :=
  String.ofList ((schema.dump digest).dumpsIndent 0)

theorem length_digestMergePrompt (digests : List Content) :
    (digestMergePrompt schema digests).length =
      digestMergeBody.length +
        ((digests.map fun digest => (digestText schema digest).length).sum +
          2 * (digests.length - 1)) + promptEnd.length := by
  have separator : ("\n\n").length = 2 := rfl
  rw [digestMergePrompt, String.length_append, String.length_append,
    length_intercalate, List.map_map, List.length_map, separator]
  simp only [Function.comp_def, digestText]

theorem length_batchDigestPrompt (summaries : List LoggedSummary) :
    (batchDigestPrompt summaries).length =
      batchDigestBody.length +
        ((summaries.map fun summary => (formatSummary summary).length).sum +
          2 * (summaries.length - 1)) + promptEnd.length := by
  have separator : ("\n\n").length = 2 := rfl
  rw [batchDigestPrompt, String.length_append, String.length_append,
    length_intercalate, List.map_map, List.length_map, separator]
  simp only [Function.comp_def]

theorem sum_map_le {Item : Type} {size : Item → Nat} {bound : Nat}
    {items : List Item} (within : ∀ item ∈ items, size item ≤ bound) :
    (items.map size).sum ≤ items.length * bound := by
  induction items with
  | nil => exact Nat.zero_le _
  | cons item items inductionHypothesis =>
      rw [List.forall_mem_cons] at within
      have later := inductionHypothesis within.2
      rw [List.map_cons, List.sum_cons, List.length_cons, Nat.succ_mul,
        Nat.add_comm]
      exact Nat.add_le_add later within.1

/-- Copies of a longest digest make the longest prompt. -/
theorem length_digestMergePrompt_le {digests : List Content} {longest : Content}
    (longer : ∀ digest ∈ digests,
      (digestText schema digest).length ≤ (digestText schema longest).length)
    {count : Nat} (fewer : digests.length ≤ count) :
    (digestMergePrompt schema digests).length ≤
      (digestMergePrompt schema (List.replicate count longest)).length := by
  have sum : (digests.map fun digest => (digestText schema digest).length).sum ≤
      digests.length * (digestText schema longest).length :=
    sum_map_le longer
  have more : digests.length * (digestText schema longest).length ≤
      count * (digestText schema longest).length :=
    Nat.mul_le_mul_right _ fewer
  rw [length_digestMergePrompt, length_digestMergePrompt, List.map_replicate,
    List.sum_replicate_nat, List.length_replicate]
  omega

theorem exists_longest {digests : List Content} (nonempty : digests ≠ []) :
    ∃ longest ∈ digests, ∀ digest ∈ digests,
      (digestText schema digest).length ≤
        (digestText schema longest).length := by
  induction digests with
  | nil => exact absurd rfl nonempty
  | cons first digests inductionHypothesis =>
      by_cases empty : digests = []
      · refine ⟨first, List.mem_cons_self, ?_⟩
        rw [empty, List.forall_mem_singleton]
      · obtain ⟨longest, member, longer⟩ := inductionHypothesis empty
        by_cases shorter : (digestText schema first).length ≤
            (digestText schema longest).length
        · refine ⟨longest, List.mem_cons_of_mem first member, ?_⟩
          rw [List.forall_mem_cons]
          exact ⟨shorter, longer⟩
        · refine ⟨first, List.mem_cons_self, ?_⟩
          rw [List.forall_mem_cons]
          refine ⟨Nat.le_refl _, fun digest isDigest => ?_⟩
          have := longer digest isDigest
          omega

end Lengths

/-! ## Budgets -/

section Budget

variable {Memory Content : Type}

/-- What a rebuild works with besides its LLM. -/
structure ReduceSettings (Content : Type) where
  schema : Schema Content
  readAnswer : String → Except AnswerError Content
  projectId : Uuid
  contextModel : String
  cagMaxPromptTokens : Nat

def ReduceSettings.withLlm (settings : ReduceSettings Content)
    (llmCall : Memory → List Message → String →
      Except String String × Memory) : ReduceContext Memory Content where
  schema := settings.schema
  llmCall := llmCall
  readAnswer := settings.readAnswer
  projectId := settings.projectId
  contextModel := settings.contextModel
  cagMaxPromptTokens := settings.cagMaxPromptTokens

def ReduceSettings.Within (settings : ReduceSettings Content)
    (prompt : String) : Prop :=
  estimatedTokens prompt ≤ settings.cagMaxPromptTokens

/-- A digest on its own yields a merge prompt within the budget. -/
def ReduceSettings.FitsAlone (settings : ReduceSettings Content)
    (digest : Content) : Prop :=
  settings.Within (digestMergePrompt settings.schema [digest])

/-- An LLM that always returns valid digests with a property. -/
def ReduceSettings.Answers (settings : ReduceSettings Content)
    (property : Content → Prop)
    (llmCall : Memory → List Message → String →
      Except String String × Memory) : Prop :=
  ∀ memory messages, ∃ text after digest,
    llmCall memory messages settings.contextModel = (.ok text, after) ∧
      settings.readAnswer text = .ok digest ∧ property digest

/-- Whatever digests that fit alone an LLM answers with, a reduce of the whole
log returns a state. -/
def ReduceSettings.ReturnsState (settings : ReduceSettings Content)
    (size : Nat) (log : List LoggedSummary) : Prop :=
  ∀ (Memory : Type) (llmCall : Memory → List Message → String →
      Except String String × Memory) (memory : Memory),
    settings.Answers settings.FitsAlone llmCall →
      ∃ result chat,
        hierarchicalReduce (settings.withLlm llmCall) none log size
          { memory := memory, calls := [] } = some (.ok result, chat)

/-- The batches of the log are within the budget, and so is a merge of as many
copies of a digest as the first level may hold. -/
structure ReduceSettings.BatchesFit (settings : ReduceSettings Content)
    (size : Nat) (log : List LoggedSummary) : Prop where
  digests : ∀ batch ∈ batches size log,
    settings.Within (batchDigestPrompt batch)
  merges : size < log.length → ∀ digest, settings.FitsAlone digest →
    settings.Within (digestMergePrompt settings.schema
      (List.replicate (min size ((log.length + size - 1) / size)) digest))

end Budget

/-! ## Enough -/

section Enough

variable {Memory Content : Type} {settings : ReduceSettings Content}
  {llmCall : Memory → List Message → String → Except String String × Memory}
  {property : Content → Prop}

/-- A call within the budget is answered at its first attempt. -/
theorem ask_of_within (answers : settings.Answers property llmCall)
    (chat : Chat Memory Content) {prompt : String}
    (within : settings.Within prompt) :
    ∃ digest after,
      chat.ask (settings.withLlm llmCall) prompt = (.ok digest, after) ∧
        property digest := by
  obtain ⟨text, memory, digest, answered, read, fits⟩ :=
    answers chat.memory (synthesisMessages prompt)
  exact ⟨digest, _, @ask_of_answered _ _ (settings.withLlm llmCall) chat prompt
    text memory digest within answered read, fits⟩

theorem askBatches_of_within (answers : settings.Answers property llmCall)
    {Input : Type} {format : List Input → Except String String}
    {inputs : List (List Input)}
    (within : ∀ batch ∈ inputs, ∃ prompt,
      format batch = .ok prompt ∧ settings.Within prompt)
    (chat : Chat Memory Content) :
    ∃ digests after,
      askBatches (settings.withLlm llmCall) format inputs chat =
        (.ok digests, after) ∧
      digests.length = inputs.length ∧
      ∀ digest ∈ digests, property digest := by
  induction inputs generalizing chat with
  | nil => exact ⟨[], chat, rfl, rfl, by simp⟩
  | cons batch inputs inductionHypothesis =>
      rw [List.forall_mem_cons] at within
      obtain ⟨prompt, isPrompt, small⟩ := within.1
      obtain ⟨digest, middle, asked, fits⟩ := ask_of_within answers chat small
      obtain ⟨digests, after, askedRest, length, allFit⟩ :=
        inductionHypothesis within.2 middle
      refine ⟨digest :: digests, after,
        askBatches_of_answered isPrompt asked askedRest, ?_, ?_⟩
      · rw [List.length_cons, List.length_cons, length]
      · rw [List.forall_mem_cons]
        exact ⟨fits, allFit⟩

/-- Merges of any level that is no longer than the first one. -/
theorem mergeLevels_of_within
    (answers : settings.Answers settings.FitsAlone llmCall) {size bound : Nat} (large : 2 ≤ size)
    (merges : ∀ digests, digests ≠ [] → digests.length ≤ min size bound →
      (∀ digest ∈ digests, settings.FitsAlone digest) →
      settings.Within (digestMergePrompt settings.schema digests)) :
    ∀ (fuel : Nat) (level : List Content) (chat : Chat Memory Content),
      level ≠ [] → level.length ≤ fuel + 1 → level.length ≤ bound →
      (∀ digest ∈ level, settings.FitsAlone digest) →
      ∃ result after,
        mergeLevels (settings.withLlm llmCall) size fuel level chat =
          some (.ok result, after)
  | _, [], _, nonempty, _, _, _ => absurd rfl nonempty
  | fuel, [digest], chat, _, _, _, _ => by
      refine ⟨digest, chat, ?_⟩
      rw [mergeLevels]
  | 0, _ :: _ :: _, _, _, short, _, _ => by
      simp at short
  | fuel + 1, first :: second :: rest, chat, _, short, within, fit => by
      have positive : 1 ≤ size := by omega
      have several : 2 ≤ (first :: second :: rest).length := by simp
      have batchesWithin : ∀ batch ∈ batches size (first :: second :: rest),
          ∃ prompt, formatDigestMergePrompt settings.schema batch =
            .ok prompt ∧ settings.Within prompt := by
        intro batch member
        have sizes := length_of_mem_batches positive batch member
        have subset := mem_of_mem_batches member
        have notEmpty : batch ≠ [] :=
          List.ne_nil_of_length_pos sizes.1
        have isFormat : formatDigestMergePrompt settings.schema batch =
            .ok (digestMergePrompt settings.schema batch) := by
          cases batch with
          | nil => exact absurd rfl notEmpty
          | cons digest batch => rfl
        refine ⟨_, isFormat, merges batch notEmpty ?_ ?_⟩
        · have few := length_le_of_mem_batches member
          omega
        · exact fun digest isDigest => fit digest (subset digest isDigest)
      obtain ⟨next, after, asked, length, allFit⟩ :=
        askBatches_of_within answers batchesWithin chat
      rw [length_batches] at length
      have fewer := rounds_lt large several
      have some := rounds_pos positive (Nat.le_of_succ_le several)
      have nonempty : next ≠ [] := by
        apply List.ne_nil_of_length_pos
        omega
      obtain ⟨result, final, merged⟩ :=
        mergeLevels_of_within answers large merges fuel next after nonempty
          (by omega) (by omega) allFit
      exact ⟨result, final,
        (mergeLevels_of_answered several asked).trans merged⟩

theorem formatBatchDigestPrompt_of_ne_nil {summaries : List LoggedSummary}
    (nonempty : summaries ≠ []) :
    formatBatchDigestPrompt summaries = .ok (batchDigestPrompt summaries) := by
  cases summaries with
  | nil => exact absurd rfl nonempty
  | cons summary summaries => rfl

/-- No batch of a log is empty, so its digest prompt is always formatted. -/
theorem formatBatchDigestPrompt_of_mem_batches {size : Nat}
    (positive : 1 ≤ size) {log batch : List LoggedSummary}
    (member : batch ∈ batches size log) :
    formatBatchDigestPrompt batch = .ok (batchDigestPrompt batch) := by
  have sizes := length_of_mem_batches positive batch member
  exact formatBatchDigestPrompt_of_ne_nil (List.ne_nil_of_length_pos sizes.1)

theorem formatted_of_digests {size : Nat} (positive : 1 ≤ size)
    {log : List LoggedSummary}
    (digests : ∀ batch ∈ batches size log,
      settings.Within (batchDigestPrompt batch)) :
    ∀ batch ∈ batches size log, ∃ prompt,
      formatBatchDigestPrompt batch = .ok prompt ∧ settings.Within prompt := by
  intro batch member
  exact ⟨_, formatBatchDigestPrompt_of_mem_batches positive member,
    digests batch member⟩

theorem isEmpty_eq_false {Item : Type} {items : List Item}
    (nonempty : items ≠ []) : items.isEmpty = false := by
  cases items with
  | nil => exact absurd rfl nonempty
  | cons item items => rfl

theorem merges_of_copies {size bound : Nat}
    (copies : 2 ≤ bound → ∀ digest, settings.FitsAlone digest →
      settings.Within (digestMergePrompt settings.schema
        (List.replicate (min size bound) digest)))
    (digests : List Content) (nonempty : digests ≠ [])
    (few : digests.length ≤ min size bound)
    (fit : ∀ digest ∈ digests, settings.FitsAlone digest) :
    settings.Within (digestMergePrompt settings.schema digests) := by
  obtain ⟨longest, member, longer⟩ :=
    exists_longest settings.schema nonempty
  have count := List.length_pos_iff.mpr nonempty
  by_cases several : 2 ≤ bound
  · have short := length_digestMergePrompt_le settings.schema longer few
    have within := copies several longest (fit longest member)
    exact Nat.le_trans (Nat.div_le_div_right short) within
  · have single : digests.length ≤ 1 := by omega
    have short := length_digestMergePrompt_le settings.schema longer single
    have within := fit longest member
    exact Nat.le_trans (Nat.div_le_div_right short) within

theorem returnsState_of_batchesFit {size : Nat} (large : 2 ≤ size)
    {log : List LoggedSummary} (nonempty : log ≠ [])
    (fit : settings.BatchesFit size log) : settings.ReturnsState size log := by
  intro Memory llmCall memory answers
  have positive : 1 ≤ size := by omega
  have within := formatted_of_digests positive fit.digests
  obtain ⟨digests, after, asked, length, allFit⟩ :=
    askBatches_of_within answers within { memory := memory, calls := [] }
  rw [length_batches] at length
  have some := rounds_pos positive (List.length_pos_iff.mpr nonempty)
  have copies : 2 ≤ (log.length + size - 1) / size →
      ∀ digest, settings.FitsAlone digest →
        settings.Within (digestMergePrompt settings.schema (List.replicate
          (min size ((log.length + size - 1) / size)) digest)) := by
    intro several
    apply fit.merges
    by_contra short
    have one : (log.length + size - 1) / size < 2 := by
      rw [Nat.div_lt_iff_lt_mul (by omega)]
      omega
    omega
  obtain ⟨result, final, merged⟩ := mergeLevels_of_within answers large
    (merges_of_copies copies) digests.length digests after
    (List.ne_nil_of_length_pos (by omega)) (Nat.le_succ _) (by omega) allFit
  exact ⟨result, final,
    (hierarchicalReduce_of_answered nonempty positive asked).trans merged⟩

end Enough

/-! ## Necessary -/

section Necessary

variable {Memory Content : Type} {context : ReduceContext Memory Content}

/-- A call over the budget raises. -/
theorem ask_of_exceeds {prompt : String}
    (exceeds : context.cagMaxPromptTokens < estimatedTokens prompt)
    (chat : Chat Memory Content) :
    (chat.ask context prompt).1 =
      .error (.llmError (overBudget context.projectId (estimatedTokens prompt)
        context.cagMaxPromptTokens)) := by
  rw [Chat.ask, synthesizePrompt, if_pos exceeds]

/-- A log that is one batch over the budget. -/
theorem reduce_of_exceeds {log : List LoggedSummary} (nonempty : log ≠ [])
    {size : Nat} (short : log.length ≤ size)
    (exceeds : context.cagMaxPromptTokens <
      estimatedTokens (batchDigestPrompt log))
    (chat : Chat Memory Content) :
    ∃ after, hierarchicalReduce context none log size chat =
      some (.error (.llmError (overBudget context.projectId
        (estimatedTokens (batchDigestPrompt log))
        context.cagMaxPromptTokens)), after) := by
  have length := List.length_pos_iff.mpr nonempty
  have raised := ask_of_exceeds exceeds chat
  cases asked : chat.ask context (batchDigestPrompt log) with
  | mk outcome after =>
      rw [asked] at raised
      have isOutcome : outcome = .error _ := raised
      refine ⟨after, ?_⟩
      rw [hierarchicalReduce, isEmpty_eq_false nonempty, if_neg (by decide),
        if_neg (by omega), batches_of_length_le nonempty short, askBatches,
        formatBatchDigestPrompt_of_ne_nil nonempty]
      simp only [asked, isOutcome]

theorem within_of_askBatches {Input : Type}
    {format : List Input → Except String String} {inputs : List (List Input)}
    {chat after : Chat Memory Content} {digests : List Content}
    (asked : askBatches context format inputs chat = (.ok digests, after)) :
    ∀ batch ∈ inputs, ∀ prompt, format batch = .ok prompt →
      estimatedTokens prompt ≤ context.cagMaxPromptTokens := by
  induction inputs generalizing chat after digests with
  | nil =>
      intro batch member
      cases member
  | cons batch inputs inductionHypothesis =>
      rw [askBatches] at asked
      cases formatted : format batch with
      | error message =>
          rw [formatted] at asked
          cases asked
      | ok prompt =>
          rw [formatted] at asked
          simp only at asked
          cases called : chat.ask context prompt with
          | mk outcome middle =>
              rw [called] at asked
              cases outcome with
              | error failure => cases asked
              | ok digest =>
                  cases askedRest : askBatches context format inputs middle with
                  | mk results final =>
                      simp only [askedRest] at asked
                      cases results with
                      | error failure => cases asked
                      | ok answers =>
                          rw [List.forall_mem_cons]
                          refine ⟨?_, inductionHypothesis askedRest⟩
                          intro other isOther
                          rw [formatted, Except.ok.injEq] at isOther
                          rw [← isOther]
                          by_contra exceeds
                          have raised := ask_of_exceeds
                            (Nat.lt_of_not_le exceeds) chat
                          rw [called] at raised
                          cases raised

theorem within_of_mergeLevels {size fuel : Nat} {level : List Content}
    (several : 2 ≤ level.length) (positive : 1 ≤ size)
    {chat after : Chat Memory Content} {result : Content}
    (merged : mergeLevels context size fuel level chat =
      some (.ok result, after)) :
    estimatedTokens (digestMergePrompt context.schema (level.take size)) ≤
      context.cagMaxPromptTokens := by
  match fuel, level, several with
  | 0, first :: second :: rest, _ =>
      rw [mergeLevels] at merged
      cases merged
  | fuel + 1, first :: second :: rest, _ =>
      rw [mergeLevels] at merged
      cases asked : askBatches context (formatDigestMergePrompt context.schema)
          (batches size (first :: second :: rest)) chat with
      | mk results middle =>
          rw [asked] at merged
          cases results with
          | error failure => cases merged
          | ok next =>
              have member : (first :: second :: rest).take size ∈
                  batches size (first :: second :: rest) := by
                rw [batches_of_ne_nil positive (List.cons_ne_nil _ _)]
                exact List.mem_cons_self
              refine within_of_askBatches asked _ member _ ?_
              cases size with
              | zero => cases positive
              | succ size => rfl

end Necessary

section Law

variable {Content : Type} {settings : ReduceSettings Content}

/-- An LLM that says the same every time. -/
def sayAlways (text : String) :
    Unit → List Message → String → Except String String × Unit :=
  fun _ _ _ => (.ok text, ())

/-- What a reduce with such an LLM shows about the budget. -/
theorem fit_of_returnsState {size : Nat} (large : 2 ≤ size)
    {log : List LoggedSummary} (returns : settings.ReturnsState size log)
    {text : String} {digest : Content}
    (read : settings.readAnswer text = .ok digest)
    (fits : settings.FitsAlone digest) :
    log ≠ [] ∧
      (∀ batch ∈ batches size log,
        settings.Within (batchDigestPrompt batch)) ∧
      (size < log.length →
        settings.Within (digestMergePrompt settings.schema (List.replicate
          (min size ((log.length + size - 1) / size)) digest))) := by
  have positive : 1 ≤ size := by omega
  have answers : settings.Answers settings.FitsAlone (sayAlways text) :=
    fun _ _ => ⟨text, (), digest, rfl, read, fits⟩
  have sameAnswer : settings.Answers (· = digest) (sayAlways text) :=
    fun _ _ => ⟨text, (), digest, rfl, read, rfl⟩
  obtain ⟨result, after, reduced⟩ := returns Unit (sayAlways text) () answers
  by_cases empty : log = []
  · rw [empty] at reduced
    cases reduced
  rw [hierarchicalReduce, isEmpty_eq_false empty, if_neg (by decide),
    if_neg (by omega)] at reduced
  have digested : ∀ batch ∈ batches size log,
      settings.Within (batchDigestPrompt batch) := by
    intro batch member
    have isFormat := formatBatchDigestPrompt_of_mem_batches positive member
    cases asked : askBatches (settings.withLlm (sayAlways text))
        formatBatchDigestPrompt (batches size log)
        { memory := (), calls := [] } with
    | mk results middle =>
        rw [asked] at reduced
        cases results with
        | error failure => cases reduced
        | ok digests => exact within_of_askBatches asked batch member _ isFormat
  refine ⟨empty, digested, fun long => ?_⟩
  have within := formatted_of_digests positive digested
  obtain ⟨digests, middle, asked, length, same⟩ :=
    askBatches_of_within sameAnswer within { memory := (), calls := [] }
  have copies : digests =
      List.replicate ((log.length + size - 1) / size) digest := by
    rw [List.eq_replicate_iff]
    exact ⟨by rw [length, length_batches], same⟩
  have several : 2 ≤ digests.length := by
    rw [length, length_batches, Nat.le_div_iff_mul_le positive]
    omega
  rw [asked] at reduced
  have fitsFirst := within_of_mergeLevels several positive reduced
  rw [copies, List.take_replicate] at fitsFirst
  exact fitsFirst

/-- A reduce of the whole log always returns a state exactly where the batches
of the log are within the budget and so are merges of equal digests, unless no
digest fits at all. -/
theorem returnsState_iff
    (reads : ∀ digest, ∃ text, settings.readAnswer text = .ok digest)
    (log : List LoggedSummary) :
    settings.ReturnsState rebuildBatchSize.val log ↔
      ((∃ digest, settings.FitsAlone digest) →
        log ≠ [] ∧ settings.BatchesFit rebuildBatchSize.val log) := by
  have large : 2 ≤ rebuildBatchSize.val := by decide
  constructor
  · rintro returns ⟨digest, fits⟩
    obtain ⟨text, read⟩ := reads digest
    have shown := fit_of_returnsState large returns read fits
    refine ⟨shown.1, shown.2.1, fun long other otherFits => ?_⟩
    obtain ⟨otherText, otherRead⟩ := reads other
    exact (fit_of_returnsState large returns otherRead otherFits).2.2 long
  · intro condition Memory llmCall memory answers
    obtain ⟨_, _, digest, _, _, fits⟩ := answers memory []
    have fit := condition ⟨digest, fits⟩
    exact returnsState_of_batchesFit large fit.1 fit.2 Memory llmCall memory
      answers

end Law

end ProjectMemory.Cag
