import ProjectMemory.Cag.Production
import ProjectMemory.Cag.ReduceTree

/-!
# When a reduce comes to an end

A round of merges makes the level shorter, unless every batch is a single
digest: then as many digests are left as before and the loop goes on until a
prompt is refused, which an LLM with short answers never lets happen.
-/

namespace ProjectMemory.Cag

open Foundation Ingestion

section Halting

variable {Memory Content : Type}

/-- `_hierarchical_reduce`, with its loop cut off after some rounds. -/
def hierarchicalReduceWithin (context : ReduceContext Memory Content)
    (rounds : Nat) (accumulator : Option Content)
    (summaries : List LoggedSummary) (batchSize : Nat)
    (chat : Chat Memory Content) :
    Option (Except ReduceError Content × Chat Memory Content) :=
  if summaries.isEmpty then
    match accumulator with
    | none =>
        some (.error (.valueError
          "No summaries and no accumulator for hierarchical reduce"), chat)
    | some content => some (.ok content, chat)
  else if batchSize = 0 then
    some (.error (.valueError "range() arg 3 must not be zero"), chat)
  else
    match askBatches context formatBatchDigestPrompt
        (batches batchSize summaries) chat with
    | (.error failure, after) => some (.error failure, after)
    | (.ok digests, after) =>
        mergeLevels context batchSize rounds (accumulator.toList ++ digests)
          after

theorem exists_rounds {context : ReduceContext Memory Content}
    {accumulator : Option Content} {summaries : List LoggedSummary}
    {size : Nat} {chat : Chat Memory Content}
    {result : Except ReduceError Content × Chat Memory Content}
    (reduced : hierarchicalReduce context accumulator summaries size chat =
      some result) :
    ∃ rounds, hierarchicalReduceWithin context rounds accumulator summaries
      size chat = some result := by
  unfold hierarchicalReduce at reduced
  unfold hierarchicalReduceWithin
  by_cases empty : summaries.isEmpty = true
  · rw [if_pos empty] at reduced
    exact ⟨0, by rw [if_pos empty]; exact reduced⟩
  · rw [if_neg empty] at reduced
    by_cases zero : size = 0
    · rw [if_pos zero] at reduced
      exact ⟨0, by rw [if_neg empty, if_pos zero]; exact reduced⟩
    · rw [if_neg zero] at reduced
      cases asked : askBatches context formatBatchDigestPrompt
          (batches size summaries) chat with
      | mk outcome after =>
          rw [asked] at reduced
          cases outcome with
          | error failure =>
              exact ⟨0, by rw [if_neg empty, if_neg zero]; exact reduced⟩
          | ok digests =>
              exact ⟨(accumulator.toList ++ digests).length,
                by rw [if_neg empty, if_neg zero]; exact reduced⟩

/-- What `_synthesize_prompt` raises for a prompt over the budget. -/
def ReduceSettings.IsRefusal (settings : ReduceSettings Content)
    (failure : ReduceError) : Prop :=
  ∃ prompt, ¬settings.Within prompt ∧
    failure = .llmError (overBudget settings.projectId
      (estimatedTokens prompt) settings.cagMaxPromptTokens)

/-- Whatever valid content an LLM answers with, the reduce ends after some
number of rounds: with a belief state, or with the refusal of a prompt. -/
def ReduceSettings.ComesToEnd (settings : ReduceSettings Content) (size : Nat)
    (accumulator : Option Content) (summaries : List LoggedSummary) : Prop :=
  ∀ (Memory : Type) (llmCall : Memory → List Message → String →
      Except String String × Memory) (memory : Memory),
    settings.Answers (fun _ => True) llmCall →
      ∃ rounds outcome chat,
        hierarchicalReduceWithin (settings.withLlm llmCall) rounds accumulator
          summaries size { memory := memory, calls := [] } =
            some (outcome, chat) ∧
        ∀ failure, outcome = .error failure → settings.IsRefusal failure

/-- In batches of one, a prompt that every run sends in its first round is over
the budget: that of a summary, of the accumulator, or of whatever the LLM
answers with. -/
def ReduceSettings.RefusesAlone (settings : ReduceSettings Content)
    (accumulator : Option Content) (summaries : List LoggedSummary) : Prop :=
  (∃ summary ∈ summaries, ¬settings.Within (batchDigestPrompt [summary])) ∨
    (∃ content ∈ accumulator, ¬settings.FitsAlone content) ∨
    ∀ text digest, settings.readAnswer text = .ok digest →
      ¬settings.FitsAlone digest

end Halting

/-! ## What is raised -/

section Refusals

variable {Memory Content : Type} {settings : ReduceSettings Content}
  {llmCall : Memory → List Message → String → Except String String × Memory}
  {property : Content → Prop}

theorem ask_refuses (answers : settings.Answers property llmCall)
    {chat after : Chat Memory Content} {prompt : String}
    {failure : ReduceError}
    (asked : chat.ask (settings.withLlm llmCall) prompt =
      (.error failure, after)) : settings.IsRefusal failure := by
  by_cases within : settings.Within prompt
  · obtain ⟨digest, middle, answered, _⟩ := ask_of_within answers chat within
    rw [answered] at asked
    cases asked
  · have exceeds : (settings.withLlm llmCall).cagMaxPromptTokens <
        estimatedTokens prompt := Nat.lt_of_not_le within
    have raised := ask_of_exceeds exceeds chat
    rw [asked] at raised
    exact ⟨prompt, within, Except.error.inj raised⟩

theorem askBatches_refuses (answers : settings.Answers property llmCall)
    {Input : Type} {format : List Input → Except String String}
    {inputs : List (List Input)}
    (formats : ∀ batch ∈ inputs, ∃ prompt, format batch = .ok prompt)
    {chat after : Chat Memory Content} {failure : ReduceError}
    (asked : askBatches (settings.withLlm llmCall) format inputs chat =
      (.error failure, after)) : settings.IsRefusal failure := by
  induction inputs generalizing chat after with
  | nil => cases asked
  | cons batch inputs inductionHypothesis =>
      rw [List.forall_mem_cons] at formats
      obtain ⟨prompt, isPrompt⟩ := formats.1
      rw [askBatches, isPrompt] at asked
      simp only at asked
      cases called : chat.ask (settings.withLlm llmCall) prompt with
      | mk outcome middle =>
          rw [called] at asked
          cases outcome with
          | error other =>
              cases asked
              exact ask_refuses answers called
          | ok digest =>
              cases askedRest :
                  askBatches (settings.withLlm llmCall) format inputs middle with
              | mk results final =>
                  simp only [askedRest] at asked
                  cases results with
                  | ok digests => cases asked
                  | error other =>
                      cases asked
                      exact inductionHypothesis formats.2 askedRest

theorem length_eq_of_askBatches {context : ReduceContext Memory Content}
    {Input : Type} {format : List Input → Except String String}
    {inputs : List (List Input)} {chat after : Chat Memory Content}
    {digests : List Content}
    (asked : askBatches context format inputs chat = (.ok digests, after)) :
    digests.length = inputs.length := by
  induction inputs generalizing chat after digests with
  | nil =>
      obtain rfl := Except.ok.inj (Prod.mk.inj asked).1
      rfl
  | cons batch inputs inductionHypothesis =>
      rw [askBatches] at asked
      split at asked
      case h_1 => cases asked
      case h_2 =>
        split at asked
        case h_1 => cases asked
        case h_2 =>
          split at asked
          case h_1 => cases asked
          case h_2 rest final askedRest =>
            obtain rfl := Except.ok.inj (Prod.mk.inj asked).1
            rw [List.length_cons, List.length_cons,
              inductionHypothesis askedRest]

theorem ne_nil_of_askBatches {context : ReduceContext Memory Content}
    {Input : Type} {format : List Input → Except String String} {size : Nat}
    (positive : 1 ≤ size) {inputs : List Input} (nonempty : inputs ≠ [])
    {chat after : Chat Memory Content} {digests : List Content}
    (asked : askBatches context format (batches size inputs) chat =
      (.ok digests, after)) : digests ≠ [] := by
  have length := length_eq_of_askBatches asked
  have some := rounds_pos positive (List.length_pos_iff.mpr nonempty)
  rw [length_batches] at length
  apply List.ne_nil_of_length_pos
  omega

theorem mergeLevels_refuses (answers : settings.Answers property llmCall)
    {size : Nat} (positive : 1 ≤ size) :
    ∀ {fuel : Nat} {level : List Content} {chat after : Chat Memory Content}
      {failure : ReduceError}, level ≠ [] →
      mergeLevels (settings.withLlm llmCall) size fuel level chat =
        some (.error failure, after) → settings.IsRefusal failure
  | _, [], _, _, _, nonempty, _ => absurd rfl nonempty
  | _, [digest], _, _, _, _, merged => by
      rw [mergeLevels] at merged
      cases merged
  | 0, _ :: _ :: _, _, _, _, _, merged => by
      rw [mergeLevels] at merged
      cases merged
  | fuel + 1, first :: second :: rest, chat, _, _, nonempty, merged => by
      have formats := formats_merges settings.schema positive
        (first :: second :: rest)
      rw [mergeLevels] at merged
      cases asked : askBatches (settings.withLlm llmCall)
          (formatDigestMergePrompt settings.schema)
          (batches size (first :: second :: rest)) chat with
      | mk results middle =>
          have asked' : askBatches (settings.withLlm llmCall)
              (formatDigestMergePrompt (settings.withLlm llmCall).schema)
              (batches size (first :: second :: rest)) chat =
                (results, middle) := asked
          rw [asked'] at merged
          cases results with
          | error other =>
              cases merged
              exact askBatches_refuses answers formats asked
          | ok next =>
              exact mergeLevels_refuses answers positive
                (ne_nil_of_askBatches positive nonempty asked) merged

theorem hierarchicalReduceWithin_refuses
    (answers : settings.Answers property llmCall) {size : Nat}
    (positive : 1 ≤ size) {accumulator : Option Content}
    {summaries : List LoggedSummary} (nonempty : summaries ≠ [])
    {rounds : Nat} {chat after : Chat Memory Content} {failure : ReduceError}
    (reduced : hierarchicalReduceWithin (settings.withLlm llmCall) rounds
      accumulator summaries size chat = some (.error failure, after)) :
    settings.IsRefusal failure := by
  unfold hierarchicalReduceWithin at reduced
  rw [isEmpty_eq_false nonempty, if_neg (by decide), if_neg (by omega)]
    at reduced
  cases asked : askBatches (settings.withLlm llmCall) formatBatchDigestPrompt
      (batches size summaries) chat with
  | mk results middle =>
      rw [asked] at reduced
      cases results with
      | error other =>
          cases reduced
          exact askBatches_refuses answers (formats_digests positive summaries)
            asked
      | ok digests =>
          have some := ne_nil_of_askBatches positive nonempty asked
          exact mergeLevels_refuses answers positive
            (List.append_ne_nil_of_right_ne_nil _ some) reduced

end Refusals

/-! ## Batches of one -/

section Alone

variable {Memory Content : Type} {settings : ReduceSettings Content}
  {llmCall : Memory → List Message → String → Except String String × Memory}

/-- Digests that fit alone are merged one by one, into as many digests. -/
theorem mergeLevels_one_eq_none
    (answers : settings.Answers settings.FitsAlone llmCall) :
    ∀ (fuel : Nat) {level : List Content} (chat : Chat Memory Content),
      2 ≤ level.length → (∀ digest ∈ level, settings.FitsAlone digest) →
      mergeLevels (settings.withLlm llmCall) 1 fuel level chat = none
  | 0, _ :: _ :: _, _, _, _ => by
      rw [mergeLevels]
  | fuel + 1, first :: second :: rest, chat, several, fit => by
      have within : ∀ batch ∈ batches 1 (first :: second :: rest), ∃ prompt,
          formatDigestMergePrompt settings.schema batch = .ok prompt ∧
            settings.Within prompt := by
        intro batch member
        rw [batches_one] at member
        obtain ⟨digest, isDigest, rfl⟩ := List.mem_map.mp member
        exact ⟨_, rfl, fit digest isDigest⟩
      obtain ⟨next, after, asked, length, allFit⟩ :=
        askBatches_of_within answers within chat
      have asked' : askBatches (settings.withLlm llmCall)
          (formatDigestMergePrompt (settings.withLlm llmCall).schema)
          (batches 1 (first :: second :: rest)) chat = (.ok next, after) :=
        asked
      rw [batches_one, List.length_map] at length
      rw [mergeLevels, asked']
      exact mergeLevels_one_eq_none answers fuel after (by omega) allFit

/-- A digest that does not fit alone ends the first round of merges. -/
theorem mergeLevels_one_isSome {level : List Content} {digest : Content}
    (member : digest ∈ level) (exceeds : ¬settings.FitsAlone digest)
    (chat : Chat Memory Content) :
    ∃ result, mergeLevels (settings.withLlm llmCall) 1 1 level chat =
      some result := by
  match level with
  | [] => cases member
  | [only] =>
      refine ⟨(.ok only, chat), ?_⟩
      rw [mergeLevels]
  | first :: second :: rest =>
      rw [mergeLevels]
      cases asked : askBatches (settings.withLlm llmCall)
          (formatDigestMergePrompt (settings.withLlm llmCall).schema)
          (batches 1 (first :: second :: rest)) chat with
      | mk results after =>
          cases results with
          | error failure => exact ⟨(.error failure, after), rfl⟩
          | ok next =>
              have isBatch : [digest] ∈ batches 1 (first :: second :: rest) := by
                rw [batches_one]
                exact List.mem_map_of_mem member
              exact absurd (within_of_askBatches asked _ isBatch _ rfl) exceeds

theorem comesToEnd_of_rounds {size : Nat} (positive : 1 ≤ size)
    {accumulator : Option Content} {summaries : List LoggedSummary}
    (nonempty : summaries ≠ [])
    (ends : ∀ (Memory : Type) (llmCall : Memory → List Message → String →
        Except String String × Memory) (chat : Chat Memory Content),
      settings.Answers (fun _ => True) llmCall → ∃ rounds result,
        hierarchicalReduceWithin (settings.withLlm llmCall) rounds accumulator
          summaries size chat = some result) :
    settings.ComesToEnd size accumulator summaries := by
  intro Memory llmCall memory answers
  obtain ⟨rounds, ⟨outcome, after⟩, reduced⟩ :=
    ends Memory llmCall { memory := memory, calls := [] } answers
  refine ⟨rounds, outcome, after, reduced, fun failure failed => ?_⟩
  rw [failed] at reduced
  exact hierarchicalReduceWithin_refuses answers positive nonempty reduced

/-- The first digests, or a call that raised before them. -/
theorem hierarchicalReduceWithin_of_digests {size : Nat} (positive : 1 ≤ size)
    {accumulator : Option Content} {summaries : List LoggedSummary}
    (nonempty : summaries ≠ []) {chat : Chat Memory Content} (rounds : Nat)
    (merged : ∀ digests after,
      askBatches (settings.withLlm llmCall) formatBatchDigestPrompt
        (batches size summaries) chat = (.ok digests, after) →
      ∃ result, mergeLevels (settings.withLlm llmCall) size rounds
        (accumulator.toList ++ digests) after = some result) :
    ∃ rounds result, hierarchicalReduceWithin (settings.withLlm llmCall) rounds
      accumulator summaries size chat = some result := by
  refine ⟨rounds, ?_⟩
  unfold hierarchicalReduceWithin
  rw [isEmpty_eq_false nonempty, if_neg (by decide), if_neg (by omega)]
  cases asked : askBatches (settings.withLlm llmCall) formatBatchDigestPrompt
      (batches size summaries) chat with
  | mk results after =>
      cases results with
      | error failure => exact ⟨(.error failure, after), rfl⟩
      | ok digests => exact merged digests after asked

theorem comesToEnd_of_large {size : Nat} (large : 2 ≤ size)
    (accumulator : Option Content) {summaries : List LoggedSummary}
    (nonempty : summaries ≠ []) :
    settings.ComesToEnd size accumulator summaries := by
  apply comesToEnd_of_rounds (by omega) nonempty
  intro Memory llmCall chat _
  obtain ⟨outcome, after, reduced, _⟩ := hierarchicalReduce_cases large
    (settings.withLlm llmCall) accumulator nonempty chat
  obtain ⟨rounds, within⟩ := exists_rounds reduced
  exact ⟨rounds, _, within⟩

/-- A single digest is what the reduce returns. -/
theorem comesToEnd_of_single {size : Nat} (positive : 1 ≤ size)
    {accumulator : Option Content} {summaries : List LoggedSummary}
    (nonempty : summaries ≠ [])
    (single : summaries.length + accumulator.toList.length = 1) :
    settings.ComesToEnd size accumulator summaries := by
  apply comesToEnd_of_rounds positive nonempty
  intro Memory llmCall chat _
  have some := List.length_pos_iff.mpr nonempty
  have short : summaries.length ≤ size := by omega
  apply hierarchicalReduceWithin_of_digests positive nonempty 0
  intro digests after asked
  have count := length_eq_of_askBatches asked
  rw [batches_of_length_le nonempty short, List.length_singleton] at count
  have one : (accumulator.toList ++ digests).length = 1 := by
    rw [List.length_append, count]
    omega
  obtain ⟨digest, isLevel⟩ := List.length_eq_one_iff.mp one
  rw [isLevel, mergeLevels]
  exact ⟨_, rfl⟩

/-- What is refused in the first round ends a reduce in batches of one. -/
theorem comesToEnd_of_refusesAlone {accumulator : Option Content}
    {summaries : List LoggedSummary} (nonempty : summaries ≠ [])
    (refuses : settings.RefusesAlone accumulator summaries) :
    settings.ComesToEnd 1 accumulator summaries := by
  apply comesToEnd_of_rounds (Nat.le_refl 1) nonempty
  intro Memory llmCall chat answers
  apply hierarchicalReduceWithin_of_digests (Nat.le_refl 1) nonempty 1
  intro digests after asked
  have within := within_of_askBatches asked
  rw [batches_one] at within
  have formats (summary : LoggedSummary) :
      formatBatchDigestPrompt [summary] = .ok (batchDigestPrompt [summary]) :=
    rfl
  rcases refuses with ⟨summary, member, exceeds⟩ |
    ⟨content, isAccumulator, exceeds⟩ | allExceed
  · have isBatch : [summary] ∈ summaries.map fun summary => [summary] :=
      List.mem_map_of_mem member
    exact absurd (within _ isBatch _ (formats summary)) exceeds
  · have isDigest : content ∈ accumulator.toList ++ digests :=
      List.mem_append_left digests (Option.mem_toList.mpr isAccumulator)
    exact mergeLevels_one_isSome isDigest exceeds after
  · have readable : settings.Answers (fun digest => ∃ text,
        settings.readAnswer text = .ok digest) llmCall := by
      intro memory messages
      obtain ⟨text, later, digest, answered, read, _⟩ :=
        answers memory messages
      exact ⟨text, later, digest, answered, read, text, read⟩
    have sent : ∀ batch ∈ batches 1 summaries, ∃ prompt,
        formatBatchDigestPrompt batch = .ok prompt ∧
          settings.Within prompt := by
      rw [batches_one]
      intro batch member
      obtain ⟨summary, _, rfl⟩ := List.mem_map.mp member
      exact ⟨_, formats summary, within _ member _ (formats summary)⟩
    obtain ⟨answers, middle, askedAgain, _, allRead⟩ :=
      askBatches_of_within readable sent chat
    have sameDigests : digests = answers :=
      Except.ok.inj (Prod.mk.inj (asked.symm.trans askedAgain)).1
    have some := ne_nil_of_askBatches (Nat.le_refl 1) nonempty asked
    obtain ⟨digest, isDigest⟩ := List.exists_mem_of_ne_nil digests some
    obtain ⟨text, read⟩ := allRead digest (sameDigests ▸ isDigest)
    exact mergeLevels_one_isSome (List.mem_append_right _ isDigest)
      (allExceed text digest read) after

/-- An LLM that repeats a digest that fits alone keeps a reduce in batches of
one going. -/
theorem hierarchicalReduceWithin_one_eq_none
    {accumulator : Option Content} {summaries : List LoggedSummary}
    (several : 2 ≤ summaries.length + accumulator.toList.length)
    (nonempty : summaries ≠ [])
    (within : ∀ summary ∈ summaries,
      settings.Within (batchDigestPrompt [summary]))
    (fit : ∀ content ∈ accumulator, settings.FitsAlone content)
    (answers : settings.Answers settings.FitsAlone llmCall) (rounds : Nat)
    (chat : Chat Memory Content) :
    hierarchicalReduceWithin (settings.withLlm llmCall) rounds accumulator
      summaries 1 chat = none := by
  have sent : ∀ batch ∈ batches 1 summaries, ∃ prompt,
      formatBatchDigestPrompt batch = .ok prompt ∧ settings.Within prompt := by
    rw [batches_one]
    intro batch member
    obtain ⟨summary, isSummary, rfl⟩ := List.mem_map.mp member
    exact ⟨_, rfl, within summary isSummary⟩
  obtain ⟨digests, after, asked, length, allFit⟩ :=
    askBatches_of_within answers sent chat
  rw [batches_one, List.length_map] at length
  unfold hierarchicalReduceWithin
  rw [isEmpty_eq_false nonempty, if_neg (by decide), if_neg (by decide),
    asked]
  apply mergeLevels_one_eq_none answers
  · rw [List.length_append, length]
    omega
  · intro digest member
    rcases List.mem_append.mp member with isAccumulator | isDigest
    · exact fit digest (Option.mem_toList.mp isAccumulator)
    · exact allFit digest isDigest

/-- A reduce always comes to an end exactly in batches of two or more, from a
single digest on, or where its first round is refused. -/
theorem comesToEnd_iff {size : Nat} (positive : 1 ≤ size)
    (accumulator : Option Content) {summaries : List LoggedSummary}
    (nonempty : summaries ≠ []) :
    settings.ComesToEnd size accumulator summaries ↔
      2 ≤ size ∨ summaries.length + accumulator.toList.length = 1 ∨
        settings.RefusesAlone accumulator summaries := by
  have some := List.length_pos_iff.mpr nonempty
  constructor
  · intro ends
    by_contra running
    rw [not_or, not_or] at running
    obtain ⟨small, notSingle, notRefused⟩ := running
    have one : size = 1 := by omega
    subst one
    simp only [ReduceSettings.RefusesAlone, not_or, not_exists, not_and,
      not_not, not_forall] at notRefused
    obtain ⟨within, fit, text, digest, read, fits⟩ := notRefused
    have answers : settings.Answers settings.FitsAlone (sayAlways text) :=
      fun _ _ => ⟨text, (), digest, rfl, read, fits⟩
    have valid : settings.Answers (fun _ => True) (sayAlways text) :=
      fun _ _ => ⟨text, (), digest, rfl, read, trivial⟩
    obtain ⟨rounds, outcome, after, reduced, _⟩ :=
      ends Unit (sayAlways text) () valid
    rw [hierarchicalReduceWithin_one_eq_none (by omega) nonempty within fit
      answers] at reduced
    cases reduced
  · rintro (large | single | refuses)
    · exact comesToEnd_of_large large accumulator nonempty
    · exact comesToEnd_of_single positive nonempty single
    · by_cases large : 2 ≤ size
      · exact comesToEnd_of_large large accumulator nonempty
      · have one : size = 1 := by omega
        subst one
        exact comesToEnd_of_refusesAlone nonempty refuses

end Alone

/-- Two summaries of a log. -/
def summaryPair : List LoggedSummary :=
  [crowdedSummary 0, crowdedSummary 1]

theorem comesToEnd_iff_summaryPair :
    productionSettings.ComesToEnd 40 none summaryPair ↔
      2 ≤ 40 ∨ summaryPair.length +
          (none : Option BeliefStateContent).toList.length = 1 ∨
        productionSettings.RefusesAlone none summaryPair :=
  comesToEnd_iff (by decide) none (List.cons_ne_nil _ _)

/-- Two summaries that are merged one by one for ever. -/
theorem summaryPair_neverMerged :
    (∃ text digest, productionSettings.readAnswer text = .ok digest ∧
      ¬∃ rounds result,
        hierarchicalReduceWithin
          (productionSettings.withLlm (sayAlways text)) rounds none summaryPair
          1 { memory := (), calls := [] } = some result) ∧
    ¬productionSettings.ComesToEnd 1 none summaryPair := by
  have fits : productionSettings.Answers productionSettings.FitsAlone
      (sayAlways smallAnswer) :=
    fun _ _ => ⟨smallAnswer, (), smallDigest, rfl, readAnswer_smallAnswer,
      fitsAlone_smallDigest⟩
  have valid : productionSettings.Answers (fun _ => True)
      (sayAlways smallAnswer) :=
    fun _ _ => ⟨smallAnswer, (), smallDigest, rfl, readAnswer_smallAnswer,
      trivial⟩
  have within : ∀ summary ∈ summaryPair,
      productionSettings.Within (batchDigestPrompt [summary]) := by
    rw [summaryPair, List.forall_mem_cons, List.forall_mem_singleton]
    exact ⟨within_crowdedSummary 0, within_crowdedSummary 1⟩
  have running (rounds : Nat) :
      hierarchicalReduceWithin
        (productionSettings.withLlm (sayAlways smallAnswer)) rounds none
        summaryPair 1 { memory := (), calls := [] } = none :=
    hierarchicalReduceWithin_one_eq_none (by decide) (List.cons_ne_nil _ _)
      within (fun _ absent => by cases absent) fits rounds _
  constructor
  · refine ⟨smallAnswer, smallDigest, readAnswer_smallAnswer, ?_⟩
    rintro ⟨rounds, result, reduced⟩
    rw [running rounds] at reduced
    cases reduced
  · intro ends
    obtain ⟨rounds, outcome, after, reduced, _⟩ :=
      ends Unit (sayAlways smallAnswer) () valid
    rw [running rounds] at reduced
    cases reduced

end ProjectMemory.Cag
