import ProjectMemory.Cag.Budget
import ProjectMemory.Cag.Provenance
import ProjectMemory.Cag.ReduceTree
import ProjectMemory.Cag.Storage
import ProjectMemory.Foundation.Markers

/-!
# The jobs of the belief states

`cag_update` and `cag_rebuild` call the writers with callbacks that ask the
LLM.  Whatever the LLM answers and whatever the jobs interleave with, a stored
state goes back, answer by answer, to the summaries its row counts: each of
them is in the prompt of one of these answers.  An answer to a prompt is one
that the LLM gives from some memory.
-/

namespace ProjectMemory.Cag

open Foundation Ingestion

section Jobs

variable {Memory Content : Type}

/-- What the prompts read of the log besides the columns of its rows: the file
name of a document and the JSON document of a summary. -/
structure LogTexts where
  filename : Uuid → Option String
  summary : Uuid → List (String × Json)

def LogTexts.logged (texts : LogTexts) (row : DocumentSummary) :
    LoggedSummary where
  id := row.id
  filename := texts.filename row.documentId
  createdAt := row.createdAt
  summary := texts.summary row.id

/-- What the jobs of all projects work with. -/
structure Synthesizer (Memory Content : Type) where
  schema : Schema Content
  llmCall : Memory → List Message → String → Except String String × Memory
  readAnswer : String → Except AnswerError Content
  /-- `project.config.get("context_model", ...)`. -/
  contextModel : Uuid → String
  cagMaxPromptTokens : Nat

def Synthesizer.settings (synthesizer : Synthesizer Memory Content)
    (projectId : Uuid) : ReduceSettings Content where
  schema := synthesizer.schema
  readAnswer := synthesizer.readAnswer
  projectId := projectId
  contextModel := synthesizer.contextModel projectId
  cagMaxPromptTokens := synthesizer.cagMaxPromptTokens

def Synthesizer.context (synthesizer : Synthesizer Memory Content)
    (projectId : Uuid) : ReduceContext Memory Content :=
  (synthesizer.settings projectId).withLlm synthesizer.llmCall

def formatUpdatePrompt (schema : Schema Content) (current : Option Content)
    (window : List LoggedSummary) : Except String String :=
  match current with
  | none => formatInitialPrompt window
  | some state => formatIncrementalPrompt (schema.dump state) window

/-- `synthesize_fn` of `cag_update`. -/
def synthesizeFn (context : ReduceContext Memory Content) (texts : LogTexts)
    (current : Option Content) (window : List DocumentSummary)
    (chat : Chat Memory Content) :
    Except ReduceError Content × Chat Memory Content :=
  match formatUpdatePrompt context.schema current
      (window.map texts.logged) with
  | .error message => (.error (.valueError message), chat)
  | .ok prompt => chat.ask context prompt

theorem hierarchicalReduce_isSome (context : ReduceContext Memory Content)
    (accumulator : Option Content) (summaries : List LoggedSummary)
    (chat : Chat Memory Content) :
    (hierarchicalReduce context accumulator summaries rebuildBatchSize.val
      chat).isSome = true := by
  cases summaries with
  | nil => cases accumulator <;> rfl
  | cons first rest =>
      obtain ⟨outcome, target, reduced, _⟩ := hierarchicalReduce_cases
        (by decide : 2 ≤ rebuildBatchSize.val) context accumulator
        (List.cons_ne_nil first rest) chat
      rw [reduced]
      rfl

/-- `rebuild_fn` of `cag_rebuild`. -/
def rebuildFn (context : ReduceContext Memory Content) (texts : LogTexts)
    (accumulator : Option Content) (summaries : List DocumentSummary)
    (chat : Chat Memory Content) :
    Except ReduceError Content × Chat Memory Content :=
  (hierarchicalReduce context accumulator (summaries.map texts.logged)
    rebuildBatchSize.val chat).get
      (hierarchicalReduce_isSome context accumulator _ chat)

def ReduceError.message : ReduceError → String
  | .valueError message | .indexError message | .llmError message
  | .other message => message

/-- What the callback of a call answers when it is handed a plan;
`insert_version` has none. -/
def Request.callback (context : ReduceContext Memory Content)
    (texts : LogTexts) (plan : Plan Content) (memory : Memory) :
    Request → Option (Except String Content)
  | .synthesizeAndInsert _ =>
      some ((synthesizeFn context texts
        (plan.base.map BeliefStateRecord.state) plan.batch
        { memory := memory, calls := [] }).1.mapError ReduceError.message)
  | .rebuild _ =>
      some ((rebuildFn context texts
        (plan.base.map BeliefStateRecord.state) plan.batch
        { memory := memory, calls := [] }).1.mapError ReduceError.message)
  | .insertVersion _ => none

/-- A step of the jobs: they call the service with their batch size, and their
callbacks ask the LLM, which may remember anything. -/
def Label.OfJobs (synthesizer : Synthesizer Memory Content)
    (texts : LogTexts) (state : State Content) : Label Content → Prop
  | .commitSummary _ => True
  | .invoke _ _ call =>
      call = .synthesizeAndInsert rebuildBatchSize.val ∨
        ∃ mode, call = .rebuild mode rebuildBatchSize.val
  | .advance caller choice =>
      ∀ projectId request latest plan,
        state.calls caller =
          some (projectId, .running request (.callback latest plan)) →
        ∃ memory, request.callback (synthesizer.context projectId) texts plan
          memory = some choice.answer

def jobs (hashtext : String → BitVec 32)
    (synthesizer : Synthesizer Memory Content) (texts : LogTexts) :
    TransitionSystem (State Content) (Label Content) where
  initial state := state = State.empty
  step source label target :=
    label.OfJobs synthesizer texts source ∧
      step hashtext synthesizer.schema source label = some target

end Jobs

/-! ## What the LLM says -/

section Said

variable {Memory Content : Type} {context : ReduceContext Memory Content}

/-- The prompt is within the budget, and from some memory the LLM answers it,
perhaps with complaints after it, with a text that is read as the content. -/
structure Said (context : ReduceContext Memory Content) (prompt : String)
    (content : Content) : Prop where
  within : estimatedTokens prompt ≤ context.cagMaxPromptTokens
  answered : ∃ memory errors text after,
    context.llmCall memory (synthesisMessages (attemptPrompt prompt errors))
        context.contextModel = (.ok text, after) ∧
      context.readAnswer text = .ok content

theorem answered_of_synthesizeAttempts {prompt : String} {attempts : Nat}
    {errors : List String} {memory : Memory} {content : Content}
    (answered : (synthesizeAttempts context prompt attempts errors memory).1 =
      .ok content) :
    ∃ memory errors text after,
      context.llmCall memory (synthesisMessages (attemptPrompt prompt errors))
          context.contextModel = (.ok text, after) ∧
        context.readAnswer text = .ok content := by
  induction attempts generalizing errors memory with
  | zero => cases answered
  | succ attempts inductionHypothesis =>
      rw [synthesizeAttempts] at answered
      cases asked : context.llmCall memory
          (synthesisMessages (attemptPrompt prompt errors))
          context.contextModel with
      | mk result after =>
          rw [asked] at answered
          cases result with
          | error message => cases answered
          | ok text =>
              cases read : context.readAnswer text with
              | ok other =>
                  simp only [read] at answered
                  cases answered
                  exact ⟨memory, errors, text, after, asked, read⟩
              | error failure =>
                  simp only [read] at answered
                  cases failure with
                  | other message => cases answered
                  | decode message => exact inductionHypothesis answered
                  | value message => exact inductionHypothesis answered

theorem said_of_ask {chat : Chat Memory Content} {prompt : String}
    {content : Content}
    (answered : (chat.ask context prompt).1 = .ok content) :
    Said context prompt content := by
  rw [Chat.ask, synthesizePrompt] at answered
  by_cases exceeds : context.cagMaxPromptTokens < estimatedTokens prompt
  · rw [if_pos exceeds] at answered
    cases answered
  · rw [if_neg exceeds] at answered
    exact ⟨Nat.not_lt.mp exceeds, answered_of_synthesizeAttempts answered⟩

/-- From some memory the LLM says a content when it is shown some inputs. -/
def Shown {Input : Type} (context : ReduceContext Memory Content)
    (format : List Input → Except String String) (inputs : List Input)
    (content : Content) : Prop :=
  ∃ prompt, format inputs = .ok prompt ∧ Said context prompt content

theorem shown_of_askBatches {Input : Type}
    {format : List Input → Except String String} {inputs : List (List Input)}
    {chat after : Chat Memory Content} {answers : List Content}
    (asked : askBatches context format inputs chat = (.ok answers, after)) :
    List.Forall₂ (Shown context format) inputs answers := by
  induction inputs generalizing chat answers with
  | nil =>
      cases asked
      exact List.Forall₂.nil
  | cons batch inputs inductionHypothesis =>
      rw [askBatches] at asked
      cases formatted : format batch with
      | error message =>
          rw [formatted] at asked
          cases asked
      | ok prompt =>
          rw [formatted] at asked
          simp only at asked
          cases called : chat.ask context prompt with
          | mk outcome middle =>
              rw [called] at asked
              cases outcome with
              | error failure => cases asked
              | ok answer =>
                  cases askedRest : askBatches context format inputs middle with
                  | mk results final =>
                      simp only [askedRest] at asked
                      cases results with
                      | error failure => cases asked
                      | ok rest =>
                          cases asked
                          have said : Said context prompt answer :=
                            said_of_ask (congrArg Prod.fst called)
                          exact List.Forall₂.cons ⟨prompt, formatted, said⟩
                            (inductionHypothesis askedRest)

end Said

namespace CallTree

variable {Memory Content : Type}

mutual

/-- When it is shown what is below a node, the LLM gives its answer from some
memory, and so at every node below. -/
def Shown (context : ReduceContext Memory Content) :
    CallTree Content → Prop
  | .accumulator _ => True
  | .digest summaries answer =>
      Cag.Shown context formatBatchDigestPrompt summaries answer
  | .merge children answer =>
      AllShown context children ∧
        Cag.Shown context (formatDigestMergePrompt context.schema)
          (children.map CallTree.answer) answer

def AllShown (context : ReduceContext Memory Content) :
    List (CallTree Content) → Prop
  | [] => True
  | tree :: trees => Shown context tree ∧ AllShown context trees

end

variable {context : ReduceContext Memory Content}

theorem allShown_append {left right : List (CallTree Content)} :
    AllShown context (left ++ right) ↔
      AllShown context left ∧ AllShown context right := by
  induction left with
  | nil => exact ⟨fun shown => ⟨trivial, shown⟩, fun shown => shown.2⟩
  | cons tree left inductionHypothesis =>
      rw [List.cons_append, AllShown, AllShown, inductionHypothesis,
        and_assoc]

/-- The answers of a level of digests are nodes over its summaries. -/
theorem exists_digestNodes {pieces : List (List LoggedSummary)}
    {answers : List Content}
    (shown : List.Forall₂ (Cag.Shown context formatBatchDigestPrompt) pieces
      answers) :
    ∃ nodes : List (CallTree Content), nodes.map answer = answers ∧
      leavesOf nodes = pieces.flatten.map Sum.inr ∧
      AllShown context nodes := by
  induction shown with
  | nil => exact ⟨[], rfl, rfl, trivial⟩
  | @cons piece content pieces answers here _ inductionHypothesis =>
      obtain ⟨nodes, areAnswers, areLeaves, allShown⟩ := inductionHypothesis
      refine ⟨.digest piece content :: nodes, ?_, ?_, here, allShown⟩
      · rw [List.map_cons, areAnswers, answer]
      · rw [leavesOf, leaves, areLeaves, List.flatten_cons, List.map_append]

/-- The answers of a level of merges are nodes over the level below. -/
theorem exists_mergeNodes {pieces : List (List (CallTree Content))}
    {answers : List Content}
    (shown : List.Forall₂
      (Cag.Shown context (formatDigestMergePrompt context.schema))
      (pieces.map (List.map answer)) answers)
    (below : AllShown context pieces.flatten) :
    ∃ nodes : List (CallTree Content), nodes.map answer = answers ∧
      leavesOf nodes = leavesOf pieces.flatten ∧
      AllShown context nodes := by
  induction pieces generalizing answers with
  | nil =>
      cases shown
      exact ⟨[], rfl, rfl, trivial⟩
  | cons piece pieces inductionHypothesis =>
      cases shown with
      | @cons _ content _ rest here later =>
          rw [List.flatten_cons, allShown_append] at below
          obtain ⟨nodes, areAnswers, areLeaves, allShown⟩ :=
            inductionHypothesis later below.2
          refine ⟨.merge piece content :: nodes, ?_, ?_, ⟨below.1, here⟩,
            allShown⟩
          · rw [List.map_cons, areAnswers, answer]
          · rw [leavesOf, leaves, areLeaves, List.flatten_cons,
              leavesOf_append]

/-- The levels merge to a node over the first of them. -/
theorem exists_root_of_mergeLevels {size : Nat} (positive : 1 ≤ size)
    {fuel : Nat} {level : List (CallTree Content)}
    {chat after : Chat Memory Content} {result : Content}
    (merged : mergeLevels context size fuel (level.map answer) chat =
      some (.ok result, after))
    (below : AllShown context level) :
    ∃ root : CallTree Content, root.answer = result ∧
      root.leaves = leavesOf level ∧ root.Shown context := by
  induction fuel generalizing level chat with
  | zero =>
      match level with
      | [] => cases merged
      | [tree] =>
          cases merged
          exact ⟨tree, rfl, (List.append_nil _).symm, below.1⟩
      | _ :: _ :: _ => cases merged
  | succ fuel inductionHypothesis =>
      match level with
      | [] => cases merged
      | [tree] =>
          cases merged
          exact ⟨tree, rfl, (List.append_nil _).symm, below.1⟩
      | first :: second :: rest =>
          rw [List.map_cons, List.map_cons, mergeLevels] at merged
          cases asked : askBatches context
              (formatDigestMergePrompt context.schema)
              (batches size (first.answer :: second.answer ::
                rest.map answer)) chat with
          | mk outcome middle =>
              rw [asked] at merged
              cases outcome with
              | error failure => cases merged
              | ok next =>
                  have shown := shown_of_askBatches asked
                  rw [← List.map_cons, ← List.map_cons, batches_map] at shown
                  have flat := flatten_batches positive
                    (first :: second :: rest)
                  obtain ⟨nodes, rfl, areLeaves, allShown⟩ :=
                    exists_mergeNodes shown (flat.symm ▸ below)
                  rw [flat] at areLeaves
                  obtain ⟨root, isResult, rootLeaves, rootShown⟩ :=
                    inductionHypothesis merged allShown
                  exact ⟨root, isResult, rootLeaves.trans areLeaves,
                    rootShown⟩

/-- A reduce that returns has shown the LLM everything it was given. -/
theorem exists_root_of_reduce {accumulator : Option Content}
    {summaries : List LoggedSummary} {size : Nat}
    {chat after : Chat Memory Content} {result : Content}
    (reduced : hierarchicalReduce context accumulator summaries size chat =
      some (.ok result, after)) :
    ∃ root : CallTree Content, root.answer = result ∧
      root.leaves = accumulator.toList.map Sum.inl ++ summaries.map Sum.inr ∧
      root.Shown context := by
  unfold hierarchicalReduce at reduced
  split at reduced
  · rename_i empty
    rw [List.isEmpty_iff.mp empty]
    cases accumulator with
    | none => cases reduced
    | some content =>
        cases reduced
        exact ⟨.accumulator result, rfl, rfl, trivial⟩
  · split at reduced
    · cases reduced
    · rename_i positive
      have large : 1 ≤ size := Nat.one_le_iff_ne_zero.mpr positive
      cases asked : askBatches context formatBatchDigestPrompt
          (batches size summaries) chat with
      | mk outcome middle =>
          rw [asked] at reduced
          cases outcome with
          | error failure => cases reduced
          | ok digests =>
              obtain ⟨nodes, rfl, areLeaves, allShown⟩ :=
                exists_digestNodes (shown_of_askBatches asked)
              rw [flatten_batches large] at areLeaves
              have level : accumulator.toList ++ nodes.map answer =
                  (accumulator.toList.map CallTree.accumulator ++
                    nodes).map answer := by
                rw [List.map_append, List.map_map]
                exact congrArg (· ++ _) (List.map_id _).symm
              simp only [level] at reduced
              have below : AllShown context
                  (accumulator.toList.map CallTree.accumulator) := by
                cases accumulator with
                | none => trivial
                | some content => exact ⟨trivial, trivial⟩
              obtain ⟨root, isResult, rootLeaves, rootShown⟩ :=
                exists_root_of_mergeLevels large reduced
                  (allShown_append.mpr ⟨below, allShown⟩)
              refine ⟨root, isResult, ?_, rootShown⟩
              rw [rootLeaves, leavesOf_append, leavesOf_accumulator,
                areLeaves]

end CallTree

/-! ## Where a state comes from -/

section Origins

variable {Memory Content : Type}

/-- A job makes a content of a state and a batch: the LLM says it to both in
one prompt, or to the prompts of a tree. -/
inductive Synthesizes (context : ReduceContext Memory Content)
    (texts : LogTexts) (base : Option Content)
    (batch : List DocumentSummary) (content : Content) : Prop
  | update :
      Shown context (formatUpdatePrompt context.schema base)
        (batch.map texts.logged) content →
      Synthesizes context texts base batch content
  | rebuild (root : CallTree Content) :
      root.answer = content →
      root.leaves = base.toList.map Sum.inl ++
        (batch.map texts.logged).map Sum.inr →
      root.Shown context →
      Synthesizes context texts base batch content

/-- A content goes back to some summaries: a job has made it of the first of
them, or of the rest and what goes back to the ones before. -/
inductive Synthesized (context : ReduceContext Memory Content)
    (texts : LogTexts) : List DocumentSummary → Content → Prop
  | first {batch : List DocumentSummary} {content : Content} :
      Synthesizes context texts none batch content →
      Synthesized context texts batch content
  | next {summaries batch : List DocumentSummary} {base content : Content} :
      Synthesized context texts summaries base →
      Synthesizes context texts (some base) batch content →
      Synthesized context texts (summaries ++ batch) content

variable {context : ReduceContext Memory Content} {texts : LogTexts}

theorem mapError_eq_ok {result : Except ReduceError Content}
    {content : Content}
    (mapped : result.mapError ReduceError.message = .ok content) :
    result = .ok content := by
  cases result with
  | error failure => cases mapped
  | ok value =>
      cases mapped
      rfl

theorem synthesizes_of_synthesizeFn {base : Option Content}
    {batch : List DocumentSummary} {chat : Chat Memory Content}
    {content : Content}
    (answered : (synthesizeFn context texts base batch chat).1 =
      .ok content) :
    Synthesizes context texts base batch content := by
  rw [synthesizeFn] at answered
  cases formatted : formatUpdatePrompt context.schema base
      (batch.map texts.logged) with
  | error message =>
      rw [formatted] at answered
      cases answered
  | ok prompt =>
      rw [formatted] at answered
      exact Synthesizes.update ⟨prompt, formatted, said_of_ask answered⟩

theorem synthesizes_of_rebuildFn {base : Option Content}
    {batch : List DocumentSummary} {chat : Chat Memory Content}
    {content : Content}
    (answered : (rebuildFn context texts base batch chat).1 = .ok content) :
    Synthesizes context texts base batch content := by
  have reduced : hierarchicalReduce context base (batch.map texts.logged)
      rebuildBatchSize.val chat =
        some (.ok content, (rebuildFn context texts base batch chat).2) := by
    rw [← answered]
    exact (Option.some_get _).symm
  obtain ⟨root, isAnswer, leaves, shown⟩ :=
    CallTree.exists_root_of_reduce reduced
  exact Synthesizes.rebuild root isAnswer leaves shown

theorem synthesizes_of_callback {request : Request} {plan : Plan Content}
    {memory : Memory} {content : Content}
    (answered : request.callback context texts plan memory =
      some (.ok content)) :
    Synthesizes context texts (plan.base.map BeliefStateRecord.state)
      plan.batch content := by
  cases request with
  | synthesizeAndInsert size =>
      exact synthesizes_of_synthesizeFn
        (mapError_eq_ok (Option.some.inj answered))
  | rebuild mode =>
      exact synthesizes_of_rebuildFn
        (mapError_eq_ok (Option.some.inj answered))
  | insertVersion draft => cases answered

variable {synthesizer : Synthesizer Memory Content} {projectId : Uuid}

theorem callback_of_answered {size : BatchSize} {plan : Plan Content}
    {prompt text : String} {memory after : Memory} {content : Content}
    (formatted : formatUpdatePrompt synthesizer.schema
      (plan.base.map BeliefStateRecord.state)
      (plan.batch.map texts.logged) = .ok prompt)
    (within : estimatedTokens prompt ≤ synthesizer.cagMaxPromptTokens)
    (answered : synthesizer.llmCall memory (synthesisMessages prompt)
      (synthesizer.contextModel projectId) = (.ok text, after))
    (isContent : synthesizer.readAnswer text = .ok content) :
    (Request.synthesizeAndInsert size).callback
      (synthesizer.context projectId) texts plan memory =
        some (.ok content) := by
  have isPrompt : formatUpdatePrompt (synthesizer.context projectId).schema
      (plan.base.map BeliefStateRecord.state)
      (plan.batch.map texts.logged) = .ok prompt := formatted
  have asked := @ask_of_answered _ _ (synthesizer.context projectId)
    { memory := memory, calls := [] } prompt text after content within answered
    isContent
  rw [Request.callback, synthesizeFn, isPrompt]
  simp only [asked]
  rfl

/-- One over the budget raises, whatever the LLM would say. -/
theorem callback_of_exceeds {size : BatchSize} {plan : Plan Content}
    {prompt : String}
    (formatted : formatUpdatePrompt synthesizer.schema
      (plan.base.map BeliefStateRecord.state)
      (plan.batch.map texts.logged) = .ok prompt)
    (exceeds : synthesizer.cagMaxPromptTokens < estimatedTokens prompt)
    {memory : Memory} {answer : Except String Content}
    (answered : (Request.synthesizeAndInsert size).callback
      (synthesizer.context projectId) texts plan memory = some answer) :
    ∃ message, answer = .error message := by
  have isPrompt : formatUpdatePrompt (synthesizer.context projectId).schema
      (plan.base.map BeliefStateRecord.state)
      (plan.batch.map texts.logged) = .ok prompt := formatted
  have raised := @ask_of_exceeds _ _ (synthesizer.context projectId) prompt
    exceeds { memory := memory, calls := [] }
  rw [Request.callback, synthesizeFn, isPrompt, Option.some.injEq] at answered
  simp only [raised] at answered
  exact ⟨_, answered.symm⟩

end Origins

/-! ## What a prompt contains -/

section Contained

variable {Memory Content : Type} {context : ReduceContext Memory Content}
  {texts : LogTexts}

/-- The text of the summary is part of a prompt to which the LLM has an
answer. -/
def Read (context : ReduceContext Memory Content) (summary : LoggedSummary) :
    Prop :=
  ∃ prompt content, Said context prompt content ∧
    (formatSummary summary).toList <:+: prompt.toList

theorem infix_windowText {summary : LoggedSummary}
    {window : List LoggedSummary} (member : summary ∈ window) :
    (formatSummary summary).toList <:+: (windowText window).toList := by
  rw [windowText, String.toList_intercalate]
  exact isInfix_intercalate_of_mem
    (List.mem_map_of_mem (List.mem_map_of_mem member))

theorem infix_between (before : String) {part text : String}
    (after : String) (contained : part.toList <:+: text.toList) :
    part.toList <:+: (before ++ text ++ after).toList := by
  rw [String.toList_append, String.toList_append]
  exact contained.trans (List.infix_append _ _ _)

theorem read_of_shownUpdate {base : Option Content}
    {window : List LoggedSummary} {content : Content}
    (shown : Shown context (formatUpdatePrompt context.schema base) window
      content) :
    ∀ summary ∈ window, Read context summary := by
  obtain ⟨prompt, formatted, said⟩ := shown
  intro summary member
  refine ⟨prompt, content, said, ?_⟩
  have contained := infix_windowText member
  cases base with
  | none =>
      rw [formatUpdatePrompt, formatInitialPrompt] at formatted
      split at formatted <;> cases formatted
      exact infix_between _ _ contained
  | some state =>
      simp only [formatUpdatePrompt, formatIncrementalPrompt] at formatted
      split at formatted <;> cases formatted
      exact infix_between _ _ contained

theorem read_of_shownDigest {summaries : List LoggedSummary}
    {content : Content}
    (shown : Shown context formatBatchDigestPrompt summaries content) :
    ∀ summary ∈ summaries, Read context summary := by
  obtain ⟨prompt, formatted, said⟩ := shown
  intro summary member
  refine ⟨prompt, content, said, ?_⟩
  rw [formatBatchDigestPrompt] at formatted
  split at formatted <;> cases formatted
  exact infix_between _ _ (infix_windowText member)

namespace CallTree

mutual

theorem Shown.read : ∀ (tree : CallTree Content), tree.Shown context →
    ∀ summary, Sum.inr summary ∈ tree.leaves → Read context summary
  | .accumulator _, _, _, leaf => by
      rw [leaves, List.mem_singleton] at leaf
      cases leaf
  | .digest summaries _, shown, summary, leaf => by
      rw [leaves, List.mem_map] at leaf
      obtain ⟨other, member, same⟩ := leaf
      rw [← Sum.inr.inj same]
      exact read_of_shownDigest shown other member
  | .merge children _, shown, summary, leaf => by
      rw [leaves] at leaf
      exact AllShown.read children shown.1 summary leaf

theorem AllShown.read : ∀ (trees : List (CallTree Content)),
    AllShown context trees →
    ∀ summary, Sum.inr summary ∈ leavesOf trees → Read context summary
  | [], _, _, leaf => by cases leaf
  | tree :: trees, shown, summary, leaf => by
      rw [leavesOf, List.mem_append] at leaf
      rcases leaf with here | later
      · exact Shown.read tree shown.1 summary here
      · exact AllShown.read trees shown.2 summary later

end

end CallTree

theorem Synthesizes.read {base : Option Content}
    {batch : List DocumentSummary} {content : Content}
    (synthesizes : Synthesizes context texts base batch content) :
    ∀ row ∈ batch, Read context (texts.logged row) := by
  intro row member
  have isLogged := List.mem_map_of_mem (f := texts.logged) member
  cases synthesizes with
  | update shown => exact read_of_shownUpdate shown _ isLogged
  | rebuild root isAnswer areLeaves shown =>
      refine shown.read root _ ?_
      rw [areLeaves]
      exact List.mem_append_right _ (List.mem_map_of_mem isLogged)

/-- Each of the summaries a content goes back to is in a prompt that the LLM
answers. -/
theorem Synthesized.read {summaries : List DocumentSummary}
    {content : Content}
    (synthesized : Synthesized context texts summaries content) :
    ∀ row ∈ summaries, Read context (texts.logged row) := by
  induction synthesized with
  | first synthesizes => exact synthesizes.read
  | next _ synthesizes inductionHypothesis =>
      intro row member
      rcases List.mem_append.mp member with before | own
      · exact inductionHypothesis row before
      · exact synthesizes.read row own

end Contained

/-! ## What is known of a job -/

section Founded

variable {Memory Content : Type}

/-- The record was read back from a row of the project. -/
def BaseRead (schema : Schema Content) (beliefs : List BeliefState)
    (projectId : Uuid) (base : Option (BeliefStateRecord Content)) : Prop :=
  ∀ record, base = some record →
    ∃ row ∈ beliefsOf beliefs projectId, toRecord schema row = .ok record

/-- What is stored for a call is what a job has made of its plan. -/
def Made (synthesizer : Synthesizer Memory Content) (texts : LogTexts)
    (beliefs : List BeliefState) (projectId : Uuid)
    (pending : Pending Content) (stored : Json) : Prop :=
  ∃ plan content, pending.plan = some plan ∧
    BaseRead synthesizer.schema beliefs projectId plan.base ∧
    stored = synthesizer.schema.dump content ∧
    Synthesizes (synthesizer.context projectId) texts
      (plan.base.map BeliefStateRecord.state) plan.batch content

def Phase.Founded (synthesizer : Synthesizer Memory Content)
    (texts : LogTexts) (beliefs : List BeliefState) (projectId : Uuid) :
    Phase Content → Prop
  | .invoked (.insertVersion _ _ _ _) => False
  | .running (.insertVersion _) _ => False
  | .running _ (.getWindow _ base) =>
      BaseRead synthesizer.schema beliefs projectId base
  | .running _ (.callback _ plan) =>
      BaseRead synthesizer.schema beliefs projectId plan.base
  | .running _ (.maxVersion pending) | .running _ (.insert pending _) =>
      Made synthesizer texts beliefs projectId pending pending.draft.state
  | .running _ (.commit pending row) =>
      Made synthesizer texts beliefs projectId pending row.state
  | _ => True

variable {synthesizer : Synthesizer Memory Content} {texts : LogTexts}
  {beliefs grown : List BeliefState} {projectId : Uuid}

theorem BaseRead.mono {base : Option (BeliefStateRecord Content)}
    (contained : beliefs ⊆ grown)
    (read : BaseRead synthesizer.schema beliefs projectId base) :
    BaseRead synthesizer.schema grown projectId base := by
  intro record isRecord
  obtain ⟨row, member, converted⟩ := read record isRecord
  obtain ⟨isRow, ofProject⟩ := mem_beliefsOf.mp member
  exact ⟨row, mem_beliefsOf.mpr ⟨contained isRow, ofProject⟩, converted⟩

theorem Made.mono {pending : Pending Content} {stored : Json}
    (contained : beliefs ⊆ grown)
    (made : Made synthesizer texts beliefs projectId pending stored) :
    Made synthesizer texts grown projectId pending stored := by
  obtain ⟨plan, content, isPlan, read, rest⟩ := made
  exact ⟨plan, content, isPlan, read.mono contained, rest⟩

theorem Phase.Founded.mono {phase : Phase Content}
    (contained : beliefs ⊆ grown)
    (founded : phase.Founded synthesizer texts beliefs projectId) :
    phase.Founded synthesizer texts grown projectId := by
  unfold Phase.Founded at founded ⊢
  split at founded
  · exact founded
  · exact founded
  · exact BaseRead.mono contained founded
  · exact BaseRead.mono contained founded
  · exact Made.mono contained founded
  · exact Made.mono contained founded
  · exact Made.mono contained founded
  · trivial

theorem baseRead_of_readBack {found : Option BeliefState}
    {read : Option (BeliefStateRecord Content)}
    (isStored : ∀ row, found = some row →
      row ∈ beliefs ∧ row.projectId = projectId)
    (readIs : readBack synthesizer.schema found = .ok read) :
    BaseRead synthesizer.schema beliefs projectId read := by
  intro record isRecord
  rcases readBack_cases readIs with
    ⟨_, nothing⟩ | ⟨row, content, isFound, isContent, converted⟩
  · cases nothing.symm.trans isRecord
  · cases isContent.symm.trans isRecord
    exact ⟨row, mem_beliefsOf.mpr (isStored row isFound), converted⟩

theorem baseRead_none :
    BaseRead synthesizer.schema beliefs projectId none := by
  intro record isRecord
  cases isRecord

theorem plan_base {request : Request}
    {order : OrderBy DocumentSummary.createdAt}
    {summaries : List DocumentSummary}
    {base : Option (BeliefStateRecord Content)} {plan : Plan Content}
    (planned : request.plan order summaries projectId base = some plan) :
    plan.base = base := by
  cases request with
  | synthesizeAndInsert size => exact (incrementalPlan_eq_some planned).1
  | rebuild mode => exact (rebuildPlan_eq_some planned).1
  | insertVersion draft => cases planned

/-- A statement passes on what is known of its job, where the callback asks the
LLM. -/
theorem founded_statement {tables : Tables} {choice : Choice Content}
    {request : Request} {pc : Pc Content}
    (asks : ∀ latest plan, pc = .callback latest plan →
      ∃ memory, request.callback (synthesizer.context projectId) texts plan
        memory = some choice.answer)
    (founded : (Phase.running request pc).Founded synthesizer texts
      tables.beliefs projectId) :
    (request.statement synthesizer.schema choice tables projectId pc).Founded
      synthesizer texts tables.beliefs projectId := by
  cases request with
  | insertVersion draft => cases founded
  | synthesizeAndInsert size | rebuild mode =>
    cases pc with
    | lock => trivial
    | getLatest =>
        rw [Request.statement]
        cases read : getLatest synthesizer.schema tables projectId with
        | error failure => trivial
        | ok latest =>
            have isRead : BaseRead synthesizer.schema tables.beliefs projectId
                latest :=
              baseRead_of_readBack (fun _ found => latestRow_mem found) read
            first
            | exact isRead
            | cases mode with
              | compaction => trivial
              | genesis => exact baseRead_none
    | getLatestFull latest =>
        rw [Request.statement]
        cases read : getLatestFull synthesizer.schema tables projectId with
        | error failure => trivial
        | ok full =>
            exact baseRead_of_readBack
              (fun _ found => latestFullRow_mem found) read
    | getWindow latest base =>
        rw [Request.statement]
        split
        · trivial
        · rename_i plan planned
          have isBase := plan_base planned
          rw [← isBase] at founded
          exact founded
    | callback latest plan =>
        obtain ⟨memory, answered⟩ := asks latest plan rfl
        rw [Request.statement]
        cases isAnswer : choice.answer with
        | error message => trivial
        | ok content =>
            rw [isAnswer] at answered
            exact ⟨plan, content, rfl, founded, rfl,
              synthesizes_of_callback answered⟩
    | maxVersion pending => exact founded
    | insert pending version =>
        rw [Request.statement]
        split
        · trivial
        · exact founded
    | commit pending row => trivial
    | refresh pending row =>
        rw [Request.statement]
        cases toRecord synthesizer.schema row <;> trivial

theorem founded_next {tables : Tables} {choice : Choice Content}
    {phase : Phase Content}
    (asks : ∀ request latest plan,
      phase = .running request (.callback latest plan) →
      ∃ memory, request.callback (synthesizer.context projectId) texts plan
        memory = some choice.answer)
    (founded : phase.Founded synthesizer texts tables.beliefs projectId) :
    (phase.next synthesizer.schema choice tables projectId).Founded
      synthesizer texts tables.beliefs projectId := by
  cases phase with
  | returned reply => trivial
  | raised error => trivial
  | invoked call =>
      cases call with
      | insertVersion content rebuildType createdAt count => cases founded
      | synthesizeAndInsert size | rebuild mode size =>
        rw [Phase.next, Call.check]
        split <;> rename_i checked <;> split at checked <;> cases checked <;>
          trivial
  | running request pc =>
      rw [Phase.next]
      cases choice.fault.bind pc.fault with
      | some failure => trivial
      | none =>
          refine founded_statement (fun latest plan isCallback => ?_) founded
          exact asks request latest plan (by rw [isCallback])

end Founded

/-! ## Every reachable state of the jobs -/

section Reachability

variable {Memory Content : Type} {hashtext : String → BitVec 32}
  {synthesizer : Synthesizer Memory Content} {texts : LogTexts}
  {state target : State Content} {caller : Nat} {projectId : Uuid}
  {phase : Phase Content} {choice : Choice Content}

theorem reachable_synthesizers_of_jobs
    (reachable : Reachable (jobs hashtext synthesizer texts) state) :
    Reachable (synthesizers hashtext synthesizer.schema) state := by
  induction reachable with
  | initial isInitial => exact Reachable.initial isInitial
  | @step source target label _ taken inductionHypothesis =>
      have admitted : label.insertsVersion = false := by
        cases label with
        | invoke caller projectId call =>
            obtain ⟨isUpdate | ⟨mode, isRebuild⟩, _⟩ := taken
            · rw [isUpdate]
              rfl
            · rw [isRebuild]
              rfl
        | _ => rfl
      have stepped : synthesizersStep hashtext synthesizer.schema source
          label = some target := by
        rw [synthesizersStep, admitted]
        exact taken.2
      exact Reachable.step inductionHypothesis stepped

/-- The state of a row goes back to the summaries of its provenance. -/
def Descends (synthesizer : Synthesizer Memory Content) (texts : LogTexts)
    (summaries : List DocumentSummary) (row : BeliefState) : Prop :=
  ∃ content, row.state = synthesizer.schema.dump content ∧
    Synthesized (synthesizer.context row.projectId) texts summaries content

structure FoundedState (synthesizer : Synthesizer Memory Content)
    (texts : LogTexts) (state : State Content) : Prop where
  rows : ∀ row ∈ state.tables.beliefs,
    Descends synthesizer texts (state.provenance row) row
  calls : ∀ caller projectId phase,
    state.calls caller = some (projectId, phase) →
      phase.Founded synthesizer texts state.tables.beliefs projectId

theorem FoundedState.invoke (founded : FoundedState synthesizer texts state)
    {call : Call Content}
    (ofJobs : (Label.invoke caller projectId call).OfJobs synthesizer texts
      state) :
    FoundedState synthesizer texts { state with
      calls := Function.update state.calls caller
        (some (projectId, .invoked call)) } := by
  refine ⟨founded.rows, ?_⟩
  intro other otherProject otherPhase present
  rcases update_some_cases present with ⟨_, new⟩ | ⟨_, old⟩
  · cases new
    rcases ofJobs with rfl | ⟨mode, rfl⟩ <;> trivial
  · exact founded.calls other otherProject otherPhase old

theorem FoundedState.move_quiet
    (founded : FoundedState synthesizer texts state)
    (present : state.calls caller = some (projectId, phase))
    (ofJobs : (Label.advance caller choice).OfJobs synthesizer texts state)
    (quiet : phase.commits choice = none) :
    FoundedState synthesizer texts
      (state.move hashtext synthesizer.schema caller projectId phase
        choice) := by
  obtain ⟨sameTables, sameOrigin⟩ := move_of_commits_none hashtext
    synthesizer.schema state caller projectId quiet
  refine ⟨?_, ?_⟩
  · intro row member
    rw [sameTables] at member
    rw [State.provenance, sameOrigin]
    exact founded.rows row member
  · intro other otherProject otherPhase otherPresent
    rw [sameTables]
    rw [move_calls] at otherPresent
    rcases update_some_cases otherPresent with ⟨_, new⟩ | ⟨_, old⟩
    · cases new
      refine founded_next ?_ (founded.calls caller _ _ present)
      intro request latest plan isCallback
      exact ofJobs projectId request latest plan (isCallback ▸ present)
    · exact founded.calls other otherProject otherPhase old

/-- A row that is read back has the content it was dumped from. -/
theorem content_of_toRecord (faithful : synthesizer.schema.Faithful)
    {row : BeliefState} {record : BeliefStateRecord Content}
    {content : Content}
    (converted : toRecord synthesizer.schema row = .ok record)
    (isDump : row.state = synthesizer.schema.dump content) :
    record.state = content := by
  obtain ⟨other, convertedOther, isContent⟩ :=
    toRecord_of_dump faithful isDump
  rw [Except.ok.inj (converted.symm.trans convertedOther)]
  exact isContent

/-- What a job commits descends from the summaries of its new row. -/
theorem FoundedState.committed (faithful : synthesizer.schema.Faithful)
    (founded : FoundedState synthesizer texts state)
    {row : BeliefState} {pending : Pending Content}
    (made : Made synthesizer texts state.tables.beliefs row.projectId pending
      row.state) :
    Descends synthesizer texts (state.originOf caller pending).provenance
      row := by
  obtain ⟨plan, content, isPlan, read, isDump, synthesizes⟩ := made
  refine ⟨content, isDump, ?_⟩
  rw [Origin.provenance, State.originOf, isPlan]
  cases isBase : plan.base with
  | none =>
      rw [isBase] at synthesizes
      simp only [Option.bind_some, isBase, Option.map_some,
        Option.getD_some, List.nil_append]
      exact Synthesized.first synthesizes
  | some record =>
      rw [isBase] at synthesizes
      obtain ⟨base, member, converted⟩ := read record isBase
      obtain ⟨isRow, ofProject⟩ := mem_beliefsOf.mp member
      obtain ⟨before, isBefore, earlier⟩ := founded.rows base isRow
      rw [ofProject, State.provenance] at earlier
      obtain ⟨sameProject, sameVersion, _⟩ := toRecord_columns converted
      have sameKey : recordKey record = rowKey base := by
        rw [recordKey, rowKey, sameProject, sameVersion]
      have isContent := content_of_toRecord faithful converted isBefore
      simp only [Option.bind_some, isBase, Option.map_some,
        Option.getD_some, sameKey]
      rw [Option.map_some, isContent] at synthesizes
      exact Synthesized.next earlier synthesizes

theorem FoundedState.move_commit (faithful : synthesizer.schema.Faithful)
    (versions : VersionInvariant state) (covers : CoverInvariant state)
    (founded : FoundedState synthesizer texts state)
    (present : state.calls caller = some (projectId, phase))
    {row : BeliefState} {pending : Pending Content}
    (committed : phase.commits choice = some (row, pending)) :
    FoundedState synthesizer texts
      (state.move hashtext synthesizer.schema caller projectId phase
        choice) := by
  obtain ⟨ofProject, version, _⟩ :=
    commit_ready synthesizer.schema versions covers present committed
  subst ofProject
  have appended := (move_of_commits_some hashtext synthesizer.schema state
    caller row.projectId committed).1
  obtain ⟨request, phaseIs, nextIs⟩ :=
    commits_cases synthesizer.schema row.projectId committed
  subst phaseIs
  have ready := founded.calls caller _ _ present
  refine ⟨?_, ?_⟩
  · intro other member
    rw [appended, List.mem_append, List.mem_singleton] at member
    rcases member with old | rfl
    · rw [provenance_move_old versions version committed old]
      exact founded.rows other old
    · rw [provenance_move_new hashtext synthesizer.schema other.projectId
        committed]
      refine founded.committed faithful ?_
      cases request with
      | insertVersion draft => cases ready
      | synthesizeAndInsert size | rebuild mode => exact ready
  · intro other otherProject otherPhase otherPresent
    rw [move_calls, nextIs] at otherPresent
    rcases update_some_cases otherPresent with ⟨_, new⟩ | ⟨_, old⟩
    · cases new
      cases request with
      | insertVersion draft => cases ready
      | synthesizeAndInsert size | rebuild mode => trivial
    · rw [appended]
      exact (founded.calls other otherProject otherPhase old).mono
        (List.subset_append_left _ _)

theorem founded_reachable (faithful : synthesizer.schema.Faithful)
    (reachable : Reachable (jobs hashtext synthesizer texts) state) :
    FoundedState synthesizer texts state := by
  refine invariant_of_reachable_step ?_ ?_ reachable
  · rintro start rfl
    refine ⟨?_, ?_⟩
    · intro row member
      cases member
    · intro caller projectId phase present
      cases present
  · intro source label target sourceReachable founded taken
    obtain ⟨ofJobs, stepped⟩ := taken
    have synthesizing := reachable_synthesizers_of_jobs sourceReachable
    rcases step_cases stepped with
      ⟨row, _, _, rfl⟩ | ⟨caller, projectId, call, rfl, _, rfl⟩ |
        ⟨caller, choice, projectId, phase, rfl, present, _, _, rfl⟩
    · exact ⟨founded.rows, founded.calls⟩
    · exact founded.invoke ofJobs
    · cases committed : phase.commits choice with
      | none => exact founded.move_quiet present ofJobs committed
      | some written =>
          exact founded.move_commit faithful
            (versionInvariant_reachable
              (reachable_writers_of_synthesizers synthesizing))
            (coverInvariant_reachable synthesizing) present committed

/-- Whatever the LLM answers, whichever statements fail and however updates and
rebuilds interleave, a stored state goes back to as many summaries of its
project as its row counts, each of them in a prompt that the LLM answers. -/
theorem synthesized_reachable (faithful : synthesizer.schema.Faithful)
    (reachable : Reachable (jobs hashtext synthesizer texts) state) :
    ∀ row ∈ state.tables.beliefs, ∃ summaries,
      Descends synthesizer texts summaries row ∧
      summaries.Nodup ∧ summaries.length = row.summaryCountCovered ∧
      ∀ summary ∈ summaries,
        summary ∈ pendingRows state.tables.summaries row.projectId none ∧
        Read (synthesizer.context row.projectId) (texts.logged summary) := by
  intro row member
  have covers :=
    coverInvariant_reachable (reachable_synthesizers_of_jobs reachable)
  have descends := (founded_reachable faithful reachable).rows row member
  obtain ⟨nodup, count, _, _⟩ := covers.counted row member
  refine ⟨state.provenance row, descends, nodup, count.symm, ?_⟩
  intro summary inProvenance
  obtain ⟨content, _, synthesized⟩ := descends
  exact ⟨covers.read row member summary inProvenance,
    synthesized.read summary inProvenance⟩

end Reachability

/-! ## Two updates -/

section Sample

variable {Memory Content : Type} {hashtext : String → BitVec 32}
  {synthesizer : Synthesizer Memory Content} {texts : LogTexts}

/-- The step is one of the jobs and does not ask the LLM. -/
def Label.isPlain (state : State Content) : Label Content → Bool
  | .commitSummary _ => true
  | .invoke _ _ (.synthesizeAndInsert size) => size == rebuildBatchSize.val
  | .invoke _ _ (.rebuild _ size) => size == rebuildBatchSize.val
  | .invoke _ _ (.insertVersion _ _ _ _) => false
  | .advance caller _ =>
      match state.calls caller with
      | some (_, .running _ (.callback _ _)) => false
      | _ => true

theorem Label.ofJobs_of_isPlain {state : State Content}
    {label : Label Content} (plain : label.isPlain state = true) :
    label.OfJobs synthesizer texts state := by
  cases label with
  | commitSummary row => trivial
  | invoke caller projectId call =>
      cases call with
      | synthesizeAndInsert size => exact Or.inl (by rw [eq_of_beq plain])
      | rebuild mode size => exact Or.inr ⟨mode, by rw [eq_of_beq plain]⟩
      | insertVersion => cases plain
  | advance caller choice =>
      intro projectId request latest plan present
      rw [Label.isPlain, present] at plain
      cases plain

theorem reachable_jobs_of_follow {labels : List (Label Content)}
    {source target : State Content}
    (reachable : Reachable (jobs hashtext synthesizer texts) source)
    (plain : traceMeets (fun state label => label.isPlain state)
      (step hashtext synthesizer.schema) labels source = true)
    (isTarget : follow (step hashtext synthesizer.schema) labels source =
      some target) :
    Reachable (jobs hashtext synthesizer texts) target := by
  induction labels generalizing source with
  | nil =>
      cases isTarget
      exact reachable
  | cons label labels inductionHypothesis =>
      rw [follow, Option.bind_eq_some_iff] at isTarget
      obtain ⟨middle, taken, rest⟩ := isTarget
      rw [traceMeets, taken, Bool.and_eq_true] at plain
      exact inductionHypothesis
        (Reachable.step reachable
          ⟨Label.ofJobs_of_isPlain plain.1, taken⟩) plain.2 rest

def sampleSummary : DocumentSummary where
  id := 4
  documentId := 2
  projectId := 1
  rawTextFallback := none
  createdAt := 5

def laterSummary : DocumentSummary where
  id := 6
  documentId := 3
  projectId := 1
  rawTextFallback := none
  createdAt := 8

def sampleTexts : LogTexts where
  filename _ := some "notes.md"
  summary _ := []

/-- The answer of an LLM that has been asked so often. -/
def toldState (times : Nat) : BeliefStateContent :=
  .ofSummary (if times = 0 then ⟨"Syncs run daily.", by decide⟩
    else ⟨"Syncs run hourly.", by decide⟩)

def toldText (times : Nat) : String :=
  String.ofList (Schema.beliefState.dump (toldState times)).dumps

def samplePrompt : String :=
  initialHeader ++ windowText [sampleTexts.logged sampleSummary] ++
    "\n\nOutput JSON:"

def laterPrompt : String :=
  incrementalHeader ++
    String.ofList ((Schema.beliefState.dump (toldState 0)).dumpsIndent 0) ++
    "\n\nNew document summaries to integrate:\n" ++
    windowText [sampleTexts.logged laterSummary] ++ incrementalFooter

/-- An LLM that counts how often it is asked, and a budget that is enough. -/
def sampleSynthesizer : Synthesizer Nat BeliefStateContent where
  schema := Schema.beliefState
  llmCall times _ _ := (.ok (toldText times), times + 1)
  readAnswer := readBeliefState fun _ => ""
  contextModel _ := "gpt-4o"
  cagMaxPromptTokens :=
    max (estimatedTokens samplePrompt) (estimatedTokens laterPrompt)

theorem sampleSynthesizer_reads (times : Nat) :
    sampleSynthesizer.readAnswer (toldText times) = .ok (toldState times) := by
  simp only [sampleSynthesizer, toldText, readBeliefState_dumps]

theorem within_sampleSynthesizer :
    estimatedTokens samplePrompt ≤ sampleSynthesizer.cagMaxPromptTokens ∧
      estimatedTokens laterPrompt ≤ sampleSynthesizer.cagMaxPromptTokens := by
  exact ⟨le_max_left _ _, le_max_right _ _⟩

def sampleChoice (times : Nat) : Choice BeliefStateContent :=
  plainChoice (toldState times) (OrderBy.stable _)
    { id := 7 + times, now := 0 }

/-- A summary is ingested, and an update reads it and turns to the LLM. -/
def askingLabels (times : Nat) (summary : DocumentSummary) :
    List (Label BeliefStateContent) :=
  [.commitSummary summary,
    .invoke times 1 (.synthesizeAndInsert rebuildBatchSize.val)] ++
    List.replicate 4 (.advance times (sampleChoice times))

/-- The steps after the answer of the LLM. -/
def finishingLabels (times : Nat) : List (Label BeliefStateContent) :=
  List.replicate 4 (.advance times (sampleChoice times))

theorem askingLabels_enabled :
    (follow (step (fun _ => 0) Schema.beliefState)
      (askingLabels 0 sampleSummary) State.empty).isSome = true := by
  rfl

def askingState : State BeliefStateContent :=
  followed (step (fun _ => 0) Schema.beliefState)
    (askingLabels 0 sampleSummary) State.empty askingLabels_enabled

def samplePlan : Plan BeliefStateContent where
  base := none
  batch := [sampleSummary]
  nonempty := List.cons_ne_nil _ _
  remaining := 0

theorem samplePrompt_formatted :
    formatUpdatePrompt Schema.beliefState none
      (samplePlan.batch.map sampleTexts.logged) = .ok samplePrompt := by
  rw [formatUpdatePrompt, formatInitialPrompt, if_neg]
  · rfl
  · decide

/-- The state after the answer of the LLM. -/
def State.told (state : State BeliefStateContent) (times : Nat)
    (plan : Plan BeliefStateContent) : State BeliefStateContent :=
  state.move (fun _ => 0) Schema.beliefState times 1
    (.running (.synthesizeAndInsert rebuildBatchSize)
      (.callback plan.base plan)) (sampleChoice times)

theorem reachable_told {state : State BeliefStateContent} {times : Nat}
    {plan : Plan BeliefStateContent} {prompt : String}
    (reachable : Reachable (jobs (fun _ => 0) sampleSynthesizer sampleTexts)
      state)
    (present : state.calls times =
      some (1, .running (.synthesizeAndInsert rebuildBatchSize)
        (.callback plan.base plan)))
    (formatted : formatUpdatePrompt Schema.beliefState
      (plan.base.map BeliefStateRecord.state)
      (plan.batch.map sampleTexts.logged) = .ok prompt)
    (within : estimatedTokens prompt ≤ sampleSynthesizer.cagMaxPromptTokens) :
    Reachable (jobs (fun _ => 0) sampleSynthesizer sampleTexts)
      (state.told times plan) := by
  refine @Reachable.step _ _ _ _ _ (.advance times (sampleChoice times))
    reachable ⟨?_, ?_⟩
  · intro projectId request latest other otherPresent
    rw [present] at otherPresent
    cases otherPresent
    exact ⟨times, @callback_of_answered _ _ sampleTexts sampleSynthesizer 1
      rebuildBatchSize plan prompt (toldText times) times (times + 1)
      (toldState times) formatted within rfl
      (sampleSynthesizer_reads times)⟩
  · exact step_advance (fun _ => 0) Schema.beliefState (sampleChoice times)
      present rfl (by intro waiting; cases waiting)

def laterLabels : List (Label BeliefStateContent) :=
  finishingLabels 0 ++ askingLabels 1 laterSummary

theorem laterLabels_enabled :
    (follow (step (fun _ => 0) Schema.beliefState) laterLabels
      (askingState.told 0 samplePlan)).isSome = true := by
  decide +kernel

/-- A second update reads the state of the first. -/
def laterState : State BeliefStateContent :=
  followed (step (fun _ => 0) Schema.beliefState) laterLabels
    (askingState.told 0 samplePlan) laterLabels_enabled

def laterPlan : Plan BeliefStateContent where
  base := some {
    id := 7
    projectId := 1
    version := 1
    state := toldState 0
    rebuildType := .incremental
    lastSummaryCreatedAt := 5
    summaryCountCovered := 1
    createdAt := 0 }
  batch := [laterSummary]
  nonempty := List.cons_ne_nil _ _
  remaining := 0

theorem laterPrompt_formatted :
    formatUpdatePrompt Schema.beliefState
      (laterPlan.base.map BeliefStateRecord.state)
      (laterPlan.batch.map sampleTexts.logged) = .ok laterPrompt := by
  rw [laterPlan, Option.map_some, formatUpdatePrompt, formatIncrementalPrompt,
    if_neg]
  · rfl
  · decide

theorem finishingLabels_enabled :
    (follow (step (fun _ => 0) Schema.beliefState) (finishingLabels 1)
      (laterState.told 1 laterPlan)).isSome = true := by
  decide +kernel

def updatedState : State BeliefStateContent :=
  followed (step (fun _ => 0) Schema.beliefState) (finishingLabels 1)
    (laterState.told 1 laterPlan) finishingLabels_enabled

theorem laterState_reachable :
    Reachable (jobs (fun _ => 0) sampleSynthesizer sampleTexts)
      laterState := by
  have asking : Reachable (jobs (fun _ => 0) sampleSynthesizer sampleTexts)
      askingState :=
    @reachable_jobs_of_follow _ _ _ sampleSynthesizer _
      (askingLabels 0 sampleSummary) _ _ (Reachable.initial rfl) rfl
      (Option.some_get askingLabels_enabled).symm
  have told := @reachable_told _ 0 samplePlan samplePrompt asking rfl
    samplePrompt_formatted within_sampleSynthesizer.1
  exact @reachable_jobs_of_follow _ _ _ sampleSynthesizer _ laterLabels _ _
    told (by decide +kernel) (Option.some_get laterLabels_enabled).symm

theorem updatedState_reachable :
    Reachable (jobs (fun _ => 0) sampleSynthesizer sampleTexts)
      updatedState := by
  have told := @reachable_told _ 1 laterPlan laterPrompt laterState_reachable
    rfl laterPrompt_formatted within_sampleSynthesizer.2
  exact @reachable_jobs_of_follow _ _ _ sampleSynthesizer _
    (finishingLabels 1) _ _ told (by decide +kernel)
    (Option.some_get finishingLabels_enabled).symm

/-- The second state was made from the first and a summary. -/
theorem synthesized_updatedState :
    updatedState.tables.beliefs.map BeliefState.summaryCountCovered = [1, 2] ∧
      ∀ row ∈ updatedState.tables.beliefs, ∃ summaries,
        Descends sampleSynthesizer sampleTexts summaries row ∧
        summaries.Nodup ∧ summaries.length = row.summaryCountCovered ∧
        ∀ summary ∈ summaries,
          summary ∈ pendingRows updatedState.tables.summaries row.projectId
            none ∧
          Read (sampleSynthesizer.context row.projectId)
            (sampleTexts.logged summary) :=
  ⟨by decide +kernel, synthesized_reachable Schema.beliefState_faithful
    updatedState_reachable⟩

end Sample

end ProjectMemory.Cag
