import Mathlib.Data.List.Forall2
import Mathlib.Data.List.MinMax
import ProjectMemory.Cag.Reduce
import ProjectMemory.Models.BeliefState

/-!
# The calls of a reduce form a tree

A reduce that returns has made one call for every inner node of a tree, level
by level.  The leaves of the tree are the accumulator and the summaries, each
once and in order, and its root is the result.
-/

namespace ProjectMemory.Cag

open Foundation

section Tree

variable {Content : Type}

/-- How a digest came about: it is the accumulator, or the answer of a call
over some summaries or over earlier digests. -/
inductive CallTree (Content : Type) where
  | accumulator (content : Content)
  | digest (summaries : List LoggedSummary) (answer : Content)
  | merge (children : List (CallTree Content)) (answer : Content)

namespace CallTree

def answer : CallTree Content → Content
  | .accumulator content => content
  | .digest _ answer => answer
  | .merge _ answer => answer

mutual

/-- The accumulator and the summaries below a node, read from left to
right. -/
def leaves : CallTree Content → List (Content ⊕ LoggedSummary)
  | .accumulator content => [.inl content]
  | .digest summaries _ => summaries.map .inr
  | .merge children _ => leavesOf children

def leavesOf : List (CallTree Content) → List (Content ⊕ LoggedSummary)
  | [] => []
  | tree :: trees => leaves tree ++ leavesOf trees

end

theorem leavesOf_append (left right : List (CallTree Content)) :
    leavesOf (left ++ right) = leavesOf left ++ leavesOf right := by
  induction left with
  | nil => rfl
  | cons tree left inductionHypothesis =>
      rw [List.cons_append, leavesOf, leavesOf, inductionHypothesis,
        List.append_assoc]

end CallTree

/-- A call got its prompt from some inputs and was answered, at the first or
at the second attempt. -/
structure Answered {Input : Type} (format : List Input → Except String String)
    (inputs : List Input) (answer : Content) (call : ReduceCall Content) :
    Prop where
  prompt : format inputs = .ok call.prompt
  outcome : call.outcome = .ok answer
  sent : call.sent = [call.prompt] ∨
    ∃ complaint, call.sent = [call.prompt, call.prompt ++ complaint]

/-- The call of an inner node. -/
def CallTree.IsCall (schema : Schema Content) :
    CallTree Content → ReduceCall Content → Prop
  | .accumulator _, _ => False
  | .digest summaries answer, call =>
      Answered formatBatchDigestPrompt summaries answer call
  | .merge children answer, call =>
      Answered (formatDigestMergePrompt schema)
        (children.map CallTree.answer) answer call

def digestNode (node : List LoggedSummary × Content) : CallTree Content :=
  .digest node.1 node.2

def mergeNode (node : List (CallTree Content) × Content) : CallTree Content :=
  .merge node.1 node.2

/-- The calls that merge a level down to one node: every level is cut into
consecutive runs, each the children of a node of the next one. -/
inductive MergesTo (schema : Schema Content) (size : Nat) :
    List (CallTree Content) → CallTree Content →
      List (ReduceCall Content) → Prop
  | root (tree : CallTree Content) : MergesTo schema size [tree] tree []
  | level {level : List (CallTree Content)} {root : CallTree Content}
      {nodes : List (List (CallTree Content) × Content)}
      {calls later : List (ReduceCall Content)} :
      2 ≤ level.length →
      Cuts size level (nodes.map Prod.fst) →
      List.Forall₂ (CallTree.IsCall schema) (nodes.map mergeNode) calls →
      MergesTo schema size (nodes.map mergeNode) root later →
      MergesTo schema size level root (calls ++ later)

/-- The number of merges above a level. -/
def mergeCount (size level : Nat) : Nat :=
  if 2 ≤ size ∧ 2 ≤ level then
    (level + size - 1) / size + mergeCount size ((level + size - 1) / size)
  else 0
termination_by level
decreasing_by
  rename_i large
  exact rounds_lt large.1 large.2

/-- The calls of a reduce that returned a result. -/
structure Reduction (schema : Schema Content) (size : Nat)
    (accumulator : Option Content) (summaries : List LoggedSummary)
    (result : Content) (calls : List (ReduceCall Content)) where
  digests : List (List LoggedSummary × Content)
  root : CallTree Content
  digestCalls : List (ReduceCall Content)
  mergeCalls : List (ReduceCall Content)
  calls_eq : calls = digestCalls ++ mergeCalls
  cuts : Cuts size summaries (digests.map Prod.fst)
  digested : List.Forall₂ (CallTree.IsCall schema) (digests.map digestNode)
    digestCalls
  merged : MergesTo schema size
    (accumulator.toList.map CallTree.accumulator ++ digests.map digestNode)
    root mergeCalls
  answer : root.answer = result
  leaves : root.leaves =
    accumulator.toList.map Sum.inl ++ summaries.map Sum.inr
  digestCount : digestCalls.length = (summaries.length + size - 1) / size
  mergeCount : mergeCalls.length = mergeCount size
    ((summaries.length + size - 1) / size +
      if accumulator.isSome then 1 else 0)

end Tree

/-! ## What one call and one level do -/

section Calls

variable {Memory Content : Type} {context : ReduceContext Memory Content}
  {chat : Chat Memory Content}

/-- A part of the reduce has ended with a call that raised. -/
def Raised {Value : Type} (chat : Chat Memory Content)
    (result : Except ReduceError Value × Chat Memory Content) : Prop :=
  ∃ failure calls, result.1 = .error failure ∧
    result.2.calls = chat.calls ++ calls ∧
    ∃ call ∈ calls, call.outcome = .error failure

/-- A call that raised after more calls is a call of the whole. -/
theorem Raised.after {Value : Type} {middle : Chat Memory Content}
    {calls : List (ReduceCall Content)}
    {result : Except ReduceError Value × Chat Memory Content}
    (grown : middle.calls = chat.calls ++ calls)
    (raised : Raised middle result) : Raised chat result := by
  obtain ⟨failure, later, failed, areLater, call, isLater, raised⟩ := raised
  refine ⟨failure, calls ++ later, failed, ?_, call,
    List.mem_append_right calls isLater, raised⟩
  rw [areLater, grown, List.append_assoc]

theorem sent_of_lastAttempt {prompt : String} {errors : List String}
    {memory : Memory} {answer : Content}
    (answered :
      (synthesizeAttempts context prompt 1 errors memory).1 = .ok answer) :
    (synthesizeAttempts context prompt 1 errors memory).2.1 =
      [attemptPrompt prompt errors] := by
  rw [synthesizeAttempts] at answered ⊢
  cases asked : context.llmCall memory
      (synthesisMessages (attemptPrompt prompt errors))
      context.contextModel with
  | mk result after =>
      cases result with
      | error message => rfl
      | ok text =>
          cases read : context.readAnswer text with
          | ok content => simp only [read]
          | error failure =>
              rw [asked] at answered
              simp only [read] at answered
              cases failure <;> cases answered

theorem attemptPrompt_cons (prompt : String) (complaint : String) :
    ∃ addition, attemptPrompt prompt [complaint] = prompt ++ addition :=
  ⟨_, String.append_assoc ..⟩

/-- An answered call was asked once, or twice with a complaint. -/
theorem sent_of_synthesizePrompt {prompt : String} {memory : Memory}
    {answer : Content}
    (answered : (synthesizePrompt context prompt memory).1 = .ok answer) :
    (synthesizePrompt context prompt memory).2.1 = [prompt] ∨
      ∃ complaint, (synthesizePrompt context prompt memory).2.1 =
        [prompt, prompt ++ complaint] := by
  have first : attemptPrompt prompt [] = prompt := rfl
  unfold synthesizePrompt at answered ⊢
  by_cases large : context.cagMaxPromptTokens < estimatedTokens prompt
  · rw [if_pos large] at answered
    cases answered
  · rw [if_neg large] at answered ⊢
    rw [synthesizeAttempts, first] at answered ⊢
    cases asked : context.llmCall memory (synthesisMessages prompt)
        context.contextModel with
    | mk result after =>
        cases result with
        | error message => exact Or.inl rfl
        | ok text =>
            rw [asked] at answered
            cases read : context.readAnswer text with
            | ok content =>
                simp only [read]
                exact Or.inl trivial
            | error failure =>
                simp only [read] at answered ⊢
                cases failure with
                | other message => cases answered
                | decode message =>
                    have last := sent_of_lastAttempt answered
                    obtain ⟨addition, isAddition⟩ := attemptPrompt_cons prompt
                      ("JSON parse error: " ++ message)
                    exact Or.inr ⟨addition, by
                      simpa only [isAddition, List.nil_append] using
                        congrArg (List.cons prompt) last⟩
                | value message =>
                    have last := sent_of_lastAttempt answered
                    obtain ⟨addition, isAddition⟩ := attemptPrompt_cons prompt
                      ("Schema validation error: " ++ message)
                    exact Or.inr ⟨addition, by
                      simpa only [isAddition, List.nil_append] using
                        congrArg (List.cons prompt) last⟩

theorem Chat.ask_calls (context : ReduceContext Memory Content)
    (chat : Chat Memory Content) (prompt : String) :
    ∃ call, (chat.ask context prompt).2.calls = chat.calls ++ [call] ∧
      call.prompt = prompt ∧
      call.outcome = (chat.ask context prompt).1 ∧
      ∀ answer, call.outcome = .ok answer → call.sent = [prompt] ∨
        ∃ complaint, call.sent = [prompt, prompt ++ complaint] :=
  ⟨_, rfl, rfl, rfl, fun _ answered => sent_of_synthesizePrompt answered⟩

/-- A loop over batches answers every call, or it ends with one that
raises. -/
theorem askBatches_cases {Input : Type}
    {format : List Input → Except String String} {inputs : List (List Input)}
    (formats : ∀ batch ∈ inputs, ∃ prompt, format batch = .ok prompt)
    (context : ReduceContext Memory Content) (chat : Chat Memory Content) :
    (∃ answered calls, answered.map Prod.fst = inputs ∧
      (askBatches context format inputs chat).1 =
        .ok (answered.map Prod.snd) ∧
      (askBatches context format inputs chat).2.calls =
        chat.calls ++ calls ∧
      List.Forall₂ (fun node call => Answered format node.1 node.2 call)
        answered calls) ∨
      Raised chat (askBatches context format inputs chat) := by
  induction inputs generalizing chat with
  | nil =>
      refine Or.inl ⟨[], [], rfl, rfl, ?_, List.Forall₂.nil⟩
      rw [askBatches, List.append_nil]
  | cons batch rest inductionHypothesis =>
      obtain ⟨prompt, isPrompt⟩ := formats batch List.mem_cons_self
      obtain ⟨call, recorded, ofPrompt, isOutcome, sent⟩ :=
        Chat.ask_calls context chat prompt
      rw [askBatches, isPrompt]
      cases asked : chat.ask context prompt with
      | mk outcome after =>
          rw [asked] at recorded isOutcome
          simp only [asked]
          cases outcome with
          | error failure =>
              exact Or.inr ⟨failure, [call], rfl, recorded, call,
                List.mem_cons_self, isOutcome⟩
          | ok answer =>
              have here : Answered format batch answer call := by
                refine ⟨by rw [isPrompt, ofPrompt], isOutcome, ?_⟩
                rw [ofPrompt]
                exact sent answer isOutcome
              have grows (calls : List (ReduceCall Content)) :
                  after.calls ++ calls = chat.calls ++ call :: calls := by
                rw [recorded, List.append_assoc, List.singleton_append]
              have later := inductionHypothesis
                (fun other member => formats other
                  (List.mem_cons_of_mem batch member)) after
              cases askedRest : askBatches context format rest after with
              | mk outcomes final =>
                  rw [askedRest] at later
                  simp only [askedRest]
                  rcases later with
                    ⟨answered, calls, areInputs, ok, areCalls, all⟩ |
                    ⟨failure, calls, failed, areCalls, member, raised⟩
                  · have isOk : outcomes = .ok (answered.map Prod.snd) := ok
                    subst isOk
                    refine Or.inl ⟨(batch, answer) :: answered, call :: calls,
                      ?_, rfl, areCalls.trans (grows calls),
                      List.Forall₂.cons here all⟩
                    rw [List.map_cons, areInputs]
                  · have isError : outcomes = .error failure := failed
                    subst isError
                    exact Or.inr ⟨failure, call :: calls, rfl,
                      areCalls.trans (grows calls), member,
                      List.mem_cons_of_mem call raised.1, raised.2⟩

/-- The batches of a level and their answers are the nodes of the next. -/
theorem map_fst_zip_answered {Input : Type} {pieces : List (List Input)}
    {Image : Type} {image : Input → Image}
    {answered : List (List Image × Content)}
    (areInputs : answered.map Prod.fst = pieces.map (List.map image)) :
    ∃ nodes : List (List Input × Content),
      nodes.map Prod.fst = pieces ∧
      answered = nodes.map fun node => (node.1.map image, node.2) := by
  induction pieces generalizing answered with
  | nil =>
      have empty : answered = [] := List.map_eq_nil_iff.mp areInputs
      exact ⟨[], rfl, empty⟩
  | cons piece pieces inductionHypothesis =>
      cases answered with
      | nil => cases areInputs
      | cons first answered =>
          rw [List.map_cons, List.map_cons, List.cons.injEq] at areInputs
          obtain ⟨nodes, arePieces, same⟩ := inductionHypothesis areInputs.2
          refine ⟨(piece, first.2) :: nodes, ?_, ?_⟩
          · rw [List.map_cons, arePieces]
          · rw [List.map_cons, ← same, ← areInputs.1]

theorem formats_merges (schema : Schema Content) {size : Nat}
    (positive : 1 ≤ size) (level : List Content) :
    ∀ batch ∈ batches size level,
      ∃ prompt, formatDigestMergePrompt schema batch = .ok prompt := by
  intro batch member
  have nonempty := (length_of_mem_batches positive batch member).1
  cases batch with
  | nil => cases nonempty
  | cons digest batch => exact ⟨_, rfl⟩

theorem formats_digests {size : Nat} (positive : 1 ≤ size)
    (summaries : List LoggedSummary) :
    ∀ batch ∈ batches size summaries,
      ∃ prompt, formatBatchDigestPrompt batch = .ok prompt := by
  intro batch member
  have nonempty := (length_of_mem_batches positive batch member).1
  cases batch with
  | nil => cases nonempty
  | cons summary batch => exact ⟨_, rfl⟩

/-- The digests cut the summaries into the leaves of the first level. -/
theorem digestLevel_cases {size : Nat} (positive : 1 ≤ size)
    (summaries : List LoggedSummary)
    (context : ReduceContext Memory Content) (chat : Chat Memory Content) :
    (∃ (nodes : List (List LoggedSummary × Content))
        (calls : List (ReduceCall Content)),
      (askBatches context formatBatchDigestPrompt (batches size summaries)
        chat).1 = .ok (nodes.map Prod.snd) ∧
      (askBatches context formatBatchDigestPrompt (batches size summaries)
        chat).2.calls = chat.calls ++ calls ∧
      Cuts size summaries (nodes.map Prod.fst) ∧
      List.Forall₂ (CallTree.IsCall context.schema) (nodes.map digestNode)
        calls) ∨
      Raised chat (askBatches context formatBatchDigestPrompt
        (batches size summaries) chat) := by
  refine (askBatches_cases (formats_digests positive summaries) context
    chat).imp_left ?_
  rintro ⟨nodes, calls, areBatches, ok, areCalls, all⟩
  refine ⟨nodes, calls, ok, areCalls, ?_, ?_⟩
  · rw [areBatches]
    exact cuts_batches positive summaries
  · rw [List.forall₂_map_left_iff]
    exact all

/-- One round of merges cuts the level into the children of the next one. -/
theorem mergeLevel_cases {size : Nat} (large : 2 ≤ size)
    (level : List (CallTree Content))
    (context : ReduceContext Memory Content) (chat : Chat Memory Content) :
    (∃ (nodes : List (List (CallTree Content) × Content))
        (calls : List (ReduceCall Content)),
      (askBatches context (formatDigestMergePrompt context.schema)
        (batches size (level.map CallTree.answer)) chat).1 =
          .ok ((nodes.map mergeNode).map CallTree.answer) ∧
      (askBatches context (formatDigestMergePrompt context.schema)
        (batches size (level.map CallTree.answer)) chat).2.calls =
          chat.calls ++ calls ∧
      Cuts size level (nodes.map Prod.fst) ∧
      List.Forall₂ (CallTree.IsCall context.schema) (nodes.map mergeNode)
        calls) ∨
      Raised chat (askBatches context
        (formatDigestMergePrompt context.schema)
        (batches size (level.map CallTree.answer)) chat) := by
  have positive : 1 ≤ size := by omega
  refine (askBatches_cases (formats_merges context.schema positive
    (level.map CallTree.answer)) context chat).imp_left ?_
  rintro ⟨answered, calls, areInputs, ok, areCalls, all⟩
  rw [batches_map] at areInputs
  obtain ⟨nodes, arePieces, rfl⟩ := map_fst_zip_answered areInputs
  refine ⟨nodes, calls, ?_, areCalls, ?_, ?_⟩
  · rw [ok, List.map_map, List.map_map]
    rfl
  · rw [arePieces]
    exact cuts_batches positive level
  · rw [List.forall₂_map_left_iff] at all ⊢
    exact all

/-- The loop over the levels comes to its end, with the calls of a tree or
with one that raises. -/
theorem mergeLevels_cases {size : Nat} (large : 2 ≤ size)
    (context : ReduceContext Memory Content) :
    ∀ (fuel : Nat) (level : List (CallTree Content))
      (chat : Chat Memory Content),
      level ≠ [] → level.length ≤ fuel + 1 →
      ∃ outcome target,
        mergeLevels context size fuel (level.map CallTree.answer) chat =
          some (outcome, target) ∧
        ((∃ root calls, outcome = .ok root.answer ∧
            target.calls = chat.calls ++ calls ∧
            MergesTo context.schema size level root calls) ∨
          Raised chat (outcome, target))
  | _, [], _, nonempty, _ => absurd rfl nonempty
  | fuel, [tree], chat, _, _ => by
      refine ⟨.ok tree.answer, chat, ?_, Or.inl ⟨tree, [], rfl,
        (List.append_nil _).symm, MergesTo.root tree⟩⟩
      rw [List.map_singleton, mergeLevels]
  | 0, _ :: _ :: _, _, _, short => by
      simp at short
  | fuel + 1, first :: second :: rest, chat, _, short => by
      have several : 2 ≤ (first :: second :: rest).length := by simp
      have cases := mergeLevel_cases large (first :: second :: rest) context
        chat
      rw [List.map_cons, List.map_cons] at cases ⊢
      rw [mergeLevels]
      cases asked : askBatches context
          (formatDigestMergePrompt context.schema)
          (batches size (first.answer :: second.answer ::
            rest.map CallTree.answer)) chat with
      | mk result after =>
          rw [asked] at cases
          rcases cases with ⟨nodes, calls, ok, areCalls, cuts, all⟩ |
            ⟨failure, calls, failed, areCalls, raised⟩
          · have isOk : result =
                .ok ((nodes.map mergeNode).map CallTree.answer) := ok
            subst isOk
            have count := cuts.count
            have positive : 1 ≤ size := by omega
            have fewer := rounds_lt large several
            have some := rounds_pos positive
              (Nat.le_of_succ_le several)
            rw [List.length_map] at count
            have nonempty : nodes.map mergeNode ≠ [] := by
              apply List.ne_nil_of_length_pos
              rw [List.length_map]
              omega
            have bound : (nodes.map mergeNode).length ≤ fuel + 1 := by
              rw [List.length_map]
              omega
            obtain ⟨outcome, target, merged, result⟩ :=
              mergeLevels_cases large context fuel (nodes.map mergeNode)
                after nonempty bound
            refine ⟨outcome, target, merged, ?_⟩
            rcases result with ⟨root, later, isRoot, areLater, merges⟩ | raised
            · refine Or.inl ⟨root, calls ++ later, isRoot, ?_,
                MergesTo.level several cuts all merges⟩
              rw [areLater, areCalls, List.append_assoc]
            · exact Or.inr (raised.after areCalls)
          · have isError : result = .error failure := failed
            subst isError
            exact ⟨_, _, rfl, Or.inr ⟨failure, calls, rfl, areCalls, raised⟩⟩

end Calls

/-! ## What the tree says about its calls -/

section Facts

variable {Content : Type} {schema : Schema Content} {size : Nat}

theorem answered_of_forall₂ {nodes : List (CallTree Content)}
    {calls : List (ReduceCall Content)}
    (all : List.Forall₂ (CallTree.IsCall schema) nodes calls) :
    ∀ call ∈ calls, ∃ answer, call.outcome = .ok answer := by
  induction all with
  | nil =>
      intro call member
      cases member
  | @cons tree call nodes calls isCall _ inductionHypothesis =>
      rw [List.forall_mem_cons]
      refine ⟨?_, inductionHypothesis⟩
      cases tree with
      | accumulator content => cases isCall
      | digest summaries answer => exact ⟨answer, isCall.outcome⟩
      | merge children answer => exact ⟨answer, isCall.outcome⟩

theorem leavesOf_mergeNodes (nodes : List (List (CallTree Content) × Content)) :
    CallTree.leavesOf (nodes.map mergeNode) =
      CallTree.leavesOf (nodes.map Prod.fst).flatten := by
  induction nodes with
  | nil => rfl
  | cons node nodes inductionHypothesis =>
      rw [List.map_cons, List.map_cons, List.flatten_cons,
        CallTree.leavesOf_append, ← inductionHypothesis, CallTree.leavesOf,
        mergeNode, CallTree.leaves]

theorem leavesOf_digestNodes (nodes : List (List LoggedSummary × Content)) :
    CallTree.leavesOf (nodes.map digestNode) =
      (nodes.map Prod.fst).flatten.map Sum.inr := by
  induction nodes with
  | nil => rfl
  | cons node nodes inductionHypothesis =>
      rw [List.map_cons, List.map_cons, List.flatten_cons, List.map_append,
        ← inductionHypothesis, CallTree.leavesOf, digestNode, CallTree.leaves]

theorem leavesOf_accumulator (accumulator : Option Content) :
    CallTree.leavesOf (accumulator.toList.map CallTree.accumulator) =
      accumulator.toList.map Sum.inl := by
  cases accumulator <;> rfl

theorem MergesTo.leaves {level : List (CallTree Content)}
    {root : CallTree Content} {calls : List (ReduceCall Content)}
    (merges : MergesTo schema size level root calls) :
    root.leaves = CallTree.leavesOf level := by
  induction merges with
  | root tree =>
      rw [CallTree.leavesOf, CallTree.leavesOf, List.append_nil]
  | level _ cuts _ _ inductionHypothesis =>
      rw [inductionHypothesis, leavesOf_mergeNodes, cuts.flatten]

theorem MergesTo.length_calls (large : 2 ≤ size)
    {level : List (CallTree Content)} {root : CallTree Content}
    {calls : List (ReduceCall Content)}
    (merges : MergesTo schema size level root calls) :
    calls.length = mergeCount size level.length := by
  induction merges with
  | root tree =>
      have last : ¬(2 ≤ size ∧ 2 ≤ [tree].length) := by
        simp
      rw [mergeCount, if_neg last, List.length_nil]
  | level several cuts all _ inductionHypothesis =>
      have count := cuts.count
      have made := all.length_eq
      rw [List.length_map] at count made inductionHypothesis
      rw [mergeCount, if_pos ⟨large, several⟩, List.length_append, ← count,
        ← made, inductionHypothesis]

theorem MergesTo.answered {level : List (CallTree Content)}
    {root : CallTree Content} {calls : List (ReduceCall Content)}
    (merges : MergesTo schema size level root calls) :
    ∀ call ∈ calls, ∃ answer, call.outcome = .ok answer := by
  induction merges with
  | root tree =>
      intro call member
      cases member
  | level _ _ all _ inductionHypothesis =>
      intro call member
      rcases List.mem_append.mp member with here | later
      · exact answered_of_forall₂ all call here
      · exact inductionHypothesis call later

end Facts

section Proof

variable {Memory Content : Type}

/-- The level the merges start from. -/
def firstLevel (accumulator : Option Content)
    (digests : List (List LoggedSummary × Content)) :
    List (CallTree Content) :=
  accumulator.toList.map CallTree.accumulator ++ digests.map digestNode

theorem answers_firstLevel (accumulator : Option Content)
    (digests : List (List LoggedSummary × Content)) :
    (firstLevel accumulator digests).map CallTree.answer =
      accumulator.toList ++ digests.map Prod.snd := by
  rw [firstLevel, List.map_append, List.map_map, List.map_map]
  congr 1
  cases accumulator <;> rfl

theorem length_firstLevel (accumulator : Option Content)
    (digests : List (List LoggedSummary × Content)) :
    (firstLevel accumulator digests).length =
      digests.length + if accumulator.isSome then 1 else 0 := by
  rw [firstLevel, List.length_append, List.length_map, List.length_map,
    Nat.add_comm]
  cases accumulator <;> rfl

/-- The digests and a merge of them make a reduction. -/
theorem reduction_of_merges {schema : Schema Content} {size : Nat}
    (large : 2 ≤ size) {accumulator : Option Content}
    {summaries : List LoggedSummary}
    {digests : List (List LoggedSummary × Content)} {root : CallTree Content}
    {digestCalls mergeCalls : List (ReduceCall Content)}
    (cuts : Cuts size summaries (digests.map Prod.fst))
    (digested : List.Forall₂ (CallTree.IsCall schema) (digests.map digestNode)
      digestCalls)
    (merged : MergesTo schema size (firstLevel accumulator digests) root
      mergeCalls) :
    Nonempty (Reduction schema size accumulator summaries root.answer
      (digestCalls ++ mergeCalls)) := by
  have count := cuts.count
  have made := digested.length_eq
  rw [List.length_map] at count made
  refine ⟨{
    digests := digests
    root := root
    digestCalls := digestCalls
    mergeCalls := mergeCalls
    calls_eq := rfl
    cuts := cuts
    digested := digested
    merged := merged
    answer := rfl
    leaves := ?_
    digestCount := made.symm.trans count
    mergeCount := ?_ }⟩
  · rw [merged.leaves, firstLevel, CallTree.leavesOf_append,
      leavesOf_accumulator, leavesOf_digestNodes, cuts.flatten]
  · rw [merged.length_calls large, length_firstLevel, count]

/-- No call of a reduction has raised. -/
theorem Reduction.answered {schema : Schema Content} {size : Nat}
    {accumulator : Option Content} {summaries : List LoggedSummary}
    {result : Content} {calls : List (ReduceCall Content)}
    (reduction : Reduction schema size accumulator summaries result calls) :
    ∀ call ∈ calls, ∃ answer, call.outcome = .ok answer := by
  intro call member
  rw [reduction.calls_eq] at member
  rcases List.mem_append.mp member with digest | merge
  · exact answered_of_forall₂ reduction.digested call digest
  · exact reduction.merged.answered call merge

/-- A reduce over summaries comes to its end, with the calls of a reduction or
with one that raises. -/
theorem hierarchicalReduce_cases {size : Nat} (large : 2 ≤ size)
    (context : ReduceContext Memory Content) (accumulator : Option Content)
    {summaries : List LoggedSummary} (nonempty : summaries ≠ [])
    (chat : Chat Memory Content) :
    ∃ outcome target,
      hierarchicalReduce context accumulator summaries size chat =
        some (outcome, target) ∧
      ((∃ result calls, outcome = .ok result ∧
          target.calls = chat.calls ++ calls ∧
          Nonempty (Reduction context.schema size accumulator summaries result
            calls)) ∨
        Raised chat (outcome, target)) := by
  have positive : 1 ≤ size := by omega
  have notEmpty : summaries.isEmpty = false := by
    cases summaries with
    | nil => exact absurd rfl nonempty
    | cons first rest => rfl
  unfold hierarchicalReduce
  rw [if_neg (by rw [notEmpty]; decide), if_neg (by omega)]
  have digests := digestLevel_cases positive summaries context chat
  cases asked : askBatches context formatBatchDigestPrompt
      (batches size summaries) chat with
  | mk result after =>
      rw [asked] at digests
      rcases digests with ⟨nodes, calls, ok, areCalls, cuts, digested⟩ | raised
      · have isOk : result = .ok (nodes.map Prod.snd) := ok
        subst isOk
        have levelNonempty : firstLevel accumulator nodes ≠ [] := by
          have some := rounds_pos positive (List.length_pos_iff.mpr nonempty)
          have count := cuts.count
          rw [List.length_map] at count
          apply List.ne_nil_of_length_pos
          rw [length_firstLevel]
          omega
        obtain ⟨outcome, target, merges, result⟩ := mergeLevels_cases large
          context (accumulator.toList ++ nodes.map Prod.snd).length
          (firstLevel accumulator nodes) after levelNonempty (by
            rw [← answers_firstLevel, List.length_map]
            exact Nat.le_succ _)
        rw [answers_firstLevel] at merges
        refine ⟨outcome, target, merges, ?_⟩
        rcases result with ⟨root, later, isRoot, areLater, merged⟩ | raised
        · refine Or.inl ⟨root.answer, calls ++ later, isRoot, ?_,
            reduction_of_merges large cuts digested merged⟩
          rw [areLater, areCalls, List.append_assoc]
        · exact Or.inr (raised.after areCalls)
      · obtain ⟨failure, calls, failed, areCalls, call⟩ := raised
        have isError : result = .error failure := failed
        subst isError
        exact ⟨.error failure, after, rfl,
          Or.inr ⟨failure, calls, rfl, areCalls, call⟩⟩

/-- A reduce over summaries comes to its end.  It raises exactly when one of
its calls has raised; otherwise its calls form a tree over the accumulator and
the summaries. -/
theorem hierarchicalReduce_tree (context : ReduceContext Memory Content)
    (memory : Memory) (accumulator : Option Content)
    {summaries : List LoggedSummary} (nonempty : summaries ≠ [])
    {size : Nat} (large : 2 ≤ size) :
    ∃ outcome calls after,
      hierarchicalReduce context accumulator summaries size
        { memory := memory, calls := [] } =
          some (outcome, { memory := after, calls := calls }) ∧
      (∀ result, outcome = .ok result →
        Nonempty (Reduction context.schema size accumulator summaries result
          calls)) ∧
      ((∃ failure, outcome = .error failure) ↔
        ∃ call ∈ calls, ∃ failure, call.outcome = .error failure) := by
  obtain ⟨outcome, target, reduced, ended⟩ := hierarchicalReduce_cases large
    context accumulator nonempty { memory := memory, calls := [] }
  refine ⟨outcome, target.calls, target.memory, reduced, ?_⟩
  rcases ended with ⟨result, calls, isOk, areCalls, reduction⟩ |
    ⟨failure, calls, failed, areCalls, call, member, raised⟩
  · rw [List.nil_append] at areCalls
    rw [areCalls]
    refine ⟨?_, ?_, ?_⟩
    · intro other isOther
      have same : result = other := Except.ok.inj (isOk.symm.trans isOther)
      rw [← same]
      exact reduction
    · rintro ⟨failure, isFailure⟩
      cases isOk.symm.trans isFailure
    · rintro ⟨call, member, failure, isFailure⟩
      obtain ⟨tree⟩ := reduction
      obtain ⟨answer, isAnswer⟩ := tree.answered call member
      cases isAnswer.symm.trans isFailure
  · rw [List.nil_append] at areCalls
    rw [areCalls]
    have isError : outcome = .error failure := failed
    refine ⟨?_, ?_, ?_⟩
    · intro result isResult
      cases isError.symm.trans isResult
    · exact fun _ => ⟨call, member, failure, raised⟩
    · exact fun _ => ⟨failure, isError⟩

/-! A reduce of three summaries in batches of two, onto a state so far. -/

def soFar : BeliefStateContent :=
  .ofSummary ⟨"We use Postgres.", by decide⟩

def threeSummaries : List LoggedSummary :=
  [{ id := 0, filename := none, createdAt := 0, summary := [] },
    { id := 1, filename := some "a.md", createdAt := 0, summary := [] },
    { id := 2, filename := none, createdAt := 5, summary := [] }]

/-- The answer of an LLM that has been asked so often: two digests, and merges
after them. -/
def toldDigest (times : Nat) : BeliefStateContent :=
  .ofSummary (if times = 0 then ⟨"We moved to SQLite.", by decide⟩
    else if times = 1 then ⟨"Ann syncs daily.", by decide⟩
    else ⟨"We use SQLite, and Ann syncs daily.", by decide⟩)

def digestAnswer (times : Nat) : String :=
  String.ofList (Schema.beliefState.dump (toldDigest times)).dumps

def threePrompts : List String :=
  [batchDigestPrompt (threeSummaries.take 2),
    batchDigestPrompt (threeSummaries.drop 2),
    digestMergePrompt Schema.beliefState [soFar, toldDigest 0],
    digestMergePrompt Schema.beliefState [toldDigest 1],
    digestMergePrompt Schema.beliefState [toldDigest 2, toldDigest 3]]

def threeContext : ReduceContext Nat BeliefStateContent where
  schema := Schema.beliefState
  llmCall times _ _ := (.ok (digestAnswer times), times + 1)
  readAnswer := readBeliefState fun _ => ""
  projectId := 0
  contextModel := "gpt-4o-mini"
  cagMaxPromptTokens := (threePrompts.map estimatedTokens).foldr max 0

theorem threeContext_reads (times : Nat) :
    threeContext.readAnswer (digestAnswer times) = .ok (toldDigest times) := by
  simp only [threeContext, digestAnswer, readBeliefState_dumps]

theorem ask_threeContext {prompt : String} (member : prompt ∈ threePrompts)
    {chat : Chat Nat BeliefStateContent} {times : Nat}
    (count : chat.memory = times) :
    ∃ after, chat.ask threeContext prompt = (.ok (toldDigest times), after) ∧
      after.memory = times + 1 := by
  subst count
  exact ⟨_, @ask_of_answered _ _ threeContext chat prompt
    (digestAnswer chat.memory) _ _
    (List.le_max_of_le' 0 (List.mem_map_of_mem member) (Nat.le_refl _)) rfl
    (threeContext_reads chat.memory), rfl⟩

/-- The reduce makes two calls for digests and three for merges. -/
theorem threeSummaries_reduced :
    ∃ chat, hierarchicalReduce threeContext (some soFar) threeSummaries 2
      { memory := 0, calls := [] } = some (.ok (toldDigest 4), chat) := by
  have known := fun prompt member chat times count =>
    @ask_threeContext prompt member chat times count
  simp only [threePrompts, List.forall_mem_cons] at known
  obtain ⟨first, second, third, fourth, last, -⟩ := known
  obtain ⟨_, asked, count⟩ := first { memory := 0, calls := [] } 0 rfl
  obtain ⟨digested, askedNext, count⟩ := second _ _ count
  have digests : askBatches threeContext formatBatchDigestPrompt
      [threeSummaries.take 2, threeSummaries.drop 2]
      { memory := 0, calls := [] } =
        (.ok [toldDigest 0, toldDigest 1], digested) :=
    askBatches_of_answered rfl asked
      (askBatches_of_answered rfl askedNext rfl)
  obtain ⟨_, asked, count⟩ := third digested _ count
  obtain ⟨merged, askedNext, count⟩ := fourth _ _ count
  have merges : askBatches threeContext
      (formatDigestMergePrompt threeContext.schema)
      [[soFar, toldDigest 0], [toldDigest 1]] digested =
        (.ok [toldDigest 2, toldDigest 3], merged) :=
    askBatches_of_answered rfl asked
      (askBatches_of_answered rfl askedNext rfl)
  obtain ⟨chat, asked, _⟩ := last merged _ count
  have top : askBatches threeContext
      (formatDigestMergePrompt threeContext.schema)
      [[toldDigest 2, toldDigest 3]] merged = (.ok [toldDigest 4], chat) :=
    askBatches_of_answered rfl asked rfl
  have positive : 1 ≤ 2 := by decide
  have several : threeSummaries ≠ [] := List.cons_ne_nil _ _
  have digested := @hierarchicalReduce_of_answered _ _ threeContext (some soFar)
    threeSummaries 2 _ _ _ several positive digests
  have merged := @mergeLevels_of_answered _ _ threeContext 2 2
    [soFar, toldDigest 0, toldDigest 1] _ _ _ (by simp) merges
  have onTop := @mergeLevels_of_answered _ _ threeContext 2 1
    [toldDigest 2, toldDigest 3] _ _ _ (by simp) top
  exact ⟨chat, digested.trans (merged.trans onTop)⟩

theorem hierarchicalReduce_tree_ofThree :
    ∃ calls after,
      hierarchicalReduce threeContext (some soFar) threeSummaries 2
        { memory := 0, calls := [] } =
          some (.ok (toldDigest 4), { memory := after, calls := calls }) ∧
      Nonempty (Reduction Schema.beliefState 2 (some soFar) threeSummaries
        (toldDigest 4) calls) ∧
      ¬ ∃ call ∈ calls, ∃ failure, call.outcome = .error failure := by
  have several : threeSummaries ≠ [] := List.cons_ne_nil _ _
  obtain ⟨outcome, calls, after, reduced, isTree, raises⟩ :=
    hierarchicalReduce_tree threeContext 0 (some soFar) several
      (by decide : 2 ≤ 2)
  obtain ⟨chat, isReduced⟩ := threeSummaries_reduced
  have isOk : outcome = .ok (toldDigest 4) :=
    congrArg Prod.fst (Option.some.inj (reduced.symm.trans isReduced))
  refine ⟨calls, after, isOk ▸ reduced, isTree _ isOk, mt raises.mpr ?_⟩
  rintro ⟨failure, isError⟩
  cases isOk.symm.trans isError

end Proof

end ProjectMemory.Cag
