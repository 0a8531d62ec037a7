import ProjectMemory.Cag.Writers
import ProjectMemory.Foundation.Drain

/-!
# Draining the event log by sequential updates

`synthesize_and_insert` run to its end with nothing else going on, and the
calls a caller makes until one of them finds an empty window.

A call that fails after its commit leaves a row behind; the sequential
function returns the tables of successful calls only, which is all a drain
needs.
-/

namespace ProjectMemory.Cag

open Foundation

section Sequential

variable {Content : Type}

/-- What is supplied to one call from outside: how ties of the window are
ordered, the LLM, and the values of a new row. -/
structure Environment (Content : Type) where
  order : OrderBy DocumentSummary.createdAt
  synthesize :
    Option Content → List DocumentSummary → Except String Content
  stamp : Stamp

def Environment.choice (environment : Environment Content)
    (answer : Except String Content) : Choice Content where
  order := environment.order
  answer := answer
  fault := none
  stamp := environment.stamp

/-- What a successful call leaves behind, hands to the LLM and returns. -/
structure Update (Content : Type) where
  tables : Tables
  handed : List DocumentSummary
  record : Option (BeliefStateRecord Content)
  remaining : Nat

def synthesizeAndInsert (schema : Schema Content)
    (environment : Environment Content) (tables : Tables) (projectId : Uuid)
    (batchSize : Nat) : Except CagError (Update Content) :=
  if positive : 1 ≤ batchSize then do
    let latest ← getLatest schema tables projectId
    match incrementalPlan environment.order tables.summaries projectId
        ⟨batchSize, positive⟩ latest with
    | none =>
        pure { tables := tables, handed := [], record := none, remaining := 0 }
    | some plan =>
        let content ←
          (environment.synthesize (latest.map BeliefStateRecord.state)
            plan.batch).mapError CagError.callback
        let version := nextVersion tables projectId
        if versionTaken tables projectId version then
          throw (.integrity projectId)
        else
          let row := (plan.draft schema .incremental content).row projectId
            version environment.stamp
          let record ← toRecord schema row
          pure {
            tables := { tables with beliefs := tables.beliefs ++ [row] }
            handed := plan.batch
            record := some record
            remaining := plan.remaining }
  else
    throw .batchSize

end Sequential

/-! ## What one call does -/

section OneCall

variable {Content : Type} {schema : Schema Content}
  {environment : Environment Content} {tables : Tables} {projectId : Uuid}
  {batchSize : Nat} {update : Update Content}

theorem latestWatermark_of_read
    {latest : Option (BeliefStateRecord Content)}
    (read : getLatest schema tables projectId = .ok latest) :
    latest.map BeliefStateRecord.lastSummaryCreatedAt =
      latestWatermark tables.beliefs projectId := by
  rcases readBack_cases read with
    ⟨found, nothing⟩ | ⟨row, record, found, recordIs, converted⟩
  · rw [latestWatermark, found, nothing]
    rfl
  · rw [latestWatermark, found, recordIs, Option.map_some, Option.map_some,
      (toRecord_columns converted).2.2.1]

/-- A successful call finds nothing to do, or appends the row of its plan. -/
theorem synthesizeAndInsert_cases
    (succeeded :
      synthesizeAndInsert schema environment tables projectId batchSize =
        .ok update) :
    ∃ (positive : 1 ≤ batchSize) (latest : _),
      getLatest schema tables projectId = .ok latest ∧
      ((incrementalPlan environment.order tables.summaries projectId
            ⟨batchSize, positive⟩ latest = none ∧
          update = ⟨tables, [], none, 0⟩) ∨
        ∃ plan content record,
          incrementalPlan environment.order tables.summaries projectId
              ⟨batchSize, positive⟩ latest = some plan ∧
            toRecord schema ((plan.draft schema .incremental content).row
                projectId (nextVersion tables projectId)
                environment.stamp) = .ok record ∧
            update = {
              tables := { tables with
                beliefs := tables.beliefs ++
                  [(plan.draft schema .incremental content).row projectId
                    (nextVersion tables projectId) environment.stamp] }
              handed := plan.batch
              record := some record
              remaining := plan.remaining }) := by
  unfold synthesizeAndInsert at succeeded
  split at succeeded
  · rename_i positive
    cases read : getLatest schema tables projectId with
    | error failure =>
        rw [read] at succeeded
        cases succeeded
    | ok latest =>
        refine ⟨positive, latest, rfl, ?_⟩
        rw [read] at succeeded
        simp only [bind, Except.bind] at succeeded
        cases planned : incrementalPlan environment.order tables.summaries
            projectId ⟨batchSize, positive⟩ latest with
        | none =>
            simp only [planned, pure, Except.pure, Except.ok.injEq]
              at succeeded
            exact Or.inl ⟨rfl, succeeded.symm⟩
        | some plan =>
            simp only [planned, versionTaken_nextVersion,
              Bool.false_eq_true, if_false] at succeeded
            cases answered : environment.synthesize
                (latest.map BeliefStateRecord.state) plan.batch with
            | error message =>
                rw [answered] at succeeded
                cases succeeded
            | ok content =>
                simp only [answered, Except.mapError] at succeeded
                cases converted : toRecord schema
                    ((plan.draft schema .incremental content).row projectId
                      (nextVersion tables projectId) environment.stamp) with
                | error failure =>
                    rw [converted] at succeeded
                    cases succeeded
                | ok record =>
                    simp only [converted, pure, Except.pure,
                      Except.ok.injEq] at succeeded
                    exact Or.inr
                      ⟨plan, content, record, rfl, converted,
                        succeeded.symm⟩
  · cases succeeded

theorem pendingRows_eq_rowsAbove (summaries : List DocumentSummary)
    (projectId : Uuid) (watermark : Option Timestamp) :
    pendingRows summaries projectId watermark =
      rowsAbove DocumentSummary.createdAt
        (pendingRows summaries projectId none) watermark := by
  unfold rowsAbove pendingRows
  rw [List.filter_filter]
  apply List.filter_congr
  intro row _
  simp [Bool.and_comm]

theorem takeBatch_eq (size : BatchSize) (window : List DocumentSummary) :
    takeBatch size window =
      (window.take size.val, window.length - size.val) := by
  unfold takeBatch
  split
  · rfl
  · rename_i short
    rw [not_lt] at short
    rw [List.take_of_length_le short, Nat.sub_eq_zero_of_le short]

/-- The row of an update becomes the latest one, so its watermark is the
newest timestamp of the batch. -/
theorem latestWatermark_append {plan : Plan Content} {content : Content}
    (stamp : Stamp) (rebuildType : RebuildType) :
    latestWatermark (tables.beliefs ++
        [(plan.draft schema rebuildType content).row projectId
          (nextVersion tables projectId) stamp]) projectId =
      some (newest DocumentSummary.createdAt plan.batch plan.nonempty) := by
  rw [latestWatermark]
  have isLatest := latestRow_append tables
    ((plan.draft schema rebuildType content).row projectId
      (nextVersion tables projectId) stamp) rfl
  rw [Draft.row] at isLatest ⊢
  rw [isLatest]
  rfl

end OneCall

/-! ## The sequential function is a call that runs alone -/

section Alone

variable {Content : Type} {hashtext : String → BitVec 32}
  {schema : Schema Content} {projectId : Uuid}

def committed (tables : Tables) (phase : Phase Content)
    (choice : Choice Content) : Tables :=
  match phase.commits choice with
  | none => tables
  | some (row, _) => { tables with beliefs := tables.beliefs ++ [row] }

/-- The statements of one call with nothing in between. -/
inductive Alone (schema : Schema Content) (choice : Choice Content)
    (projectId : Uuid) :
    Tables → Phase Content → Tables → Phase Content → Prop
  | stop {tables : Tables} {phase : Phase Content} :
      Alone schema choice projectId tables phase tables phase
  | advance {tables final : Tables} {phase last : Phase Content} :
      phase.finished = false →
      Alone schema choice projectId (committed tables phase choice)
        (phase.next schema choice tables projectId) final last →
      Alone schema choice projectId tables phase final last

/-- One statement that commits nothing and leads to a known phase. -/
theorem Alone.quiet {choice : Choice Content} {tables final : Tables}
    {phase after last : Phase Content}
    (nextIs : phase.next schema choice tables projectId = after)
    (unfinished : phase.finished = false)
    (quiet : phase.commits choice = none)
    (rest : Alone schema choice projectId tables after final last) :
    Alone schema choice projectId tables phase final last := by
  subst nextIs
  apply Alone.advance unfinished
  rw [committed, quiet]
  exact rest

def Phase.entering : Phase Content → Bool
  | .invoked _ => true
  | .running _ .lock => true
  | _ => false

theorem Moves.entering {phase following : Phase Content}
    {choice : Choice Content} {tables : Tables}
    (moves : Moves schema choice tables projectId phase following)
    (entering : following.entering = true)
    (unfinished : phase.finished = false) :
    ∃ call, phase = .invoked call := by
  cases moves with
  | finished isFinished =>
      rw [isFinished] at unfinished
      cases unfinished
  | checked _ => exact ⟨_, rfl⟩
  | @lock request _ => cases request <;> cases entering
  | @getLatest request latest _ =>
      cases request with
      | rebuild mode => cases mode <;> cases entering
      | _ => cases entering
  | _ => cases entering

theorem relock_invoked {call : Call Content} {choice : Choice Content}
    {tables : Tables} (locks : BitVec 32 → Option Nat) (key : BitVec 32)
    (caller : Nat) :
    relock locks key caller (.invoked call)
      ((Phase.invoked call).next schema choice tables projectId) = locks := by
  simp only [Phase.next]
  cases call.check schema <;> rfl

/-- A call that finds its lock free can be advanced through its
statements. -/
theorem follow_of_alone {choice : Choice Content} {caller : Nat}
    {tables final : Tables} {phase last : Phase Content}
    (alone : Alone schema choice projectId tables phase final last) :
    ∀ state : State Content, state.tables = tables →
      state.calls caller = some (projectId, phase) →
      (phase.entering = true →
        state.locks (lockKey hashtext projectId) = none) →
      ∃ labels target,
        follow (step hashtext schema) labels state = some target ∧
          target.tables = final ∧
          target.calls caller = some (projectId, last) := by
  induction alone with
  | stop =>
      intro state sameTables present _
      exact ⟨[], state, rfl, sameTables, present⟩
  | @advance tables final phase last unfinished rest inductionHypothesis =>
      intro state sameTables present free
      have entersFree : phase.waits = true →
          state.locks (lockKey hashtext projectId) = none := by
        intro waiting
        apply free
        unfold Phase.waits at waiting
        split at waiting
        · rfl
        · cases waiting
      have moved := step_advance hashtext schema choice present unfinished
        entersFree
      obtain ⟨labels, target, followed, outcome⟩ := inductionHypothesis
        (state.move hashtext schema caller projectId phase choice)
        (by
          rw [← sameTables]
          unfold State.move committed
          cases phase.commits choice <;> rfl)
        (by rw [move_calls, Function.update_self, sameTables])
        (by
          intro entering
          obtain ⟨call, rfl⟩ :=
            (moves_next ..).entering entering unfinished
          rw [move_locks, relock_invoked]
          exact free rfl)
      refine ⟨.advance caller choice :: labels, target, ?_, outcome⟩
      rw [follow, moved, Option.bind_some]
      exact followed

/-- A call that is made while its lock is free can run alone to its end. -/
theorem follow_of_alone_invoked {choice : Choice Content} {caller : Nat}
    {call : Call Content} {state : State Content} {final : Tables}
    {last : Phase Content}
    (alone : Alone schema choice projectId state.tables (.invoked call) final
      last)
    (unused : state.calls caller = none)
    (free : state.locks (lockKey hashtext projectId) = none) :
    ∃ labels target,
      follow (step hashtext schema) labels state = some target ∧
        target.tables = final ∧
        target.calls caller = some (projectId, last) := by
  have invoked : step hashtext schema state (.invoke caller projectId call) =
      some { state with
        calls := Function.update state.calls caller
          (some (projectId, .invoked call)) } := by
    simp [step, unused]
  obtain ⟨labels, target, followed, sameTables, present⟩ :=
    follow_of_alone alone
      { state with
        calls := Function.update state.calls caller
          (some (projectId, .invoked call)) }
      rfl (Function.update_self ..) (fun _ => free)
  refine ⟨.invoke caller projectId call :: labels, target, ?_, sameTables,
    present⟩
  rw [follow, invoked, Option.bind_some]
  exact followed

def Update.reply (update : Update Content) : Reply Content :=
  match update.record with
  | none => .nothing
  | some record => .synthesized record update.remaining

theorem alone_of_synthesizeAndInsert {environment : Environment Content}
    {tables : Tables} {batchSize : Nat} {update : Update Content}
    (succeeded : synthesizeAndInsert schema environment tables projectId
      batchSize = .ok update) :
    ∃ choice, Alone schema choice projectId tables
      (.invoked (.synthesizeAndInsert batchSize)) update.tables
      (.returned update.reply) := by
  obtain ⟨positive, latest, read, outcome⟩ :=
    synthesizeAndInsert_cases succeeded
  have enter {choice : Choice Content} {final : Tables}
      {last : Phase Content} (healthy : choice.fault = none)
      (rest : Alone schema choice projectId tables
        (.running (.synthesizeAndInsert ⟨batchSize, positive⟩)
          (.getWindow latest latest)) final last) :
      Alone schema choice projectId tables
        (.invoked (.synthesizeAndInsert batchSize)) final last := by
    have checked : (Phase.invoked (.synthesizeAndInsert batchSize)).next
        schema choice tables projectId =
        .running (.synthesizeAndInsert ⟨batchSize, positive⟩) .lock := by
      simp [Phase.next, Call.check, positive]
    have locked : (Phase.running (.synthesizeAndInsert ⟨batchSize, positive⟩)
        .lock).next schema choice tables projectId =
        .running (.synthesizeAndInsert ⟨batchSize, positive⟩) .getLatest := by
      simp [Phase.next, healthy, Request.statement, Request.afterLock]
    have readLatest : (Phase.running
        (.synthesizeAndInsert ⟨batchSize, positive⟩)
        .getLatest).next schema choice tables projectId =
        .running (.synthesizeAndInsert ⟨batchSize, positive⟩)
          (.getWindow latest latest) := by
      simp [Phase.next, healthy, Request.statement, read,
        Request.afterLatest]
    exact Alone.quiet checked rfl rfl
      (Alone.quiet locked rfl rfl (Alone.quiet readLatest rfl rfl rest))
  rcases outcome with ⟨noPlan, rfl⟩ |
    ⟨plan, content, record, planned, converted, rfl⟩
  · refine ⟨environment.choice (.error ""), enter rfl ?_⟩
    refine Alone.quiet ?_ rfl rfl Alone.stop
    simp [Phase.next, Environment.choice, Request.statement, Request.plan,
      noPlan, Update.reply]
  · refine ⟨environment.choice (.ok content), enter rfl ?_⟩
    have readWindow : (Phase.running
        (.synthesizeAndInsert ⟨batchSize, positive⟩)
        (.getWindow latest latest)).next schema
        (environment.choice (.ok content)) tables projectId =
        .running (.synthesizeAndInsert ⟨batchSize, positive⟩)
          (.callback latest plan) := by
      simp [Phase.next, Environment.choice, Request.statement, Request.plan,
        planned]
    have inserted (pending : Pending Content) : (Phase.running
        (.synthesizeAndInsert ⟨batchSize, positive⟩)
        (.insert pending (nextVersion tables projectId))).next schema
        (environment.choice (.ok content)) tables projectId =
        .running (.synthesizeAndInsert ⟨batchSize, positive⟩)
          (.commit pending (pending.draft.row projectId
            (nextVersion tables projectId) environment.stamp)) := by
      simp [Phase.next, Environment.choice, Request.statement,
        versionTaken_nextVersion]
    refine Alone.quiet readWindow rfl rfl ?_
    refine Alone.quiet rfl rfl rfl ?_
    refine Alone.quiet rfl rfl rfl ?_
    refine Alone.quiet (inserted _) rfl rfl ?_
    refine Alone.advance rfl ?_
    refine Alone.quiet ?_ rfl rfl Alone.stop
    simp only [Phase.next, Environment.choice, Request.statement,
      Option.bind_none, Request.rebuildType, converted]
    rfl

/-- A successful sequential call is a call of the concurrent system that finds
its lock free and runs alone to its end. -/
theorem follow_synthesizeAndInsert {environment : Environment Content}
    {batchSize : Nat} {update : Update Content} {state : State Content}
    {caller : Nat}
    (succeeded : synthesizeAndInsert schema environment state.tables
      projectId batchSize = .ok update)
    (unused : state.calls caller = none)
    (free : state.locks (lockKey hashtext projectId) = none) :
    ∃ labels target,
      follow (step hashtext schema) labels state = some target ∧
        target.tables = update.tables ∧
        target.calls caller = some (projectId, .returned update.reply) := by
  obtain ⟨choice, alone⟩ := alone_of_synthesizeAndInsert succeeded
  exact follow_of_alone_invoked alone unused free

end Alone

/-! ## Draining -/

section Draining

variable {Content : Type} {schema : Schema Content} {projectId : Uuid}
  {batchSize : Nat} {tables : Tables} {draws : List (Draw DocumentSummary)}

end Draining

section Logs

/-- A log of project one with one summary for each timestamp. -/
def logOf (createdAts : List Timestamp) : Tables where
  summaries := createdAts.zipIdx.map fun (createdAt, index) =>
    { id := BitVec.ofNat 128 index, documentId := BitVec.ofNat 128 index,
      projectId := 1, rawTextFallback := none, createdAt := createdAt }
  beliefs := []

end Logs

end ProjectMemory.Cag
