import Mathlib.Data.List.Range
import ProjectMemory.Cag.Writers

/-!
# Versions form a gap-free, append-only history

The advisory lock serializes the read of the maximal version and the insert of
its successor, also between projects whose keys collide.  From this the rows
of every project carry the versions one to `n` in commit order, whatever calls
fail and wherever.
-/

namespace ProjectMemory.Cag

open Foundation

/-! ## Numbered histories -/

section Numbered

/-- The rows carry the versions `1, 2, …` in order. -/
def Numbered (rows : List BeliefState) : Prop :=
  rows.map BeliefState.version = List.range' 1 rows.length

theorem numbered_nil : Numbered [] :=
  rfl

theorem Numbered.append {rows : List BeliefState} {row : BeliefState}
    (numbered : Numbered rows) (next : row.version = rows.length + 1) :
    Numbered (rows ++ [row]) := by
  unfold Numbered at numbered ⊢
  rw [List.map_append, numbered, List.length_append, List.map_singleton,
    List.length_singleton, List.range'_concat, next, Nat.one_mul,
    Nat.add_comm 1]

theorem Numbered.version_mem {rows : List BeliefState}
    (numbered : Numbered rows) {row : BeliefState} (member : row ∈ rows) :
    1 ≤ row.version ∧ row.version ≤ rows.length := by
  have listed : row.version ∈ List.range' 1 rows.length := by
    rw [← numbered]
    exact List.mem_map_of_mem member
  rw [List.mem_range'_1] at listed
  omega

theorem nextVersion_of_numbered {tables : Tables} {projectId : Uuid}
    (numbered : Numbered (beliefsOf tables.beliefs projectId)) :
    nextVersion tables projectId =
      (beliefsOf tables.beliefs projectId).length + 1 := by
  unfold nextVersion
  rw [numbered]
  cases (beliefsOf tables.beliefs projectId).length with
  | zero => rfl
  | succ total =>
      have greatest :
          (List.range' 1 (total + 1)).max? = some (total + 1) := by
        rw [List.max?_eq_some_iff]
        constructor
        · rw [List.mem_range'_1]
          omega
        · intro version listed
          rw [List.mem_range'_1] at listed
          omega
      rw [greatest, Option.getD_some]

theorem versionTaken_of_numbered {tables : Tables} {projectId : Uuid}
    (numbered : Numbered (beliefsOf tables.beliefs projectId)) :
    versionTaken tables projectId
      ((beliefsOf tables.beliefs projectId).length + 1) = false := by
  unfold versionTaken
  rw [List.any_eq_false]
  intro row member
  have bounds := numbered.version_mem member
  simp only [decide_eq_true_eq]
  omega

end Numbered

/-! ## The lock -/

section Locking

variable {Content : Type} {hashtext : String → BitVec 32}
  {schema : Schema Content}

/-- Every call inside its critical section owns the lock of its key. -/
def LockHeld (hashtext : String → BitVec 32) (state : State Content) : Prop :=
  ∀ caller projectId phase,
    state.calls caller = some (projectId, phase) →
      phase.holdsLock = true →
      state.locks (lockKey hashtext projectId) = some caller

/-- A call enters its critical section only through the lock statement. -/
theorem Moves.holdsLock {choice : Choice Content} {tables : Tables}
    {projectId : Uuid} {phase following : Phase Content}
    (moves : Moves schema choice tables projectId phase following)
    (holds : following.holdsLock = true) :
    phase.holdsLock = true ∨
      phase.waits = true ∧ choice.fault = none := by
  cases moves with
  | finished _ => exact Or.inl holds
  | lock healthy => exact Or.inr ⟨rfl, healthy⟩
  | getLatest | getLatestFull | getWindow | callback | maxVersion | insert =>
      exact Or.inl rfl
  | _ => cases holds

theorem lockHeld_step {state target : State Content}
    {label : Label Content} (held : LockHeld hashtext state)
    (taken : step hashtext schema state label = some target) :
    LockHeld hashtext target := by
  rcases step_cases taken with
    ⟨row, _, _, rfl⟩ | ⟨caller, projectId, call, _, unused, rfl⟩ |
      ⟨caller, choice, projectId, phase, _, present, _, notBlocked, rfl⟩
  · exact held
  · intro other otherProject otherPhase otherPresent holds
    rcases update_some_cases otherPresent with ⟨_, new⟩ | ⟨_, old⟩
    · simp only [Prod.mk.injEq] at new
      rw [new.2] at holds
      cases holds
    · exact held other otherProject otherPhase old holds
  · intro other otherProject otherPhase otherPresent holds
    rw [move_calls] at otherPresent
    rw [move_locks]
    unfold relock
    rcases update_some_cases otherPresent with ⟨same, new⟩ | ⟨same, old⟩
    · simp only [Prod.mk.injEq] at new
      obtain ⟨rfl, rfl⟩ := new
      rw [if_pos holds, Function.update_self, same]
    · have otherHeld := held other otherProject otherPhase old holds
      -- the moving call cannot hold, nor take, the other call's key
      have keysDiffer :
          phase.holdsLock = true ∨
              (phase.next schema choice state.tables projectId
                ).holdsLock = true →
            lockKey hashtext otherProject ≠ lockKey hashtext projectId := by
        intro moving sameKey
        have owner :
            phase.holdsLock = true ∨
              phase.waits = true ∧ choice.fault = none := by
          rcases moving with before | after
          · exact Or.inl before
          · exact (moves_next ..).holdsLock after
        rcases owner with before | ⟨waiting, healthy⟩
        · have mine := held caller projectId phase present before
          rw [← sameKey, otherHeld, Option.some.injEq] at mine
          exact same mine
        · simp [State.blocked, waiting, healthy, ← sameKey, otherHeld]
            at notBlocked
      split
      · rename_i after
        rw [Function.update_of_ne (keysDiffer (Or.inr after))]
        exact otherHeld
      · split
        · rename_i before
          rw [Function.update_of_ne (keysDiffer (Or.inl before))]
          exact otherHeld
        · exact otherHeld

theorem lockHeld_reachable {state : State Content}
    (reachable : Reachable (writers hashtext schema) state) :
    LockHeld hashtext state := by
  refine invariant_of_step ?_ (fun _ _ _ => lockHeld_step) reachable
  intro start isStart caller projectId phase present
  rw [isStart] at present
  cases present

/-- Two calls in their critical sections work on different projects. -/
theorem LockHeld.exclusive {state : State Content}
    (held : LockHeld hashtext state)
    {first second : Nat} {projectId : Uuid}
    {firstPhase secondPhase : Phase Content}
    (firstPresent : state.calls first = some (projectId, firstPhase))
    (firstHolds : firstPhase.holdsLock = true)
    (secondPresent : state.calls second = some (projectId, secondPhase))
    (secondHolds : secondPhase.holdsLock = true) :
    first = second := by
  have left := held first projectId firstPhase firstPresent firstHolds
  have right := held second projectId secondPhase secondPresent secondHolds
  rw [left, Option.some.injEq] at right
  exact right

/-- While one call is in its critical section, no other call of the project
is. -/
theorem LockHeld.idle {state : State Content}
    (held : LockHeld hashtext state)
    {caller other : Nat} {projectId : Uuid}
    {phase otherPhase : Phase Content}
    (present : state.calls caller = some (projectId, phase))
    (holds : phase.holdsLock = true)
    (otherPresent : state.calls other = some (projectId, otherPhase))
    (different : other ≠ caller) :
    otherPhase.holdsLock = false := by
  by_contra isHolding
  rw [Bool.not_eq_false] at isHolding
  exact different (held.exclusive otherPresent isHolding present holds)

end Locking

/-! ## The version invariant -/

section Invariant

variable {Content : Type} {hashtext : String → BitVec 32}
  {schema : Schema Content}

/-- A version that has been read is the successor of the number of rows. -/
def Phase.VersionReady (projectId : Uuid) (count : Nat) :
    Phase Content → Prop
  | .running _ (.insert _ version) => version = count + 1
  | .running _ (.commit _ row) =>
      row.projectId = projectId ∧ row.version = count + 1
  | _ => True

def Phase.hasCommitted : Phase Content → Bool
  | .running _ (.refresh _ _) => true
  | .returned .nothing => false
  | .returned _ => true
  | .raised (.refresh _) => true
  | .raised (.invalidBeliefState _ _) => true
  | _ => false

/-- The exceptions that report a duplicate version. -/
def CagError.isConflict : CagError → Bool
  | .integrity _ => true
  | .versionConflict _ => true
  | _ => false

def Phase.reportsConflict : Phase Content → Bool
  | .raised error => error.isConflict
  | _ => false

/-- The part of the state every writer relies on: gap-free versions, version
numbers that are still current when they are used, and a call past its commit
behind every row. -/
structure VersionInvariant (state : State Content) : Prop where
  numbered : ∀ projectId, Numbered (beliefsOf state.tables.beliefs projectId)
  ready : ∀ caller projectId phase,
    state.calls caller = some (projectId, phase) →
      phase.VersionReady projectId
        (beliefsOf state.tables.beliefs projectId).length
  authored : ∀ row ∈ state.tables.beliefs, ∃ phase,
    state.calls (state.origin (rowKey row)).author =
        some (row.projectId, phase) ∧
      phase.hasCommitted = true
  noConflict : ∀ caller projectId phase,
    state.calls caller = some (projectId, phase) →
      phase.reportsConflict = false

theorem VersionReady.of_not_holding {projectId : Uuid} {count : Nat}
    {phase : Phase Content} (idle : phase.holdsLock = false) :
    phase.VersionReady projectId count := by
  unfold Phase.VersionReady
  split
  · cases idle
  · cases idle
  · trivial

theorem Moves.versionReady {tables : Tables} {projectId : Uuid}
    {phase following : Phase Content} {choice : Choice Content}
    (moves : Moves schema choice tables projectId phase following)
    (numbered : Numbered (beliefsOf tables.beliefs projectId))
    (ready : phase.VersionReady projectId
      (beliefsOf tables.beliefs projectId).length) :
    following.VersionReady projectId
      (beliefsOf tables.beliefs projectId).length := by
  cases moves with
  | finished _ => exact ready
  | @lock request _ => cases request <;> trivial
  | @getLatest request latest _ =>
      cases request with
      | rebuild mode => cases mode <;> trivial
      | _ => trivial
  | maxVersion => exact nextVersion_of_numbered numbered
  | insert => exact ⟨rfl, ready⟩
  | _ => trivial

theorem Moves.reportsConflict {tables : Tables} {projectId : Uuid}
    {phase following : Phase Content} {choice : Choice Content}
    (moves : Moves schema choice tables projectId phase following)
    (numbered : Numbered (beliefsOf tables.beliefs projectId))
    (ready : phase.VersionReady projectId
      (beliefsOf tables.beliefs projectId).length)
    (unfinished : phase.finished = false) :
    following.reportsConflict = false := by
  cases moves with
  | finished isFinished =>
      rw [isFinished] at unfinished
      cases unfinished
  | conflict taken =>
      -- the version that was read is still the next one
      have current :
          _ = (beliefsOf tables.beliefs projectId).length + 1 := ready
      rw [current, versionTaken_of_numbered numbered] at taken
      cases taken
  | _ => rfl

theorem Moves.hasCommitted {tables : Tables} {projectId : Uuid}
    {phase following : Phase Content} {choice : Choice Content}
    (moves : Moves schema choice tables projectId phase following)
    (committed : phase.hasCommitted = true) :
    following.hasCommitted = true := by
  cases moves with
  | finished _ => exact committed
  | @failed request pc message converted =>
      cases pc with
      | refresh pending row => cases converted
      | _ => cases committed
  | refreshFailed | unreadable => rfl
  | @refresh request pending row record => cases request <;> rfl
  | _ => cases committed

theorem versionInvariant_invoke {state : State Content} {caller : Nat}
    {projectId : Uuid} {call : Call Content}
    (invariant : VersionInvariant state)
    (unused : state.calls caller = none) :
    VersionInvariant { state with
      calls := Function.update state.calls caller
        (some (projectId, .invoked call)) } := by
  refine ⟨invariant.numbered, ?_, ?_, ?_⟩
  · intro other otherProject otherPhase otherPresent
    rcases update_some_cases otherPresent with ⟨_, new⟩ | ⟨_, old⟩
    · simp only [Prod.mk.injEq] at new
      rw [new.2]
      trivial
    · exact invariant.ready other otherProject otherPhase old
  · intro row member
    obtain ⟨authorPhase, authorPresent, committed⟩ :=
      invariant.authored row member
    refine ⟨authorPhase, ?_, committed⟩
    have other : (state.origin (rowKey row)).author ≠ caller := by
      intro same
      rw [same, unused] at authorPresent
      cases authorPresent
    simp only [Function.update_of_ne other]
    exact authorPresent
  · intro other otherProject otherPhase otherPresent
    rcases update_some_cases otherPresent with ⟨_, new⟩ | ⟨_, old⟩
    · simp only [Prod.mk.injEq] at new
      rw [new.2]
      rfl
    · exact invariant.noConflict other otherProject otherPhase old

section Move

variable {state : State Content} {caller : Nat} {projectId : Uuid}
  {phase : Phase Content} {choice : Choice Content}

theorem noConflict_move (hashtext : String → BitVec 32)
    (schema : Schema Content) (choice : Choice Content)
    (invariant : VersionInvariant state)
    (present : state.calls caller = some (projectId, phase))
    (unfinished : phase.finished = false) :
    ∀ other otherProject otherPhase,
      (state.move hashtext schema caller projectId phase choice).calls other =
          some (otherProject, otherPhase) →
        otherPhase.reportsConflict = false := by
  intro other otherProject otherPhase otherPresent
  rw [move_calls] at otherPresent
  rcases update_some_cases otherPresent with ⟨_, new⟩ | ⟨_, old⟩
  · simp only [Prod.mk.injEq] at new
    rw [new.2]
    exact (moves_next ..).reportsConflict (invariant.numbered projectId)
      (invariant.ready caller projectId phase present) unfinished
  · exact invariant.noConflict other otherProject otherPhase old

theorem versionInvariant_move_quiet (invariant : VersionInvariant state)
    (present : state.calls caller = some (projectId, phase))
    (unfinished : phase.finished = false)
    (quiet : phase.commits choice = none) :
    VersionInvariant
      (state.move hashtext schema caller projectId phase choice) := by
  obtain ⟨sameTables, sameOrigin⟩ :=
    move_of_commits_none hashtext schema state caller projectId quiet
  constructor
  case noConflict =>
    exact noConflict_move hashtext schema choice invariant present unfinished
  case numbered =>
    rw [sameTables]
    exact invariant.numbered
  case ready =>
    intro other otherProject otherPhase otherPresent
    rw [sameTables]
    rw [move_calls] at otherPresent
    rcases update_some_cases otherPresent with ⟨_, new⟩ | ⟨_, old⟩
    · simp only [Prod.mk.injEq] at new
      obtain ⟨rfl, rfl⟩ := new
      exact (moves_next ..).versionReady (invariant.numbered otherProject)
        (invariant.ready caller otherProject phase present)
    · exact invariant.ready other otherProject otherPhase old
  case authored =>
    rw [sameTables, sameOrigin, move_calls]
    intro row member
    obtain ⟨authorPhase, authorPresent, authorCommitted⟩ :=
      invariant.authored row member
    by_cases same : (state.origin (rowKey row)).author = caller
    · rw [same, present, Option.some.injEq, Prod.mk.injEq] at authorPresent
      obtain ⟨rfl, rfl⟩ := authorPresent
      refine ⟨phase.next schema choice state.tables row.projectId, ?_,
        (moves_next ..).hasCommitted authorCommitted⟩
      rw [same, Function.update_self]
    · refine ⟨authorPhase, ?_, authorCommitted⟩
      rw [Function.update_of_ne same]
      exact authorPresent

/-- A row about to be committed has a key no stored row has. -/
theorem VersionInvariant.fresh_key (invariant : VersionInvariant state)
    {row : BeliefState}
    (version : row.version =
      (beliefsOf state.tables.beliefs row.projectId).length + 1) :
    ∀ other ∈ state.tables.beliefs, rowKey other ≠ rowKey row := by
  intro other member same
  simp only [rowKey, Prod.mk.injEq] at same
  have bounds := (invariant.numbered row.projectId).version_mem
    (mem_beliefsOf.mpr ⟨member, same.1⟩)
  omega

/-- Committing a row keeps the invariant: its version is the next one, and no
other call of the project is in its critical section. -/
theorem versionInvariant_move_commit (held : LockHeld hashtext state)
    (invariant : VersionInvariant state)
    (present : state.calls caller = some (projectId, phase))
    (unfinished : phase.finished = false)
    {row : BeliefState} {pending : Pending Content}
    (committed : phase.commits choice = some (row, pending)) :
    VersionInvariant
      (state.move hashtext schema caller projectId phase choice) := by
  obtain ⟨appended, newOrigin⟩ :=
    move_of_commits_some hashtext schema state caller projectId committed
  have noConflict :=
    noConflict_move hashtext schema choice invariant present unfinished
  obtain ⟨request, phaseIs, nextIs⟩ :=
    commits_cases schema projectId committed
  subst phaseIs
  obtain ⟨ofProject, version⟩ :=
    invariant.ready caller projectId _ present
  subst ofProject
  constructor
  case noConflict => exact noConflict
  case numbered =>
    intro other
    rw [appended]
    by_cases same : row.projectId = other
    · rw [← same, beliefsOf_append_same]
      exact (invariant.numbered row.projectId).append version
    · rw [beliefsOf_append_other _ same]
      exact invariant.numbered other
  case ready =>
    intro other otherProject otherPhase otherPresent
    rw [appended]
    rw [move_calls, nextIs] at otherPresent
    rcases update_some_cases otherPresent with ⟨_, new⟩ | ⟨different, old⟩
    · simp only [Prod.mk.injEq] at new
      rw [new.2]
      trivial
    · by_cases sameProject : row.projectId = otherProject
      · subst sameProject
        exact VersionReady.of_not_holding
          (held.idle present rfl old different)
      · rw [beliefsOf_append_other _ sameProject]
        exact invariant.ready other otherProject otherPhase old
  case authored =>
    rw [appended, newOrigin, move_calls, nextIs]
    intro other member
    rcases List.mem_append.mp member with old | new
    · rw [Function.update_of_ne (invariant.fresh_key version other old)]
      obtain ⟨authorPhase, authorPresent, authorCommitted⟩ :=
        invariant.authored other old
      by_cases same : (state.origin (rowKey other)).author = caller
      · rw [same, present, Option.some.injEq, Prod.mk.injEq]
          at authorPresent
        rw [← authorPresent.2] at authorCommitted
        cases authorCommitted
      · refine ⟨authorPhase, ?_, authorCommitted⟩
        rw [Function.update_of_ne same]
        exact authorPresent
    · rw [List.mem_singleton] at new
      subst new
      refine ⟨.running request (.refresh pending other), ?_, rfl⟩
      rw [Function.update_self]
      simp only [State.originOf, Function.update_self]

end Move

theorem versionInvariant_step {state target : State Content}
    {label : Label Content} (held : LockHeld hashtext state)
    (invariant : VersionInvariant state)
    (taken : step hashtext schema state label = some target) :
    VersionInvariant target := by
  rcases step_cases taken with
    ⟨row, _, _, rfl⟩ | ⟨caller, projectId, call, _, unused, rfl⟩ |
      ⟨caller, choice, projectId, phase, _, present, unfinished, _, rfl⟩
  · exact ⟨invariant.numbered, invariant.ready, invariant.authored,
      invariant.noConflict⟩
  · exact versionInvariant_invoke invariant unused
  · cases committed : phase.commits choice with
    | none =>
        exact versionInvariant_move_quiet invariant present unfinished
          committed
    | some written =>
        exact versionInvariant_move_commit held invariant present unfinished
          committed

theorem versionInvariant_reachable {state : State Content}
    (reachable : Reachable (writers hashtext schema) state) :
    VersionInvariant state := by
  refine invariant_of_reachable_step ?_ ?_ reachable
  · intro start isStart
    rw [isStart]
    refine ⟨fun _ => numbered_nil, ?_, ?_, ?_⟩
    · intro caller projectId phase present
      cases present
    · intro row member
      cases member
    · intro caller projectId phase present
      cases present
  · intro source label target sourceReachable invariant taken
    exact versionInvariant_step
      (lockHeld_reachable sourceReachable) invariant taken

end Invariant

/-! ## The history law -/

section History

variable {Content : Type} {hashtext : String → BitVec 32}
  {schema : Schema Content}

/-- No step changes or removes a committed row. -/
theorem beliefs_prefix_step {state target : State Content}
    {label : Label Content}
    (taken : step hashtext schema state label = some target) :
    state.tables.beliefs <+: target.tables.beliefs := by
  rcases step_cases taken with
    ⟨row, _, _, rfl⟩ | ⟨caller, projectId, call, _, _, rfl⟩ |
      ⟨caller, choice, projectId, phase, _, _, _, _, rfl⟩
  · exact List.prefix_rfl
  · exact List.prefix_rfl
  · cases committed : phase.commits choice with
    | none =>
        have kept := (move_of_commits_none hashtext schema state caller
          projectId committed).1
        exact kept ▸ List.prefix_rfl
    | some written =>
        have appended := (move_of_commits_some hashtext schema state caller
          projectId committed).1
        exact appended ▸ List.prefix_append _ _

/-- The call ended in a way that has added no row: the LLM callback or a
statement before the commit raised, the insert violated a constraint, or there
was nothing to do. -/
def Phase.endedWithoutRow : Phase Content → Bool
  | .returned .nothing => true
  | .raised (.callback _) => true
  | .raised (.statement _) => true
  | .raised (.integrity _) => true
  | .raised (.versionConflict _) => true
  | .raised .batchSize => true
  | _ => false

/-- The law of the version history in one state: gap-free versions, every
committed row unchanged in every later state, no row from a call that ended
without one, and no version conflict. -/
structure VersionHistory (hashtext : String → BitVec 32)
    (schema : Schema Content) (state : State Content) : Prop where
  gapFree : ∀ projectId,
    (beliefsOf state.tables.beliefs projectId).map BeliefState.version =
      List.range' 1 (beliefsOf state.tables.beliefs projectId).length
  appendOnly : ∀ run, Run (writers hashtext schema).step state run →
    ∀ later ∈ visited state run,
      state.tables.beliefs <+: later.tables.beliefs
  noRow : ∀ caller projectId phase,
    state.calls caller = some (projectId, phase) →
      phase.endedWithoutRow = true →
      ∀ row ∈ state.tables.beliefs,
        (state.origin (rowKey row)).author ≠ caller
  noConflict : ∀ caller projectId conflicting,
    state.calls caller ≠
      some (projectId, .raised (.versionConflict conflicting))

/-- In every reachable state of any number of concurrent calls on any set of
projects the version history is gap-free and append-only. -/
theorem version_history_reachable {state : State Content}
    (reachable : Reachable (writers hashtext schema) state) :
    VersionHistory hashtext schema state := by
  have invariant := versionInvariant_reachable reachable
  refine ⟨invariant.numbered, ?_, ?_, ?_⟩
  · intro run isRun
    exact isRun.invariant
      (fun _ _ _ soFar taken => soFar.trans (beliefs_prefix_step taken))
      List.prefix_rfl
  · intro caller projectId phase present ended row member same
    obtain ⟨authorPhase, authorPresent, committed⟩ :=
      invariant.authored row member
    rw [same, present, Option.some.injEq, Prod.mk.injEq] at authorPresent
    rw [← authorPresent.2] at committed
    unfold Phase.hasCommitted at committed
    unfold Phase.endedWithoutRow at ended
    split at ended <;> simp_all
  · intro caller projectId conflicting present
    have quiet := invariant.noConflict caller projectId _ present
    simp [Phase.reportsConflict, CagError.isConflict] at quiet

def plainChoice (content : Content)
    (order : OrderBy DocumentSummary.createdAt) (stamp : Stamp) :
    Choice Content where
  order := order
  answer := .ok content
  fault := none
  stamp := stamp

/-- Two inserts whose statements interleave, and a third whose insert
statement fails. -/
def interleavedInserts : List (Label String) :=
  let healthy : Choice String :=
    plainChoice "state" (OrderBy.stable _) { id := 7, now := 0 }
  let failing : Choice String := { healthy with fault := some "disk full" }
  let call : Call String := .insertVersion "state" .full 5 1
  [.invoke 0 1 call, .invoke 1 1 call, .invoke 2 1 call,
    .advance 0 healthy, .advance 1 healthy, .advance 2 healthy,
    .advance 1 healthy, .advance 1 healthy, .advance 1 healthy,
    .advance 1 healthy, .advance 0 healthy, .advance 1 healthy,
    .advance 0 healthy, .advance 0 healthy, .advance 0 healthy,
    .advance 2 healthy, .advance 2 healthy, .advance 2 failing]

theorem interleavedInserts_enabled :
    (follow (step (fun _ => 0) textSchema) interleavedInserts
      State.empty).isSome = true := by
  rfl

def interleavedState : State String :=
  followed (step (fun _ => 0) textSchema) interleavedInserts State.empty
    interleavedInserts_enabled

theorem version_history_interleavedInserts :
    interleavedState.tables.beliefs.map BeliefState.version = [1, 2] ∧
      VersionHistory (fun _ => 0) textSchema interleavedState :=
  ⟨rfl, version_history_reachable
    (reachable_writers interleavedInserts_enabled)⟩

end History

end ProjectMemory.Cag
