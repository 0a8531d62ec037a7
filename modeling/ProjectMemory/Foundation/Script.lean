import ProjectMemory.Foundation.Transition

/-!
# Programs that share a state

A script is a program on a shared state, written as its atomic statements.
Other programs may change the state between two of them.  A script meets a
promise under a relation when, however the state moves along the relation
between its statements, each of them moves the state along the relation, and
what the script returns is what was promised.

Several scripts form a pool, in which any of them may execute its next
statement.  A pool of scripts that meet their promises keeps all of them.
-/

namespace Foundation

universe u v w x

/-- A program as its atomic statements; what follows a statement depends on
the state the statement has found. -/
inductive Script (State : Type u) (Error : Type v) (Value : Type w) where
  | finish (result : Except Error Value)
  | execute (statement : State → State)
      (next : State → Script State Error Value)

namespace Script

variable {State : Type u} {Error : Type v} {Value Result : Type w}

def bind (script : Script State Error Value)
    (rest : Value → Script State Error Result) :
    Script State Error Result :=
  match script with
  | .finish (.ok value) => rest value
  | .finish (.error failure) => .finish (.error failure)
  | .execute statement next =>
      .execute statement fun state => (next state).bind rest

instance : Monad (Script State Error) where
  pure value := .finish (.ok value)
  bind := Script.bind

/-- A statement that reads the state and may change it, or is refused. -/
def transaction (body : State → Except Error (State × Value)) :
    Script State Error Value :=
  .execute
    (fun state =>
      match body state with
      | .ok (after, _) => after
      | .error _ => state)
    fun state => .finish ((body state).map Prod.snd)

def read (view : State → Value) : Script State Error Value :=
  transaction fun state => .ok (state, view state)

/-- The next statement; `none` where the script has finished. -/
def step : Script State Error Value → State →
    Option (State × Script State Error Value)
  | .finish _, _ => none
  | .execute statement next, state => some (statement state, next state)

/-- The whole script while nothing else happens. -/
def run : Script State Error Value → State → Except Error Value × State
  | .finish result, state => (result, state)
  | .execute statement next, state => (next state).run (statement state)

/-! ## A script alone -/

@[simp]
theorem run_pure (value : Value) (state : State) :
    (pure value : Script State Error Value).run state = (.ok value, state) :=
  rfl

@[simp]
theorem run_finish (result : Except Error Value) (state : State) :
    (finish result : Script State Error Value).run state = (result, state) :=
  rfl

@[simp]
theorem run_read (view : State → Value) (state : State) :
    (read view : Script State Error Value).run state =
      (.ok (view state), state) :=
  rfl

theorem run_transaction (body : State → Except Error (State × Value))
    (state : State) :
    (transaction body).run state =
      match body state with
      | .ok (after, value) => (.ok value, after)
      | .error failure => (.error failure, state) := by
  unfold transaction
  simp only [run]
  cases body state <;> rfl

theorem run_bind (script : Script State Error Value)
    (rest : Value → Script State Error Result) (state : State) :
    (script >>= rest).run state =
      match script.run state with
      | (.ok value, after) => (rest value).run after
      | (.error failure, after) => (.error failure, after) := by
  change (script.bind rest).run state = _
  induction script generalizing state with
  | finish result => cases result <;> rfl
  | execute statement next inductionHypothesis =>
      exact inductionHypothesis state (statement state)

/-- A script that has returned has returned from its first part. -/
theorem run_bind_eq_ok {script : Script State Error Value}
    {rest : Value → Script State Error Result} {state after : State}
    {result : Result}
    (returned : (script >>= rest).run state = (.ok result, after)) :
    ∃ value between, script.run state = (.ok value, between) ∧
      (rest value).run between = (.ok result, after) := by
  rw [run_bind] at returned
  cases outcome : script.run state with
  | mk first between =>
      rw [outcome] at returned
      cases first with
      | ok value => exact ⟨value, between, rfl, returned⟩
      | error failure => cases returned

/-! ## A script among others -/

/-- From the given state on, however the state moves along the relation
between two statements, each statement moves it along the relation, and the
result is as promised in the state where the script finishes. -/
def Meets (related : State → State → Prop)
    (promise : State → Except Error Value → Prop) :
    Script State Error Value → State → Prop
  | .finish result, state => promise state result
  | .execute statement next, state =>
      ∀ now, related state now →
        related now (statement now) ∧
          (next now).Meets related promise (statement now)

section Rules

variable {related : State → State → Prop}
  {promise : State → Except Error Value → Prop} {state : State}

/-- The first script promises what the rest needs. -/
theorem meets_bind {promise : State → Except Error Result → Prop}
    {script : Script State Error Value}
    {rest : Value → Script State Error Result}
    (meets : script.Meets related
      (fun now result =>
        match result with
        | .ok value => (rest value).Meets related promise now
        | .error failure => promise now (.error failure)) state) :
    (script >>= rest).Meets related promise state := by
  change (script.bind rest).Meets related promise state
  induction script generalizing state with
  | finish result =>
      cases result with
      | ok value => exact meets
      | error failure => exact meets
  | execute statement next inductionHypothesis =>
      intro now moved
      obtain ⟨kept, restMeets⟩ := meets now moved
      exact ⟨kept, inductionHypothesis now restMeets⟩

theorem meets_transaction
    {body : State → Except Error (State × Value)}
    (accepted : ∀ now after value, related state now →
      body now = .ok (after, value) →
        related now after ∧ promise after (.ok value))
    (refused : ∀ now failure, related state now →
      body now = .error failure →
        related now now ∧ promise now (.error failure)) :
    (transaction body).Meets related promise state := by
  intro now moved
  cases outcome : body now with
  | ok result =>
      simp only [outcome, Except.map, Meets]
      exact accepted now result.1 result.2 moved outcome
  | error failure =>
      simp only [outcome, Except.map, Meets]
      exact refused now failure moved outcome

theorem meets_read (reflexive : ∀ state, related state state)
    {view : State → Value}
    (promised : ∀ now, related state now → promise now (.ok (view now))) :
    (read view).Meets related promise state := by
  refine meets_transaction ?_ ?_
  · intro now after value moved returned
    cases returned
    exact ⟨reflexive _, promised _ moved⟩
  · intro now failure moved returned
    cases returned

/-- What is promised may be weakened in the states that can be reached. -/
theorem Meets.mono {other : State → Except Error Value → Prop}
    (reflexive : ∀ state, related state state)
    (transitive : ∀ first second third,
      related first second → related second third → related first third)
    {script : Script State Error Value}
    (meets : script.Meets related promise state)
    (implies : ∀ now result, related state now →
      promise now result → other now result) :
    script.Meets related other state := by
  induction script generalizing state with
  | finish result => exact implies state result (reflexive state) meets
  | execute statement next inductionHypothesis =>
      intro now moved
      obtain ⟨kept, rest⟩ := meets now moved
      refine ⟨kept, inductionHypothesis now rest ?_⟩
      intro later result further
      exact implies later result
        (transitive _ _ _ (transitive _ _ _ moved kept) further)

/-- What the first script promises is what the rest relies on. -/
theorem Meets.bind (first : State → Except Error Value → Prop)
    {promise : State → Except Error Result → Prop}
    (reflexive : ∀ state, related state state)
    (transitive : ∀ first second third,
      related first second → related second third → related first third)
    {script : Script State Error Value}
    {rest : Value → Script State Error Result}
    (meets : script.Meets related first state)
    (continues : ∀ now value, related state now → first now (.ok value) →
      (rest value).Meets related promise now)
    (fails : ∀ now failure, related state now → first now (.error failure) →
      promise now (.error failure)) :
    (script >>= rest).Meets related promise state := by
  refine meets_bind (meets.mono reflexive transitive ?_)
  intro now result moved promised
  cases result with
  | ok value => exact continues now value moved promised
  | error failure => exact fails now failure moved promised

/-- Others may move the state before the script goes on. -/
theorem Meets.later
    (transitive : ∀ first second third,
      related first second → related second third → related first third)
    (stable : ∀ now later result, related now later →
      promise now result → promise later result)
    {script : Script State Error Value} {after : State}
    (meets : script.Meets related promise state)
    (moved : related state after) :
    script.Meets related promise after := by
  cases script with
  | finish result => exact stable state after result moved meets
  | execute statement next =>
      intro now further
      exact meets now (transitive _ _ _ moved further)

/-- Running alone is one way of running among others. -/
theorem Meets.run (reflexive : ∀ state, related state state)
    (transitive : ∀ first second third,
      related first second → related second third → related first third)
    {script : Script State Error Value}
    (meets : script.Meets related promise state) :
    related state (script.run state).2 ∧
      promise (script.run state).2 (script.run state).1 := by
  induction script generalizing state with
  | finish result => exact ⟨reflexive state, meets⟩
  | execute statement next inductionHypothesis =>
      obtain ⟨kept, rest⟩ := meets state (reflexive state)
      obtain ⟨moved, promised⟩ := inductionHypothesis state rest
      exact ⟨transitive _ _ _ kept moved, promised⟩

/-- Whatever the state is, the script moves it along the relation. -/
def Keeps (related : State → State → Prop)
    (script : Script State Error Value) : Prop :=
  ∀ state, script.Meets related (fun _ _ => True) state

theorem keeps_finish (result : Except Error Value) :
    Keeps related (finish result : Script State Error Value) :=
  fun _ => trivial

theorem Keeps.bind {script : Script State Error Value}
    {rest : Value → Script State Error Result}
    (reflexive : ∀ state, related state state)
    (transitive : ∀ first second third,
      related first second → related second third → related first third)
    (keeps : Keeps related script)
    (continues : ∀ value, Keeps related (rest value)) :
    Keeps related (script >>= rest) := by
  intro state
  refine (keeps state).bind _ reflexive transitive ?_ ?_
  · intro now value _ _
    exact continues value now
  · intro now failure _ _
    trivial

theorem keeps_transaction (reflexive : ∀ state, related state state)
    {body : State → Except Error (State × Value)}
    (moves : ∀ now after value, body now = .ok (after, value) →
      related now after) :
    Keeps related (transaction body) := by
  intro state
  refine meets_transaction ?_ ?_
  · intro now after value _ returned
    exact ⟨moves now after value returned, trivial⟩
  · intro now failure _ _
    exact ⟨reflexive now, trivial⟩

theorem keeps_read (reflexive : ∀ state, related state state)
    (view : State → Value) :
    Keeps related (read view : Script State Error Value) := by
  refine keeps_transaction reflexive ?_
  intro now after value returned
  cases returned
  exact reflexive now

end Rules

end Script

/-! ## Pools -/

section Pool

variable {State : Type u} {Error : Type v} {Value : Type w}
  {Request : Type x}

/-- A request with what is left to do of it. -/
structure Call (Request : Type x) (State : Type u) (Error : Type v)
    (Value : Type w) where
  request : Request
  script : Script State Error Value

/-- The shared state and the calls, finished ones included. -/
structure Pool (Request : Type x) (State : Type u) (Error : Type v)
    (Value : Type w) where
  state : State
  calls : List (Call Request State Error Value)

inductive PoolLabel (Request : Type x) where
  | arrive (request : Request)
  | advance (index : Nat)

/-- One step; `none` where the label is not enabled. -/
def poolStep (scriptOf : Request → Script State Error Value)
    (pool : Pool Request State Error Value) :
    PoolLabel Request → Option (Pool Request State Error Value)
  | .arrive request =>
      some { pool with calls := pool.calls ++ [⟨request, scriptOf request⟩] }
  | .advance index =>
      pool.calls[index]?.bind fun call =>
        (call.script.step pool.state).map fun (state, script) => {
          state := state
          calls := pool.calls.set index { call with script := script } }

/-- The pool that serves admitted requests from a state on. -/
def served (scriptOf : Request → Script State Error Value)
    (admitted : Request → Prop) (start : State) :
    TransitionSystem (Pool Request State Error Value)
      (PoolLabel Request) where
  initial pool := pool = { state := start, calls := [] }
  step source label target :=
    poolStep scriptOf source label = some target ∧
      ∀ request, label = .arrive request → admitted request

/-- The run that a list of labels leads to, if all that arrives is
admitted. -/
theorem served_trace {scriptOf : Request → Script State Error Value}
    {admitted : Request → Prop} {start : State}
    {labels : List (PoolLabel Request)}
    (allowed : ∀ request, PoolLabel.arrive request ∈ labels →
      admitted request)
    (pool : Pool Request State Error Value) :
    Run (served scriptOf admitted start).step pool
      (trace (poolStep scriptOf) labels pool) := by
  induction labels generalizing pool with
  | nil => exact Run.stop pool
  | cons label labels inductionHypothesis =>
      rw [trace]
      split
      · exact Run.stop pool
      · rename_i target taken
        refine Run.take ⟨taken, ?_⟩ (inductionHypothesis ?_ target)
        · rintro request rfl
          exact allowed request List.mem_cons_self
        · intro request member
          exact allowed request (List.mem_cons_of_mem _ member)

/-- The state has moved along the relation, and every call will keep its
promise. -/
structure PromisesKept (related : State → State → Prop)
    (promise : Request → State → Except Error Value → Prop) (start : State)
    (pool : Pool Request State Error Value) : Prop where
  state : related start pool.state
  calls : ∀ call ∈ pool.calls,
    call.script.Meets related (promise call.request) pool.state

theorem PromisesKept.step {scriptOf : Request → Script State Error Value}
    {related : State → State → Prop}
    {promise : Request → State → Except Error Value → Prop}
    {admitted : Request → Prop} {start : State}
    (reflexive : ∀ state, related state state)
    (transitive : ∀ first second third,
      related first second → related second third → related first third)
    (stable : ∀ request now later result, related now later →
      promise request now result → promise request later result)
    (arrives : ∀ request state, admitted request → related start state →
      (scriptOf request).Meets related (promise request) state)
    {source target : Pool Request State Error Value}
    {label : PoolLabel Request}
    (kept : PromisesKept related promise start source)
    (taken : (served scriptOf admitted start).step source label target) :
    PromisesKept related promise start target := by
  obtain ⟨next, allowed⟩ := taken
  cases label with
  | arrive request =>
      cases next
      refine ⟨kept.state, fun call isCall => ?_⟩
      rcases List.mem_append.mp isCall with before | isNew
      · exact kept.calls call before
      · rw [List.mem_singleton.mp isNew]
        exact arrives request source.state (allowed request rfl) kept.state
  | advance index =>
      simp only [poolStep, Option.bind_eq_some_iff, Option.map_eq_some_iff]
        at next
      obtain ⟨call, isCall, ⟨state, script⟩, stepped, rfl⟩ := next
      have meets := kept.calls call (List.mem_of_getElem? isCall)
      cases isScript : call.script with
      | finish result =>
          rw [isScript] at stepped
          cases stepped
      | execute statement continuation =>
          rw [isScript] at stepped meets
          cases stepped
          obtain ⟨moved, rest⟩ := meets source.state (reflexive _)
          refine ⟨transitive _ _ _ kept.state moved, fun other isOther => ?_⟩
          rcases List.mem_or_eq_of_mem_set isOther with before | isNew
          · exact (kept.calls other before).later transitive
              (stable other.request) moved
          · rw [isNew]
            exact rest

/-- In every interleaving the scripts of admitted requests keep the relation
and their promises. -/
theorem promisesKept_of_reachable
    {scriptOf : Request → Script State Error Value}
    {related : State → State → Prop}
    {promise : Request → State → Except Error Value → Prop}
    {admitted : Request → Prop} {start : State}
    (reflexive : ∀ state, related state state)
    (transitive : ∀ first second third,
      related first second → related second third → related first third)
    (stable : ∀ request now later result, related now later →
      promise request now result → promise request later result)
    (arrives : ∀ request state, admitted request → related start state →
      (scriptOf request).Meets related (promise request) state)
    {pool : Pool Request State Error Value}
    (reachable : Reachable (served scriptOf admitted start) pool) :
    PromisesKept related promise start pool := by
  refine invariant_of_step ?_ ?_ reachable
  · rintro _ rfl
    exact ⟨reflexive start, fun call isCall => absurd isCall List.not_mem_nil⟩
  · intro source label target kept taken
    exact kept.step reflexive transitive stable arrives taken

end Pool

end Foundation
