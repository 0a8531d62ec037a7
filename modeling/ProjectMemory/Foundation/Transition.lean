import Mathlib.Data.List.Basic

/-!
# Labelled transition systems

A system is given by its initial states and its labelled steps.  The module
provides the three proof rules used for safety:

* an inductive property holds of every reachable state;
* reachability is inherited along a projection that may stutter;
* when one step preserves a property exactly under a guard, a run visits only
  good states exactly when every one of its steps meets the guard.
-/

namespace Foundation

universe u v w x

/-- Initial states together with labelled steps. -/
structure TransitionSystem (State : Type u) (Label : Type v) where
  initial : State → Prop
  step : State → Label → State → Prop

namespace TransitionSystem

/-- The system whose steps are computed by a partial function: a label is
enabled where the function returns a state. -/
def ofNext {State : Type u} {Label : Type v}
    (initial : State → Prop) (next : State → Label → Option State) :
    TransitionSystem State Label where
  initial := initial
  step source label target := next source label = some target

end TransitionSystem

section Reachability

variable {State : Type u} {Label : Type v}

/-- The states some finite sequence of steps leads to. -/
inductive Reachable (system : TransitionSystem State Label) : State → Prop
  | initial {start : State} :
      system.initial start → Reachable system start
  | step {source target : State} {label : Label} :
      Reachable system source →
      system.step source label target →
      Reachable system target

/-- An inductive property holds of every reachable state. -/
theorem invariant_of_step
    {system : TransitionSystem State Label} {property : State → Prop}
    (holdsInitially : ∀ start, system.initial start → property start)
    (preserved : ∀ source label target,
      property source → system.step source label target → property target)
    {state : State} (reachable : Reachable system state) :
    property state := by
  induction reachable with
  | initial isInitial =>
      exact holdsInitially _ isInitial
  | step _ taken inductionHypothesis =>
      exact preserved _ _ _ inductionHypothesis taken

/-- The same rule when the step may also use that its source is reachable,
and with it every invariant proved earlier. -/
theorem invariant_of_reachable_step
    {system : TransitionSystem State Label} {property : State → Prop}
    (holdsInitially : ∀ start, system.initial start → property start)
    (preserved : ∀ source label target,
      Reachable system source → property source →
        system.step source label target → property target)
    {state : State} (reachable : Reachable system state) :
    property state := by
  induction reachable with
  | initial isInitial =>
      exact holdsInitially _ isInitial
  | step sourceReachable taken inductionHypothesis =>
      exact preserved _ _ _ sourceReachable inductionHypothesis taken

/-- A projection that maps every step to a step or to no change maps
reachable states to reachable states. -/
theorem Reachable.project
    {Abstract : Type w} {AbstractLabel : Type x}
    {system : TransitionSystem State Label}
    {abstract : TransitionSystem Abstract AbstractLabel}
    {projection : State → Abstract}
    (initially : ∀ start,
      system.initial start → abstract.initial (projection start))
    (simulated : ∀ source label target,
      system.step source label target →
        projection target = projection source ∨
          ∃ abstractLabel,
            abstract.step (projection source) abstractLabel
              (projection target))
    {state : State} (reachable : Reachable system state) :
    Reachable abstract (projection state) := by
  induction reachable with
  | initial isInitial =>
      exact Reachable.initial (initially _ isInitial)
  | step _ taken inductionHypothesis =>
      rcases simulated _ _ _ taken with unchanged | ⟨_, abstractStep⟩
      · rw [unchanged]
        exact inductionHypothesis
      · exact Reachable.step inductionHypothesis abstractStep

end Reachability

section Runs

variable {State : Type u} {Label : Type v}

/-- A run from a state, recorded as the labels taken together with the states
they lead to. -/
inductive Run (step : State → Label → State → Prop) :
    State → List (Label × State) → Prop
  | stop (start : State) : Run step start []
  | take {source target : State} {label : Label}
      {rest : List (Label × State)} :
      step source label target →
      Run step target rest →
      Run step source ((label, target) :: rest)

def visited (start : State) (run : List (Label × State)) : List State :=
  start :: run.map Prod.snd

def finalState (start : State) : List (Label × State) → State
  | [] => start
  | (_, target) :: rest => finalState target rest

theorem finalState_mem_visited (start : State) :
    ∀ run : List (Label × State),
      finalState start run ∈ visited start run
  | [] => by simp [finalState, visited]
  | (_, target) :: rest => by
      have later := finalState_mem_visited target rest
      simp only [visited, List.map_cons, List.mem_cons] at later ⊢
      exact Or.inr later

/-- A property that every step preserves holds in every state a run visits. -/
theorem Run.invariant
    {step : State → Label → State → Prop} {property : State → Prop}
    (preserved : ∀ source label target,
      property source → step source label target → property target)
    {start : State} {run : List (Label × State)}
    (isRun : Run step start run) (holds : property start) :
    ∀ state ∈ visited start run, property state := by
  induction isRun with
  | stop start =>
      intro state member
      simp only [visited, List.map_nil, List.mem_singleton] at member
      rw [member]
      exact holds
  | take taken _ inductionHypothesis =>
      intro state member
      simp only [visited, List.map_cons, List.mem_cons] at member
      rcases member with same | later
      · rw [same]
        exact holds
      · apply inductionHypothesis (preserved _ _ _ holds taken)
        simpa only [visited, List.mem_cons] using later

/-- Every state on a run from a reachable state is reachable. -/
theorem Run.reachable
    {system : TransitionSystem State Label}
    {start : State} {run : List (Label × State)}
    (isRun : Run system.step start run)
    (startReachable : Reachable system start) :
    ∀ state ∈ visited start run, Reachable system state :=
  isRun.invariant
    (fun _ _ _ sourceReachable taken =>
      Reachable.step sourceReachable taken)
    startReachable

theorem Run.imp {step other : State → Label → State → Prop}
    (implies : ∀ source label target,
      step source label target → other source label target)
    {start : State} {run : List (Label × State)}
    (isRun : Run step start run) : Run other start run := by
  induction isRun with
  | stop start => exact Run.stop start
  | take taken _ inductionHypothesis =>
      exact Run.take (implies _ _ _ taken) inductionHypothesis

/-- Suppose a run that has gone wrong stays wrong, and a step goes wrong
exactly when it breaks `guard`.  Then a run ends well exactly when all its
steps meet `guard`. -/
theorem Run.final_iff_guarded
    {step : State → Label → State → Prop} {wrong : State → Prop}
    {guard : State → Label → Prop}
    (absorbing : ∀ source label target,
      wrong source → step source label target → wrong target)
    (exact_step : ∀ source label target,
      ¬ wrong source → step source label target →
        (¬ wrong target ↔ guard source label))
    {start : State} {run : List (Label × State)}
    (isRun : Run step start run) (well : ¬ wrong start) :
    ¬ wrong (finalState start run) ↔
      Run (fun source label target =>
        step source label target ∧ guard source label) start run := by
  induction isRun with
  | stop start =>
      constructor
      · intro _
        exact Run.stop start
      · intro _
        exact well
  | @take source target label rest taken restRun inductionHypothesis =>
      have exactHere := exact_step _ _ _ well taken
      by_cases targetWrong : wrong target
      · have finalWrong : wrong (finalState target rest) :=
          restRun.invariant absorbing targetWrong _
            (finalState_mem_visited target rest)
        constructor
        · intro finalWell
          exact absurd finalWrong finalWell
        · intro guarded
          cases guarded with
          | take guardedStep _ =>
              exact absurd targetWrong (exactHere.mpr guardedStep.2)
      · have restExact := inductionHypothesis targetWrong
        constructor
        · intro finalWell
          exact Run.take ⟨taken, exactHere.mp targetWrong⟩
            (restExact.mp finalWell)
        · intro guarded
          cases guarded with
          | take _ guardedRest => exact restExact.mpr guardedRest

/-- Exactness: suppose `invariant` survives every step, and from a state where
the stronger property `full` holds, a step leads to a state with `property`
exactly when it meets `guard`, and then `full` holds again.  Then a run visits
only states with `property` exactly when all its steps meet `guard`. -/
theorem Run.all_visited_iff_guarded
    {step : State → Label → State → Prop}
    (invariant full : State → Prop) {property : State → Prop}
    {guard : State → Label → Prop}
    (preserved : ∀ source label target,
      invariant source → step source label target → invariant target)
    (fullImplies : ∀ state, full state → property state)
    (exact_step : ∀ source label target,
      invariant source → full source → step source label target →
        (property target ↔ guard source label))
    (restored : ∀ source label target,
      invariant source → full source → step source label target →
        property target → full target)
    {start : State} {run : List (Label × State)}
    (isRun : Run step start run)
    (invariantStart : invariant start) (fullStart : full start) :
    (∀ state ∈ visited start run, property state) ↔
      Run (fun source label target =>
        step source label target ∧ guard source label) start run := by
  induction isRun with
  | stop start =>
      constructor
      · intro _
        exact Run.stop start
      · intro _ state member
        simp only [visited, List.map_nil, List.mem_singleton] at member
        rw [member]
        exact fullImplies _ fullStart
  | @take source target label rest taken _ inductionHypothesis =>
      have exactHere := exact_step _ _ _ invariantStart fullStart taken
      have invariantNext := preserved _ _ _ invariantStart taken
      constructor
      · intro allGood
        have targetGood : property target := by
          apply allGood
          simp [visited]
        have fullNext :=
          restored _ _ _ invariantStart fullStart taken targetGood
        refine Run.take ⟨taken, exactHere.mp targetGood⟩ ?_
        apply (inductionHypothesis invariantNext fullNext).mp
        intro state member
        apply allGood
        simp only [visited, List.map_cons, List.mem_cons] at member ⊢
        exact Or.inr member
      · intro guarded state member
        cases guarded with
        | take guardedStep guardedRest =>
            have targetGood := exactHere.mpr guardedStep.2
            have fullNext :=
              restored _ _ _ invariantStart fullStart taken targetGood
            simp only [visited, List.map_cons, List.mem_cons] at member
            rcases member with same | later
            · rw [same]
              exact fullImplies _ fullStart
            · apply (inductionHypothesis invariantNext fullNext).mpr
                guardedRest
              simpa only [visited, List.mem_cons] using later

end Runs

section Execution

variable {State : Type u} {Label : Type v}

/-- Follow a list of labels through a partial step function. -/
def follow (next : State → Label → Option State) :
    List Label → State → Option State
  | [], state => some state
  | label :: rest, state => (next state label).bind (follow next rest)

/-- The state an enabled list of labels leads to. -/
def followed (next : State → Label → Option State) (labels : List Label)
    (state : State) (enabled : (follow next labels state).isSome = true) :
    State :=
  (follow next labels state).get enabled

/-- Where a list of enabled labels leads is reachable. -/
theorem reachable_of_follow
    {initial : State → Prop} {next : State → Label → Option State} :
    ∀ {labels : List Label} {source target : State},
      Reachable (TransitionSystem.ofNext initial next) source →
      follow next labels source = some target →
      Reachable (TransitionSystem.ofNext initial next) target
  | [], source, target, reachable, followed => by
      simp only [follow, Option.some.injEq] at followed
      rw [← followed]
      exact reachable
  | label :: rest, source, target, reachable, followed => by
      simp only [follow, Option.bind_eq_some_iff] at followed
      obtain ⟨middle, taken, restFollowed⟩ := followed
      exact reachable_of_follow
        (Reachable.step reachable taken) restFollowed

/-- The run along a list of labels, up to the first one that is not
enabled. -/
def trace (next : State → Label → Option State) :
    List Label → State → List (Label × State)
  | [], _ => []
  | label :: rest, state =>
      match next state label with
      | none => []
      | some target => (label, target) :: trace next rest target

theorem run_trace (next : State → Label → Option State) :
    ∀ (labels : List Label) (start : State),
      Run (fun source label target => next source label = some target) start
        (trace next labels start)
  | [], start => Run.stop start
  | label :: rest, start => by
      cases taken : next start label with
      | none =>
          simp only [trace, taken]
          exact Run.stop start
      | some target =>
          simp only [trace, taken]
          exact Run.take taken (run_trace next rest target)

/-- Every step of the run along a list of labels meets a guard. -/
def traceMeets (guard : State → Label → Bool)
    (next : State → Label → Option State) : List Label → State → Bool
  | [], _ => true
  | label :: rest, state =>
      match next state label with
      | none => true
      | some target =>
          guard state label && traceMeets guard next rest target

theorem run_trace_meets (guard : State → Label → Bool)
    (next : State → Label → Option State) :
    ∀ (labels : List Label) (start : State),
      traceMeets guard next labels start = true →
      Run (fun source label target =>
          next source label = some target ∧ guard source label = true)
        start (trace next labels start)
  | [], start, _ => Run.stop start
  | label :: rest, start, meets => by
      cases taken : next start label with
      | none =>
          simp only [trace, taken]
          exact Run.stop start
      | some target =>
          simp only [traceMeets, taken, Bool.and_eq_true] at meets
          simp only [trace, taken]
          exact Run.take ⟨taken, meets.1⟩
            (run_trace_meets guard next rest target meets.2)

end Execution

end Foundation
