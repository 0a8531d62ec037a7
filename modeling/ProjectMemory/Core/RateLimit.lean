import Mathlib.Algebra.Order.Ring.Rat
import Mathlib.Tactic.Linarith
import ProjectMemory.Foundation.SortedSet
import ProjectMemory.Foundation.Transition

/-!
# The rate limiter

Each allowed request is an entry of a sorted set whose member and score are
its time.  One pipeline prunes the entries outside the window and counts the
others; where there is room a second pipeline records the request and renews
the life of the key.  Calls for one key interleave between the two pipelines.

Times are rational numbers of seconds; the clock of Redis, on which the key
expires, is not tied to the times the callers pass.
-/

namespace ProjectMemory.Core

open Foundation

structure SlidingWindowRateLimiter where
  limit : Nat
  windowSeconds : Rat

/-- The key of one user in Redis. -/
structure RateKey where
  entries : SortedSet Rat Rat
  expiresAt : Option Rat

/-- The entries at some time of Redis: an expired key is gone. -/
def RateKey.live (key : RateKey) (clock : Rat) : SortedSet Rat Rat :=
  match key.expiresAt with
  | none => key.entries
  | some expiry => if expiry ≤ clock then SortedSet.empty else key.entries

section Pipelines

variable (limiter : SlidingWindowRateLimiter)

/-- The entries that the first pipeline leaves. -/
def prune (key : RateKey) (clock now : Rat) : RateKey where
  entries :=
    (key.live clock).zremrangebyscore (now - limiter.windowSeconds)
  expiresAt := key.expiresAt

/-- The second pipeline; `PEXPIRE` takes a whole number of milliseconds. -/
def record (key : RateKey) (clock now : Rat) : RateKey where
  entries := (key.live clock).zadd now now
  expiresAt :=
    some (clock + ((limiter.windowSeconds * 1000).floor : Rat) / 1000)

/-- `_retry_after`. -/
def retryAfter (key : RateKey) (clock now : Rat) : Int :=
  match (key.live clock).lowest with
  | none => 0
  | some oldest => max 0 (oldest + limiter.windowSeconds - now).ceil

end Pipelines

/-! ## Calls -/

/-- Where a call of `is_allowed` stands. -/
inductive CallProgress where
  | counting
  | recording
  | retrying
  | allowed
  | rejected (retryAfter : Int)
  deriving DecidableEq, Repr

structure Call where
  now : Rat
  progress : CallProgress

/-- The call has been let through. -/
def Call.admitted (call : Call) : Bool :=
  match call.progress with
  | .recording | .allowed => true
  | _ => false

structure Traffic where
  clock : Rat
  key : RateKey
  calls : List Call

/-- Time passes, a call arrives, a call executes its next pipeline, or that
pipeline raises, with or without its effect. -/
inductive TrafficLabel where
  | tick (later : Rat)
  | arrive (now : Rat)
  | advance (index : Nat)
  | fail (index : Nat) (landed : Bool)

section Machine

variable (limiter : SlidingWindowRateLimiter)

def Traffic.update (traffic : Traffic) (index : Nat) (call : Call)
    (progress : CallProgress) (key : RateKey) : Traffic :=
  { traffic with
    key := key
    calls := traffic.calls.set index { call with progress := progress } }

/-- `is_allowed`, one pipeline at a time. -/
def Traffic.advance (traffic : Traffic) (index : Nat) (call : Call) :
    Option Traffic :=
  match call.progress with
  | .counting =>
      let pruned := prune limiter traffic.key traffic.clock call.now
      if limiter.limit ≤ pruned.entries.zcard then
        some (traffic.update index call .retrying pruned)
      else some (traffic.update index call .recording pruned)
  | .recording =>
      some (traffic.update index call .allowed
        (record limiter traffic.key traffic.clock call.now))
  | .retrying =>
      some (traffic.update index call
        (.rejected (retryAfter limiter traffic.key traffic.clock call.now))
        traffic.key)
  | .allowed | .rejected _ => none

/-- A pipeline of a call raises: the limiter fails open. -/
def Traffic.fail (traffic : Traffic) (index : Nat) (call : Call)
    (landed : Bool) : Option Traffic :=
  let key (effect : RateKey) := if landed then effect else traffic.key
  match call.progress with
  | .counting =>
      some (traffic.update index call .allowed
        (key (prune limiter traffic.key traffic.clock call.now)))
  | .recording =>
      some (traffic.update index call .allowed
        (key (record limiter traffic.key traffic.clock call.now)))
  | .retrying =>
      some (traffic.update index call (.rejected 0) traffic.key)
  | .allowed | .rejected _ => none

def Traffic.step (traffic : Traffic) : TrafficLabel → Option Traffic
  | .tick later =>
      if traffic.clock ≤ later then some { traffic with clock := later }
      else none
  | .arrive now =>
      some { traffic with calls := traffic.calls ++ [⟨now, .counting⟩] }
  | .advance index =>
      traffic.calls[index]?.bind (traffic.advance limiter index)
  | .fail index landed =>
      traffic.calls[index]?.bind
        (traffic.fail limiter index · landed)

end Machine

/-! ## The limit -/

section Law

variable (limiter : SlidingWindowRateLimiter)

/-- A time lies in the window that ends at `upper`. -/
def inWindow (upper time : Rat) : Bool :=
  upper - limiter.windowSeconds < time && time ≤ upper

/-- Two times lie in a common window. -/
def near (left right : Rat) : Bool :=
  left - limiter.windowSeconds < right &&
    right - limiter.windowSeconds < left

/-- Every window contains the times of at most `limit` allowed calls. -/
def Limited (traffic : Traffic) : Prop :=
  ∀ upper, traffic.calls.countP (fun call =>
    call.progress = .allowed && inWindow limiter upper call.now) ≤
      limiter.limit

/-- The runs that are considered: no two calls have the same time, and no
pipeline raises. -/
def regular (traffic : Traffic) : TrafficLabel → Bool
  | .arrive now => traffic.calls.all fun call => call.now ≠ now
  | .fail _ _ => false
  | _ => true

/-- A call let through earlier, close to a time, that the counted entries do
not show: it is not recorded yet, or its entry was pruned or has expired. -/
def unseen (entries : SortedSet Rat Rat) (now : Rat) (call : Call) : Bool :=
  call.admitted && near limiter now call.now &&
    decide (call.now ∉ entries.members)

/-- The condition on a step: where a call finds room there is room for the
calls it does not see as well. -/
def seesEnough (traffic : Traffic) : TrafficLabel → Bool
  | .advance index =>
      match traffic.calls[index]? with
      | some ⟨now, .counting⟩ =>
          let entries :=
            (prune limiter traffic.key traffic.clock now).entries
          limiter.limit ≤ entries.zcard ||
            entries.zcard +
              traffic.calls.countP (unseen limiter entries now) <
              limiter.limit
      | _ => true
  | _ => true

end Law

section Proof

variable {limiter : SlidingWindowRateLimiter} {traffic next : Traffic}

/-- What the proof carries: the calls let through, recorded or not, keep the
limit, and their times differ. -/
structure Spread (limiter : SlidingWindowRateLimiter)
    (traffic : Traffic) : Prop where
  distinct : (traffic.calls.map Call.now).Nodup
  bounded : ∀ upper, traffic.calls.countP (fun call =>
    call.admitted && inWindow limiter upper call.now) ≤ limiter.limit

theorem Spread.limited (spread : Spread limiter traffic) :
    Limited limiter traffic := by
  intro upper
  refine (List.countP_mono_left ?_).trans (spread.bounded upper)
  intro call _ holds
  obtain ⟨isAllowed, inside⟩ := Bool.and_eq_true_iff.mp holds
  have admitted : call.admitted = true := by
    rw [Call.admitted, of_decide_eq_true isAllowed]
  rw [admitted, inside]
  rfl

theorem near_of_inWindow {upper left right : Rat}
    (leftInside : inWindow limiter upper left = true)
    (rightInside : inWindow limiter upper right = true) :
    near limiter left right = true := by
  simp only [inWindow, near, Bool.and_eq_true, decide_eq_true_eq]
    at leftInside rightInside ⊢
  constructor <;> linarith [leftInside.1, leftInside.2, rightInside.1,
    rightInside.2]

/-- The calls let through close to a time are recorded or unseen. -/
theorem countP_near_le (distinct : (traffic.calls.map Call.now).Nodup)
    (entries : SortedSet Rat Rat) (now : Rat) :
    traffic.calls.countP (fun call =>
        call.admitted && near limiter now call.now) ≤
      entries.zcard +
        traffic.calls.countP (unseen limiter entries now) := by
  rw [List.countP_eq_countP_filter_add traffic.calls _
    fun call => decide (call.now ∈ entries.members)]
  refine Nat.add_le_add ?_ ?_
  · rw [List.countP_filter]
    refine entries.countP_le_zcard distinct ?_
    intro call _ holds
    exact of_decide_eq_true (Bool.and_eq_true_iff.mp holds).2
  · rw [List.countP_filter]
    refine Nat.le_of_eq (List.countP_congr fun call _ => ?_)
    simp [unseen]

/-- A call that finds room leaves room in every window around its time. -/
theorem countP_window_lt (spread : Spread limiter traffic)
    {entries : SortedSet Rat Rat} {now upper : Rat}
    (room : entries.zcard +
      traffic.calls.countP (unseen limiter entries now) < limiter.limit)
    (inside : inWindow limiter upper now = true) :
    traffic.calls.countP (fun call =>
      call.admitted && inWindow limiter upper call.now) <
        limiter.limit := by
  have close : traffic.calls.countP (fun call =>
      call.admitted && inWindow limiter upper call.now) ≤
        traffic.calls.countP (fun call =>
          call.admitted && near limiter now call.now) := by
    refine List.countP_mono_left ?_
    intro call _ holds
    obtain ⟨admitted, callInside⟩ := Bool.and_eq_true_iff.mp holds
    rw [admitted, near_of_inWindow inside callInside]
    rfl
  have recordedOrUnseen :=
    @countP_near_le limiter traffic spread.distinct entries now
  omega

section Update

variable {index : Nat} {call : Call} {progress : CallProgress}
  {key : RateKey}

private theorem map_set_eq {Item Image : Type} {image : Item → Image} :
    ∀ {items : List Item} {index : Nat} {old new : Item},
      items[index]? = some old → image new = image old →
      (items.set index new).map image = items.map image
  | [], _, _, _, isItem, _ => by cases isItem
  | item :: items, 0, old, new, isItem, same => by
      cases isItem
      rw [List.set_cons_zero, List.map_cons, List.map_cons, same]
  | item :: items, index + 1, old, new, isItem, same => by
      have later : items[index]? = some old := isItem
      rw [List.set_cons_succ, List.map_cons, List.map_cons,
        map_set_eq later same]

theorem Spread.distinct_update (spread : Spread limiter traffic)
    (isCall : traffic.calls[index]? = some call) :
    ((traffic.update index call progress key).calls.map Call.now).Nodup := by
  have sameTimes :
      (traffic.update index call progress key).calls.map Call.now =
        traffic.calls.map Call.now := map_set_eq isCall rfl
  rw [sameTimes]
  exact spread.distinct

/-- An updated call counts at most once more, and only where it did not
count before. -/
theorem countP_update_le (isCall : traffic.calls[index]? = some call)
    (holds : Call → Bool) :
    (traffic.update index call progress key).calls.countP holds ≤
      traffic.calls.countP holds +
        if holds { call with progress := progress } && !holds call then 1
        else 0 := by
  obtain ⟨bound, isGet⟩ := List.getElem?_eq_some_iff.mp isCall
  have counted : holds call = true → 0 < traffic.calls.countP holds :=
    fun isHolding => List.countP_pos_iff.mpr
      ⟨call, List.mem_of_getElem? isCall, isHolding⟩
  rw [Traffic.update, List.countP_set bound, isGet]
  cases before : holds call with
  | false => simp
  | true =>
      have positive := counted before
      simp only [if_true, Bool.not_true, Bool.and_false, Bool.false_eq_true,
        if_false]
      split <;> omega

theorem Spread.update_of_admitted (spread : Spread limiter traffic)
    (isCall : traffic.calls[index]? = some call)
    (before : ({ call with progress := progress } : Call).admitted = true →
      call.admitted = true) :
    Spread limiter (traffic.update index call progress key) := by
  refine ⟨spread.distinct_update isCall, fun upper => ?_⟩
  refine (countP_update_le isCall _).trans ?_
  have notMore : (({ call with progress := progress } : Call).admitted &&
      inWindow limiter upper call.now &&
        !(call.admitted && inWindow limiter upper call.now)) = false := by
    cases after : ({ call with progress := progress } : Call).admitted with
    | false => rfl
    | true => simp [before after]
  simp only [notMore, Bool.false_eq_true, if_false, Nat.add_zero]
  exact spread.bounded upper

/-- A call is let through where every window around its time has room. -/
theorem Spread.update_of_room (spread : Spread limiter traffic)
    (isCall : traffic.calls[index]? = some call)
    (room : ∀ upper, inWindow limiter upper call.now = true →
      traffic.calls.countP (fun other =>
        other.admitted && inWindow limiter upper other.now) <
          limiter.limit) :
    Spread limiter (traffic.update index call progress key) := by
  refine ⟨spread.distinct_update isCall, fun upper => ?_⟩
  refine (countP_update_le isCall _).trans ?_
  cases inside : inWindow limiter upper call.now with
  | false =>
      simp only [Bool.and_false, Bool.false_and, Bool.false_eq_true,
        if_false, Nat.add_zero]
      exact spread.bounded upper
  | true =>
      have hasRoom := room upper inside
      split <;> omega

end Update

/-- One step keeps the limit. -/
theorem Spread.step (spread : Spread limiter traffic)
    {label : TrafficLabel} (taken : traffic.step limiter label = some next)
    (isRegular : regular traffic label = true)
    (sees : seesEnough limiter traffic label = true) :
    Spread limiter next := by
  cases label with
  | tick later =>
      simp only [Traffic.step, Option.ite_none_right_eq_some,
        Option.some.injEq] at taken
      rw [← taken.2]
      exact ⟨spread.distinct, spread.bounded⟩
  | arrive now =>
      simp only [Traffic.step, Option.some.injEq] at taken
      rw [← taken]
      have newTime : now ∉ traffic.calls.map Call.now := by
        intro member
        obtain ⟨call, isCall, same⟩ := List.mem_map.mp member
        have different := List.all_eq_true.mp isRegular call isCall
        exact of_decide_eq_true different same
      constructor
      · rw [List.map_append, List.map_singleton]
        exact List.nodup_append.mpr ⟨spread.distinct,
          List.nodup_singleton now, by
            rintro time isTime other isOther rfl
            rw [List.mem_singleton.mp isOther] at isTime
            exact newTime isTime⟩
      · intro upper
        rw [List.countP_append]
        exact spread.bounded upper
  | advance index =>
      obtain ⟨call, isCall, advanced⟩ := Option.bind_eq_some_iff.mp taken
      obtain ⟨now, progress⟩ := call
      cases progress with
      | counting =>
          simp only [Traffic.advance] at advanced
          simp only [seesEnough, isCall, Bool.or_eq_true, decide_eq_true_eq]
            at sees
          split at advanced
          · cases advanced
            exact spread.update_of_admitted isCall fun admitted => by
              cases admitted
          · rename_i notFull
            cases advanced
            exact spread.update_of_room isCall fun upper inside =>
              countP_window_lt spread (sees.resolve_left notFull) inside
      | recording =>
          cases advanced
          exact spread.update_of_admitted isCall fun _ => rfl
      | retrying =>
          cases advanced
          exact spread.update_of_admitted isCall fun admitted => by
            cases admitted
      | allowed | rejected _ => cases advanced
  | fail index landed => cases isRegular

/-- The limit holds in every state of every interleaving in which each call
that finds room also has room for the calls it does not see. -/
theorem limited_of_seesEnough {start : Traffic}
    (noCalls : start.calls = []) {run : List (TrafficLabel × Traffic)}
    (isRun : Run (fun source label target =>
        source.step limiter label = some target ∧
          (regular source label && seesEnough limiter source label) = true)
      start run) :
    ∀ traffic ∈ visited start run, Limited limiter traffic := by
  have spreadStart : Spread limiter start := by
    constructor
    · rw [noCalls]
      exact List.nodup_nil
    · intro upper
      rw [noCalls]
      exact Nat.zero_le _
  have spread : ∀ traffic ∈ visited start run, Spread limiter traffic := by
    refine isRun.invariant ?_ spreadStart
    rintro source label target holds ⟨taken, guarded⟩
    obtain ⟨isRegular, sees⟩ := Bool.and_eq_true_iff.mp guarded
    exact holds.step taken isRegular sees
  intro traffic member
  exact (spread traffic member).limited

def onePerMinute : SlidingWindowRateLimiter where
  limit := 1
  windowSeconds := 60

def idle : Traffic where
  clock := 0
  key := { entries := SortedSet.empty, expiresAt := none }
  calls := []

/-- A call that is recorded before the next one is counted, and a third one
a minute later. -/
def oneAfterTheOther : List TrafficLabel :=
  [.arrive 0, .advance 0, .advance 0, .arrive 1, .advance 1, .advance 1,
    .tick 60, .arrive 60, .advance 2, .advance 2]

theorem limited_oneAfterTheOther :
    traceMeets (fun traffic label =>
        regular traffic label && seesEnough onePerMinute traffic label)
      (Traffic.step onePerMinute) oneAfterTheOther idle = true ∧
    ∀ traffic ∈ visited idle
        (trace (Traffic.step onePerMinute) oneAfterTheOther idle),
      Limited onePerMinute traffic := by
  have meets : traceMeets (fun traffic label =>
        regular traffic label && seesEnough onePerMinute traffic label)
      (Traffic.step onePerMinute) oneAfterTheOther idle = true := by
    decide +kernel
  exact ⟨meets, limited_of_seesEnough rfl
    (run_trace_meets _ _ _ _ meets)⟩

/-- Two calls are counted before either of them is recorded. -/
theorem limit_exceeded_overlapping :
    ∃ run, Run (fun source label target =>
        Traffic.step onePerMinute source label = some target ∧
          regular source label = true) idle run ∧
      ¬ ∀ traffic ∈ visited idle run, Limited onePerMinute traffic := by
  refine ⟨_, run_trace_meets regular (Traffic.step onePerMinute)
    [.arrive 0, .arrive 1, .advance 0, .advance 1, .advance 0, .advance 1]
    idle (by decide +kernel), ?_⟩
  intro allLimited
  have limited := allLimited _ (finalState_mem_visited _ _) 1
  revert limited
  decide +kernel

end Proof

end ProjectMemory.Core
