import Mathlib.Data.List.Dedup
import Mathlib.Data.List.Induction
import Mathlib.Tactic.FieldSimp
import ProjectMemory.Core.RateLimit

/-!
# Calls one after the other

Calls for one key that do not overlap, at times that do not decrease.  The
key then stands for the allowed calls of the window, except that calls at one
time share an entry.
-/

namespace ProjectMemory.Core

open Foundation

section Calls

variable (limiter : SlidingWindowRateLimiter)

/-- `is_allowed` without another call in between, and the key it leaves; Redis
reads the clock of the caller. -/
def isAllowed (key : RateKey) (now : Rat) : (Bool × Option Int) × RateKey :=
  let pruned := prune limiter key now now
  if limiter.limit ≤ pruned.entries.zcard then
    ((false, some (retryAfter limiter pruned now now)), pruned)
  else ((true, none), record limiter pruned now now)

/-- The answers to calls at some times. -/
def answers : RateKey → List Rat → List (Bool × Option Int)
  | _, [] => []
  | key, now :: times =>
      (isAllowed limiter key now).1 ::
        answers (isAllowed limiter key now).2 times

/-- A key and the times of the calls it allowed. -/
structure Usage where
  key : RateKey
  allowed : List Rat

def unused : Usage where
  key := { entries := SortedSet.empty, expiresAt := none }
  allowed := []

def Usage.call (usage : Usage) (now : Rat) : Usage where
  key := (isAllowed limiter usage.key now).2
  allowed :=
    if (isAllowed limiter usage.key now).1.1 then usage.allowed ++ [now]
    else usage.allowed

/-- The key after calls at some times. -/
def usageAfter (times : List Rat) : Usage :=
  times.foldl (Usage.call limiter) unused

end Calls

section Law

variable (limiter : SlidingWindowRateLimiter)

/-- Each call of a sequence is allowed where fewer than `limit` of the earlier
allowed calls lie in its window, and rejected calls leave the answers to later
ones as they are. -/
structure FollowsWindow (times : List Rat) : Prop where
  decision : ∀ before now after, times = before ++ now :: after →
    ((isAllowed limiter (usageAfter limiter before).key now).1.1 = true ↔
      (usageAfter limiter before).allowed.countP (inWindow limiter now) <
        limiter.limit)
  rejected : ∀ before now after, times = before ++ now :: after →
    (isAllowed limiter (usageAfter limiter before).key now).1.1 = false →
    answers limiter (usageAfter limiter (before ++ [now])).key after =
      answers limiter (usageAfter limiter before).key after

/-- The times that a sliding window allows, from the times alone. -/
def windowAllowed (times : List Rat) : List Rat :=
  times.foldl (fun allowed now =>
    if allowed.countP (inWindow limiter now) < limiter.limit then
      allowed ++ [now]
    else allowed) []

/-- Where the window of a call is full, the calls in it have different
times. -/
def FullWindowsDistinct (times : List Rat) : Prop :=
  ∀ before now after, times = before ++ now :: after →
    limiter.limit ≤
      (windowAllowed limiter before).countP (inWindow limiter now) →
    ((windowAllowed limiter before).filter (inWindow limiter now)).Nodup

end Law

/-! ## The pipelines -/

section Pipelines

variable {limiter : SlidingWindowRateLimiter} {key : RateKey}
  {clock now later : Rat}

theorem live_of_expired {expiry : Rat} (isExpiry : key.expiresAt = some expiry)
    (expired : expiry ≤ clock) : key.live clock = SortedSet.empty := by
  rw [RateKey.live, isExpiry]
  exact if_pos expired

theorem live_of_alive
    (alive : ∀ expiry, key.expiresAt = some expiry → clock < expiry) :
    key.live clock = key.entries := by
  cases isExpiry : key.expiresAt with
  | none => rw [RateKey.live, isExpiry]
  | some expiry =>
      rw [RateKey.live, isExpiry]
      exact if_neg (not_le_of_gt (alive expiry isExpiry))

/-- The key has expired, or its entries are there. -/
theorem live_cases (key : RateKey) (clock : Rat) :
    (∃ expiry, key.expiresAt = some expiry ∧ expiry ≤ clock ∧
      key.live clock = SortedSet.empty) ∨
    (∀ expiry, key.expiresAt = some expiry → clock < expiry) ∧
      key.live clock = key.entries := by
  by_cases expired : ∃ expiry, key.expiresAt = some expiry ∧ expiry ≤ clock
  · obtain ⟨expiry, isExpiry, isPast⟩ := expired
    exact Or.inl ⟨expiry, isExpiry, isPast, live_of_expired isExpiry isPast⟩
  · have alive : ∀ expiry, key.expiresAt = some expiry → clock < expiry := by
      intro expiry isExpiry
      by_contra notLater
      exact expired ⟨expiry, isExpiry, not_lt.mp notLater⟩
    exact Or.inr ⟨alive, live_of_alive alive⟩

theorem entries_prune (key : RateKey) :
    (prune limiter key clock now).entries =
      (key.live clock).zremrangebyscore (now - limiter.windowSeconds) := rfl

/-- Nothing expires within one call. -/
theorem live_prune :
    (prune limiter key clock now).live clock =
      (prune limiter key clock now).entries := by
  rcases live_cases (prune limiter key clock now) clock with
    ⟨expiry, isExpiry, expired, isEmpty⟩ | ⟨_, isLive⟩
  · have gone : key.live clock = SortedSet.empty :=
      live_of_expired isExpiry expired
    rw [isEmpty, prune, gone]
    rfl
  · exact isLive

/-- Pruning again at a later time removes what pruning then removes. -/
theorem prune_prune (inOrder : now ≤ later) :
    prune limiter (prune limiter key now now) later later =
      prune limiter key later later := by
  have sameEntries :
      (prune limiter (prune limiter key now now) later later).entries =
        (prune limiter key later later).entries := by
    rw [entries_prune (prune limiter key now now), entries_prune key]
    rcases live_cases key later with
      ⟨expiry, isExpiry, expired, gone⟩ | ⟨alive, isLater⟩
    · have prunedGone : (prune limiter key now now).live later =
          SortedSet.empty := live_of_expired isExpiry expired
      rw [prunedGone, gone]
    · have isLive : key.live now = key.entries :=
        live_of_alive fun expiry isExpiry =>
          lt_of_le_of_lt inOrder (alive expiry isExpiry)
      have prunedLive : (prune limiter key now now).live later =
          (prune limiter key now now).entries := live_of_alive alive
      rw [prunedLive, entries_prune key, isLive, isLater]
      exact SortedSet.zremrangebyscore_twice _ (by linarith)
  unfold prune at sameEntries ⊢
  simp only at sameEntries ⊢
  rw [sameEntries]

/-- A rejected call only prunes. -/
theorem isAllowed_of_full
    (full : limiter.limit ≤ (prune limiter key now now).entries.zcard) :
    isAllowed limiter key now =
      ((false, some (retryAfter limiter (prune limiter key now now) now now)),
        prune limiter key now now) :=
  if_pos full

theorem isAllowed_of_room
    (room : (prune limiter key now now).entries.zcard < limiter.limit) :
    isAllowed limiter key now =
      ((true, none), record limiter (prune limiter key now now) now now) :=
  if_neg (not_le_of_gt room)

theorem isAllowed_eq_true_iff :
    (isAllowed limiter key now).1.1 = true ↔
      (prune limiter key now now).entries.zcard < limiter.limit := by
  by_cases room : (prune limiter key now now).entries.zcard < limiter.limit
  · rw [isAllowed_of_room room]
    exact iff_of_true rfl room
  · rw [isAllowed_of_full (not_lt.mp room)]
    exact iff_of_false Bool.false_ne_true room

/-- Where a call stands that has been answered. -/
def CallProgress.ofAnswer : Bool × Option Int → CallProgress
  | (true, _) => .allowed
  | (false, wait) => .rejected (wait.getD 0)

/-- The two steps of a call that nothing interrupts. -/
theorem step_step_isAllowed {traffic : Traffic} {index : Nat}
    (isCall : traffic.calls[index]? = some ⟨traffic.clock, .counting⟩) :
    ∃ middle, traffic.step limiter (.advance index) = some middle ∧
      middle.step limiter (.advance index) = some
        { traffic with
          key := (isAllowed limiter traffic.key traffic.clock).2
          calls := traffic.calls.set index
            ⟨traffic.clock, CallProgress.ofAnswer
              (isAllowed limiter traffic.key traffic.clock).1⟩ } := by
  obtain ⟨inside, _⟩ := List.getElem?_eq_some_iff.mp isCall
  have updated (progress : CallProgress) (key : RateKey) :
      (traffic.update index ⟨traffic.clock, .counting⟩ progress
        key).calls[index]? = some ⟨traffic.clock, progress⟩ :=
    List.getElem?_set_self inside
  rw [Traffic.step, isCall, Option.bind_some]
  by_cases room : (prune limiter traffic.key traffic.clock
      traffic.clock).entries.zcard < limiter.limit
  · refine ⟨_, if_neg (not_le_of_gt room), ?_⟩
    rw [Traffic.step, updated, Option.bind_some, isAllowed_of_room room]
    simp only [Traffic.advance, Traffic.update, List.set_set,
      CallProgress.ofAnswer]
  · refine ⟨_, if_pos (not_lt.mp room), ?_⟩
    rw [Traffic.step, updated, Option.bind_some,
      isAllowed_of_full (not_lt.mp room)]
    simp only [Traffic.advance, Traffic.update, List.set_set,
      CallProgress.ofAnswer, Option.getD_some]

/-- The answers depend on what pruning leaves. -/
theorem answers_prune {times : List Rat}
    (inOrder : ∀ time ∈ times, now ≤ time) :
    answers limiter (prune limiter key now now) times =
      answers limiter key times := by
  cases times with
  | nil => rfl
  | cons first times =>
      have same : isAllowed limiter (prune limiter key now now) first =
          isAllowed limiter key first := by
        unfold isAllowed
        rw [prune_prune (inOrder first List.mem_cons_self)]
      rw [answers, answers, same]

end Pipelines

/-! ## What the key stands for -/

section Tracks

variable {limiter : SlidingWindowRateLimiter} {usage : Usage}
  {last now : Rat}

/-- The window is a positive whole number of milliseconds. -/
structure WholeWindow (limiter : SlidingWindowRateLimiter) : Prop where
  positive : 0 < limiter.windowSeconds
  whole : ∃ milliseconds : Nat,
    limiter.windowSeconds = (milliseconds : Rat) / 1000

/-- After calls up to a time the entries are allowed calls, and no call of a
later window is missing. -/
structure Tracks (limiter : SlidingWindowRateLimiter) (usage : Usage)
    (last : Rat) : Prop where
  upTo : ∀ time ∈ usage.allowed, time ≤ last
  stamped : ∀ entry ∈ usage.key.entries.entries, entry.2 = entry.1
  recorded : ∀ entry ∈ usage.key.entries.entries, entry.1 ∈ usage.allowed
  kept : ∀ time ∈ usage.allowed, last - limiter.windowSeconds < time →
    (time, time) ∈ usage.key.entries.entries
  alive : ∀ expiry, usage.key.expiresAt = some expiry →
    ∀ time ∈ usage.allowed, time + limiter.windowSeconds ≤ expiry
  limited : usage.key.entries.zcard ≤ limiter.limit

theorem tracks_unused (last : Rat) : Tracks limiter unused last where
  upTo := fun _ member => by cases member
  stamped := fun _ member => by cases member
  recorded := fun _ member => by cases member
  kept := fun _ member => by cases member
  alive := fun _ _ _ member => by cases member
  limited := Nat.zero_le _

theorem WholeWindow.milliseconds (whole : WholeWindow limiter) :
    ((limiter.windowSeconds * 1000).floor : Rat) / 1000 =
      limiter.windowSeconds := by
  obtain ⟨milliseconds, isWhole⟩ := whole.whole
  have scaled : limiter.windowSeconds * 1000 = (milliseconds : Rat) := by
    rw [isWhole]
    field_simp
  have floored : (limiter.windowSeconds * 1000).floor =
      (milliseconds : Int) := by
    rw [scaled]
    exact Rat.floor_intCast milliseconds
  rw [floored, isWhole]
  rfl

theorem inWindow_eq_true_iff {time : Rat} :
    inWindow limiter now time = true ↔
      now - limiter.windowSeconds < time ∧ time ≤ now := by
  rw [inWindow, Bool.and_eq_true, decide_eq_true_eq, decide_eq_true_eq]

/-- Pruning leaves the allowed calls of the window. -/
theorem Tracks.mem_entries_prune (tracks : Tracks limiter usage last)
    (inOrder : last ≤ now) {entry : Rat × Rat} :
    entry ∈ (prune limiter usage.key now now).entries.entries ↔
      entry.2 = entry.1 ∧ entry.1 ∈ usage.allowed ∧
        inWindow limiter now entry.1 = true := by
  rw [entries_prune, SortedSet.mem_entries_zremrangebyscore,
    inWindow_eq_true_iff]
  rcases live_cases usage.key now with
    ⟨expiry, isExpiry, expired, isEmpty⟩ | ⟨_, isLive⟩
  · rw [isEmpty]
    constructor
    · intro holds
      cases holds.1
    · intro ⟨_, isAllowed, inside, _⟩
      have notAlive := tracks.alive expiry isExpiry entry.1 isAllowed
      linarith
  · rw [isLive]
    constructor
    · intro ⟨isEntry, inside⟩
      have stamp := tracks.stamped entry isEntry
      have isAllowed := tracks.recorded entry isEntry
      rw [stamp, not_le] at inside
      exact ⟨stamp, isAllowed, inside,
        le_trans (tracks.upTo entry.1 isAllowed) inOrder⟩
    · intro ⟨stamp, isAllowed, inside, _⟩
      have isKept := tracks.kept entry.1 isAllowed (by linarith)
      have same : entry = (entry.1, entry.1) := Prod.ext rfl stamp
      rw [same]
      exact ⟨isKept, not_le_of_gt inside⟩

/-- Calls at one time share an entry. -/
theorem Tracks.zcard_prune (tracks : Tracks limiter usage last)
    (inOrder : last ≤ now) :
    (prune limiter usage.key now now).entries.zcard =
      ((usage.allowed.filter (inWindow limiter now)).dedup).length := by
  have distinct := (prune limiter usage.key now now).entries.distinct
  have samePerm : ((prune limiter usage.key now now).entries.entries.map
      Prod.fst).Perm
        ((usage.allowed.filter (inWindow limiter now)).dedup) := by
    rw [List.perm_ext_iff_of_nodup distinct (List.nodup_dedup _)]
    intro time
    rw [List.mem_dedup, List.mem_filter, List.mem_map]
    constructor
    · rintro ⟨entry, isEntry, rfl⟩
      exact ((tracks.mem_entries_prune inOrder).mp isEntry).2
    · intro holds
      exact ⟨(time, time),
        (tracks.mem_entries_prune inOrder).mpr ⟨rfl, holds⟩, rfl⟩
  rw [← samePerm.length_eq, List.length_map]
  rfl

theorem Tracks.zcard_prune_le (tracks : Tracks limiter usage last) :
    (prune limiter usage.key now now).entries.zcard ≤ limiter.limit := by
  rw [entries_prune]
  rcases live_cases usage.key now with ⟨_, _, _, isEmpty⟩ | ⟨_, isLive⟩
  · rw [isEmpty]
    exact Nat.zero_le _
  · rw [isLive]
    exact (List.length_filter_le _ _).trans tracks.limited

/-- Pruning keeps what the key stands for. -/
theorem Tracks.pruned (tracks : Tracks limiter usage last)
    (inOrder : last ≤ now) :
    Tracks limiter
      { key := prune limiter usage.key now now, allowed := usage.allowed }
      now := by
  constructor
  case upTo =>
    intro time member
    exact le_trans (tracks.upTo time member) inOrder
  case stamped =>
    intro entry member
    exact ((tracks.mem_entries_prune inOrder).mp member).1
  case recorded =>
    intro entry member
    exact ((tracks.mem_entries_prune inOrder).mp member).2.1
  case kept =>
    intro time member inside
    refine (tracks.mem_entries_prune inOrder).mpr ⟨rfl, member, ?_⟩
    exact inWindow_eq_true_iff.mpr
      ⟨inside, le_trans (tracks.upTo time member) inOrder⟩
  case alive =>
    exact tracks.alive
  case limited =>
    exact tracks.zcard_prune_le

/-- So does recording a call where there is room. -/
theorem Tracks.extended (tracks : Tracks limiter usage now)
    (whole : WholeWindow limiter)
    (isLive : usage.key.live now = usage.key.entries)
    (room : usage.key.entries.zcard < limiter.limit) :
    Tracks limiter
      { key := record limiter usage.key now now
        allowed := usage.allowed ++ [now] } now := by
  simp only [record, isLive, whole.milliseconds]
  constructor
  case upTo =>
    intro time member
    rcases List.mem_append.mp member with earlier | isNow
    · exact tracks.upTo time earlier
    · exact le_of_eq (List.mem_singleton.mp isNow)
  case stamped =>
    intro entry member
    rcases SortedSet.mem_entries_zadd.mp member with rfl | ⟨earlier, _⟩
    · rfl
    · exact tracks.stamped entry earlier
  case recorded =>
    intro entry member
    rcases SortedSet.mem_entries_zadd.mp member with rfl | ⟨earlier, _⟩
    · exact List.mem_append_right _ List.mem_cons_self
    · exact List.mem_append_left _ (tracks.recorded entry earlier)
  case kept =>
    intro time member inside
    rw [SortedSet.mem_entries_zadd]
    by_cases isNow : time = now
    · exact Or.inl (by rw [isNow])
    · have earlier : time ∈ usage.allowed :=
        (List.mem_append.mp member).resolve_right
          fun last => isNow (List.mem_singleton.mp last)
      exact Or.inr ⟨tracks.kept time earlier inside, isNow⟩
  case alive =>
    intro expiry isExpiry time member
    rw [← Option.some.inj isExpiry]
    rcases List.mem_append.mp member with earlier | isNow
    · have notLater := tracks.upTo time earlier
      linarith
    · rw [List.mem_singleton.mp isNow]
  case limited =>
    exact (SortedSet.zcard_zadd_le _ now now).trans room

/-- A call keeps what the key stands for. -/
theorem Tracks.call (tracks : Tracks limiter usage last)
    (whole : WholeWindow limiter) (inOrder : last ≤ now) :
    Tracks limiter (usage.call limiter now) now := by
  have pruned := tracks.pruned inOrder
  unfold Usage.call
  by_cases room :
      (prune limiter usage.key now now).entries.zcard < limiter.limit
  · rw [isAllowed_of_room room]
    exact pruned.extended whole live_prune room
  · rw [isAllowed_of_full (not_lt.mp room)]
    exact pruned

end Tracks

/-! ## The law -/

section Proof

variable {limiter : SlidingWindowRateLimiter} {times before after : List Rat}
  {now : Rat}

theorem usageAfter_snoc (times : List Rat) (now : Rat) :
    usageAfter limiter (times ++ [now]) =
      (usageAfter limiter times).call limiter now := by
  rw [usageAfter, List.foldl_append]
  rfl

theorem windowAllowed_snoc (times : List Rat) (now : Rat) :
    windowAllowed limiter (times ++ [now]) =
      if (windowAllowed limiter times).countP (inWindow limiter now) <
          limiter.limit then
        windowAllowed limiter times ++ [now]
      else windowAllowed limiter times := by
  rw [windowAllowed, List.foldl_append]
  rfl

theorem sublist_windowAllowed (times : List Rat) :
    (windowAllowed limiter times).Sublist times := by
  induction times using List.reverseRecOn with
  | nil => exact List.Sublist.refl []
  | append_singleton times now inductionHypothesis =>
      rw [windowAllowed_snoc]
      split
      · exact inductionHypothesis.append (List.Sublist.refl [now])
      · exact inductionHypothesis.trans (List.sublist_append_left times [now])

/-- After calls in order the key tracks them. -/
theorem tracks_usageAfter (whole : WholeWindow limiter)
    (ordered : (times ++ [now]).Pairwise (· ≤ ·)) :
    ∃ last, last ≤ now ∧ Tracks limiter (usageAfter limiter times) last := by
  induction times using List.reverseRecOn generalizing now with
  | nil => exact ⟨now, le_refl now, tracks_unused now⟩
  | append_singleton times last inductionHypothesis =>
      obtain ⟨orderedBefore, _, apart⟩ := List.pairwise_append.mp ordered
      obtain ⟨earlier, inOrder, tracks⟩ := inductionHypothesis orderedBefore
      refine ⟨last, apart last (by simp) now (by simp), ?_⟩
      rw [usageAfter_snoc]
      exact tracks.call whole inOrder

/-- The sliding window allows at most `limit` calls in every later window. -/
theorem countP_windowAllowed_le (ordered : (times ++ [now]).Pairwise (· ≤ ·)) :
    (windowAllowed limiter times).countP (inWindow limiter now) ≤
      limiter.limit := by
  induction times using List.reverseRecOn generalizing now with
  | nil => exact Nat.zero_le _
  | append_singleton times last inductionHypothesis =>
      obtain ⟨orderedBefore, _, apart⟩ := List.pairwise_append.mp ordered
      have notAfter : ∀ time ∈ times, time ≤ last := by
        intro time member
        exact (List.pairwise_append.mp orderedBefore).2.2 time member last
          (by simp)
      have inOrder : last ≤ now := apart last (by simp) now (by simp)
      -- What is left of the later window was in the window of the last call.
      have shrinks : (windowAllowed limiter times).countP
          (inWindow limiter now) ≤
            (windowAllowed limiter times).countP (inWindow limiter last) := by
        refine List.countP_mono_left fun time member inside => ?_
        rw [inWindow_eq_true_iff] at inside ⊢
        have early := notAfter time
          ((sublist_windowAllowed times).subset member)
        exact ⟨by linarith [inside.1], early⟩
      have bound := inductionHypothesis orderedBefore
      rw [windowAllowed_snoc]
      by_cases room : (windowAllowed limiter times).countP
          (inWindow limiter last) < limiter.limit
      · have one : [last].countP (inWindow limiter now) ≤ 1 :=
          List.countP_le_length
        rw [if_pos room, List.countP_append]
        omega
      · rw [if_neg room]
        omega

theorem Tracks.decision {usage : Usage} {last : Rat}
    (tracks : Tracks limiter usage last) (inOrder : last ≤ now) :
    (isAllowed limiter usage.key now).1.1 = true ↔
      ((usage.allowed.filter (inWindow limiter now)).dedup).length <
        limiter.limit := by
  rw [isAllowed_eq_true_iff, tracks.zcard_prune inOrder]

/-- Where the answer to a call is that of the window, so is what it leaves
allowed. -/
theorem allowed_snoc
    (same : (usageAfter limiter before).allowed =
      windowAllowed limiter before)
    (decided : (isAllowed limiter (usageAfter limiter before).key now).1.1 =
        true ↔
      (usageAfter limiter before).allowed.countP (inWindow limiter now) <
        limiter.limit) :
    (usageAfter limiter (before ++ [now])).allowed =
      windowAllowed limiter (before ++ [now]) := by
  rw [usageAfter_snoc, windowAllowed_snoc, Usage.call, ← same]
  by_cases room : (usageAfter limiter before).allowed.countP
      (inWindow limiter now) < limiter.limit
  · rw [if_pos room, if_pos (decided.mpr room)]
  · rw [if_neg room, if_neg fun isAllowed => room (decided.mp isAllowed)]

theorem FollowsWindow.of_append
    (follows : FollowsWindow limiter (before ++ after)) :
    (usageAfter limiter before).allowed = windowAllowed limiter before := by
  induction before using List.reverseRecOn generalizing after with
  | nil => rfl
  | append_singleton before now inductionHypothesis =>
      rw [List.append_assoc, List.singleton_append] at follows
      exact allowed_snoc (inductionHypothesis follows)
        (follows.decision before now after rfl)

/-- Rejected calls leave the later answers as they are, in any case. -/
theorem answers_of_rejected
    (ordered : (before ++ now :: after).Pairwise (· ≤ ·))
    (isRejected :
      (isAllowed limiter (usageAfter limiter before).key now).1.1 = false) :
    answers limiter (usageAfter limiter (before ++ [now])).key after =
      answers limiter (usageAfter limiter before).key after := by
  have notRoom : ¬ (prune limiter (usageAfter limiter before).key now
      now).entries.zcard < limiter.limit := by
    intro room
    rw [isAllowed_eq_true_iff.mpr room] at isRejected
    cases isRejected
  have pruned : (usageAfter limiter (before ++ [now])).key =
      prune limiter (usageAfter limiter before).key now now := by
    rw [usageAfter_snoc, Usage.call, isAllowed_of_full (not_lt.mp notRoom)]
  rw [pruned]
  exact answers_prune
    (List.pairwise_cons.mp (List.pairwise_append.mp ordered).2.1).1

theorem ordered_of_split (ordered : times.Pairwise (· ≤ ·))
    (split : times = before ++ now :: after) :
    (before ++ [now]).Pairwise (· ≤ ·) := by
  rw [split, ← List.singleton_append, ← List.append_assoc] at ordered
  exact (List.pairwise_append.mp ordered).1

theorem FollowsWindow.fullWindowsDistinct (whole : WholeWindow limiter)
    (ordered : times.Pairwise (· ≤ ·))
    (follows : FollowsWindow limiter times) :
    FullWindowsDistinct limiter times := by
  intro before now after split full
  obtain ⟨last, inOrder, tracks⟩ :=
    tracks_usageAfter whole (ordered_of_split ordered split)
  have bound := @countP_windowAllowed_le limiter _ _
    (ordered_of_split ordered split)
  have decided := follows.decision before now after split
  rw [split] at follows
  rw [tracks.decision inOrder, follows.of_append] at decided
  have noRoom : ¬ ((windowAllowed limiter before).filter
      (inWindow limiter now)).dedup.length < limiter.limit :=
    fun room => absurd (decided.mp room) (not_lt.mpr full)
  -- No entry is shared, for the window holds no more than the limit.
  rw [List.countP_eq_length_filter] at bound
  have noLess : ((windowAllowed limiter before).filter
      (inWindow limiter now)).length ≤
        ((windowAllowed limiter before).filter
          (inWindow limiter now)).dedup.length := by
    omega
  have same := (List.dedup_sublist _).eq_of_length_le noLess
  exact List.dedup_eq_self.mp same

theorem FullWindowsDistinct.decision (whole : WholeWindow limiter)
    (ordered : times.Pairwise (· ≤ ·))
    (distinct : FullWindowsDistinct limiter times)
    (split : times = before ++ now :: after)
    (same : (usageAfter limiter before).allowed =
      windowAllowed limiter before) :
    (isAllowed limiter (usageAfter limiter before).key now).1.1 = true ↔
      (usageAfter limiter before).allowed.countP (inWindow limiter now) <
        limiter.limit := by
  obtain ⟨last, inOrder, tracks⟩ :=
    tracks_usageAfter whole (ordered_of_split ordered split)
  rw [tracks.decision inOrder, same, List.countP_eq_length_filter]
  constructor
  · intro room
    by_contra full
    rw [not_lt, ← List.countP_eq_length_filter] at full
    have apart := distinct before now after split full
    rw [List.dedup_eq_self.mpr apart, ← List.countP_eq_length_filter] at room
    omega
  · intro room
    exact Nat.lt_of_le_of_lt (List.dedup_sublist _).length_le room

theorem FullWindowsDistinct.allowed (whole : WholeWindow limiter)
    (ordered : times.Pairwise (· ≤ ·))
    (distinct : FullWindowsDistinct limiter times)
    (split : times = before ++ after) :
    (usageAfter limiter before).allowed = windowAllowed limiter before := by
  induction before using List.reverseRecOn generalizing after with
  | nil => rfl
  | append_singleton before now inductionHypothesis =>
      rw [List.append_assoc, List.singleton_append] at split
      have same := inductionHypothesis split
      exact allowed_snoc same
        (distinct.decision whole ordered split same)

/-- The limiter is the sliding window exactly where no full window holds two
allowed calls of one time. -/
theorem followsWindow_iff (whole : WholeWindow limiter)
    (ordered : times.Pairwise (· ≤ ·)) :
    FollowsWindow limiter times ↔ FullWindowsDistinct limiter times := by
  constructor
  · intro follows
    exact follows.fullWindowsDistinct whole ordered
  · intro distinct
    constructor
    case decision =>
      intro before now after split
      exact distinct.decision whole ordered split
        (distinct.allowed whole ordered split)
    case rejected =>
      intro before now after split isRejected
      rw [split] at ordered
      exact answers_of_rejected ordered isRejected

/-- Calls at different times are limited as the window says. -/
theorem fullWindowsDistinct_of_nodup (distinct : times.Nodup) :
    FullWindowsDistinct limiter times := by
  intro before now after split _
  rw [split] at distinct
  have earlier : before.Nodup := (List.nodup_append.mp distinct).1
  exact (earlier.sublist (sublist_windowAllowed before)).filter _

def twoPerMinute : SlidingWindowRateLimiter where
  limit := 2
  windowSeconds := 60

theorem wholeWindow_twoPerMinute : WholeWindow twoPerMinute where
  positive := by
    unfold twoPerMinute
    norm_num
  whole := ⟨60000, by
    unfold twoPerMinute
    norm_num⟩

theorem followsWindow_iff_threeTimes :
    (FollowsWindow twoPerMinute [1000, 1001, 1061] ↔
      FullWindowsDistinct twoPerMinute [1000, 1001, 1061]) ∧
    FollowsWindow twoPerMinute [1000, 1001, 1061] := by
  have precise := @followsWindow_iff twoPerMinute [1000, 1001, 1061]
    wholeWindow_twoPerMinute (by decide +kernel)
  exact ⟨precise, precise.mpr
    (fullWindowsDistinct_of_nodup (by decide +kernel))⟩

/-- Three calls at one time: the set holds one entry for the first two. -/
theorem sameTime_overLimit :
    ([1000, 1000, 1000] : List Rat).Pairwise (· ≤ ·) ∧
      ¬ FollowsWindow twoPerMinute [1000, 1000, 1000] := by
  refine ⟨by decide +kernel, ?_⟩
  intro follows
  have decided := follows.decision [1000, 1000] 1000 [] rfl
  revert decided
  decide +kernel

end Proof

end ProjectMemory.Core
