import ProjectMemory.Core.SlidingWindow

/-!
# The time to wait

A rejected call is told the whole number of seconds until its oldest entry
leaves the window.  No call is let through earlier, and the entries never
exceed the limit, so that one leaving entry makes room.
-/

namespace ProjectMemory.Core

open Foundation

section Wait

variable {limiter : SlidingWindowRateLimiter} {usage : Usage}
  {last now later : Rat}

/-- The oldest of the calls that keep a window full. -/
structure Oldest (limiter : SlidingWindowRateLimiter) (usage : Usage)
    (now : Rat) (entry : Rat × Rat) : Prop where
  isEntry : entry ∈ (prune limiter usage.key now now).entries.entries
  first : ∀ other ∈ (prune limiter usage.key now now).entries.entries,
    entry.2 ≤ other.2
  wait : retryAfter limiter (prune limiter usage.key now now) now now =
    max 0 (entry.2 + limiter.windowSeconds - now).ceil

theorem exists_oldest
    (some : 0 < (prune limiter usage.key now now).entries.zcard) :
    ∃ entry, Oldest limiter usage now entry := by
  obtain ⟨entry, isEntry, isLowest, first⟩ :=
    SortedSet.lowest_of_zcard_pos some
  refine ⟨entry, isEntry, first, ?_⟩
  rw [retryAfter, live_prune, isLowest]

/-- The oldest entry is in the window, so there is a second to wait. -/
theorem Oldest.wait_eq {entry : Rat × Rat}
    (oldest : Oldest limiter usage now entry)
    (tracks : Tracks limiter usage last) (inOrder : last ≤ now) :
    retryAfter limiter (prune limiter usage.key now now) now now =
        (entry.2 + limiter.windowSeconds - now).ceil ∧
      1 ≤ (entry.2 + limiter.windowSeconds - now).ceil := by
  obtain ⟨stamp, _, inside⟩ :=
    (tracks.mem_entries_prune inOrder).mp oldest.isEntry
  have ahead : ((0 : Int) : Rat) <
      entry.2 + limiter.windowSeconds - now := by
    rw [stamp, Rat.intCast_zero]
    linarith [(inWindow_eq_true_iff.mp inside).1]
  have positive : 0 < (entry.2 + limiter.windowSeconds - now).ceil :=
    Rat.lt_ceil_iff.mpr ahead
  rw [oldest.wait]
  exact ⟨max_eq_right (by omega), by omega⟩

/-- After the wait the oldest entry is gone. -/
theorem Oldest.room_after {entry : Rat × Rat}
    (oldest : Oldest limiter usage now entry)
    (tracks : Tracks limiter usage last)
    (notBefore : now ≤ later)
    (waited : entry.2 + limiter.windowSeconds ≤ later) :
    (prune limiter usage.key later later).entries.zcard < limiter.limit := by
  have bound : (prune limiter usage.key now now).entries.zcard ≤
      limiter.limit := tracks.zcard_prune_le
  rw [← prune_prune notBefore, entries_prune (prune limiter usage.key now now)]
  have some : 0 < (prune limiter usage.key now now).entries.zcard :=
    List.length_pos_of_mem oldest.isEntry
  rcases live_cases (prune limiter usage.key now now) later with
    ⟨_, _, _, isEmpty⟩ | ⟨_, isLive⟩
  · have none : ((SortedSet.empty : SortedSet Rat Rat).zremrangebyscore
        (later - limiter.windowSeconds)).zcard = 0 := rfl
    rw [isEmpty, none]
    omega
  · rw [isLive]
    have fewer : ((prune limiter usage.key now now).entries.zremrangebyscore
        (later - limiter.windowSeconds)).zcard <
          (prune limiter usage.key now now).entries.zcard := by
      refine List.length_filter_lt_length_iff_exists.mpr
        ⟨entry, oldest.isEntry, ?_⟩
      rw [decide_eq_true_eq, not_not]
      linarith
    omega

/-- Before the wait is over every entry stays. -/
theorem Oldest.full_before {entry : Rat × Rat}
    (oldest : Oldest limiter usage now entry)
    (tracks : Tracks limiter usage last) (inOrder : last ≤ now)
    (full : limiter.limit ≤ (prune limiter usage.key now now).entries.zcard)
    (notBefore : now ≤ later)
    (waiting : later < entry.2 + limiter.windowSeconds) :
    limiter.limit ≤ (prune limiter usage.key later later).entries.zcard := by
  obtain ⟨stamp, isAllowed, _⟩ :=
    (tracks.mem_entries_prune inOrder).mp oldest.isEntry
  have alive : ∀ expiry,
      (prune limiter usage.key now now).expiresAt = some expiry →
        later < expiry := by
    intro expiry isExpiry
    have notAfter := tracks.alive expiry isExpiry entry.1 isAllowed
    rw [stamp] at waiting
    linarith
  have allStay : ((prune limiter usage.key now now).entries.zremrangebyscore
      (later - limiter.windowSeconds)).entries =
        (prune limiter usage.key now now).entries.entries := by
    refine List.filter_eq_self.mpr fun other isOther => ?_
    have notYounger := oldest.first other isOther
    rw [decide_eq_true_eq, not_le]
    linarith
  rw [← prune_prune notBefore, entries_prune (prune limiter usage.key now now),
    live_of_alive alive, SortedSet.zcard, allStay]
  exact full

end Wait

/-- A rejected call is told a positive whole number of seconds; after them a
call is allowed, and before them, whole seconds later, it is not. -/
theorem retryAfter_exact {limiter : SlidingWindowRateLimiter}
    {times : List Rat} {now : Rat} (whole : WholeWindow limiter)
    (limited : 1 ≤ limiter.limit)
    (ordered : (times ++ [now]).Pairwise (· ≤ ·))
    (isRejected :
      (isAllowed limiter (usageAfter limiter times).key now).1.1 = false) :
    ∃ wait : Int,
      (isAllowed limiter (usageAfter limiter times).key now).1 =
        (false, some wait) ∧
      1 ≤ wait ∧
      (∀ later : Rat, now + wait ≤ later →
        (isAllowed limiter (usageAfter limiter (times ++ [now])).key
          later).1.1 = true) ∧
      ∀ seconds : Nat, (seconds : Int) < wait →
        (isAllowed limiter (usageAfter limiter (times ++ [now])).key
          (now + seconds)).1.1 = false := by
  obtain ⟨last, inOrder, tracks⟩ := tracks_usageAfter whole ordered
  have full : limiter.limit ≤ (prune limiter
      (usageAfter limiter times).key now now).entries.zcard := by
    by_contra room
    rw [isAllowed_eq_true_iff.mpr (not_le.mp room)] at isRejected
    cases isRejected
  obtain ⟨entry, oldest⟩ := exists_oldest (Nat.lt_of_lt_of_le limited full)
  obtain ⟨isWait, positive⟩ := oldest.wait_eq tracks inOrder
  have answered := isAllowed_of_full full
  have pruned (later : Rat) (notBefore : now ≤ later) :
      prune limiter (usageAfter limiter (times ++ [now])).key later later =
        prune limiter (usageAfter limiter times).key later later := by
    rw [usageAfter_snoc, Usage.call, answered]
    exact prune_prune notBefore
  refine ⟨_, by rw [answered, isWait], positive, ?_, ?_⟩
  · intro later waited
    have enough := @Rat.le_ceil (entry.2 + limiter.windowSeconds - now)
    have atLeastOne : (1 : Rat) ≤
        ((entry.2 + limiter.windowSeconds - now).ceil : Int) := by
      exact_mod_cast positive
    have notBefore : now ≤ later := by linarith
    rw [isAllowed_eq_true_iff, pruned later notBefore]
    exact oldest.room_after tracks notBefore (by linarith)
  · intro seconds early
    have notYet := Rat.lt_ceil_iff.mp early
    rw [Rat.intCast_natCast] at notYet
    have notBefore : now ≤ now + (seconds : Rat) := by
      have someTime : (0 : Rat) ≤ (seconds : Rat) := Nat.cast_nonneg seconds
      linarith
    have stillFull := oldest.full_before tracks inOrder full notBefore
      (by linarith)
    rw [← pruned _ notBefore, ← not_lt, ← isAllowed_eq_true_iff,
      Bool.not_eq_true] at stillFull
    exact stillFull

theorem retryAfter_exact_thirdCall :
    ∃ wait : Int,
      (isAllowed twoPerMinute (usageAfter twoPerMinute [1000, 1001]).key
        1002).1 = (false, some wait) ∧
      1 ≤ wait ∧
      (∀ later : Rat, 1002 + wait ≤ later →
        (isAllowed twoPerMinute
          (usageAfter twoPerMinute ([1000, 1001] ++ [1002])).key
          later).1.1 = true) ∧
      ∀ seconds : Nat, (seconds : Int) < wait →
        (isAllowed twoPerMinute
          (usageAfter twoPerMinute ([1000, 1001] ++ [1002])).key
          (1002 + seconds)).1.1 = false :=
  @retryAfter_exact twoPerMinute [1000, 1001] 1002 wholeWindow_twoPerMinute
    (by decide) (by decide +kernel) (by decide +kernel)

end ProjectMemory.Core
