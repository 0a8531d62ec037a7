import Mathlib.Data.List.Nodup
import Mathlib.Logic.Function.Basic

/-!
# Queues whose jobs have ids

A job is queued, then executing, and after its end its result is kept for a
while; where its worker dies, it is queued again.  During all of this its id
is taken, and enqueueing another job under the id has no effect.
-/

namespace Foundation

universe u v

inductive JobPhase where
  | queued
  | executing
  | kept
  deriving DecidableEq, Repr

structure QueuedJob (Arguments : Type v) where
  arguments : Arguments
  phase : JobPhase
  deriving DecidableEq, Repr

/-- The jobs whose ids are taken. -/
abbrev JobQueue (Id : Type u) (Arguments : Type v) :=
  Id → Option (QueuedJob Arguments)

namespace JobQueue

variable {Id : Type u} {Arguments : Type v} [DecidableEq Id]

/-- `none` where the id is taken. -/
def enqueue (queue : JobQueue Id Arguments) (id : Id)
    (arguments : Arguments) : Option (JobQueue Id Arguments) :=
  match queue id with
  | some _ => none
  | none =>
      some (Function.update queue id
        (some { arguments := arguments, phase := .queued }))

/-- The queue after an attempt to enqueue a job. -/
def offer (queue : JobQueue Id Arguments) (id : Id)
    (arguments : Arguments) : JobQueue Id Arguments :=
  (queue.enqueue id arguments).getD queue

/-- The queue after attempts to enqueue jobs one after the other. -/
def offerAll (queue : JobQueue Id Arguments) :
    List (Id × Arguments) → JobQueue Id Arguments
  | [] => queue
  | (id, arguments) :: entries =>
      offerAll (queue.offer id arguments) entries

/-- How many of the attempts enqueue a job. -/
def newCount (queue : JobQueue Id Arguments) :
    List (Id × Arguments) → Nat
  | [] => 0
  | (id, arguments) :: entries =>
      (if (queue id).isNone then 1 else 0) +
        newCount (queue.offer id arguments) entries

/-- A worker takes up the job. -/
def start (queue : JobQueue Id Arguments) (id : Id) :
    Option (JobQueue Id Arguments) :=
  match queue id with
  | some { arguments := arguments, phase := .queued } =>
      some (Function.update queue id
        (some { arguments := arguments, phase := .executing }))
  | _ => none

/-- The worker that executes the job has died. -/
def requeue (queue : JobQueue Id Arguments) (id : Id) :
    Option (JobQueue Id Arguments) :=
  match queue id with
  | some { arguments := arguments, phase := .executing } =>
      some (Function.update queue id
        (some { arguments := arguments, phase := .queued }))
  | _ => none

/-- The job has ended and its result is kept. -/
def finish (queue : JobQueue Id Arguments) (id : Id) :
    Option (JobQueue Id Arguments) :=
  match queue id with
  | some { arguments := arguments, phase := .executing } =>
      some (Function.update queue id
        (some { arguments := arguments, phase := .kept }))
  | _ => none

/-- The result is no longer kept. -/
def expire (queue : JobQueue Id Arguments) (id : Id) :
    Option (JobQueue Id Arguments) :=
  match queue id with
  | some { phase := .kept, .. } => some (Function.update queue id none)
  | _ => none

/-- The id is taken by the result of a job that has ended. -/
def isKept (queue : JobQueue Id Arguments) (id : Id) : Bool :=
  (queue id).any fun job => job.phase = .kept

/-- The job under the id is queued or executing. -/
def isUnderWay (queue : JobQueue Id Arguments) (id : Id) : Bool :=
  (queue id).any fun job => job.phase ≠ .kept

variable {queue : JobQueue Id Arguments} {id other : Id}
  {arguments : Arguments}

theorem enqueue_eq_none :
    queue.enqueue id arguments = none ↔ (queue id).isSome = true := by
  unfold enqueue
  cases queue id <;> simp

/-- After the attempt there is a job under the id: the one that was there, or
the new one. -/
theorem offer_own :
    queue.offer id arguments id =
      some ((queue id).getD { arguments := arguments, phase := .queued }) := by
  unfold offer enqueue
  cases found : queue id with
  | some job => exact found
  | none =>
      simp only [Option.getD_some, Option.getD_none, Function.update_self]

omit [DecidableEq Id] in
/-- With the job that was there, or a new one, the id is under way unless only
a result is kept under it. -/
theorem isUnderWay_of_getD {after : JobQueue Id Arguments}
    (own : after id = some ((queue id).getD
      { arguments := arguments, phase := .queued })) :
    after.isUnderWay id = !queue.isKept id := by
  rw [isUnderWay, isKept, own]
  cases queue id with
  | none => rfl
  | some job =>
      rw [Option.getD_some, Option.any_some, Option.any_some,
        ← decide_not]

theorem offer_of_ne (differs : other ≠ id) :
    queue.offer id arguments other = queue other := by
  unfold offer enqueue
  cases queue id with
  | some job => rfl
  | none => exact Function.update_of_ne differs _ _

theorem offer_of_some {job : QueuedJob Arguments}
    (found : queue other = some job) :
    queue.offer id arguments other = some job := by
  by_cases same : other = id
  · subst same
    rw [offer_own, found, Option.getD_some]
  · rw [offer_of_ne same, found]

/-! ## Attempts one after the other -/

variable {entries : List (Id × Arguments)}

theorem offerAll_of_some {job : QueuedJob Arguments}
    (found : queue other = some job) :
    queue.offerAll entries other = some job := by
  induction entries generalizing queue with
  | nil => exact found
  | cons entry entries inductionHypothesis =>
      exact inductionHypothesis (offer_of_some found)

theorem offerAll_of_not_mem (absent : other ∉ entries.map Prod.fst) :
    queue.offerAll entries other = queue other := by
  induction entries generalizing queue with
  | nil => rfl
  | cons entry entries inductionHypothesis =>
      rw [List.map_cons, List.mem_cons, not_or] at absent
      rw [offerAll, inductionHypothesis absent.2, offer_of_ne absent.1]

/-- Each attempt leaves the job that was there, or its own. -/
theorem offerAll_of_mem (distinct : (entries.map Prod.fst).Nodup)
    (isEntry : (id, arguments) ∈ entries) :
    queue.offerAll entries id =
      some ((queue id).getD { arguments := arguments, phase := .queued }) := by
  induction entries generalizing queue with
  | nil => cases isEntry
  | cons entry entries inductionHypothesis =>
      rw [List.map_cons, List.nodup_cons] at distinct
      rcases List.mem_cons.mp isEntry with rfl | later
      · rw [offerAll, offerAll_of_not_mem distinct.1, offer_own]
      · have differs : id ≠ entry.1 := by
          rintro rfl
          exact distinct.1 (List.mem_map.mpr ⟨_, later, rfl⟩)
        rw [offerAll, inductionHypothesis distinct.2 later,
          offer_of_ne differs]

/-- The attempts that enqueue a job are those whose id was free. -/
theorem newCount_eq (distinct : (entries.map Prod.fst).Nodup) :
    queue.newCount entries =
      (entries.filter fun entry => (queue entry.1).isNone).length := by
  induction entries generalizing queue with
  | nil => rfl
  | cons entry entries inductionHypothesis =>
      rw [List.map_cons, List.nodup_cons] at distinct
      have others : ∀ later ∈ entries,
          (queue.offer entry.1 entry.2 later.1).isNone =
            (queue later.1).isNone := by
        intro later isLater
        have differs : later.1 ≠ entry.1 := by
          intro same
          exact distinct.1 (same ▸ List.mem_map_of_mem isLater)
        rw [offer_of_ne differs]
      rw [newCount, inductionHypothesis distinct.2,
        List.filter_congr others, List.filter_cons]
      by_cases isFree : (queue entry.1).isNone = true
      · rw [if_pos isFree, if_pos isFree, List.length_cons, Nat.add_comm]
      · rw [if_neg isFree, if_neg isFree, Nat.zero_add]

/-- Where every id is taken, the attempts change nothing. -/
theorem offerAll_of_taken
    (taken : ∀ entry ∈ entries, (queue entry.1).isSome = true) :
    queue.offerAll entries = queue ∧ queue.newCount entries = 0 := by
  induction entries with
  | nil => exact ⟨rfl, rfl⟩
  | cons entry entries inductionHypothesis =>
      obtain ⟨here, later⟩ := List.forall_mem_cons.mp taken
      have same : queue.offer entry.1 entry.2 = queue := by
        rw [offer, enqueue_eq_none.mpr here, Option.getD_none]
      have notFree : (queue entry.1).isNone = false := by
        rw [Option.isNone_eq_false_iff]
        exact here
      obtain ⟨unchanged, none⟩ := inductionHypothesis later
      rw [offerAll, newCount, same, unchanged, none, notFree]
      exact ⟨rfl, rfl⟩

/-! ## What all jobs meet -/

/-- Every job of the queue meets a condition on its id and arguments. -/
def Holds (condition : Id → Arguments → Prop)
    (queue : JobQueue Id Arguments) : Prop :=
  ∀ id job, queue id = some job → condition id job.arguments

variable {condition : Id → Arguments → Prop}

omit [DecidableEq Id] in
theorem holds_empty : Holds condition (fun _ : Id => none) := by
  intro id job found
  cases found

theorem Holds.update (holds : Holds condition queue)
    {entry : Option (QueuedJob Arguments)}
    (meets : ∀ job, entry = some job → condition id job.arguments) :
    Holds condition (Function.update queue id entry) := by
  intro key job found
  by_cases same : key = id
  · subst same
    rw [Function.update_self] at found
    exact meets job found
  · rw [Function.update_of_ne same] at found
    exact holds key job found

theorem Holds.offer (holds : Holds condition queue)
    (meets : condition id arguments) :
    Holds condition (queue.offer id arguments) := by
  unfold JobQueue.offer enqueue
  cases queue id with
  | some job => exact holds
  | none =>
      refine holds.update fun job isJob => ?_
      cases isJob
      exact meets

/-- A job keeps its arguments while it moves on. -/
theorem Holds.moved (holds : Holds condition queue)
    {phase next : JobPhase}
    (found : queue id = some { arguments := arguments, phase := phase }) :
    Holds condition (Function.update queue id
      (some { arguments := arguments, phase := next })) := by
  have before := holds id _ found
  refine holds.update fun job isJob => ?_
  cases isJob
  exact before

theorem Holds.start (holds : Holds condition queue)
    {moved : JobQueue Id Arguments} (started : queue.start id = some moved) :
    Holds condition moved := by
  unfold JobQueue.start at started
  split at started
  · rename_i arguments found
    cases started
    exact holds.moved found
  · cases started

theorem Holds.requeue (holds : Holds condition queue)
    {moved : JobQueue Id Arguments}
    (requeued : queue.requeue id = some moved) : Holds condition moved := by
  unfold JobQueue.requeue at requeued
  split at requeued
  · rename_i arguments found
    cases requeued
    exact holds.moved found
  · cases requeued

theorem Holds.finish (holds : Holds condition queue)
    {moved : JobQueue Id Arguments} (finished : queue.finish id = some moved) :
    Holds condition moved := by
  unfold JobQueue.finish at finished
  split at finished
  · rename_i arguments found
    cases finished
    exact holds.moved found
  · cases finished

theorem Holds.expire (holds : Holds condition queue)
    {moved : JobQueue Id Arguments} (expired : queue.expire id = some moved) :
    Holds condition moved := by
  unfold JobQueue.expire at expired
  split at expired
  · cases expired
    refine holds.update fun job isJob => ?_
    cases isJob
  · cases expired

end JobQueue

end Foundation
