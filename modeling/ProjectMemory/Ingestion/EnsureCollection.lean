import ProjectMemory.Foundation.Transition
import ProjectMemory.Models.Uuid

/-!
# The first upload of a project

Before it writes its points a job asks Qdrant whether the project's collection
exists and creates it where it does not.  Several jobs may ask before the
first of them creates; Qdrant refuses to create a collection twice.
-/

namespace ProjectMemory.Ingestion

open Foundation

inductive Distance where
  | cosine

inductive Modifier where
  | idf

structure VectorParams where
  size : Nat
  distance : Distance

/-- The vectors that a collection declares, by name. -/
structure CollectionParams where
  vectorsConfig : List (String × VectorParams)
  sparseVectorsConfig : List (String × Modifier)

structure VectorStore where
  vectorSize : Nat

/-- What `ensure_collection` creates. -/
def VectorStore.collectionParams (store : VectorStore) :
    CollectionParams where
  vectorsConfig := [("dense", ⟨store.vectorSize, .cosine⟩)]
  sparseVectorsConfig := [("bm25", .idf)]

/-- Where a call of `ensure_collection` stands. -/
inductive EnsureProgress where
  | checking
  | creating
  | returned
  | raised (message : String)

/-- The collection of a project in Qdrant and the calls that ensure it. -/
structure Ensuring where
  collection : Option CollectionParams
  calls : List EnsureProgress

/-- A call executes its next request; `refusal` is the text of Qdrant's
error where it refuses. -/
structure EnsureLabel where
  call : Nat
  refusal : String

section Machine

variable (store : VectorStore) (projectId : Uuid)

/-- `ensure_collection`, one request at a time. -/
def EnsureProgress.advance (refusal : String)
    (collection : Option CollectionParams) :
    EnsureProgress → Option (EnsureProgress × Option CollectionParams)
  | .checking =>
      match collection with
      | some _ => some (.returned, collection)
      | none => some (.creating, collection)
  | .creating =>
      match collection with
      | some _ =>
          some (.raised ("Failed to ensure collection for project " ++
            projectId.str ++ ": " ++ refusal), collection)
      | none => some (.returned, some store.collectionParams)
  | .returned | .raised _ => none

def Ensuring.step (ensuring : Ensuring) (label : EnsureLabel) :
    Option Ensuring :=
  ensuring.calls[label.call]?.bind fun progress =>
    (progress.advance store projectId label.refusal
      ensuring.collection).map fun (next, collection) =>
        { collection := collection
          calls := ensuring.calls.set label.call next }

/-- Calls that begin before the project has a collection. -/
def firstUploads (calls : Nat) : Ensuring where
  collection := none
  calls := List.replicate calls .checking

end Machine

section Law

/-- No call has raised, and once a call has returned the collection declares
the dense and the sparse vector. -/
structure Ensured (ensuring : Ensuring) : Prop where
  noneRaised : ∀ message, .raised message ∉ ensuring.calls
  declared : .returned ∈ ensuring.calls →
    ∃ params, ensuring.collection = some params ∧
      (∃ vector, ("dense", vector) ∈ params.vectorsConfig) ∧
      ∃ modifier, ("bm25", modifier) ∈ params.sparseVectorsConfig

/-- The condition on a step: where it creates, there is no collection yet. -/
def createsFirst (ensuring : Ensuring) (label : EnsureLabel) : Prop :=
  ensuring.calls[label.call]? = some .creating → ensuring.collection = none

end Law

section Proof

variable {store : VectorStore} {projectId : Uuid}
  {source target : Ensuring} {label : EnsureLabel}

/-- What one request does. -/
theorem Ensuring.step_cases
    (taken : source.step store projectId label = some target) :
    (source.calls[label.call]? = some .checking ∧
      ((∃ params, source.collection = some params ∧
        target = ⟨some params, source.calls.set label.call .returned⟩) ∨
      source.collection = none ∧
        target = ⟨none, source.calls.set label.call .creating⟩)) ∨
    (source.calls[label.call]? = some .creating ∧
      ((∃ params message, source.collection = some params ∧
        target = ⟨some params,
          source.calls.set label.call (.raised message)⟩) ∨
      source.collection = none ∧
        target = ⟨some store.collectionParams,
          source.calls.set label.call .returned⟩)) := by
  obtain ⟨progress, isCall, advanced⟩ := Option.bind_eq_some_iff.mp taken
  obtain ⟨⟨next, collection⟩, isNext, isTarget⟩ :=
    Option.map_eq_some_iff.mp advanced
  cases progress with
  | checking =>
      refine Or.inl ⟨isCall, ?_⟩
      cases isCollection : source.collection with
      | none =>
          rw [isCollection] at isNext
          cases isNext
          exact Or.inr ⟨rfl, isTarget.symm⟩
      | some params =>
          rw [isCollection] at isNext
          cases isNext
          exact Or.inl ⟨params, rfl, isTarget.symm⟩
  | creating =>
      refine Or.inr ⟨isCall, ?_⟩
      cases isCollection : source.collection with
      | none =>
          rw [isCollection] at isNext
          cases isNext
          exact Or.inr ⟨rfl, isTarget.symm⟩
      | some params =>
          rw [isCollection] at isNext
          cases isNext
          exact Or.inl ⟨params, _, rfl, isTarget.symm⟩
  | returned => cases isNext
  | raised message => cases isNext

/-- The collection is the one that `ensure_collection` creates, and it is
there once a call has returned. -/
structure Declared (store : VectorStore) (ensuring : Ensuring) : Prop where
  params : ∀ params, ensuring.collection = some params →
    params = store.collectionParams
  returned : .returned ∈ ensuring.calls → ensuring.collection ≠ none

theorem mem_of_mem_set {calls : List EnsureProgress} {index : Nat}
    {next progress : EnsureProgress}
    (member : progress ∈ calls.set index next) (other : progress ≠ next) :
    progress ∈ calls :=
  (List.mem_or_eq_of_mem_set member).resolve_right other

theorem Declared.step (declared : Declared store source)
    (taken : source.step store projectId label = some target) :
    Declared store target := by
  rcases Ensuring.step_cases taken with
    ⟨_, ⟨params, isParams, rfl⟩ | ⟨isAbsent, rfl⟩⟩ |
    ⟨_, ⟨params, message, isParams, rfl⟩ | ⟨isAbsent, rfl⟩⟩
  · refine ⟨fun other isOther => ?_, fun _ => Option.some_ne_none params⟩
    exact declared.params other (isParams.trans isOther)
  · refine ⟨fun _ isOther => absurd isOther (Option.some_ne_none _).symm,
      fun isReturned => ?_⟩
    have earlier := mem_of_mem_set isReturned (by rintro ⟨⟩)
    exact absurd isAbsent (declared.returned earlier)
  · refine ⟨fun other isOther => ?_, fun _ => Option.some_ne_none params⟩
    exact declared.params other (isParams.trans isOther)
  · exact ⟨fun _ isOther => (Option.some.inj isOther).symm,
      fun _ => Option.some_ne_none _⟩

theorem declared_firstUploads (calls : Nat) :
    Declared store (firstUploads calls) where
  params := fun _ isParams => by cases isParams
  returned := fun isReturned => by
    have isChecking := List.eq_of_mem_replicate isReturned
    cases isChecking

/-- Nothing has gone wrong where no call has raised. -/
theorem Declared.ensured (declared : Declared store source)
    (noneRaised : ∀ message, .raised message ∉ source.calls) :
    Ensured source := by
  refine ⟨noneRaised, fun isReturned => ?_⟩
  obtain ⟨params, isParams⟩ :=
    Option.ne_none_iff_exists'.mp (declared.returned isReturned)
  refine ⟨params, isParams, ?_⟩
  rw [declared.params params isParams]
  exact ⟨⟨_, List.mem_cons_self⟩, ⟨_, List.mem_cons_self⟩⟩

/-- A step raises exactly where it creates again. -/
theorem ensured_iff_createsFirst (declared : Declared store source)
    (ensured : Ensured source)
    (taken : source.step store projectId label = some target) :
    Ensured target ↔ createsFirst source label := by
  have declaredTarget := declared.step taken
  have notRaised {next : EnsureProgress}
      (isNext : ∀ message, next ≠ .raised message) (message : String) :
      .raised message ∉ source.calls.set label.call next := by
    intro isRaised
    exact ensured.noneRaised message
      (mem_of_mem_set isRaised (isNext message).symm)
  rcases Ensuring.step_cases taken with
    ⟨isChecking, ⟨params, isParams, isTarget⟩ | ⟨isAbsent, isTarget⟩⟩ |
    ⟨isCreating, ⟨params, message, isParams, isTarget⟩ |
      ⟨isAbsent, isTarget⟩⟩
  · have notCreating : createsFirst source label := by
      intro isCreating
      rw [isChecking] at isCreating
      cases isCreating
    refine iff_of_true (declaredTarget.ensured ?_) notCreating
    rw [isTarget]
    exact notRaised (by rintro message ⟨⟩)
  · have notCreating : createsFirst source label := fun _ => isAbsent
    refine iff_of_true (declaredTarget.ensured ?_) notCreating
    rw [isTarget]
    exact notRaised (by rintro message ⟨⟩)
  · refine iff_of_false ?_ ?_
    · intro targetEnsured
      obtain ⟨inside, _⟩ := List.getElem?_eq_some_iff.mp isCreating
      apply targetEnsured.noneRaised message
      rw [isTarget]
      exact List.mem_of_getElem? (List.getElem?_set_self inside)
    · intro first
      rw [first isCreating] at isParams
      cases isParams
  · have creating : createsFirst source label := fun _ => isAbsent
    refine iff_of_true (declaredTarget.ensured ?_) creating
    rw [isTarget]
    exact notRaised (by rintro message ⟨⟩)

/-- Concurrent first uploads succeed exactly where no call creates after
another has created. -/
theorem ensured_iff_run_createsFirst {calls : Nat}
    {run : List (EnsureLabel × Ensuring)}
    (isRun : Run (fun source label target =>
      source.step store projectId label = some target)
      (firstUploads calls) run) :
    (∀ ensuring ∈ visited (firstUploads calls) run, Ensured ensuring) ↔
      Run (fun source label target =>
        source.step store projectId label = some target ∧
          createsFirst source label) (firstUploads calls) run := by
  have ensuredStart : Ensured (firstUploads calls) := by
    have declared : Declared store (firstUploads calls) :=
      declared_firstUploads calls
    refine declared.ensured fun message isRaised => ?_
    have isChecking := List.eq_of_mem_replicate isRaised
    cases isChecking
  refine Run.all_visited_iff_guarded (Declared store) Ensured ?_
    (fun _ ensured => ensured) ?_ (fun _ _ _ _ _ _ ensured => ensured) isRun
    (declared_firstUploads calls) ensuredStart
  · intro source label target declared taken
    exact declared.step taken
  · intro source label target declared ensured taken
    exact ensured_iff_createsFirst declared ensured taken

def store384 : VectorStore where
  vectorSize := 384

/-- The second call asks after the first has created. -/
def oneAfterTheOther : List EnsureLabel :=
  [⟨0, ""⟩, ⟨0, ""⟩, ⟨1, ""⟩]

theorem ensured_oneAfterTheOther :
    Run (fun source label target =>
        Ensuring.step store384 7 source label = some target ∧
          createsFirst source label) (firstUploads 2)
      (trace (Ensuring.step store384 7) oneAfterTheOther (firstUploads 2)) ∧
    ∀ ensuring ∈ visited (firstUploads 2)
      (trace (Ensuring.step store384 7) oneAfterTheOther (firstUploads 2)),
      Ensured ensuring := by
  have isRun := run_trace (Ensuring.step store384 7) oneAfterTheOther
    (firstUploads 2)
  have guarded : Run (fun source label target =>
      Ensuring.step store384 7 source label = some target ∧
        createsFirst source label) (firstUploads 2)
      (trace (Ensuring.step store384 7) oneAfterTheOther
        (firstUploads 2)) := by
    refine Run.take ⟨rfl, ?_⟩ (Run.take ⟨rfl, ?_⟩ (Run.take ⟨rfl, ?_⟩
      (Run.stop _)))
    · intro isCreating
      cases isCreating
    · intro _
      rfl
    · intro isCreating
      cases isCreating
  exact ⟨guarded, (ensured_iff_run_createsFirst isRun).mpr guarded⟩

/-- Two jobs ask before either creates: the second creation fails its job. -/
theorem secondCreation_raises :
    ∃ run, Run (fun source label target =>
        Ensuring.step store384 7 source label = some target)
        (firstUploads 2) run ∧
      ¬ ∀ ensuring ∈ visited (firstUploads 2) run, Ensured ensuring := by
  let labels : List EnsureLabel :=
    [⟨0, ""⟩, ⟨1, ""⟩, ⟨0, ""⟩, ⟨1, "already exists"⟩]
  refine ⟨_, run_trace (Ensuring.step store384 7) labels (firstUploads 2), ?_⟩
  intro allEnsured
  have ensured := allEnsured _ (finalState_mem_visited _ _)
  have raised : (finalState (firstUploads 2) (trace
      (Ensuring.step store384 7) labels (firstUploads 2))).calls =
        [.returned, .raised ("Failed to ensure collection for project " ++
          Uuid.str 7 ++ ": " ++ "already exists")] := rfl
  apply ensured.noneRaised
  rw [raised]
  exact List.mem_cons_of_mem _ List.mem_cons_self

end Proof

end ProjectMemory.Ingestion
