import Mathlib.Data.List.Forall2
import ProjectMemory.Cag.Writers
import ProjectMemory.Models.BeliefState

/-!
# What is stored is what was written

The writers together with a record of what they were given: for each call the
content it is to store, which is the answer of its callback or the argument of
`insert_version`, and for each row the content given to the call that
committed it.  No step reads the record.
-/

namespace ProjectMemory.Cag

open Foundation

section System

variable {Content : Type}

/-- The writers, the content each call was given and the contents of the rows
in the order of their commits. -/
structure Ledger (Content : Type) where
  state : State Content
  given : Nat → Option Content
  written : List Content

/-- The content a call is given by its next step. -/
def Phase.given (choice : Choice Content) : Phase Content → Option Content
  | .invoked (.insertVersion content _ _ _) => some content
  | .running _ (.callback _ _) =>
      match choice.answer with
      | .ok content => some content
      | .error _ => none
  | _ => none

def Ledger.record (ledger : Ledger Content) (target : State Content) :
    Label Content → Ledger Content
  | .advance caller choice =>
      match ledger.state.calls caller with
      | none => { ledger with state := target }
      | some (_, phase) =>
          { state := target
            given := Function.update ledger.given caller
              ((phase.given choice).or (ledger.given caller))
            written :=
              if (phase.commits choice).isSome then
                ledger.written ++ (ledger.given caller).toList
              else ledger.written }
  | _ => { ledger with state := target }

def Ledger.empty : Ledger Content where
  state := State.empty
  given := fun _ => none
  written := []

def ledgerStep (hashtext : String → BitVec 32) (schema : Schema Content)
    (ledger : Ledger Content) (label : Label Content) :
    Option (Ledger Content) :=
  (step hashtext schema ledger.state label).map fun target =>
    ledger.record target label

def ledgers (hashtext : String → BitVec 32) (schema : Schema Content) :
    TransitionSystem (Ledger Content) (Label Content) :=
  TransitionSystem.ofNext (fun ledger => ledger = Ledger.empty)
    (ledgerStep hashtext schema)

/-- No reader of belief states raises `InvalidBeliefStateError`. -/
structure AllReadable (schema : Schema Content) (tables : Tables) : Prop where
  latest : ∀ projectId, ∃ record, getLatest schema tables projectId = .ok record
  latestFull : ∀ projectId,
    ∃ record, getLatestFull schema tables projectId = .ok record
  version : ∀ projectId version error,
    getVersion schema tables projectId version ≠ .error (.unreadable error)

end System

/-! ## Rows that were dumped -/

section Rows

variable {Content : Type} {schema : Schema Content} {tables : Tables}

def Dumped (schema : Schema Content) (row : BeliefState) : Prop :=
  ∃ content, row.state = schema.dump content

theorem toRecord_of_dump (faithful : schema.Faithful) {row : BeliefState}
    {content : Content} (dumped : row.state = schema.dump content) :
    ∃ record, toRecord schema row = .ok record ∧ record.state = content := by
  rw [toRecord, dumped, faithful content]
  exact ⟨_, rfl, rfl⟩

theorem readBack_of_dumped (faithful : schema.Faithful)
    {found : Option BeliefState}
    (dumped : ∀ row, found = some row → Dumped schema row) :
    ∃ record, readBack schema found = .ok record := by
  cases found with
  | none => exact ⟨none, rfl⟩
  | some row =>
      obtain ⟨content, isDump⟩ := dumped row rfl
      obtain ⟨record, converted, _⟩ := toRecord_of_dump faithful isDump
      rw [readBack, converted]
      exact ⟨some record, rfl⟩

theorem allReadable_of_dumped (faithful : schema.Faithful)
    (dumped : ∀ row ∈ tables.beliefs, Dumped schema row) :
    AllReadable schema tables where
  latest projectId := readBack_of_dumped faithful fun row found =>
    dumped row (latestRow_mem found).1
  latestFull projectId := readBack_of_dumped faithful fun row found =>
    dumped row (latestFullRow_mem found).1
  version := by
    intro projectId version error unreadable
    rw [getVersion] at unreadable
    cases found : versionRow tables.beliefs projectId version with
    | none =>
        rw [found] at unreadable
        cases unreadable
    | some row =>
        have member := mem_beliefsOf.mp (List.mem_of_find?_eq_some found)
        obtain ⟨content, isDump⟩ := dumped row member.1
        obtain ⟨record, converted, _⟩ := toRecord_of_dump faithful isDump
        rw [found] at unreadable
        simp only [converted] at unreadable
        cases unreadable

end Rows

/-! ## What a call carries from its content to its row -/

section Carrying

variable {Content : Type} {schema : Schema Content} {tables : Tables}
  {given : Option Content} {choice : Choice Content} {projectId : Uuid}
  {request : Request}

def Reply.record : Reply Content → Option (BeliefStateRecord Content)
  | .nothing => none
  | .synthesized record _ | .rebuilt record _ | .inserted record =>
      some record

/-- A stored value is the dump of the content that was given. -/
def Holds (schema : Schema Content) (given : Option Content)
    (stored : Json) : Prop :=
  ∃ content, given = some content ∧ stored = schema.dump content

/-- What is known of a call from the content it was given. -/
def Carries (schema : Schema Content) (given : Option Content) :
    Phase Content → Prop
  | .invoked _ => True
  | .running request .lock =>
      ∀ draft, request = .insertVersion draft →
        Holds schema given draft.state
  | .running request .getLatest | .running request (.getLatestFull _)
  | .running request (.getWindow _ _) | .running request (.callback _ _) =>
      ∀ draft, request ≠ .insertVersion draft
  | .running _ (.maxVersion pending) | .running _ (.insert pending _) =>
      Holds schema given pending.draft.state
  | .running _ (.commit _ row) | .running _ (.refresh _ row) =>
      Holds schema given row.state
  | .returned reply =>
      ∀ record, reply.record = some record → given = some record.state
  | .raised error => ∀ owner version, error ≠ .invalidBeliefState owner version

theorem reply_record (request : Request) (pending : Pending Content)
    (record : BeliefStateRecord Content) :
    (request.reply pending record).record = some record := by
  cases request <;> rfl

theorem carries_check (call : Call Content) :
    Carries schema
      (((Phase.invoked call).given choice).or given)
      ((Phase.invoked call).next schema choice tables projectId) := by
  cases call with
  | synthesizeAndInsert size =>
      rw [Phase.next, Call.check]
      by_cases large : 1 ≤ size
      · rw [dif_pos large]
        intro draft isInsertion
        cases isInsertion
      · rw [dif_neg large]
        intro owner version isInvalid
        cases isInvalid
  | rebuild mode size =>
      rw [Phase.next, Call.check]
      by_cases large : 1 ≤ size
      · rw [if_pos large]
        intro draft isInsertion
        cases isInsertion
      · rw [if_neg large]
        intro owner version isInvalid
        cases isInvalid
  | insertVersion content rebuildType lastSummaryCreatedAt count =>
      intro draft isInsertion
      cases isInsertion
      exact ⟨content, rfl, rfl⟩

theorem carries_fault {pc : Pc Content} {failure : CagError}
    (failed : choice.fault.bind pc.fault = some failure) :
    Carries schema given (.raised failure) := by
  obtain ⟨message, _, converted⟩ := Option.bind_eq_some_iff.mp failed
  cases pc with
  | callback latest plan => cases converted
  | _ =>
      cases converted
      intro owner version isInvalid
      cases isInvalid

/-- Every statement passes on what its call carries, where all stored rows can
be read. -/
theorem carries_statement (faithful : schema.Faithful)
    (readable : AllReadable schema tables) {pc : Pc Content}
    (carries : Carries schema given (.running request pc)) :
    Carries schema
      (((Phase.running request pc).given choice).or given)
      (request.statement schema choice tables projectId pc) := by
  cases pc with
  | lock =>
      cases request with
      | insertVersion draft => exact carries draft rfl
      | synthesizeAndInsert size =>
          intro draft isInsertion
          cases isInsertion
      | rebuild mode =>
          intro draft isInsertion
          cases isInsertion
  | getLatest =>
      obtain ⟨latest, read⟩ := readable.latest projectId
      rw [Request.statement, read]
      cases request with
      | insertVersion draft => exact absurd rfl (carries draft)
      | synthesizeAndInsert size =>
          intro draft isInsertion
          cases isInsertion
      | rebuild mode =>
          cases mode with
          | compaction =>
              intro draft isInsertion
              cases isInsertion
          | genesis =>
              intro draft isInsertion
              cases isInsertion
  | getLatestFull latest =>
      obtain ⟨full, read⟩ := readable.latestFull projectId
      rw [Request.statement, read]
      exact carries
  | getWindow latest base =>
      rw [Request.statement]
      cases request.plan choice.order tables.summaries projectId base with
      | none =>
          intro record isRecord
          cases isRecord
      | some plan => exact carries
  | callback latest plan =>
      rw [Request.statement, Phase.given]
      cases choice.answer with
      | error message =>
          intro owner version isInvalid
          cases isInvalid
      | ok content => exact ⟨content, rfl, rfl⟩
  | maxVersion pending => exact carries
  | insert pending version =>
      rw [Request.statement]
      by_cases taken : versionTaken tables projectId version = true
      · rw [if_pos taken]
        intro owner number isInvalid
        cases request <;> cases isInvalid
      · rw [if_neg taken]
        exact carries
  | commit pending row => exact carries
  | refresh pending row =>
      obtain ⟨content, isGiven, isDump⟩ := carries
      obtain ⟨record, converted, isContent⟩ :=
        toRecord_of_dump faithful isDump
      rw [Request.statement, converted]
      intro returned isReturned
      rw [reply_record, Option.some.injEq] at isReturned
      rw [← isReturned, isContent]
      exact isGiven

theorem carries_next (faithful : schema.Faithful)
    (readable : AllReadable schema tables) {phase : Phase Content}
    (carries : Carries schema given phase) :
    Carries schema ((phase.given choice).or given)
      (phase.next schema choice tables projectId) := by
  cases phase with
  | invoked call => exact carries_check call
  | returned reply => exact carries
  | raised error => exact carries
  | running request pc =>
      rw [Phase.next]
      cases failed : choice.fault.bind pc.fault with
      | none => exact carries_statement faithful readable carries
      | some failure => exact carries_fault failed

end Carrying

/-! ## Every reachable ledger -/

section Ledgers

variable {Content : Type} {hashtext : String → BitVec 32}
  {schema : Schema Content} {ledger target : Ledger Content}
  {label : Label Content}

/-- A row is read back as a record with a content. -/
def ReadsAs (schema : Schema Content) (row : BeliefState)
    (content : Content) : Prop :=
  ∃ record, toRecord schema row = .ok record ∧ record.state = content

structure Sound (schema : Schema Content) (ledger : Ledger Content) :
    Prop where
  rows : List.Forall₂ (fun row content => row.state = schema.dump content)
    ledger.state.tables.beliefs ledger.written
  calls : ∀ caller projectId phase,
    ledger.state.calls caller = some (projectId, phase) →
    Carries schema (ledger.given caller) phase

theorem Sound.readsAs (faithful : schema.Faithful)
    (sound : Sound schema ledger) :
    List.Forall₂ (ReadsAs schema) ledger.state.tables.beliefs
      ledger.written :=
  sound.rows.imp fun _ _ isDump => toRecord_of_dump faithful isDump

theorem dumped_of_forall₂ {rows : List BeliefState}
    {contents : List Content}
    (dumps : List.Forall₂ (fun row content =>
      row.state = schema.dump content) rows contents) :
    ∀ row ∈ rows, Dumped schema row := by
  induction dumps with
  | nil =>
      intro row member
      cases member
  | @cons row content rows contents isDump _ inductionHypothesis =>
      rw [List.forall_mem_cons]
      exact ⟨⟨content, isDump⟩, inductionHypothesis⟩

theorem Sound.allReadable (faithful : schema.Faithful)
    (sound : Sound schema ledger) :
    AllReadable schema ledger.state.tables :=
  allReadable_of_dumped faithful (dumped_of_forall₂ sound.rows)

theorem sound_empty : Sound schema Ledger.empty where
  rows := List.Forall₂.nil
  calls := by
    intro caller projectId phase found
    cases found

theorem record_of_found {caller : Nat} {choice : Choice Content}
    {projectId : Uuid} {phase : Phase Content} (state : State Content)
    (found : ledger.state.calls caller = some (projectId, phase)) :
    ledger.record state (.advance caller choice) =
      { state := state
        given := Function.update ledger.given caller
          ((phase.given choice).or (ledger.given caller))
        written :=
          if (phase.commits choice).isSome then
            ledger.written ++ (ledger.given caller).toList
          else ledger.written } := by
  simp only [Ledger.record, found]

/-- A statement of a call keeps the ledger sound. -/
theorem Sound.advance (faithful : schema.Faithful)
    (sound : Sound schema ledger) {caller : Nat} {choice : Choice Content}
    {projectId : Uuid} {phase : Phase Content}
    (found : ledger.state.calls caller = some (projectId, phase)) :
    Sound schema (ledger.record
      (ledger.state.move hashtext schema caller projectId phase choice)
      (.advance caller choice)) := by
  have carries := sound.calls caller projectId phase found
  rw [record_of_found _ found]
  refine ⟨?_, ?_⟩
  · cases committed : phase.commits choice with
    | none =>
        rw [(move_of_commits_none hashtext schema ledger.state caller
          projectId committed).1]
        exact sound.rows
    | some entry =>
        obtain ⟨row, pending⟩ := entry
        obtain ⟨request, rfl, _⟩ :=
          commits_cases schema projectId committed
        obtain ⟨content, isGiven, isDump⟩ := carries
        rw [(move_of_commits_some hashtext schema ledger.state caller
          projectId committed).1, isGiven]
        exact List.rel_append sound.rows
          (List.Forall₂.cons isDump List.Forall₂.nil)
  · intro other otherProject otherPhase otherFound
    rw [move_calls] at otherFound
    by_cases same : other = caller
    · subst same
      simp only [Function.update_self] at otherFound ⊢
      cases otherFound
      exact carries_next faithful (sound.allReadable faithful) carries
    · simp only [Function.update_of_ne same] at otherFound ⊢
      exact sound.calls other otherProject otherPhase otherFound

theorem Sound.step (faithful : schema.Faithful)
    (sound : Sound schema ledger)
    (taken : ledgerStep hashtext schema ledger label = some target) :
    Sound schema target := by
  obtain ⟨state, stepped, rfl⟩ := Option.map_eq_some_iff.mp taken
  rcases step_cases stepped with
    ⟨row, rfl, _, rfl⟩ | ⟨caller, projectId, call, rfl, _, rfl⟩ |
    ⟨caller, choice, projectId, phase, rfl, found, _, _, rfl⟩
  · exact ⟨sound.rows, sound.calls⟩
  · refine ⟨sound.rows, ?_⟩
    intro other otherProject otherPhase otherFound
    have lookup : Function.update ledger.state.calls caller
        (some (projectId, .invoked call)) other =
        some (otherProject, otherPhase) := otherFound
    by_cases same : other = caller
    · rw [same, Function.update_self] at lookup
      cases lookup
      trivial
    · rw [Function.update_of_ne same] at lookup
      exact sound.calls other otherProject otherPhase lookup
  · exact sound.advance faithful found

theorem sound_of_reachable (faithful : schema.Faithful)
    (reachable : Reachable (ledgers hashtext schema) ledger) :
    Sound schema ledger := by
  refine invariant_of_step ?_ ?_ reachable
  · intro ledger isEmpty
    rw [show ledger = Ledger.empty from isEmpty]
    exact sound_empty
  · exact fun _ _ _ sound taken => sound.step faithful taken

/-- The record can be kept along every run of the writers. -/
theorem exists_ledger {state : State Content}
    (reachable : Reachable (writers hashtext schema) state) :
    ∃ ledger, Reachable (ledgers hashtext schema) ledger ∧
      ledger.state = state := by
  induction reachable with
  | initial isInitial =>
      exact ⟨Ledger.empty, Reachable.initial rfl, isInitial.symm⟩
  | @step source target label _ taken inductionHypothesis =>
      obtain ⟨ledger, ledgerReachable, rfl⟩ := inductionHypothesis
      have recorded : ledgerStep hashtext schema ledger label =
          some (ledger.record target label) := by
        have stepped : step hashtext schema ledger.state label =
            some target := taken
        rw [ledgerStep, stepped, Option.map_some]
      refine ⟨_, Reachable.step ledgerReachable recorded, ?_⟩
      unfold Ledger.record
      split
      · split <;> rfl
      · rfl

/-- In no reachable state of the writers does reading a belief state raise
`InvalidBeliefStateError`. -/
theorem allReadable_of_reachable (faithful : schema.Faithful)
    {state : State Content}
    (reachable : Reachable (writers hashtext schema) state) :
    AllReadable schema state.tables := by
  obtain ⟨ledger, ledgerReachable, rfl⟩ := exists_ledger reachable
  exact (sound_of_reachable faithful ledgerReachable).allReadable faithful

/-- Every row that was written is read back as the content its call was given,
no reader raises, and what a call returns is a record of that content. -/
theorem beliefStates_survive {ledger : Ledger BeliefStateContent}
    (reachable : Reachable (ledgers hashtext Schema.beliefState) ledger) :
    List.Forall₂ (ReadsAs Schema.beliefState) ledger.state.tables.beliefs
        ledger.written ∧
      AllReadable Schema.beliefState ledger.state.tables ∧
      (∀ caller projectId reply record,
        ledger.state.calls caller = some (projectId, .returned reply) →
        reply.record = some record →
        ledger.given caller = some record.state) ∧
      ∀ caller projectId owner version,
        ledger.state.calls caller ≠
          some (projectId, .raised (.invalidBeliefState owner version)) := by
  have sound := sound_of_reachable Schema.beliefState_faithful reachable
  refine ⟨sound.readsAs Schema.beliefState_faithful,
    sound.allReadable Schema.beliefState_faithful, ?_, ?_⟩
  · intro caller projectId reply record found isRecord
    exact sound.calls caller projectId _ found record isRecord
  · intro caller projectId owner version found
    exact sound.calls caller projectId _ found owner version rfl

def sampleContent : BeliefStateContent where
  projectSummary := ⟨"Apollo", by decide⟩
  decisions := ⟨[{
    description := ⟨"Use Qdrant", by decide⟩
    approximateDate := some ⟨"2024-02-30", by decide⟩
    summaryIdRef := some 7 }], by decide⟩
  openItems := Schema.noItems OpenItem 100
  keyPeople := ⟨[{ name := ⟨"Ada", by decide⟩, role := none }], by decide⟩
  recurringThemes := ⟨[⟨"search", by decide⟩], by decide⟩

def storing : Choice BeliefStateContent where
  order := OrderBy.stable _
  answer := .ok sampleContent
  fault := none
  stamp := { id := 9, now := 7 }

theorem beliefStates_survive_inserted :
    ∃ ledger, Reachable (ledgers (fun _ => 0) Schema.beliefState) ledger ∧
      ledger.written = [sampleContent] ∧
      List.Forall₂ (ReadsAs Schema.beliefState) ledger.state.tables.beliefs
        [sampleContent] := by
  have inserted := @reachable_of_follow _ _
    (fun ledger => ledger = Ledger.empty)
    (ledgerStep (fun _ => 0) Schema.beliefState)
    (.invoke 0 1 (.insertVersion sampleContent .full 5 2) ::
      List.replicate 5 (.advance 0 storing))
    _ _ (Reachable.initial rfl) rfl
  exact ⟨_, inserted, rfl, (beliefStates_survive inserted).1⟩

end Ledgers

end ProjectMemory.Cag
