import ProjectMemory.Api.Authority

/-!
# Updates of a project

`PATCH /projects/{id}` reads the project and writes it back in another
statement.  Only the columns that differ from what was read are written, so
updates that agree with each other all take effect, whatever their statements
interleave with.
-/

namespace ProjectMemory.Api

open Foundation ProjectMemory.Core Retrieval

section Columns

variable {data other : ProjectUpdate} {read row : Project}

/-- Where both updates mention a column they mention one value. -/
structure ProjectUpdate.Agrees (data other : ProjectUpdate) : Prop where
  name : ∀ first second, data.name = some first → other.name = some second →
    first = second
  description : ∀ first second, data.description = some first →
    other.description = some second → first = second

/-- The row has the name of the update, if it mentions one. -/
def ProjectUpdate.Named (data : ProjectUpdate) (row : Project) : Prop :=
  ∀ name, data.name = some name → row.name = name

def ProjectUpdate.Described (data : ProjectUpdate) (row : Project) : Prop :=
  ∀ description, data.description = some description →
    row.description = some description

/-- An agreeing update keeps the name, whatever it has read. -/
theorem ProjectUpdate.Agrees.named (agrees : data.Agrees other)
    (named : data.Named row) : data.Named (other.change read row) := by
  intro name isName
  cases otherName : other.name with
  | none =>
      simp only [change, otherName]
      exact named name isName
  | some given =>
      simp only [change, otherName]
      split
      · exact named name isName
      · exact (agrees.name name given isName otherName).symm

theorem ProjectUpdate.Agrees.described (agrees : data.Agrees other)
    (described : data.Described row) :
    data.Described (other.change read row) := by
  intro description isDescription
  cases otherDescription : other.description with
  | none =>
      simp only [change, otherDescription]
      exact described description isDescription
  | some given =>
      simp only [change, otherDescription]
      split
      · exact described description isDescription
      · exact congrArg some (agrees.description description given
          isDescription otherDescription).symm

/-- The name that was read is still there, or it is written. -/
theorem ProjectUpdate.named_change
    (still : data.Named read → data.Named row) :
    data.Named (data.change read row) := by
  intro name isName
  simp only [change, isName]
  split
  · rename_i same
    refine still (fun given isGiven => ?_) name isName
    rw [isName, Option.some.injEq] at isGiven
    exact same.symm.trans isGiven
  · rfl

theorem ProjectUpdate.described_change
    (still : data.Described read → data.Described row) :
    data.Described (data.change read row) := by
  intro description isDescription
  simp only [change, isDescription]
  split
  · rename_i same
    refine still (fun given isGiven => ?_) description isDescription
    rw [isDescription, Option.some.injEq] at isGiven
    exact same.symm.trans (congrArg some isGiven)
  · rfl

/-- Where nothing is written the project was as the update says. -/
theorem ProjectUpdate.of_not_changes (same : data.changes read = false) :
    data.Named read ∧ data.Described read := by
  rw [changes, Bool.or_eq_false_iff, Option.any_eq_false, Option.any_eq_false]
    at same
  refine ⟨fun name isName => ?_, fun description isDescription => ?_⟩
  · have unchanged := same.1 name isName
    exact (of_not_not (of_decide_eq_false unchanged)).symm
  · have unchanged := same.2 description isDescription
    exact (of_not_not (of_decide_eq_false unchanged)).symm

end Columns

section Retained

variable {Content Dense Sparse Score : Type} {projectId : Uuid}
  {data : ProjectUpdate} {rows changed : Rows}

/-- The project, if it is there, has a property. -/
def Rows.Has (projectId : Uuid) (property : Project → Prop) (rows : Rows) :
    Prop :=
  ∀ row ∈ rows.projects, row.id = projectId → property row

/-- The columns that are as the update says stay so. -/
structure Retains (projectId : Uuid) (data : ProjectUpdate)
    (before after : Rows) : Prop where
  named : before.Has projectId data.Named → after.Has projectId data.Named
  described : before.Has projectId data.Described →
    after.Has projectId data.Described

/-- Requests that change the project in agreement with the update only. -/
def agreeing (projectId : Uuid) (data : ProjectUpdate) : Powers where
  privileged := True
  reach := fun _ => True
  drawn := (· ≠ projectId)
  uploads := fun _ _ _ => True
  updates := fun other change => other = projectId → ∀ row,
    (data.Named row → data.Named (change row)) ∧
      (data.Described row → data.Described (change row))

theorem RowChange.has {property : Project → Prop}
    (change : RowChange (agreeing projectId data) rows changed)
    (stays : ∀ update, (agreeing projectId data).updates projectId update →
      ∀ row, property row → property (update row))
    (has : rows.Has projectId property) :
    changed.Has projectId property := by
  cases change with
  | insertProject admin added isDrawn =>
      intro row isRow own
      rcases List.mem_append.mp isRow with old | new
      · exact has row old own
      · rw [List.mem_singleton.mp new] at own
        exact absurd own isDrawn
  | updateProject admin other update sameId sameTeam isUpdate =>
      intro row isRow own
      obtain ⟨old, isOld, rfl⟩ := List.mem_map.mp isRow
      split at own
      · rename_i isOther
        rw [sameId] at own
        have here : other = projectId := isOther.symm.trans own
        rw [if_pos isOther]
        exact stays update (here ▸ isUpdate) old (has old isOld own)
      · rename_i isOther
        rw [if_neg isOther]
        exact has old isOld own
  | deleteProject admin other =>
      intro row isRow own
      exact has row (List.mem_filter.mp isRow).1 own
  | _ => exact has

theorem retains_admits :
    Admits (agreeing projectId data)
      (fun before after : Platform Dense Sparse =>
        Retains projectId data before.rows after.rows) where
  refl _ := ⟨id, id⟩
  trans _ _ _ left right :=
    ⟨right.named ∘ left.named, right.described ∘ left.described⟩
  executes now after executed := by
    cases executed with
    | write database change =>
        exact ⟨change.has fun _ isUpdate row => (isUpdate rfl row).1,
          change.has fun _ isUpdate row => (isUpdate rfl row).2⟩
    | _ => exact ⟨id, id⟩

/-- The request, if it updates the project, agrees with the update; it does
not draw the identifier of the project again. -/
def Event.AgreesWith (projectId : Uuid) (data : ProjectUpdate) :
    Event → Prop
  | .request _ command chance =>
      chance.id ≠ projectId ∧
        ∀ other, command = .updateProject projectId other →
          data.Agrees other
  | .elapse _ => True

theorem Event.AgreesWith.allowed {event : Event}
    (agrees : event.AgreesWith projectId data) :
    event.Allowed (agreeing projectId data) := by
  cases event with
  | request authorization command chance =>
      refine ⟨agrees.1, fun _ _ _ _ => trivial, ?_⟩
      rintro own other isUpdate read rfl row
      have agree := agrees.2 other isUpdate
      exact ⟨agree.named, agree.described⟩
  | elapse duration => trivial

theorem ProjectUpdate.agrees_self (data : ProjectUpdate) :
    data.Agrees data where
  name _ _ first second := Option.some.inj (first.symm.trans second)
  description _ _ first second := Option.some.inj (first.symm.trans second)

/-- The project is as the update says. -/
def Rows.AsIn (projectId : Uuid) (data : ProjectUpdate) (rows : Rows) :
    Prop :=
  rows.Has projectId data.Named ∧ rows.Has projectId data.Described

theorem Retains.asIn (retains : Retains projectId data rows changed)
    (asIn : rows.AsIn projectId data) : changed.AsIn projectId data :=
  ⟨retains.named asIn.1, retains.described asIn.2⟩

/-- The row that is found is the only one. -/
theorem has_of_found {platform : Platform Dense Sparse} {read : Project}
    (found : projectRow platform.rows projectId = some read)
    {property : Project → Prop} (holds : property read) :
    platform.rows.Has projectId property := by
  rintro row isRow rfl
  have unique := platform.database.constraints.unique.projects
  have isFound := find_key_of_mem unique isRow
  have same : row = read := Option.some.inj (isFound.symm.trans found)
  rw [same]
  exact holds

/-- What was read of the columns that are not written still holds. -/
theorem flushUpdate_meets {read : Project} (own : read.id = projectId)
    {state : Platform Dense Sparse}
    (named : data.Named read → state.rows.Has projectId data.Named)
    (described : data.Described read →
      state.rows.Has projectId data.Described) :
    (flushUpdate data read).Meets
      (fun before after : Platform Dense Sparse =>
        Retains projectId data before.rows after.rows)
      (fun now result => result = .ok () → now.rows.AsIn projectId data)
      state := by
  have admits := @retains_admits Dense Sparse projectId data
  unfold flushUpdate
  split
  · refine Script.meets_transaction ?_ ?_
    · rintro now after ⟨⟩ moved returned
      split at returned
      · cases returned
      · obtain ⟨database, same, rfl⟩ := commit_cases
          (fun rows => rows.updateProject read.id (data.change read)) returned
        have agrees := data.agrees_self
        have isUpdate :
            (agreeing projectId data).updates read.id (data.change read) :=
          fun _ row => ⟨agrees.named, agrees.described⟩
        have change : RowChange (agreeing projectId data) now.rows
            database.rows := by
          rw [same]
          exact .updateProject trivial read.id _ (fun _ => rfl)
            (fun _ => rfl) isUpdate
        have written : ∀ row ∈ database.rows.projects, row.id = projectId →
            ∃ old ∈ now.rows.projects, old.id = projectId ∧
              row = data.change read old := by
          intro row isRow isOwn
          rw [same] at isRow
          obtain ⟨old, isOld, rfl⟩ := List.mem_map.mp isRow
          split at isOwn
          · rename_i here
            rw [if_pos here]
            exact ⟨old, isOld, isOwn, rfl⟩
          · rename_i elsewhere
            exact absurd (isOwn.trans own.symm) elsewhere
        refine ⟨admits.executes now _ (.write database change), fun _ =>
          ⟨fun row isRow isOwn => ?_, fun row isRow isOwn => ?_⟩⟩
        · obtain ⟨old, isOld, ofProject, rfl⟩ := written row isRow isOwn
          exact ProjectUpdate.named_change fun isNamed =>
            moved.named (named isNamed) old isOld ofProject
        · obtain ⟨old, isOld, ofProject, rfl⟩ := written row isRow isOwn
          exact ProjectUpdate.described_change fun isDescribed =>
            moved.described (described isDescribed) old isOld ofProject
    · rintro now failure _ _
      exact ⟨admits.refl now, nofun⟩
  · rename_i same
    have unchanged := ProjectUpdate.of_not_changes (Bool.of_not_eq_true same)
    exact fun _ => ⟨named unchanged.1, described unchanged.2⟩

theorem updateProject_meets (accessibleIds : List Uuid)
    (state : Platform Dense Sparse) :
    (updateProject projectId data accessibleIds).Meets
      (fun before after : Platform Dense Sparse =>
        Retains projectId data before.rows after.rows)
      (fun now result => ∀ row, result = .ok row →
        now.rows.AsIn projectId data) state := by
  have admits := @retains_admits Dense Sparse projectId data
  refine Script.Meets.bind
    (fun now result => ∀ read, result = .ok read →
      projectRow now.rows projectId = some read) admits.refl admits.trans
    (admits.findProject_meets ?_ ?_) ?_ ?_
  · rintro now project _ isRow _ ⟨⟩
    exact isRow
  · rintro now failure _ _ ⟨⟩
  · intro now read _ isFound
    have found := isFound read rfl
    refine Script.Meets.bind
      (fun later result => result = .ok () →
        later.rows.AsIn projectId data) admits.refl admits.trans
      (flushUpdate_meets (find_key_eq_some found).2
        (fun named => has_of_found found named)
        fun described => has_of_found found described) ?_ ?_
    · intro later _ _ asIn
      refine Script.meets_transaction ?_ ?_
      · intro last after row moved returned
        have stays := moved.asIn (asIn rfl)
        split at returned
        · cases returned
        · cases returned
          exact ⟨admits.refl last, fun _ _ => stays⟩
      · rintro last failure _ _
        exact ⟨admits.refl last, nofun⟩
    · rintro later failure _ _ _ ⟨⟩
  · rintro now failure _ _ _ ⟨⟩

variable [LinearOrder Score] {server : Server Content Dense Sparse Score}

/-- What an update of the project is promised. -/
def updatePromise (projectId : Uuid) (data : ProjectUpdate) (event : Event)
    (platform : Platform Dense Sparse)
    (result : Except HttpError (Answer Content Score)) : Prop :=
  ∀ header chance answer,
    event = .request header (.updateProject projectId data) chance →
    result = .ok answer → platform.rows.AsIn projectId data

theorem update_meets {event : Event}
    (agrees : event.AgreesWith projectId data)
    (state : Platform Dense Sparse) :
    (event.script server).Meets
      (fun before after : Platform Dense Sparse =>
        Retains projectId data before.rows after.rows)
      (updatePromise projectId data event) state := by
  have admits := @retains_admits Dense Sparse projectId data
  by_cases updates : ∃ header chance,
      event = .request header (.updateProject projectId data) chance
  · obtain ⟨header, chance, rfl⟩ := updates
    refine Script.Meets.bind _ admits.refl admits.trans
      (admits.findAdmin _ state) ?_ ?_
    · intro now caller _ _
      refine Script.Meets.bind _ admits.refl admits.trans
        (admits.findScope _ now) ?_ ?_
      · intro later accessibleIds _ _
        refine Script.Meets.bind _ admits.refl admits.trans
          (updateProject_meets accessibleIds later) ?_ ?_
        · intro last row _ asIn _ _ _ _ _
          exact asIn row rfl
        · rintro last failure _ _ _ _ _ _ ⟨⟩
      · rintro later failure _ _ _ _ _ _ ⟨⟩
    · rintro now failure _ _ _ _ _ _ ⟨⟩
  · refine (admits.event trivial (fun _ => trivial) agrees.allowed state).mono
      admits.refl admits.trans ?_
    intro now result _ _ header chance answer isUpdate _
    exact absurd ⟨header, chance, isUpdate⟩ updates

/-- An update that has returned is in effect and stays so, whatever requests
interleave with it, as long as no other update of the project says something
else of the same column: what an update has read before it writes back
overwrites nothing. -/
theorem updates_merge {admitted : Event → Prop}
    {start : Platform Dense Sparse}
    (agree : ∀ event, admitted event → event.AgreesWith projectId data)
    {pool : Pool Event (Platform Dense Sparse) HttpError
      (Answer Content Score)}
    (reachable : Reachable
      (served (Event.script server) admitted start) pool)
    {header : Option String} {chance : Chance}
    {answer : Answer Content Score}
    (returned : ⟨.request header (.updateProject projectId data) chance,
      .finish (.ok answer)⟩ ∈ pool.calls) :
    ∀ row ∈ pool.state.rows.projects, row.id = projectId →
      (∀ name, data.name = some name → row.name = name) ∧
        ∀ description, data.description = some description →
          row.description = some description := by
  have admits := @retains_admits Dense Sparse projectId data
  have kept := promisesKept_of_reachable admits.refl admits.trans
    (fun event now later result moved promised header chance answer isUpdate
        isOk =>
      moved.asIn (promised header chance answer isUpdate isOk))
    (fun event state allowed _ => update_meets (agree event allowed) state)
    reachable
  obtain ⟨named, described⟩ :=
    kept.calls _ returned header chance answer rfl rfl
  exact fun row isRow own => ⟨named row isRow own, described row isRow own⟩

end Retained

section Sample

/-- One update of the name and one of the description. -/
def newName : ProjectUpdate where
  name := some "Voyager"
  description := none

def newDescription : ProjectUpdate where
  name := none
  description := some "Outer planets"

theorem newName_agrees : newName.Agrees newDescription ∧
    newDescription.Agrees newName :=
  ⟨⟨nofun, nofun⟩, ⟨nofun, nofun⟩⟩

def sampleUpdates : List (PoolLabel Event) :=
  .arrive (.request adminHeader (.updateProject 2 newName) sampleChance) ::
    .arrive (.request adminHeader (.updateProject 2 newDescription)
      sampleChance) ::
    (List.replicate 6 [.advance 0, .advance 1]).flatten

/-- Both updates read the project before either writes. -/
def updatedPool : Pool Event (Platform Unit Unit) HttpError
    (Answer String Nat) :=
  finalState crewPool
    (trace (poolStep (Event.script sampleServer)) sampleUpdates crewPool)

def Admitted (event : Event) : Prop :=
  event.AgreesWith 2 newName ∧ event.AgreesWith 2 newDescription

theorem sampleUpdates_admitted (event : Event)
    (arrives : PoolLabel.arrive event ∈ sampleUpdates) : Admitted event := by
  have drawn : sampleChance.id ≠ 2 := by decide
  simp only [sampleUpdates, List.replicate, List.flatten_cons,
    List.flatten_nil, List.cons_append, List.nil_append, List.mem_cons,
    PoolLabel.arrive.injEq, reduceCtorEq, List.not_mem_nil, or_false]
    at arrives
  rcases arrives with rfl | rfl
  · refine ⟨⟨drawn, ?_⟩, drawn, ?_⟩
    · rintro other ⟨⟩
      exact newName.agrees_self
    · rintro other ⟨⟩
      exact newName_agrees.2
  · refine ⟨⟨drawn, ?_⟩, drawn, ?_⟩
    · rintro other ⟨⟩
      exact newName_agrees.1
    · rintro other ⟨⟩
      exact newDescription.agrees_self

set_option maxRecDepth 20000 in
theorem sampleUpdates_merge :
    2 ∈ updatedPool.state.rows.projectIds ∧
      ∀ row ∈ updatedPool.state.rows.projects, row.id = 2 →
        row.name = "Voyager" ∧ row.description = some "Outer planets" := by
  have reachable : Reachable
      (served (Event.script sampleServer) Admitted crewPlatform)
      updatedPool :=
    (served_trace sampleUpdates_admitted crewPool).reachable
      (Reachable.initial rfl) _ (finalState_mem_visited _ _)
  have isPresent : updatedPool.state.rows.projectIds = [1, 2] := rfl
  have named : ∃ row, ⟨.request adminHeader (.updateProject 2 newName)
      sampleChance, .finish (.ok (.project row))⟩ ∈ updatedPool.calls :=
    ⟨_, List.mem_cons_self⟩
  have described : ∃ row, ⟨.request adminHeader
      (.updateProject 2 newDescription) sampleChance,
      .finish (.ok (.project row))⟩ ∈ updatedPool.calls :=
    ⟨_, List.mem_cons_of_mem _ List.mem_cons_self⟩
  obtain ⟨_, hasName⟩ := named
  obtain ⟨_, hasDescription⟩ := described
  refine ⟨isPresent ▸ by decide, fun row isRow own => ⟨?_, ?_⟩⟩
  · exact (updates_merge (fun _ admitted => admitted.1) reachable hasName
      row isRow own).1 _ rfl
  · exact (updates_merge (fun _ admitted => admitted.2) reachable
      hasDescription row isRow own).2 _ rfl

end Sample

end ProjectMemory.Api
