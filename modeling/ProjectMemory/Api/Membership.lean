import ProjectMemory.Api.Checks

/-!
# Memberships

Adding a user to a team opens the projects of the team to this user and
changes no other access scope; removing the user again restores the platform.
-/

namespace ProjectMemory.Api

open Foundation ProjectMemory.Core

section Membership

variable {Content Dense Sparse Score : Type} [LinearOrder Score]
  {server : Server Content Dense Sparse Score}
  {authorization : Option String} {chance : Chance}
  {platform after : Platform Dense Sparse} {member : TeamMember}

/-- The platform with other rows. -/
def Platform.withRows (platform : Platform Dense Sparse) (rows : Rows)
    (valid : rows.Constraints) : Platform Dense Sparse :=
  { platform with database := ⟨rows, valid⟩ }

theorem run_requireRow_ok {Row : Type} {missing : HttpError}
    {view : Rows → Option Row}
    (returned : (requireRow missing view).run platform = (.ok (), after)) :
    after = platform := by
  obtain ⟨found, between, isFound, rest⟩ := Script.run_bind_eq_ok returned
  rw [select, Script.run_read] at isFound
  obtain rfl := (Prod.mk.inj isFound).2
  cases found with
  | none => cases rest
  | some row => exact (Prod.mk.inj rest).2.symm

theorem run_commit_ok {change : Rows → Rows}
    (returned : (commit change).run platform = (.ok (), after)) :
    ∃ valid, after = platform.withRows (change platform.rows) valid := by
  by_cases valid : (change platform.rows).Constraints
  · rw [run_commit valid] at returned
    exact ⟨valid, (Prod.mk.inj returned).2.symm⟩
  · rw [commit, Script.run_transaction, Database.commit, dif_neg valid]
      at returned
    by_cases texts : (change platform.rows).Texts
    · rw [if_pos texts] at returned
      cases returned
    · rw [if_neg texts] at returned
      cases returned

theorem run_addMember_ok
    (returned : (addMember member).run platform = (.ok (), after)) :
    member ∉ platform.rows.members ∧
      ∃ valid, after =
        platform.withRows (platform.rows.insertMember member) valid := by
  obtain ⟨_, first, hasTeam, withTeam⟩ := Script.run_bind_eq_ok returned
  obtain rfl := run_requireRow_ok hasTeam
  obtain ⟨_, second, hasUser, withUser⟩ := Script.run_bind_eq_ok withTeam
  obtain rfl := run_requireRow_ok hasUser
  obtain ⟨isMember, third, found, rest⟩ := Script.run_bind_eq_ok withUser
  obtain ⟨isFound, rfl⟩ := Prod.mk.inj found
  cases isMember with
  | true => cases rest
  | false =>
      rw [if_neg Bool.false_ne_true] at rest
      exact ⟨of_decide_eq_false (Except.ok.inj isFound), run_commit_ok rest⟩

theorem run_removeMember_ok
    (returned : (removeMember member).run platform = (.ok (), after)) :
    ∃ valid, after =
      platform.withRows (platform.rows.deleteMember member) valid := by
  obtain ⟨_, first, hasTeam, withTeam⟩ := Script.run_bind_eq_ok returned
  obtain rfl := run_requireRow_ok hasTeam
  obtain ⟨isMember, second, found, rest⟩ := Script.run_bind_eq_ok withTeam
  obtain ⟨_, rfl⟩ := Prod.mk.inj found
  cases isMember with
  | true =>
      rw [if_pos rfl] at rest
      exact run_commit_ok rest
  | false => cases rest

/-- The teams of a user once a member was inserted. -/
theorem mem_teamIds_insertMember {user : User} {teamId : Uuid}
    {valid : (platform.rows.insertMember member).Constraints} :
    teamId ∈ teamIds
        (platform.withRows (platform.rows.insertMember member)
          valid).accounts user ↔
      teamId ∈ teamIds platform.accounts user ∨
        (user.id = member.userId ∧ teamId = member.teamId) := by
  have members : (platform.withRows (platform.rows.insertMember member)
      valid).accounts.members = platform.accounts.members ++ [member] := rfl
  unfold teamIds
  rw [members, List.filter_append, List.map_append, List.mem_append]
  refine or_congr_right ?_
  by_cases own : member.userId = user.id
  · simp [own]
  · simp [own, eq_comm]

theorem mem_scope_insertMember {user : User} {projectId : Uuid}
    {valid : (platform.rows.insertMember member).Constraints}
    (isMember : Role.ofString user.role = some .member) :
    projectId ∈ getAccessibleProjectIds user
        (platform.withRows (platform.rows.insertMember member)
          valid).accounts ↔
      projectId ∈ getAccessibleProjectIds user platform.accounts ∨
        (user.id = member.userId ∧
          ∃ project ∈ platform.rows.projects,
            project.teamId = member.teamId ∧ project.id = projectId) := by
  have scope : ∀ accounts : Accounts,
      projectId ∈ getAccessibleProjectIds user accounts ↔
        ∃ project ∈ accounts.projects.rows,
          project.teamId ∈ teamIds accounts user ∧
            project.id = projectId := by
    intro accounts
    unfold getAccessibleProjectIds
    rw [isMember]
    dsimp only
    split
    · rename_i none
      simp [none]
    · simp only [List.mem_map, List.mem_filter, decide_eq_true_eq,
        and_assoc]
  rw [scope, scope]
  simp only [mem_teamIds_insertMember]
  constructor
  · rintro ⟨project, isRow, ofTeam | ⟨own, isTeam⟩, isId⟩
    · exact Or.inl ⟨project, isRow, ofTeam, isId⟩
    · exact Or.inr ⟨own, project, isRow, isTeam, isId⟩
  · rintro (⟨project, isRow, ofTeam, isId⟩ | ⟨own, project, isRow, isTeam,
      isId⟩)
    · exact ⟨project, isRow, Or.inl ofTeam, isId⟩
    · exact ⟨project, isRow, Or.inr ⟨own, isTeam⟩, isId⟩

theorem deleteMember_insertMember {rows : Rows}
    (isNew : member ∉ rows.members) :
    (rows.insertMember member).deleteMember member = rows := by
  have kept : (rows.members ++ [member]).filter (· ≠ member) =
      rows.members := by
    have others : rows.members.filter (· ≠ member) = rows.members := by
      refine List.filter_eq_self.mpr fun other isOther => ?_
      refine decide_eq_true ?_
      rintro rfl
      exact isNew isOther
    rw [List.filter_append, others]
    simp
  rw [Rows.deleteMember, Rows.insertMember, kept]

/-- A membership opens the projects of its team to its user, changes nothing
for anybody else, and is undone by its removal. -/
theorem membership_roundTrip {again : Option String} {later : Chance}
    {answer reply : Answer Content Score}
    {between : Platform Dense Sparse}
    (added : (perform server authorization chance
      (.addTeamMember member)).run platform = (.ok answer, between))
    (removed : (perform server again later
      (.removeTeamMember member)).run between = (.ok reply, after)) :
    (∀ user projectId, Role.ofString user.role = some .member →
      (projectId ∈ getAccessibleProjectIds user between.accounts ↔
        projectId ∈ getAccessibleProjectIds user platform.accounts ∨
          (user.id = member.userId ∧
            ∃ project ∈ platform.rows.projects,
              project.teamId = member.teamId ∧ project.id = projectId))) ∧
      (∀ user, Role.ofString user.role ≠ some .member →
        getAccessibleProjectIds user between.accounts =
          getAccessibleProjectIds user platform.accounts) ∧
      after = platform := by
  obtain ⟨_, first, isAdmin, adds⟩ := Script.run_bind_eq_ok added
  obtain rfl := run_findAdmin_ok isAdmin
  obtain ⟨_, second, inserted, answered⟩ := Script.run_bind_eq_ok adds
  obtain rfl := (Prod.mk.inj answered).2
  obtain ⟨isNew, valid, rfl⟩ := run_addMember_ok inserted
  obtain ⟨_, third, isAdminStill, removes⟩ := Script.run_bind_eq_ok removed
  obtain rfl := run_findAdmin_ok isAdminStill
  obtain ⟨_, fourth, deleted, replied⟩ := Script.run_bind_eq_ok removes
  obtain rfl := (Prod.mk.inj replied).2
  obtain ⟨validAfter, rfl⟩ := run_removeMember_ok deleted
  refine ⟨fun user projectId => mem_scope_insertMember, ?_, ?_⟩
  · intro user noMember
    unfold getAccessibleProjectIds
    split
    · rfl
    · rename_i isMember
      exact absurd isMember noMember
    · rfl
  have restored : (first.rows.insertMember member).deleteMember member =
      first.rows := deleteMember_insertMember isNew
  have sameDatabase : (⟨_, validAfter⟩ : Database) = first.database := by
    have ext : ∀ left right : Database, left.rows = right.rows →
        left = right := by
      rintro ⟨_, _⟩ ⟨_, _⟩ ⟨⟩
      rfl
    exact ext _ _ restored
  rw [Platform.withRows, sameDatabase]
  rfl

end Membership

section Sample

/-- The member of one team is added to the other. -/
def staffMember : TeamMember where
  userId := 5
  teamId := 4

def afterGrant : Platform Unit Unit :=
  ((perform sampleServer adminHeader sampleChance
    (.addTeamMember staffMember)).run crewPlatform).2

def afterRevocation : Platform Unit Unit :=
  ((perform sampleServer adminHeader sampleChance
    (.removeTeamMember staffMember)).run afterGrant).2

set_option maxRecDepth 20000 in
theorem staffMember_roundTrip :
    (2 ∈ getAccessibleProjectIds { id := 5, role := "member" }
        afterGrant.accounts) ∧ afterRevocation = crewPlatform := by
  have added : (perform sampleServer adminHeader sampleChance
      (.addTeamMember staffMember)).run crewPlatform =
        (.ok .done, afterGrant) := Prod.ext rfl rfl
  have removed : (perform sampleServer adminHeader sampleChance
      (.removeTeamMember staffMember)).run afterGrant =
        (.ok .done, afterRevocation) := Prod.ext rfl rfl
  obtain ⟨scopes, _, restored⟩ := membership_roundTrip added removed
  refine ⟨(scopes _ 2 rfl).mpr (Or.inr ⟨rfl, ?_⟩), restored⟩
  exact ⟨_, List.mem_cons_of_mem _ List.mem_cons_self, rfl, rfl⟩

end Sample

end ProjectMemory.Api
