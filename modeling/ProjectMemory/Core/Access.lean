import ProjectMemory.Foundation.Table
import ProjectMemory.Models.Rows

/-!
# Callers and the projects they may access

A bearer token identifies a user.  The access scope of a user is a list of
projects: all of them for an admin, those of the user's teams for a member and
none for a role the program does not know.
-/

namespace ProjectMemory.Core

open Foundation

inductive Role where
  | member
  | admin
  | superAdmin
  deriving DecidableEq, Repr

def Role.ofString (value : String) : Option Role :=
  if value = "member" then some .member
  else if value = "admin" then some .admin
  else if value = "super_admin" then some .superAdmin
  else none

def Role.hierarchy : Role → Nat
  | .member => 0
  | .admin => 1
  | .superAdmin => 2

def hasPermission (userRole requiredRole : Role) : Bool :=
  requiredRole.hierarchy ≤ userRole.hierarchy

/-- The response to a request that fails. -/
structure HttpError where
  status : Nat
  detail : String
  deriving DecidableEq, Repr

def unauthorized : HttpError :=
  ⟨401, "Not authenticated"⟩

/-- The handler of `AccessDeniedError`. -/
def accessDenied (detail : String) : HttpError :=
  ⟨403, detail⟩

structure Accounts where
  users : Table User.id
  members : List TeamMember
  projects : Table Project.id

/-- The text before the first blank and the text after it. -/
def partitionBlank (text : List Char) : List Char × List Char :=
  (text.takeWhile (· ≠ ' '), (text.dropWhile (· ≠ ' ')).drop 1)

/-- `get_current_user`; `decodeSubject` is the `sub` of a token whose
signature and expiry are valid. -/
def getCurrentUser (decodeSubject : String → Option String)
    (authorization : Option String) (accounts : Accounts) :
    Except HttpError User :=
  match authorization with
  | none => .error unauthorized
  | some header =>
      let (scheme, token) := partitionBlank header.toList
      if scheme.map Char.toLower ≠ "bearer".toList ∨ token = [] then
        .error unauthorized
      else
        match (decodeSubject (String.ofList token)).bind Uuid.parse with
        | none => .error unauthorized
        | some userId =>
            match accounts.users.get userId with
            | none => .error unauthorized
            | some user => .ok user

/-- `require_role`, for the user it depends on. -/
def requireRole (required : Role) (user : User) : Except HttpError Unit :=
  match Role.ofString user.role with
  | none => .error ⟨403, "Insufficient permissions"⟩
  | some role =>
      if hasPermission role required then .ok ()
      else .error ⟨403, "Insufficient permissions"⟩

def teamIds (accounts : Accounts) (user : User) : List Uuid :=
  (accounts.members.filter fun member => member.userId = user.id).map
    TeamMember.teamId

def getAccessibleProjectIds (user : User) (accounts : Accounts) :
    List Uuid :=
  match Role.ofString user.role with
  | none => []
  | some .member =>
      if teamIds accounts user = [] then []
      else
        (accounts.projects.rows.filter fun project =>
          project.teamId ∈ teamIds accounts user).map Project.id
  | some _ => accounts.projects.rows.map Project.id

theorem accessible_eq_map_filter (user : User) (accounts : Accounts) :
    ∃ part : Project → Bool, getAccessibleProjectIds user accounts =
      (accounts.projects.rows.filter part).map Project.id := by
  unfold getAccessibleProjectIds
  split
  · exact ⟨fun _ => false, by simp⟩
  · split
    · exact ⟨fun _ => false, by simp⟩
    · exact ⟨_, rfl⟩
  · exact ⟨fun _ => true, by simp⟩

/-- The access scope lists the selected projects in the order of the table. -/
theorem accessible_eq_filter_mem (user : User) (accounts : Accounts) :
    (accounts.projects.rows.filter fun project =>
        project.id ∈ getAccessibleProjectIds user accounts).map Project.id =
      getAccessibleProjectIds user accounts := by
  obtain ⟨part, isPart⟩ := accessible_eq_map_filter user accounts
  rw [isPart, accounts.projects.filter_key_mem part]

/-- Two states with the same accessible projects, row by row, give a user the
same access scope, in the same order. -/
theorem accessible_congr {user : User} {left right : Accounts}
    (sameSet : ∀ projectId,
      projectId ∈ getAccessibleProjectIds user left ↔
        projectId ∈ getAccessibleProjectIds user right)
    (sameRows :
      (left.projects.rows.filter fun project =>
          project.id ∈ getAccessibleProjectIds user left) =
        right.projects.rows.filter fun project =>
          project.id ∈ getAccessibleProjectIds user left) :
    getAccessibleProjectIds user left =
      getAccessibleProjectIds user right := by
  have samePart :
      (right.projects.rows.filter fun project =>
          project.id ∈ getAccessibleProjectIds user left) =
        right.projects.rows.filter fun project =>
          project.id ∈ getAccessibleProjectIds user right := by
    apply List.filter_congr
    intro project _
    rw [Bool.eq_iff_iff, decide_eq_true_iff, decide_eq_true_iff]
    exact sameSet project.id
  calc getAccessibleProjectIds user left
      = (left.projects.rows.filter fun project =>
          project.id ∈ getAccessibleProjectIds user left).map Project.id :=
        (accessible_eq_filter_mem user left).symm
    _ = (right.projects.rows.filter fun project =>
          project.id ∈ getAccessibleProjectIds user right).map
            Project.id := by
        rw [sameRows, samePart]
    _ = getAccessibleProjectIds user right :=
        accessible_eq_filter_mem user right

end ProjectMemory.Core
