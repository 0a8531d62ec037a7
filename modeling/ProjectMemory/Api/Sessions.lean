import Mathlib.Data.List.TakeWhile
import ProjectMemory.Api.Authority

/-!
# Accounts among other requests

Users are only ever added, whatever requests interleave.  So a token stays
good for its user until it expires, and an email is registered once.
-/

namespace ProjectMemory.Api

open Foundation ProjectMemory.Core Retrieval

section Law

variable {Dense Sparse : Type}

/-- What the token library promises of the tokens of users: each names its
user until it expires. -/
structure LawfulTokens (security : Security) : Prop where
  nonempty : ∀ (userId : Uuid) role expires,
    security.encode ⟨userId.str, role, expires⟩ ≠ ""
  decodes : ∀ (userId : Uuid) role expires time,
    security.decodeSubject time
        (security.encode ⟨userId.str, role, expires⟩) =
      if time < expires * 1000000 then some userId.str else none

structure Grows (before after : Platform Dense Sparse) : Prop where
  clock : before.clock ≤ after.clock
  users : before.rows.users <+: after.rows.users

/-- A token that was issued for an email and a password. -/
def Issued (security : Security) (start : Timestamp) (data : LoginRequest)
    (token : String) (platform : Platform Dense Sparse) (row : UserRow)
    (issued : Timestamp) : Prop :=
  row ∈ platform.rows.users ∧ row.email = data.email ∧
    security.verifyPassword data.password row.hashedPassword = .ok true ∧
    start ≤ issued ∧ issued ≤ platform.clock ∧
    token = security.encode (claimsOf security row.toUser issued)

def emailTaken (platform : Platform Dense Sparse) (email : String) : Prop :=
  ∃ row ∈ platform.rows.users, row.email = email

def userIdTaken (platform : Platform Dense Sparse) (id : Uuid) : Prop :=
  id ∈ platform.rows.userIds

/-- How a registration can end. -/
inductive Registered (security : Security) (data : UserCreate)
    (chance : Chance) (platform : Platform Dense Sparse) :
    Except HttpError UserRow → Prop where
  | stored (hashed : String) (began : Timestamp)
      (isHash : security.hashPassword chance.salt data.password = .ok hashed)
      (isUser : newUser data hashed chance began ∈ platform.rows.users) :
      Registered security data chance platform
        (.ok (newUser data hashed chance began))
  | refused (taken : emailTaken platform data.email) :
      Registered security data chance platform
        (.error (alreadyRegistered data.email))
  | conflict (taken : emailTaken platform data.email ∨
        userIdTaken platform chance.id) :
      Registered security data chance platform
        (.error (internal "IntegrityError"))
  | unhashed (message : String)
      (raised : security.hashPassword chance.salt data.password =
        .error message) :
      Registered security data chance platform (.error (internal message))

end Law

/-! ## Growth -/

section Growth

variable {Dense Sparse : Type} {before after : Platform Dense Sparse}

theorem Grows.refl (platform : Platform Dense Sparse) :
    Grows platform platform :=
  ⟨le_refl _, List.prefix_refl _⟩

theorem Grows.trans (first second third : Platform Dense Sparse)
    (left : Grows first second) (right : Grows second third) :
    Grows first third :=
  ⟨left.clock.trans right.clock, left.users.trans right.users⟩

theorem RowChange.users {powers : Powers} {rows changed : Rows}
    (change : RowChange powers rows changed) :
    rows.users <+: changed.users := by
  cases change with
  | insertUser row isMember _ => exact List.prefix_append _ _
  | _ => exact List.prefix_refl _

theorem grows_admits (powers : Powers) :
    Admits powers (@Grows Dense Sparse) where
  refl := Grows.refl
  trans := Grows.trans
  executes now after executed := by
    cases executed with
    | write database change => exact ⟨le_refl _, change.users⟩
    | elapse duration =>
        exact ⟨Nat.le_add_right _ _, List.prefix_refl _⟩
    | _ => exact ⟨le_refl _, List.prefix_refl _⟩

theorem Grows.mem (grows : Grows before after) {row : UserRow}
    (isRow : row ∈ before.rows.users) : row ∈ after.rows.users :=
  grows.users.subset isRow

theorem Issued.later {security : Security} {start : Timestamp}
    {data : LoginRequest} {token : String} {row : UserRow}
    {issued : Timestamp} (grows : Grows before after)
    (isIssued : Issued security start data token before row issued) :
    Issued security start data token after row issued := by
  obtain ⟨isRow, email, password, late, early, isToken⟩ := isIssued
  exact ⟨grows.mem isRow, email, password, late, early.trans grows.clock,
    isToken⟩

theorem emailTaken.later {email : String} (grows : Grows before after)
    (taken : emailTaken before email) : emailTaken after email := by
  obtain ⟨row, isRow, same⟩ := taken
  exact ⟨row, grows.mem isRow, same⟩

theorem userIdTaken.later {id : Uuid} (grows : Grows before after)
    (taken : userIdTaken before id) : userIdTaken after id :=
  List.map_subset _ grows.users.subset taken

theorem Registered.later {security : Security} {data : UserCreate}
    {chance : Chance} {result : Except HttpError UserRow}
    (grows : Grows before after)
    (registered : Registered security data chance before result) :
    Registered security data chance after result := by
  cases registered with
  | stored hashed began isHash isUser =>
      exact .stored hashed began isHash (grows.mem isUser)
  | refused taken => exact .refused (taken.later grows)
  | conflict taken =>
      exact .conflict (taken.imp (emailTaken.later grows)
        (userIdTaken.later grows))
  | unhashed message raised => exact .unhashed message raised

end Growth

/-! ## Authentication -/

section Authentication

variable {Dense Sparse : Type} {security : Security}
  {platform : Platform Dense Sparse}

theorem partitionBlank_append {scheme rest : List Char}
    (noBlank : ∀ char ∈ scheme, char ≠ ' ') :
    partitionBlank (scheme ++ ' ' :: rest) = (scheme, rest) := by
  have keep : ∀ char ∈ scheme, decide (char ≠ ' ') = true :=
    fun char member => decide_eq_true (noBlank char member)
  unfold partitionBlank
  rw [List.takeWhile_append_of_pos keep, List.dropWhile_append_of_pos keep,
    List.takeWhile_cons_of_neg (by decide),
    List.dropWhile_cons_of_neg (by decide), List.append_nil]
  rfl

theorem namedUser_bearer {decodeSubject : String → Option String}
    {token : String} (nonempty : token ≠ "") :
    namedUser decodeSubject (some ("Bearer " ++ token)) =
      (decodeSubject token).bind Uuid.parse := by
  have parts : partitionBlank ("Bearer " ++ token).toList =
      ("Bearer".toList, token.toList) := by
    rw [String.toList_append]
    exact @partitionBlank_append "Bearer".toList _ (by simp)
  have isText : token.toList ≠ [] := by
    intro isEmpty
    exact nonempty (String.toList_eq_nil_iff.mp isEmpty)
  simp only [namedUser, parts]
  rw [if_neg (not_or.mpr ⟨not_not.mpr (by decide), isText⟩),
    String.ofList_toList]

theorem authenticate_row {row : UserRow} (isRow : row ∈ platform.rows.users)
    {authorization : Option String} {time : Timestamp}
    (named : namedUser (security.decodeSubject time) authorization =
      some row.id) :
    authenticate security authorization time platform = .ok row.toUser :=
  getCurrentUser_ok_iff.mpr
    ⟨row.id, named, get_user_iff.mpr ⟨⟨row, isRow, rfl⟩, rfl⟩⟩

theorem authenticate_unnamed {authorization : Option String}
    {time : Timestamp}
    (unnamed : namedUser (security.decodeSubject time) authorization = none) :
    authenticate security authorization time platform =
      .error unauthorized := by
  cases outcome : authenticate security authorization time platform with
  | ok user =>
      obtain ⟨userId, named, _⟩ := getCurrentUser_ok_iff.mp outcome
      rw [unnamed] at named
      cases named
  | error failure =>
      unfold authenticate getCurrentUser at outcome
      split at outcome
      · exact outcome.symm
      · dsimp only at outcome
        split at outcome
        · exact outcome.symm
        · split at outcome
          · exact outcome.symm
          · split at outcome
            · exact outcome.symm
            · cases outcome

/-- A token authenticates the user it was issued to until it expires, and
nobody afterwards. -/
theorem Issued.authenticate (lawful : LawfulTokens security)
    {start : Timestamp} {data : LoginRequest} {token : String}
    {row : UserRow} {issued : Timestamp}
    (isIssued : Issued security start data token platform row issued)
    (time : Timestamp) :
    authenticate security (some ("Bearer " ++ token)) time platform =
      if time < (claimsOf security row.toUser issued).expires * 1000000 then
        .ok row.toUser
      else .error unauthorized := by
  obtain ⟨isRow, _, _, _, _, rfl⟩ := isIssued
  have named := @namedUser_bearer (security.decodeSubject time) _
    (lawful.nonempty row.id row.role
      (claimsOf security row.toUser issued).expires)
  rw [lawful.decodes] at named
  split
  · rename_i early
    rw [if_pos early, Option.bind_some, Uuid.parse_str] at named
    exact authenticate_row isRow named
  · rename_i late
    rw [if_neg late] at named
    exact authenticate_unnamed named

end Authentication

/-! ## Promises -/

section Promises

variable {Content Dense Sparse Score : Type} [LinearOrder Score]
  {server : Server Content Dense Sparse Score} {security : Security}
  {chance : Chance} {start : Timestamp} {state : Platform Dense Sparse}

theorem login_meets (begun : start ≤ state.clock) (data : LoginRequest) :
    (login security data).Meets Grows
      (fun now result => ∀ token, result = .ok token →
        ∃ row issued, Issued security start data token now row issued)
      state := by
  refine Script.Meets.bind
    (fun now result => ∀ found row, result = .ok found →
      found = some row → row ∈ now.rows.users ∧ row.email = data.email)
    Grows.refl Grows.trans ?_ ?_ ?_
  · refine Script.meets_read Grows.refl ?_
    rintro now _ _ row ⟨⟩ found
    exact find_key_eq_some found
  · intro now found moved isUser
    cases found with
    | none => rintro _ ⟨⟩
    | some row =>
        obtain ⟨isRow, email⟩ := isUser _ row rfl rfl
        dsimp only
        split
        · rintro _ ⟨⟩
        · rintro _ ⟨⟩
        · rename_i verified
          refine Script.Meets.bind
            (fun later result => ∀ time, result = .ok time →
              Issued security start data
                (security.encode (claimsOf security row.toUser time)) later
                row time) Grows.refl Grows.trans ?_ ?_ ?_
          · refine Script.meets_read Grows.refl ?_
            rintro later movedOn _ ⟨⟩
            have late := (Grows.trans _ _ _ moved movedOn).clock
            exact ⟨movedOn.mem isRow, email, verified, begun.trans late,
              le_refl _, rfl⟩
          · rintro later time _ isIssued _ ⟨⟩
            exact ⟨row, time, isIssued time rfl⟩
          · rintro _ _ _ _ _ ⟨⟩
  · rintro _ _ _ _ _ ⟨⟩

theorem refused_of_commit {rows : Rows} {failure : HttpError}
    (texts : rows.Texts)
    (refused : Database.commit rows = .error failure) :
    failure = internal "IntegrityError" ∧ ¬ rows.Constraints := by
  unfold Database.commit at refused
  split at refused
  · cases refused
  · rename_i broken
    cases refused
    exact ⟨rfl, broken⟩

theorem insertUser_refused {platform : Platform Dense Sparse} {row : UserRow}
    (isStorable : row.storable = true)
    (broken : ¬ (platform.rows.insertUser row).Constraints) :
    emailTaken platform row.email ∨ userIdTaken platform row.id := by
  by_cases freshId : row.id ∈ platform.rows.userIds
  · exact Or.inr freshId
  · by_cases freshEmail : row.email ∈ platform.rows.users.map UserRow.email
    · exact Or.inl (List.mem_map.mp freshEmail)
    · exact absurd (platform.database.constraints.insertUser freshId
        freshEmail isStorable) broken

/-- The user that `register` adds, and reads back. -/
theorem store_meets {hashed : String} (data : UserCreate) (began : Timestamp)
    (isHash : security.hashPassword chance.salt data.password = .ok hashed) :
    (commit (Rows.insertUser · (newUser data hashed chance began)) >>=
        fun _ => refresh (userRow · chance.id)).Meets Grows
      (Registered security data chance) state := by
  let user := newUser data hashed chance began
  refine Script.Meets.bind
    (fun later result =>
      match result with
      | .ok _ => user ∈ later.rows.users
      | .error failure => failure = internal "IntegrityError" ∧
          (emailTaken later data.email ∨ userIdTaken later chance.id))
    Grows.refl Grows.trans ?_ ?_ ?_
  · refine Script.meets_transaction ?_ ?_
    · rintro later after ⟨⟩ _ committed
      obtain ⟨database, isChange, rfl⟩ := commit_cases
        (Rows.insertUser · user) committed
      have rows : Platform.rows { later with database := database } =
          later.rows.insertUser user := isChange
      refine ⟨⟨le_refl _, ?_⟩, ?_⟩
      · rw [rows]
        exact List.prefix_append _ _
      · rw [rows]
        exact List.mem_concat_self
    · intro later failure _ refused
      refine ⟨Grows.refl later, ?_⟩
      cases outcome : Database.commit (later.rows.insertUser user) with
      | ok database =>
          rw [outcome] at refused
          cases refused
      | error other =>
          rw [outcome] at refused
          cases refused
          have isStorable := storable_newUser data chance began isHash
          have before := later.database.constraints.texts
          have texts : (later.rows.insertUser user).Texts :=
            { before with users := forall_mem_snoc before.users isStorable }
          obtain ⟨isIntegrity, broken⟩ := refused_of_commit texts outcome
          exact ⟨isIntegrity, insertUser_refused isStorable broken⟩
  · intro later _ _ isUser
    refine meets_refresh user Grows.refl ?_ ?_
    · exact fun last moved => find_key_of_mem
        last.database.constraints.unique.users (moved.mem isUser)
    · exact fun last moved => .stored hashed began isHash (moved.mem isUser)
  · rintro later failure _ ⟨rfl, taken⟩
    exact .conflict taken

theorem register_meets (data : UserCreate) :
    (register security data chance).Meets Grows
      (Registered security data chance) state := by
  refine Script.Meets.bind
    (fun now result => ∃ read, result = .ok read ∧
      (read.1.isSome = true → emailTaken now data.email))
    Grows.refl Grows.trans ?_ ?_ ?_
  · refine Script.meets_read Grows.refl fun now _ => ⟨_, rfl, ?_⟩
    intro isSome
    obtain ⟨row, found⟩ := Option.isSome_iff_exists.mp isSome
    exact ⟨row, find_key_eq_some found⟩
  · rintro now ⟨existing, began⟩ _ ⟨_, ⟨⟩, isTaken⟩
    cases existing with
    | some row => exact .refused (isTaken rfl)
    | none =>
        cases isHash : security.hashPassword chance.salt data.password with
        | error message => exact .unhashed message isHash
        | ok hashed => exact store_meets data began isHash
  · rintro now failure _ ⟨_, ⟨⟩, _⟩

/-- What an event is promised, from a start on. -/
def Event.promise (security : Security) (start : Timestamp) :
    Event → Platform Dense Sparse → Except HttpError (Answer Content Score) →
      Prop
  | .request _ (.login data) _, platform, result =>
      ∀ token, result = .ok (.token token) →
        ∃ row issued, Issued security start data token platform row issued
  | .request _ (.register data) chance, platform, result =>
      ∃ outcome, Registered security data chance platform outcome ∧
        result = outcome.map Answer.user
  | _, _, _ => True

omit [LinearOrder Score] in
theorem promise_later (event : Event) (now later : Platform Dense Sparse)
    (result : Except HttpError (Answer Content Score))
    (grows : Grows now later)
    (promised : event.promise security start now result) :
    event.promise security start later result := by
  unfold Event.promise at promised ⊢
  split
  · intro token isToken
    obtain ⟨row, issued, isIssued⟩ := promised token isToken
    exact ⟨row, issued, Issued.later grows isIssued⟩
  · obtain ⟨outcome, registered, isOutcome⟩ := promised
    exact ⟨outcome, registered.later grows, isOutcome⟩
  · trivial

theorem event_meets (begun : start ≤ state.clock) (event : Event) :
    (event.script server).Meets Grows (event.promise server.security start)
      state := by
  have keeps : Script.Keeps Grows (event.script server) :=
    (grows_admits (Powers.any fun _ => True)).any event.draws_any
  cases event with
  | elapse duration => exact keeps state
  | request authorization command chance =>
      cases command with
      | login data =>
          refine Script.Meets.bind _ Grows.refl Grows.trans
            (login_meets begun data) ?_ ?_
          · rintro now token _ isIssued _ ⟨⟩
            exact isIssued token rfl
          · rintro now failure _ _ _ ⟨⟩
      | register data =>
          refine Script.Meets.bind _ Grows.refl Grows.trans
            (register_meets data) ?_ ?_
          · intro now row _ registered
            exact ⟨.ok row, registered, rfl⟩
          · intro now failure _ registered
            exact ⟨.error failure, registered, rfl⟩
      | _ => exact keeps state

theorem promisesKept {admitted : Event → Prop}
    {origin : Platform Dense Sparse}
    {pool : Pool Event (Platform Dense Sparse) HttpError
      (Answer Content Score)}
    (reachable : Reachable
      (served (Event.script server) admitted origin) pool) :
    PromisesKept Grows (Event.promise server.security origin.clock) origin
      pool :=
  promisesKept_of_reachable Grows.refl Grows.trans
    promise_later (fun event _ _ grows => event_meets grows.clock event)
    reachable

theorem promise_of_finished {admitted : Event → Prop}
    {origin : Platform Dense Sparse}
    {pool : Pool Event (Platform Dense Sparse) HttpError
      (Answer Content Score)}
    (reachable : Reachable
      (served (Event.script server) admitted origin) pool)
    {event : Event} {result : Except HttpError (Answer Content Score)}
    (finished : ⟨event, .finish result⟩ ∈ pool.calls) :
    event.promise server.security origin.clock pool.state result :=
  (promisesKept reachable).calls _ finished

/-- Along every further run the users only grow. -/
theorem grows_of_run {admitted : Event → Prop}
    {origin : Platform Dense Sparse}
    {pool later : Pool Event (Platform Dense Sparse) HttpError
      (Answer Content Score)}
    (reachable : Reachable
      (served (Event.script server) admitted origin) pool)
    {run : List (PoolLabel Event × Pool Event (Platform Dense Sparse)
      HttpError (Answer Content Score))}
    (isRun : Run (served (Event.script server) admitted origin).step pool run)
    (isLater : later ∈ visited pool run) :
    Grows pool.state later.state := by
  have kept : PromisesKept Grows
      (Event.promise server.security origin.clock) origin pool :=
    promisesKept reachable
  have begins : origin.clock ≤ pool.state.clock := kept.state.clock
  have start : PromisesKept Grows
      (Event.promise server.security origin.clock) pool.state pool :=
    ⟨Grows.refl _, kept.calls⟩
  refine (isRun.invariant ?_ start later isLater).state
  intro source label target holds taken
  refine holds.step Grows.refl Grows.trans promise_later ?_ taken
  intro event state _ grows
  exact event_meets (begins.trans grows.clock) event

/-- A token that a login has returned belongs to a user with the email and
the password of the login, and from then on, whatever requests interleave,
authenticates this user until it expires. -/
theorem session_of_login (lawful : LawfulTokens server.security)
    {admitted : Event → Prop} {origin : Platform Dense Sparse}
    {pool later : Pool Event (Platform Dense Sparse) HttpError
      (Answer Content Score)}
    (reachable : Reachable
      (served (Event.script server) admitted origin) pool)
    {run : List (PoolLabel Event × Pool Event (Platform Dense Sparse)
      HttpError (Answer Content Score))}
    (isRun : Run (served (Event.script server) admitted origin).step pool run)
    (isLater : later ∈ visited pool run)
    {authorization : Option String} {data : LoginRequest} {chance : Chance}
    {token : String}
    (returned : ⟨.request authorization (.login data) chance,
      .finish (.ok (.token token))⟩ ∈ pool.calls) :
    ∃ row ∈ pool.state.rows.users, row.email = data.email ∧
      server.security.verifyPassword data.password row.hashedPassword =
        .ok true ∧
      ∃ issued, origin.clock ≤ issued ∧ issued ≤ pool.state.clock ∧
        ∀ time,
          authenticate server.security (some ("Bearer " ++ token)) time
              later.state =
            if time < (issued + server.security.expireMinutes * 60000000) /
                1000000 * 1000000 then .ok row.toUser
            else .error unauthorized := by
  obtain ⟨row, issued, isIssued⟩ :=
    promise_of_finished reachable returned token rfl
  have stays : Issued server.security origin.clock data token later.state
      row issued := Issued.later (grows_of_run reachable isRun isLater) isIssued
  obtain ⟨isRow, email, password, late, early, _⟩ := isIssued
  exact ⟨row, isRow, email, password, issued, late, early,
    Issued.authenticate lawful stays⟩

/-- Of two registrations of one email at most one succeeds.  One that fails
finds the email, or the identifier it drew, in use by another user, or passlib
has raised on its password. -/
theorem registration_settles {admitted : Event → Prop}
    {origin : Platform Dense Sparse}
    {pool : Pool Event (Platform Dense Sparse) HttpError
      (Answer Content Score)}
    (reachable : Reachable
      (served (Event.script server) admitted origin) pool)
    {authorization other : Option String} {data again : UserCreate}
    {chance drawn : Chance}
    {first second : Except HttpError (Answer Content Score)}
    (sameEmail : again.email = data.email) (differ : drawn.id ≠ chance.id)
    (isFirst : ⟨.request authorization (.register data) chance,
      .finish first⟩ ∈ pool.calls)
    (isSecond : ⟨.request other (.register again) drawn,
      .finish second⟩ ∈ pool.calls) :
    ¬ (first.isOk ∧ second.isOk) ∧
      ((∃ hashed began,
          server.security.hashPassword chance.salt data.password =
              .ok hashed ∧
            newUser data hashed chance began ∈ pool.state.rows.users ∧
            first = .ok (.user (newUser data hashed chance began))) ∨
        (first.isOk = false ∧ ∃ row ∈ pool.state.rows.users,
          row.email = data.email ∨ row.id = chance.id) ∨
        ∃ message,
          server.security.hashPassword chance.salt data.password =
              .error message ∧
            first = .error (internal message)) := by
  obtain ⟨outcome, registered, rfl⟩ :=
    promise_of_finished reachable isFirst
  obtain ⟨secondOutcome, secondRegistered, rfl⟩ :=
    promise_of_finished reachable isSecond
  have isTaken : ∀ id, userIdTaken pool.state id →
      ∃ row ∈ pool.state.rows.users, row.id = id :=
    fun id taken => List.mem_map.mp taken
  cases registered with
  | stored hashed began isHash isUser =>
      refine ⟨?_, Or.inl ⟨hashed, began, isHash, isUser, rfl⟩⟩
      rintro ⟨_, isOk⟩
      cases secondRegistered with
      | stored _ later _ isOther =>
          have same := List.inj_on_of_nodup_map
            pool.state.database.constraints.unique.emails isOther isUser
            sameEmail
          exact differ (congrArg (fun row => row.id) same)
      | refused => cases isOk
      | conflict => cases isOk
      | unhashed => cases isOk
  | refused taken =>
      refine ⟨fun both => (by cases both.1), Or.inr (Or.inl ⟨rfl, ?_⟩)⟩
      obtain ⟨row, isRow, email⟩ := taken
      exact ⟨row, isRow, Or.inl email⟩
  | conflict taken =>
      refine ⟨fun both => (by cases both.1), Or.inr (Or.inl ⟨rfl, ?_⟩)⟩
      rcases taken with ⟨row, isRow, email⟩ | idTaken
      · exact ⟨row, isRow, Or.inl email⟩
      · obtain ⟨row, isRow, sameId⟩ := isTaken _ idTaken
        exact ⟨row, isRow, Or.inr sameId⟩
  | unhashed message raised =>
      exact ⟨fun both => (by cases both.1),
        Or.inr (Or.inr ⟨message, raised, rfl⟩)⟩

end Promises

section Sample

theorem dot_not_mem (userId : Uuid) : '.' ∉ userId.str.toList := by
  have noDigit : ∀ digit < 16, '.' ≠ Nat.digitChar digit := by decide
  rw [Uuid.toList_str]
  intro member
  rcases Uuid.mem_chars member with isHyphen | ⟨digit, small, isDigit⟩
  · cases isHyphen
  · exact noDigit digit small isDigit

theorem sampleSecurity_lawful : LawfulTokens sampleSecurity := by
  have noDot : ∀ (userId : Uuid), ∀ char ∈ userId.str.toList,
      ¬ decide (char = '.') = true := by
    intro userId char member isDot
    exact dot_not_mem userId (of_decide_eq_true isDot ▸ member)
  have dots : ∀ expires, ∀ char ∈ List.replicate expires '.',
      decide (char = '.') = true :=
    fun expires char member =>
      decide_eq_true (List.eq_of_mem_replicate member)
  have taken : ∀ (userId : Uuid) expires,
      (List.replicate expires '.' ++ userId.str.toList).takeWhile (· = '.') =
        List.replicate expires '.' := by
    intro userId expires
    have none : userId.str.toList.takeWhile (· = '.') = [] :=
      List.takeWhile_eq_nil_iff.mpr fun bound =>
        noDot userId _ (List.getElem_mem bound)
    rw [List.takeWhile_append_of_pos (dots expires), none, List.append_nil]
  have dropped : ∀ (userId : Uuid) expires,
      (List.replicate expires '.' ++ userId.str.toList).dropWhile (· = '.') =
        userId.str.toList := by
    intro userId expires
    have all : userId.str.toList.dropWhile (· = '.') = userId.str.toList :=
      List.dropWhile_eq_self_iff.mpr fun bound =>
        noDot userId _ (List.getElem_mem bound)
    rw [List.dropWhile_append_of_pos (dots expires), all]
  constructor
  · intro userId role expires isEmpty
    have noChars := congrArg String.toList isEmpty
    simp only [sampleSecurity, String.toList_ofList] at noChars
    have noId := (List.append_eq_nil_iff.mp noChars).2
    rw [Uuid.toList_str] at noId
    exact absurd (congrArg List.length noId) (by simp)
  · intro userId role expires time
    simp only [sampleSecurity, String.toList_ofList, taken, dropped,
      List.length_replicate, String.ofList_toList]

def sampleLogin : LoginRequest where
  email := "ada@example.org"
  password := "password"
  email_storable := sampleEmail_storable

def loggedInPool : Pool Event (Platform Unit Unit) HttpError
    (Answer String Nat) :=
  finalState samplePool
    (trace (poolStep (Event.script sampleServer))
      [.arrive (.request none (.login sampleLogin) sampleChance), .advance 0,
        .advance 0] samplePool)

def waitedPool : Pool Event (Platform Unit Unit) HttpError
    (Answer String Nat) :=
  finalState loggedInPool
    (trace (poolStep (Event.script sampleServer))
      [.arrive (.elapse 30000000), .advance 1] loggedInPool)

/-- The member logs in, half a minute passes, and the token is still good. -/
theorem sampleLogin_session :
    waitedPool.state.clock = 30000000 ∧
      authenticate sampleSecurity sampleHeader 30000000 waitedPool.state =
        .ok { id := 5, role := "member" } := by
  have reachable : Reachable
      (served (Event.script sampleServer) (fun _ => True) samplePlatform)
      loggedInPool :=
    (served_trace (fun _ _ => trivial) samplePool).reachable
      (Reachable.initial rfl) _ (finalState_mem_visited _ _)
  have isRun := @served_trace _ _ _ _ (Event.script sampleServer)
    (fun _ => True) samplePlatform
    [.arrive (.elapse 30000000), .advance 1] (fun _ _ => trivial) loggedInPool
  have returned :
      ⟨.request none (.login sampleLogin) sampleChance,
        .finish (.ok (.token (sampleSecurity.encode
          (claimsOf sampleSecurity { id := 5, role := "member" } 0))))⟩ ∈
        loggedInPool.calls :=
    List.mem_singleton.mpr rfl
  obtain ⟨row, isRow, _, _, issued, _, early, lasts⟩ :=
    session_of_login sampleSecurity_lawful reachable isRun
      (finalState_mem_visited _ _) returned
  have isUser : row ∈ samplePlatform.rows.users := isRow
  have isStart : issued = 0 := Nat.le_zero.mp early
  refine ⟨rfl, (lasts 30000000).trans ?_⟩
  rw [List.mem_singleton.mp isUser, isStart]
  decide

def sampleRegistration : UserCreate where
  email := "grace@example.org"
  password := "password"
  password_long := Nat.le_refl 8
  email_storable := by decide

/-- A password that passlib does not take. -/
def nulRegistration : UserCreate where
  email := "alan@example.org"
  password := String.ofList (List.replicate 8 (Char.ofNat 0))
  password_long := by decide
  email_storable := by decide

/-- Two registrations look an email up before either is stored; two others
have a password that cannot be hashed. -/
def registeredPool : Pool Event (Platform Unit Unit) HttpError
    (Answer String Nat) :=
  finalState samplePool
    (trace (poolStep (Event.script sampleServer))
      [.arrive (.request none (.register sampleRegistration) sampleChance),
        .arrive (.request none (.register sampleRegistration)
          { sampleChance with id := 10 }),
        .arrive (.request none (.register nulRegistration)
          { sampleChance with id := 11 }),
        .arrive (.request none (.register nulRegistration)
          { sampleChance with id := 12 }),
        .advance 0, .advance 1, .advance 2, .advance 3, .advance 0,
        .advance 0, .advance 1]
      samplePool)

theorem sampleRegistrations_settle :
    (∃ row ∈ registeredPool.state.rows.users,
      row.email = "grace@example.org" ∧ row.id = 8) ∧
    ∃ message, sampleSecurity.hashPassword "salt" nulRegistration.password =
      .error message := by
  have reachable : Reachable
      (served (Event.script sampleServer) (fun _ => True) samplePlatform)
      registeredPool :=
    (served_trace (fun _ _ => trivial) samplePool).reachable
      (Reachable.initial rfl) _ (finalState_mem_visited _ _)
  have isFirst : ⟨.request none (.register sampleRegistration) sampleChance,
      .finish (.ok (.user (newUser sampleRegistration "saltpassword"
        sampleChance 0)))⟩ ∈ registeredPool.calls :=
    List.mem_cons_self
  have isSecond : ⟨.request none (.register sampleRegistration)
        { sampleChance with id := 10 },
      .finish (.error (internal "IntegrityError"))⟩ ∈
        registeredPool.calls :=
    List.mem_cons_of_mem _ List.mem_cons_self
  have isUnhashed : ∀ id ∈ [(11 : Uuid), 12],
      ⟨.request none (.register nulRegistration)
          { sampleChance with id := id },
        .finish (.error (internal
          "bcrypt does not allow NULL bytes in password"))⟩ ∈
        registeredPool.calls := by
    intro id isId
    simp only [List.mem_cons, List.not_mem_nil, or_false] at isId
    rcases isId with rfl | rfl
    · exact List.mem_cons_of_mem _ (List.mem_cons_of_mem _ List.mem_cons_self)
    · exact List.mem_cons_of_mem _ (List.mem_cons_of_mem _
        (List.mem_cons_of_mem _ List.mem_cons_self))
  constructor
  · rcases (registration_settles reachable rfl (by decide) isFirst
      isSecond).2 with ⟨_, began, _, isUser, _⟩ | ⟨failed, _⟩ |
        ⟨_, _, raised⟩
    · exact ⟨_, isUser, rfl, rfl⟩
    · cases failed
    · cases raised
  · rcases (registration_settles reachable rfl (by decide)
      (isUnhashed 11 (by decide)) (isUnhashed 12 (by decide))).2 with
        ⟨_, _, _, _, isOk⟩ | ⟨_, row, isRow, taken⟩ | ⟨message, raised, _⟩
    · cases isOk
    · have nobody : ∀ row ∈ registeredPool.state.rows.users,
          ¬ (row.email = "alan@example.org" ∨ row.id = 11) := by
        decide +kernel
      exact absurd taken (nobody row isRow)
    · exact ⟨message, raised⟩

end Sample

end ProjectMemory.Api
