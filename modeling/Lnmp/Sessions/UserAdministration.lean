import Lnmp.Foundation.PythonText
import Lnmp.Sessions.Authorization

/-!
# Administration of users

The routes of `routers/users.py` and `routers/auth.py` together: administrators create, update,
deactivate and reset users, and every user can change the own password.

No sequence of requests locks everybody out: who changes another user is active and not that user,
so an active user remains (`usable_of_run`), and the usernames stay distinct. As long as no update
leaves a user without the role ADMIN in an ADMIN session, an active administrator remains too
(`exists_activeAdmin_of_run`); without that condition none may be left (`exists_no_activeAdmin`).
-/

set_option autoImplicit false
set_option relaxedAutoImplicit false

namespace Lnmp.Sessions

open Lnmp.Foundation Lnmp.Foundation.Runs

/-- What happens to the users: an event of the accounts, a new user with the generated id and the
generated password, or a changed password. -/
inductive UserEvent
  | account (event : AccountEvent)
  | createUser (token : Option AccessToken) (userId : UserId) (username : String)
      (password : Option String) (generated : String) (role : RoleName)
  | changePassword (token : Option AccessToken) (oldPassword : Option String)
      (newPassword : String)
  deriving DecidableEq

/-- The password that a request brings, if it is not blank. -/
def givenPassword (password : Option String) : Option String :=
  (password.map PythonText.strip).filter (· ≠ "")

namespace Accounts

variable (accounts : Accounts) (hashPassword : String → String)
  (verifyPassword : String → String → Bool) (settings : SecuritySettings)

/-- `create_user`. -/
def createUser (token : Option AccessToken) (userId : UserId) (username : String)
    (password : Option String) (generated : String) (role : RoleName) :
    Except HttpError Accounts :=
  match accounts.requireAdmin token with
  | .error error => .error error
  | .ok _ =>
    if (accounts.getUserByUsername username).isSome then .error ⟨409, "Username is already taken."⟩
    else if role ∉ accounts.roles then .error ⟨400, "Invalid role specified."⟩
    else
      .ok { accounts with
        users := accounts.users.set userId
          { username := username
            passwordHash := hashPassword ((givenPassword password).getD generated)
            role := some role
            isActive := true
            mustChangePassword := true } }

/-- The check of the current password in `change_password`. -/
def checkOldPassword (user : User) (oldPassword : Option String) : Except HttpError Unit :=
  match givenPassword oldPassword with
  | some old =>
    if verifyPassword old user.passwordHash then .ok ()
    else .error ⟨400, "Invalid current password."⟩
  | none =>
    if user.mustChangePassword then .ok () else .error ⟨400, "Current password is required."⟩

/-- `change_password`. -/
def changePassword (token : Option AccessToken) (oldPassword : Option String)
    (newPassword : String) : Except HttpError Accounts :=
  match accounts.getCurrentUser token with
  | .error error => .error error
  | .ok currentUser =>
    match accounts.users.get? currentUser.payload.sub with
    | none => .error ⟨404, "User not found."⟩
    | some user =>
      match checkOldPassword verifyPassword user oldPassword with
      | .error error => .error error
      | .ok () =>
        if (PythonText.strip newPassword).length < 8 then
          .error ⟨400, "New password must be at least 8 characters long."⟩
        else
          .ok ({ accounts with
            users := accounts.users.set currentUser.payload.sub
              { user with
                passwordHash := hashPassword (PythonText.strip newPassword)
                mustChangePassword := false }
            }.invalidateAllUserSessions currentUser.payload.sub)

/-- The accounts after an event. The id of a new user is one that no user has. -/
def nextUser : UserEvent → Accounts
  | .account event => accounts.next verifyPassword settings event
  | .createUser token userId username password generated role =>
    if userId ∈ accounts.users.keys then accounts
    else HttpError.orSame accounts
      (accounts.createUser hashPassword token userId username password generated role)
  | .changePassword token oldPassword newPassword =>
    HttpError.orSame accounts
      (accounts.changePassword hashPassword verifyPassword token oldPassword newPassword)

/-! ### What an event does to the users -/

/-- The users after an event: the same ones; one more, created under an unused name; one of them
changed by another who is an administrator by the token; or one with another password. -/
inductive UsersStep (accounts : Accounts) : Dict UserId User → Prop
  | same : UsersStep accounts accounts.users
  | created {userId : UserId} {user : User} (hfresh : userId ∉ accounts.users.keys)
      (hname : accounts.getUserByUsername user.username = none) (hactive : user.isActive = true) :
      UsersStep accounts (accounts.users.set userId user)
  | changed {userId : UserId} {user other : User} {token : AccessToken} {currentUser : CurrentUser}
      (hrow : accounts.users.get? userId = some user) (hname : other.username = user.username)
      (hactor : accounts.requireAdmin (some token) = .ok currentUser) (hne : userId ≠ token.sub) :
      UsersStep accounts (accounts.users.set userId other)
  | password {userId : UserId} {user other : User} (hrow : accounts.users.get? userId = some user)
      (hname : other.username = user.username) (hactive : other.isActive = user.isActive)
      (hrole : other.role = user.role) : UsersStep accounts (accounts.users.set userId other)

variable {accounts hashPassword verifyPassword settings}

/-- Who passes `require_admin` has a token, and it is that of the answer. -/
theorem requireAdmin_eq_ok {credentials : Option AccessToken} {currentUser : CurrentUser}
    (hpasses : accounts.requireAdmin credentials = .ok currentUser) :
    credentials = some currentUser.payload := by
  unfold requireAdmin at hpasses
  split at hpasses
  · cases hpasses
  · rename_i found hfound
    split at hpasses
    · obtain rfl := Except.ok.inj hpasses
      cases credentials with
      | none => cases hfound
      | some token =>
        simp only [getCurrentUser, decodeAccessToken] at hfound
        split_ifs at hfound with hdecodes
        · dsimp only at hfound
          split_ifs at hfound with hactive
          split at hfound
          · cases hfound
          · split_ifs at hfound
            exact congrArg some (congrArg CurrentUser.payload (Except.ok.inj hfound))
    · cases hpasses

/-- A user who is selected for a change is another one than the administrator. -/
theorem actor_of_selectUser {credentials : Option AccessToken} {userId : UserId} {user : User}
    {detail : String} (hselect : accounts.selectUser credentials userId detail = .ok user) :
    ∃ token currentUser, accounts.requireAdmin (some token) = .ok currentUser ∧
      userId ≠ token.sub := by
  unfold selectUser at hselect
  split at hselect
  · cases hselect
  · rename_i currentUser hpasses
    split at hselect
    · cases hselect
    · rename_i hne
      rw [requireAdmin_eq_ok hpasses] at hpasses
      exact ⟨currentUser.payload, currentUser, hpasses, hne⟩

theorem selectUser_of_checkUpdate {credentials : Option AccessToken} {userId : UserId}
    {role : Option RoleName} {user : User}
    (hcheck : accounts.checkUpdate credentials userId role = .ok user) :
    accounts.selectUser credentials userId
      "Administrative roles cannot modify their own privileges or status." = .ok user := by
  rw [checkUpdate] at hcheck
  split at hcheck
  · cases hcheck
  · rename_i found hselect
    split at hcheck
    · cases hcheck
    · rw [hselect, Except.ok.inj hcheck]

/-- What an event does to the users, and to whom it issues tokens. -/
structure UserChange (accounts changed : Accounts) : Prop where
  users : UsersStep accounts changed.users
  issued : ∀ token ∈ changed.issued, token ∈ accounts.issued ∨ token.sub ∈ accounts.users.keys

theorem UserChange.of_issued {changed : Accounts} (hstep : UsersStep accounts changed.users)
    (hissued : changed.issued = accounts.issued) : UserChange accounts changed :=
  ⟨hstep, fun _ htoken ↦ Or.inl (hissued ▸ htoken)⟩

theorem UserChange.refl (accounts : Accounts) : UserChange accounts accounts :=
  .of_issued .same rfl

/-- A request that fails leaves the users as they are. -/
theorem userChange_orSame {result : Except HttpError Accounts}
    (hresult : ∀ changed, result = .ok changed → UserChange accounts changed) :
    UserChange accounts (HttpError.orSame accounts result) := by
  cases result with
  | error error => exact .refl accounts
  | ok changed => exact hresult changed rfl

/-- A change of a selected user is one by another who is an administrator by the token. -/
theorem usersStep_of_selectUser {credentials : Option AccessToken} {userId : UserId}
    {user other : User} {detail : String}
    (hselect : accounts.selectUser credentials userId detail = .ok user)
    (hname : other.username = user.username) :
    UsersStep accounts (accounts.users.set userId other) := by
  obtain ⟨token, currentUser, hactor, hne⟩ := actor_of_selectUser hselect
  exact .changed (get?_of_selectUser hselect) hname hactor hne

theorem userChange_next (event : AccountEvent) :
    UserChange accounts (accounts.next verifyPassword settings event) := by
  cases event with
  | login username password jti =>
    rw [next]
    split
    · exact .refl accounts
    · refine userChange_orSame fun changed hchanged ↦ ?_
      rw [login] at hchanged
      split at hchanged
      · cases hchanged
      · rename_i userId user hfound
        split at hchanged
        · obtain rfl := Except.ok.inj hchanged
          refine ⟨.same, fun token htoken ↦ (List.mem_append.mp htoken).imp id fun hnew ↦ ?_⟩
          rw [List.mem_singleton.mp hnew]
          exact List.mem_map_of_mem (List.mem_of_find?_eq_some hfound)
        · cases hchanged
  | logout credentials =>
    rw [next, logout]
    split <;> exact .of_issued .same rfl
  | request credentials => exact .refl accounts
  | updateUser credentials userId role isActive =>
    refine userChange_orSame fun changed hchanged ↦ ?_
    rw [updateUser] at hchanged
    split at hchanged
    · cases hchanged
    · rename_i user hcheck
      have hstep : UsersStep accounts (accounts.users.set userId (user.update role isActive)) :=
        usersStep_of_selectUser (selectUser_of_checkUpdate hcheck) rfl
      split at hchanged <;> obtain rfl := Except.ok.inj hchanged
      · exact .refl accounts
      · split_ifs <;> exact .of_issued hstep rfl
  | deleteUser credentials userId =>
    refine userChange_orSame fun changed hchanged ↦ ?_
    rw [deleteUser] at hchanged
    split at hchanged
    · cases hchanged
    · rename_i user hselect
      obtain rfl := Except.ok.inj hchanged
      exact .of_issued (usersStep_of_selectUser hselect rfl) rfl
  | resetPassword credentials userId hashed =>
    refine userChange_orSame fun changed hchanged ↦ ?_
    rw [resetPassword] at hchanged
    split at hchanged
    · cases hchanged
    · rename_i user hselect
      obtain rfl := Except.ok.inj hchanged
      exact .of_issued (usersStep_of_selectUser hselect rfl) rfl
  | background index =>
    rw [next]
    split <;> exact .of_issued .same rfl
  | wait duration => exact .of_issued .same rfl

/-- What an event does. -/
theorem userChange_nextUser (event : UserEvent) :
    UserChange accounts (accounts.nextUser hashPassword verifyPassword settings event) := by
  cases event with
  | account event => exact userChange_next event
  | createUser token userId username password generated role =>
    rw [nextUser]
    split_ifs with hfresh
    · exact .refl accounts
    · refine userChange_orSame fun changed hchanged ↦ ?_
      rw [createUser] at hchanged
      split at hchanged
      · cases hchanged
      · split_ifs at hchanged with hname
        obtain rfl := Except.ok.inj hchanged
        exact .of_issued (.created hfresh (Option.not_isSome_iff_eq_none.mp hname) rfl) rfl
  | changePassword token oldPassword newPassword =>
    refine userChange_orSame fun changed hchanged ↦ ?_
    rw [changePassword] at hchanged
    split at hchanged
    · cases hchanged
    · split at hchanged
      · cases hchanged
      · rename_i user hrow
        split at hchanged
        · cases hchanged
        · split_ifs at hchanged
          obtain rfl := Except.ok.inj hchanged
          exact .of_issued (.password hrow rfl rfl rfl) rfl

/-! ### An active user remains -/

/-- Usernames are distinct, and some user is active. -/
structure Usable (accounts : Accounts) : Prop where
  usernames : ∀ userId other user row, accounts.users.get? userId = some user →
    accounts.users.get? other = some row → user.username = row.username → userId = other
  active : ∃ userId user, accounts.users.get? userId = some user ∧ user.isActive = true

/-- The administrator behind a passing request is an active user. -/
theorem active_of_requireAdmin {token : AccessToken} {currentUser : CurrentUser}
    (hpasses : accounts.requireAdmin (some token) = .ok currentUser) :
    ∃ user, accounts.users.get? token.sub = some user ∧ user.isActive = true :=
  (exists_requireAdmin_iff.mp ⟨currentUser, hpasses⟩).2.2.1

/-- A row under another name than all others keeps the names distinct. -/
theorem usernames_set {users : Dict UserId User} {userId : UserId} {user : User}
    (hnames : ∀ first second row other, users.get? first = some row →
      users.get? second = some other → row.username = other.username → first = second)
    (hname : ∀ second other, users.get? second = some other → user.username = other.username →
      userId = second) :
    ∀ first second row other, (users.set userId user).get? first = some row →
      (users.set userId user).get? second = some other → row.username = other.username →
        first = second := by
  intro first second row other hfirst hsecond hsame
  rw [Dict.get?_set] at hfirst hsecond
  split_ifs at hfirst hsecond with hone htwo htwo
  · exact hone.trans htwo.symm
  · obtain rfl := Option.some.inj hfirst
    exact hone.trans (hname second other hsecond hsame)
  · obtain rfl := Option.some.inj hsecond
    exact (hname first row hfirst hsame.symm).symm.trans htwo.symm
  · exact hnames first second row other hfirst hsecond hsame

theorem Usable.of_usersStep {changed : Accounts} (husable : accounts.Usable)
    (hstep : UsersStep accounts changed.users) : changed.Usable := by
  obtain ⟨hnames, holder, holding, hholder, hactive⟩ := husable
  generalize hchanged : changed.users = users at hstep
  cases hstep with
  | same => exact ⟨hchanged ▸ hnames, holder, holding, hchanged ▸ hholder, hactive⟩
  | @created userId user hfresh hname huser =>
    have hnone : ∀ second other, accounts.users.get? second = some other →
        user.username = other.username → userId = second := by
      intro second other hother hsame
      have hfind := List.find?_eq_none.mp hname (second, other)
        ((accounts.users.get?_eq_some_iff ..).mp hother)
      exact absurd (decide_eq_true hsame.symm) hfind
    refine ⟨hchanged ▸ usernames_set hnames hnone, userId, user, ?_, huser⟩
    rw [hchanged, Dict.get?_set, if_pos rfl]
  | @changed userId user other token currentUser hrow hname hactor hne =>
    obtain ⟨actor, hget, hlive⟩ := active_of_requireAdmin hactor
    refine ⟨hchanged ▸ usernames_set hnames fun second row hsecond hsame ↦
      hnames userId second user row hrow hsecond (hname ▸ hsame), token.sub, actor, ?_, hlive⟩
    rw [hchanged, Dict.get?_set, if_neg (Ne.symm hne), hget]
  | @password userId user other hrow hname hsame hrole =>
    have hdistinct := usernames_set hnames fun second row hsecond hequal ↦
      hnames userId second user row hrow hsecond (hname ▸ hequal)
    by_cases hholds : holder = userId
    · subst hholds
      obtain rfl := Option.some.inj (hrow.symm.trans hholder)
      refine ⟨hchanged ▸ hdistinct, holder, other, ?_, hsame.trans hactive⟩
      rw [hchanged, Dict.get?_set, if_pos rfl]
    · refine ⟨hchanged ▸ hdistinct, holder, holding, ?_, hactive⟩
      rw [hchanged, Dict.get?_set, if_neg hholds, hholder]

/-- In every sequence of requests, usernames stay distinct and an active user remains. -/
theorem usable_of_run {users : Dict UserId User} {roles : List RoleName} {driver : DriverMode}
    {origin : ℤ} {events : List UserEvent} {finish : Accounts}
    (hstart : (start users roles driver origin).Usable)
    (hrun : run (fun accounts event ↦
        some (nextUser accounts hashPassword verifyPassword settings event))
      (start users roles driver origin) events = some finish) : finish.Usable := by
  refine invariant_of_forall_mem Usable ?_ hstart (fun _ _ ↦ trivial) hrun
  rintro accounts event _ husable - hnext
  obtain rfl := Option.some.inj hnext
  exact husable.of_usersStep (userChange_nextUser event).users

/-- Two administrators. -/
def administrators : Dict UserId User :=
  (Dict.empty.set 1 (administrator "admin")).set 2 (administrator "operator1")

/-- Both log in, one creates a viewer and deactivates the other, who cannot do the same, and then
changes the own password. -/
def handover : List UserEvent :=
  [.account (.login "admin" "correct-horse" 11), .account (.login "operator1" "correct-horse" 12),
    .createUser (some (administratorToken 1 "admin" 11)) 3 "viewer1" none "mossy-river-41" .viewer,
    .account (.deleteUser (some (administratorToken 1 "admin" 11)) 2),
    .account (.deleteUser (some (administratorToken 2 "operator1" 12)) 1),
    .changePassword (some (administratorToken 1 "admin" 11)) (some "correct-horse")
      "battery-staple"]

theorem get?_administrators {userId : UserId} {user : User}
    (hget : administrators.get? userId = some user) :
    userId = 1 ∧ user = administrator "admin" ∨ userId = 2 ∧ user = administrator "operator1" := by
  rw [administrators, Dict.get?_set] at hget
  split_ifs at hget with htwo
  · exact Or.inr ⟨htwo, (Option.some.inj hget).symm⟩
  · rw [Dict.get?_set] at hget
    split_ifs at hget with hone
    · exact Or.inl ⟨hone, (Option.some.inj hget).symm⟩
    · exact absurd hget (Option.some_ne_none _).symm

theorem usable_administrators (roles : List RoleName) (driver : DriverMode) (origin : ℤ) :
    (start administrators roles driver origin).Usable := by
  have hadmin : administrators.get? 1 = some (administrator "admin") := by decide
  refine ⟨fun userId other user row huser hrow hsame ↦ ?_, 1, administrator "admin", hadmin, rfl⟩
  obtain ⟨rfl, rfl⟩ | ⟨rfl, rfl⟩ := get?_administrators huser <;>
    obtain ⟨rfl, rfl⟩ | ⟨rfl, rfl⟩ := get?_administrators hrow
  · rfl
  · exact absurd hsame (by decide)
  · exact absurd hsame (by decide)
  · rfl

theorem usable_of_run_handover :
    (handover.foldl (nextUser · id (fun plain hashed ↦ plain = hashed) ⟨120, 2⟩)
      (start administrators [.admin, .viewer] .postgres 0)).Usable :=
  usable_of_run (usable_administrators ..) (run_some ..)

/-! ### An active administrator remains -/

/-- The users of all tokens have rows. -/
def Registered (accounts : Accounts) : Prop :=
  ∀ token ∈ accounts.issued, token.sub ∈ accounts.users.keys

/-- An active user has the role ADMIN. -/
def HasActiveAdmin (accounts : Accounts) : Prop :=
  ∃ userId user, accounts.users.get? userId = some user ∧ user.isActive = true ∧
    user.role = some .admin

/-- The event keeps the role, if it is one of the accounts. -/
def KeepsUserRole (settings : SecuritySettings) (accounts : Accounts) : UserEvent → Prop
  | .account event => accounts.KeepsRole settings event
  | .createUser .. | .changePassword .. => True

theorem keys_of_usersStep {changed : Accounts} (hstep : UsersStep accounts changed.users)
    {userId : UserId} (hmem : userId ∈ accounts.users.keys) : userId ∈ changed.users.keys := by
  generalize changed.users = users at hstep
  cases hstep with
  | same => exact hmem
  | created | changed | password => exact (Dict.mem_keys_set ..).mpr (Or.inr hmem)

theorem Registered.of_userChange {changed : Accounts} (hregistered : accounts.Registered)
    (hchange : UserChange accounts changed) : changed.Registered := fun token htoken ↦
  keys_of_usersStep hchange.users
    ((hchange.issued token htoken).elim (hregistered token) id)

/-- Who changes another user is an active administrator as long as requests follow the role. -/
theorem HasActiveAdmin.of_usersStep {changed : Accounts} (hadmin : accounts.HasActiveAdmin)
    (hfollows : accounts.FollowsRole) (hstep : UsersStep accounts changed.users) :
    changed.HasActiveAdmin := by
  obtain ⟨holder, holding, hholder, hactive, hrole⟩ := hadmin
  generalize hchanged : changed.users = users at hstep
  cases hstep with
  | same => exact ⟨holder, holding, hchanged ▸ hholder, hactive, hrole⟩
  | @created userId user hfresh hname huser =>
    have hne : holder ≠ userId := by
      rintro rfl
      exact hfresh (Dict.mem_keys_of_get? hholder)
    refine ⟨holder, holding, ?_, hactive, hrole⟩
    rw [hchanged, Dict.get?_set, if_neg hne, hholder]
  | @changed userId user other token currentUser hrow hname hactor hne =>
    obtain ⟨actor, hget, hlive, hactorRole⟩ := hfollows token currentUser hactor
    refine ⟨token.sub, actor, ?_, hlive, hactorRole⟩
    rw [hchanged, Dict.get?_set, if_neg (Ne.symm hne), hget]
  | @password userId user other hrow hname hsame hsameRole =>
    by_cases hholds : holder = userId
    · subst hholds
      obtain rfl := Option.some.inj (hrow.symm.trans hholder)
      refine ⟨holder, other, ?_, hsame.trans hactive, hsameRole.trans hrole⟩
      rw [hchanged, Dict.get?_set, if_pos rfl]
    · refine ⟨holder, holding, ?_, hactive, hrole⟩
      rw [hchanged, Dict.get?_set, if_neg hholds, hholder]

/-- A new user is in no session, and a changed password ends all of them. -/
theorem FollowsRole.nextUser (hfollows : accounts.FollowsRole) (hregistered : accounts.Registered)
    {event : UserEvent} (hkeeps : KeepsUserRole settings accounts event) :
    (accounts.nextUser hashPassword verifyPassword settings event).FollowsRole := by
  cases event with
  | account event => exact (hfollows.next_iff event).mpr hkeeps
  | createUser token userId username password generated role =>
    rw [Accounts.nextUser]
    split_ifs with hfresh
    · exact hfollows
    · refine hfollows.orSame fun changed hchanged ↦ ?_
      rw [createUser] at hchanged
      split at hchanged
      · cases hchanged
      · split_ifs at hchanged
        obtain rfl := Except.ok.inj hchanged
        refine hfollows.set_iff.mpr ?_
        rintro - - ⟨other, hissued, rfl, -⟩
        exact hfresh (hregistered other hissued)
  | changePassword token oldPassword newPassword =>
    refine hfollows.orSame fun changed hchanged ↦ ?_
    rw [Accounts.changePassword] at hchanged
    split at hchanged
    · cases hchanged
    · split at hchanged
      · cases hchanged
      · split at hchanged
        · cases hchanged
        · split_ifs at hchanged
          obtain rfl := Except.ok.inj hchanged
          exact hfollows.set_invalidateAll

/-- In every sequence of requests that keeps the role, an active administrator remains. -/
theorem exists_activeAdmin_of_run {users : Dict UserId User} {roles : List RoleName}
    {driver : DriverMode} {origin : ℤ} {events : List UserEvent} {finish : Accounts}
    (hstart : ∃ userId user, users.get? userId = some user ∧ user.isActive = true ∧
      user.role = some .admin)
    (hkeeps : EveryStep (fun accounts event ↦
        some (nextUser accounts hashPassword verifyPassword settings event))
      (start users roles driver origin) events (KeepsUserRole settings))
    (hrun : run (fun accounts event ↦
        some (nextUser accounts hashPassword verifyPassword settings event))
      (start users roles driver origin) events = some finish) : finish.HasActiveAdmin := by
  have hinvariant : finish.FollowsRole ∧ finish.Registered ∧ finish.HasActiveAdmin := by
    refine invariant_of_everyStep
      (fun accounts ↦ accounts.FollowsRole ∧ accounts.Registered ∧ accounts.HasActiveAdmin)
      ?_ ⟨?_, fun _ htoken ↦ absurd htoken List.not_mem_nil, hstart⟩ hkeeps hrun
    · rintro accounts event _ ⟨hfollows, hregistered, hadmin⟩ hkept hnext
      obtain rfl := Option.some.inj hnext
      have hchange : UserChange accounts
          (nextUser accounts hashPassword verifyPassword settings event) :=
        userChange_nextUser event
      exact ⟨hfollows.nextUser hregistered hkept, hregistered.of_userChange hchange,
        hadmin.of_usersStep hfollows hchange.users⟩
    · rw [followsRole_iff]
      rintro userId user - - ⟨token, hissued, -⟩
      exact absurd hissued List.not_mem_nil
  exact hinvariant.2.2

theorem exists_activeAdmin_of_run_handover :
    (handover.foldl (nextUser · id (fun plain hashed ↦ plain = hashed) ⟨120, 2⟩)
      (start administrators [.admin, .viewer] .postgres 0)).HasActiveAdmin := by
  refine exists_activeAdmin_of_run ⟨1, administrator "admin", by decide, rfl, rfl⟩ ?_ (run_some ..)
  rw [everyStep_iff_stepsMeet]
  exact ⟨trivial, trivial, trivial, trivial, trivial, trivial, trivial⟩

/-- Two administrators make each other viewers, the second one with the token from before. -/
def mutualDemotion : List UserEvent :=
  demotion.map UserEvent.account ++
    [.account (.updateUser (some (administratorToken 2 "operator1" 12)) 1 (some .viewer) none)]

/-- Without the condition on the role, no active administrator may remain. -/
theorem exists_no_activeAdmin :
    ¬(mutualDemotion.foldl (nextUser · id (fun plain hashed ↦ plain = hashed) ⟨120, 2⟩)
      (start administrators [.admin, .viewer] .postgres 0)).HasActiveAdmin := by
  rintro ⟨userId, user, hget, hactive, hrole⟩
  have hviewers : ∀ entry ∈ (mutualDemotion.foldl
      (nextUser · id (fun plain hashed ↦ plain = hashed) ⟨120, 2⟩)
      (start administrators [.admin, .viewer] .postgres 0)).users.entries,
      entry.2.role = some .viewer := by
    decide +kernel
  have hviewer := hviewers (userId, user) ((Dict.get?_eq_some_iff ..).mp hget)
  exact absurd (hrole.symm.trans hviewer) (by decide)

end Accounts

end Lnmp.Sessions
