import Lnmp.Foundation.Runs
import Lnmp.Sessions.Accounts

/-!
# Authorization by role

`require_admin` reads the role from the token, where the login has put it, and the rest from the
session store and the row of the user. A change of the role leaves the sessions of the user alone.

`everyState_followsRole_iff` says when a request passes only with the role that the user has at the
time: when no update leaves an active user without the role ADMIN in a session with an ADMIN token,
and no background task brings such a session back.
-/

set_option autoImplicit false
set_option relaxedAutoImplicit false

namespace Lnmp.Sessions

open Lnmp.Foundation Lnmp.Foundation.Runs

namespace Accounts

/-- A request passes `require_admin` only when the user of its token exists, is active and has the
role ADMIN. -/
def FollowsRole (accounts : Accounts) : Prop :=
  ∀ token currentUser, accounts.requireAdmin (some token) = .ok currentUser →
    ∃ user, accounts.users.get? token.sub = some user ∧ user.isActive = true ∧
      user.role = some .admin

/-- A user has an active session with an ADMIN token that is not expired. -/
def HasAdminSession (accounts : Accounts) (userId : UserId) : Prop :=
  ∃ token ∈ accounts.issued, token.sub = userId ∧ token.role = .admin ∧
    accounts.clock / 1000000 ≤ token.exp ∧
    accounts.store.isSessionActive userId token.jti accounts.clock = true

/-- No update leaves an active user without the role ADMIN in an ADMIN session, and no background
task registers one of such a user. -/
def KeepsRole (settings : SecuritySettings) (accounts : Accounts) : AccountEvent → Prop
  | .updateUser token userId role isActive =>
    ∀ user, accounts.checkUpdate token userId role = .ok user →
      (user.update role isActive).isActive = true →
      (user.update role isActive).role ≠ some .admin → ¬accounts.HasAdminSession userId
  | .background index =>
    ∀ userId jti user, accounts.background[index]? = some (.registerSession userId jti) →
      accounts.users.get? userId = some user → user.isActive = true → user.role ≠ some .admin →
      ¬{ accounts with store := accounts.perform settings (.registerSession userId jti)
        }.HasAdminSession userId
  | .login .. | .logout _ | .request _ | .deleteUser .. | .resetPassword .. | .wait _ => True

/-! ### Passing requests -/

variable {accounts changed : Accounts} {token : AccessToken} {userId : UserId} {jti : SessionId}
  {user : User}

/-- The requests that pass. -/
theorem exists_requireAdmin_iff :
    (∃ currentUser, accounts.requireAdmin (some token) = .ok currentUser) ↔
      (token ∈ accounts.issued ∧ accounts.clock / 1000000 ≤ token.exp) ∧
        accounts.store.isSessionActive token.sub token.jti accounts.clock = true ∧
        (∃ user, accounts.users.get? token.sub = some user ∧ user.isActive = true) ∧
        token.role = .admin := by
  by_cases hdecodes : token ∈ accounts.issued ∧ accounts.clock / 1000000 ≤ token.exp
  case neg => simp [requireAdmin, getCurrentUser, decodeAccessToken, hdecodes]
  cases hactive : accounts.store.isSessionActive token.sub token.jti accounts.clock with
  | false => simp [requireAdmin, getCurrentUser, decodeAccessToken, hdecodes, hactive]
  | true =>
    cases huser : accounts.users.get? token.sub with
    | none => simp [requireAdmin, getCurrentUser, decodeAccessToken, hdecodes, hactive, huser]
    | some user =>
      cases hlive : user.isActive with
      | false =>
        simp [requireAdmin, getCurrentUser, decodeAccessToken, hdecodes, hactive, huser, hlive]
      | true =>
        by_cases hrole : token.role = .admin <;>
          simp [requireAdmin, getCurrentUser, decodeAccessToken, hdecodes, hactive, huser, hlive,
            hrole]

/-- Requests follow the role exactly when every active user in an ADMIN session has it. -/
theorem followsRole_iff :
    accounts.FollowsRole ↔ ∀ userId user, accounts.users.get? userId = some user →
      user.isActive = true → accounts.HasAdminSession userId → user.role = some .admin := by
  constructor
  · rintro hfollows userId user huser hlive ⟨token, hissued, rfl, hrole, hexp, hactive⟩
    obtain ⟨currentUser, hpasses⟩ :
        ∃ currentUser, accounts.requireAdmin (some token) = .ok currentUser := by
      rw [exists_requireAdmin_iff]
      exact ⟨⟨hissued, hexp⟩, hactive, ⟨user, huser, hlive⟩, hrole⟩
    obtain ⟨other, hother, -, hadmin⟩ := hfollows token currentUser hpasses
    rw [Option.some.inj (huser.symm.trans hother)]
    exact hadmin
  · intro hsessions token currentUser hpasses
    have hpassing : ∃ currentUser, accounts.requireAdmin (some token) = .ok currentUser :=
      ⟨currentUser, hpasses⟩
    rw [exists_requireAdmin_iff] at hpassing
    obtain ⟨⟨hissued, hexp⟩, hactive, ⟨user, huser, hlive⟩, hrole⟩ := hpassing
    exact ⟨user, huser, hlive,
      hsessions token.sub user huser hlive ⟨token, hissued, rfl, hrole, hexp, hactive⟩⟩

theorem get?_of_selectUser {credentials : Option AccessToken} {detail : String}
    (hselect : accounts.selectUser credentials userId detail = .ok user) :
    accounts.users.get? userId = some user := by
  rw [selectUser] at hselect
  split at hselect
  · cases hselect
  · split at hselect
    · cases hselect
    · split at hselect
      · cases hselect
      · rename_i found hfound
        rw [hfound, Except.ok.inj hselect]

theorem get?_of_checkUpdate {credentials : Option AccessToken} {role : Option RoleName}
    (hcheck : accounts.checkUpdate credentials userId role = .ok user) :
    accounts.users.get? userId = some user := by
  rw [checkUpdate] at hcheck
  split at hcheck
  · cases hcheck
  · rename_i found hselect
    split at hcheck
    · cases hcheck
    · exact Except.ok.inj hcheck ▸ get?_of_selectUser hselect

/-! ### Steps -/

/-- What keeps the users, and makes no session active that was not, keeps the rule. -/
theorem FollowsRole.of_sessions (hfollows : accounts.FollowsRole)
    (husers : changed.users = accounts.users)
    (hsessions : ∀ userId, changed.HasAdminSession userId → accounts.HasAdminSession userId) :
    changed.FollowsRole := by
  rw [followsRole_iff] at hfollows ⊢
  intro userId user huser hlive hsession
  exact hfollows userId user (husers ▸ huser) hlive (hsessions userId hsession)

/-- A user whose sessions are invalidated is in no session, and may change in any way. -/
theorem FollowsRole.set_invalidateAll (hfollows : accounts.FollowsRole) :
    ({ accounts with users := accounts.users.set userId user
      }.invalidateAllUserSessions userId).FollowsRole := by
  rw [followsRole_iff] at hfollows ⊢
  rintro other row hrow hlive ⟨token, hissued, hsub, hrole, hexp, hactive⟩
  obtain ⟨hbefore, hother⟩ := SessionStore.isSessionActive_of_invalidateAllUserSessions hactive
  have hsame : accounts.users.get? other = some row := by
    rw [← hrow]
    exact ((accounts.users.get?_set userId user other).trans (if_neg hother)).symm
  exact hfollows other row hsame hlive
    ⟨token, hissued, hsub, hrole, hexp, hbefore⟩

/-- A request that fails keeps the rule, and so does one that succeeds when its result has it. -/
theorem FollowsRole.orSame {result : Except HttpError Accounts} (hfollows : accounts.FollowsRole)
    (hresult : ∀ changed, result = .ok changed → changed.FollowsRole) :
    (HttpError.orSame accounts result).FollowsRole := by
  cases result with
  | error error => exact hfollows
  | ok changed => exact hresult changed rfl

theorem FollowsRole.openSession {settings : SecuritySettings} (hfollows : accounts.FollowsRole)
    (huser : accounts.users.get? userId = some user)
    (hfresh : jti ∉ accounts.issued.map AccessToken.jti) :
    (accounts.openSession settings userId user jti).FollowsRole := by
  rw [followsRole_iff] at hfollows ⊢
  rintro other row hrow hlive ⟨token, hissued, hsub, hrole, hexp, hactive⟩
  rcases List.mem_append.mp hissued with hold | hnew
  · -- The session of an older token has another id.
    rcases SessionStore.isSessionActive_of_registerSession hactive with hbefore | ⟨-, hjti⟩
    · exact hfollows other row hrow hlive ⟨token, hold, hsub, hrole, hexp, hbefore⟩
    · exact absurd (hjti ▸ List.mem_map_of_mem hold) hfresh
  · obtain rfl := List.mem_singleton.mp hnew
    obtain rfl : userId = other := hsub
    obtain rfl := Option.some.inj (huser.symm.trans hrow)
    cases hstored : user.role with
    | none => simp [createAccessToken, hstored] at hrole
    | some role => simpa [createAccessToken, hstored] using hrole

/-- An update that does not end the sessions of the user keeps the rule exactly when it leaves no
active user without the role in an ADMIN session. -/
theorem FollowsRole.set_iff (hfollows : accounts.FollowsRole) :
    { accounts with users := accounts.users.set userId user }.FollowsRole ↔
      (user.isActive = true → user.role ≠ some .admin → ¬accounts.HasAdminSession userId) := by
  rw [followsRole_iff] at hfollows ⊢
  constructor
  · intro hnext hlive hrole hsession
    exact hrole (hnext userId user
      ((accounts.users.get?_set userId user userId).trans (if_pos rfl)) hlive hsession)
  · intro hkeeps other row hrow hlive hsession
    have hget : (if other = userId then some user else accounts.users.get? other) = some row :=
      (accounts.users.get?_set userId user other).symm.trans hrow
    split at hget
    · rename_i hsame
      obtain rfl := Option.some.inj hget
      obtain rfl := hsame
      by_contra hrole
      exact hkeeps hlive hrole hsession
    · exact hfollows other row hget hlive hsession

theorem FollowsRole.updateUser_iff (hfollows : accounts.FollowsRole)
    (credentials : Option AccessToken) (role : Option RoleName) (isActive : Option Bool) :
    (HttpError.orSame accounts
        (accounts.updateUser credentials userId role isActive)).FollowsRole ↔
      ∀ user, accounts.checkUpdate credentials userId role = .ok user →
        (user.update role isActive).isActive = true →
        (user.update role isActive).role ≠ some .admin → ¬accounts.HasAdminSession userId := by
  rw [Accounts.updateUser]
  cases hcheck : accounts.checkUpdate credentials userId role with
  | error error => exact iff_of_true hfollows fun user huser ↦ absurd huser (by simp)
  | ok user =>
    have hrow : accounts.users.get? userId = some user := get?_of_checkUpdate hcheck
    have hiff : (∀ other, Except.ok user = (.ok other : Except HttpError User) →
        (other.update role isActive).isActive = true →
        (other.update role isActive).role ≠ some .admin → ¬accounts.HasAdminSession userId) ↔
        ((user.update role isActive).isActive = true →
          (user.update role isActive).role ≠ some .admin → ¬accounts.HasAdminSession userId) :=
      ⟨fun hall ↦ hall user rfl, fun hone other hother ↦ Except.ok.inj hother ▸ hone⟩
    rw [hiff]
    dsimp only
    split
    · rename_i hnone
      obtain ⟨rfl, rfl⟩ := hnone
      refine iff_of_true hfollows fun hlive hrole hsession ↦ hrole ?_
      rw [followsRole_iff] at hfollows
      exact hfollows userId user hrow hlive hsession
    · by_cases hdeactivates : isActive = some false
      · refine iff_of_true ?_ fun hlive ↦ ?_
        · rw [if_pos hdeactivates]
          exact hfollows.set_invalidateAll
        · rw [hdeactivates] at hlive
          exact absurd hlive Bool.false_ne_true
      · rw [if_neg hdeactivates]
        exact hfollows.set_iff

theorem FollowsRole.background_iff {settings : SecuritySettings} {index : ℕ} {call : StoreCall}
    (hfollows : accounts.FollowsRole) (hcall : accounts.background[index]? = some call) :
    { accounts with
      store := accounts.perform settings call
      background := accounts.background.eraseIdx index }.FollowsRole ↔
      accounts.KeepsRole settings (.background index) := by
  cases call with
  | registerSession userId jti =>
    rw [followsRole_iff] at hfollows ⊢
    constructor
    · intro hnext other session user hother huser hlive hrole hsession
      obtain ⟨rfl, rfl⟩ := StoreCall.registerSession.inj
        (Option.some.inj (hcall.symm.trans hother))
      exact hrole (hnext userId user huser hlive hsession)
    · intro hkeeps other row hrow hlive hsession
      by_contra hrole
      obtain ⟨token, hissued, hsub, hadmin, hexp, hactive⟩ := hsession
      rcases SessionStore.isSessionActive_of_registerSession hactive with hbefore | ⟨rfl, -⟩
      · exact hrole (hfollows other row hrow hlive
          ⟨token, hissued, hsub, hadmin, hexp, hbefore⟩)
      · exact hkeeps other jti row hcall hrow hlive hrole
          ⟨token, hissued, hsub, hadmin, hexp, hactive⟩
  | invalidateSession userId jti =>
    refine iff_of_true ?_ fun other session user hother ↦ ?_
    · refine hfollows.of_sessions rfl fun other ⟨token, hissued, hsub, hadmin, hexp, hactive⟩ ↦ ?_
      exact ⟨token, hissued, hsub, hadmin, hexp,
        SessionStore.isSessionActive_of_invalidateSession hactive⟩
    · exact StoreCall.noConfusion (Option.some.inj (hcall.symm.trans hother))
  | invalidateAllUserSessions userId =>
    refine iff_of_true ?_ fun other session user hother ↦ ?_
    · refine hfollows.of_sessions rfl fun other ⟨token, hissued, hsub, hadmin, hexp, hactive⟩ ↦ ?_
      exact ⟨token, hissued, hsub, hadmin, hexp,
        (SessionStore.isSessionActive_of_invalidateAllUserSessions hactive).1⟩
    · exact StoreCall.noConfusion (Option.some.inj (hcall.symm.trans hother))

/-- The step lemma: an event keeps the rule exactly when it keeps the role. -/
theorem FollowsRole.next_iff {verifyPassword : String → String → Bool}
    {settings : SecuritySettings} (hfollows : accounts.FollowsRole) (event : AccountEvent) :
    (accounts.next verifyPassword settings event).FollowsRole ↔
      accounts.KeepsRole settings event := by
  cases event with
  | login username password jti =>
    refine iff_of_true ?_ trivial
    rw [next]
    split
    · exact hfollows
    · rename_i hfresh
      refine hfollows.orSame fun changed hchanged ↦ ?_
      rw [login] at hchanged
      split at hchanged
      · cases hchanged
      · rename_i userId user hfound
        split at hchanged
        · obtain rfl := Except.ok.inj hchanged
          have hmem := List.mem_of_find?_eq_some hfound
          exact hfollows.openSession ((accounts.users.get?_eq_some_iff userId user).mpr hmem) hfresh
        · cases hchanged
  | logout credentials =>
    refine iff_of_true ?_ trivial
    rw [next, logout]
    split
    · exact hfollows
    · refine hfollows.of_sessions rfl fun other ⟨token, hissued, hsub, hadmin, hexp, hactive⟩ ↦ ?_
      exact ⟨token, hissued, hsub, hadmin, hexp,
        SessionStore.isSessionActive_of_invalidateSession hactive⟩
  | request credentials => exact iff_of_true hfollows trivial
  | updateUser credentials userId role isActive =>
    exact hfollows.updateUser_iff credentials role isActive
  | deleteUser credentials userId =>
    refine iff_of_true (hfollows.orSame fun changed hchanged ↦ ?_) trivial
    rw [deleteUser] at hchanged
    split at hchanged
    · cases hchanged
    · obtain rfl := Except.ok.inj hchanged
      exact hfollows.set_invalidateAll
  | resetPassword credentials userId hashed =>
    refine iff_of_true (hfollows.orSame fun changed hchanged ↦ ?_) trivial
    rw [resetPassword] at hchanged
    split at hchanged
    · cases hchanged
    · obtain rfl := Except.ok.inj hchanged
      exact hfollows.set_invalidateAll
  | background index =>
    rw [next]
    split
    · rename_i hnone
      refine iff_of_true hfollows fun userId jti user hcall ↦ ?_
      exact absurd (hnone.symm.trans hcall) (Option.some_ne_none _).symm
    · rename_i call hcall
      exact hfollows.background_iff hcall
  | wait duration =>
    refine iff_of_true (hfollows.of_sessions rfl ?_) trivial
    rintro other ⟨token, hissued, hsub, hadmin, hexp, hactive⟩
    have hlater : accounts.clock ≤ accounts.clock + duration := by omega
    exact ⟨token, hissued, hsub, hadmin, (Int.ediv_le_ediv (by decide) hlater).trans hexp,
      SessionStore.isSessionActive_of_later hlater hactive⟩

/-! ### Histories -/

/-- In every sequence of requests and background tasks, requests pass only with the current role
exactly when every step keeps the role. -/
theorem everyState_followsRole_iff (verifyPassword : String → String → Bool)
    (settings : SecuritySettings) (users : Dict UserId User) (roles : List RoleName)
    (driver : DriverMode) (origin : ℤ) (events : List AccountEvent) :
    EveryState (fun accounts event ↦ some (accounts.next verifyPassword settings event))
        (start users roles driver origin) events FollowsRole ↔
      EveryStep (fun accounts event ↦ some (accounts.next verifyPassword settings event))
        (start users roles driver origin) events (KeepsRole settings) := by
  refine everyState_iff_everyStep (fun _ ↦ True) _ (fun _ _ _ _ _ ↦ trivial) ?_ trivial ?_
    (run_some ..)
  · rintro accounts event _ - hfollows hnext
    obtain rfl := Option.some.inj hnext
    exact hfollows.next_iff event
  · rw [followsRole_iff]
    rintro userId user - - ⟨token, hissued, -⟩
    exact absurd hissued List.not_mem_nil

/-- An administrator. -/
def administrator (username : String) : User where
  username := username
  passwordHash := "correct-horse"
  role := some .admin
  isActive := true
  mustChangePassword := false

/-- The token of an administrator who has logged in at the start. -/
def administratorToken (userId : UserId) (username : String) (jti : SessionId) : AccessToken where
  sub := userId
  username := username
  role := .admin
  jti := jti
  exp := 7200

/-- Two administrators log in, and one of them makes the other a viewer. -/
def demotion : List AccountEvent :=
  [.login "admin" "correct-horse" 11, .login "operator1" "correct-horse" 12,
    .updateUser (some (administratorToken 1 "admin" 11)) 2 (some .viewer) none]

/-- The viewer still passes as an administrator. -/
theorem exists_not_followsRole :
    ¬∀ (verifyPassword : String → String → Bool) (settings : SecuritySettings)
        (users : Dict UserId User) (roles : List RoleName) (driver : DriverMode) (origin : ℤ)
        (events : List AccountEvent),
      EveryState (fun accounts event ↦ some (accounts.next verifyPassword settings event))
        (start users roles driver origin) events FollowsRole := by
  intro hall
  let users : Dict UserId User :=
    (Dict.empty.set 1 (administrator "admin")).set 2 (administrator "operator1")
  let accounts := demotion.foldl (next · (fun plain hashed ↦ plain = hashed) ⟨120, 2⟩)
    (start users [.admin, .viewer] .postgres 0)
  have hfollows : accounts.FollowsRole :=
    hall _ ⟨120, 2⟩ users [.admin, .viewer] .postgres 0 demotion demotion [] accounts
      (List.append_nil _).symm (run_some ..)
  have hsession : accounts.HasAdminSession 2 :=
    ⟨administratorToken 2 "operator1" 12, by decide, rfl, rfl, by decide,
      by decide⟩
  have huser : accounts.users.get? 2 =
      some { administrator "operator1" with role := some .viewer } :=
    by decide
  have hadmin := followsRole_iff.mp hfollows 2 _ huser rfl hsession
  exact absurd hadmin (by decide)

end Accounts

end Lnmp.Sessions
