import Lnmp.Foundation.Http
import Lnmp.Sessions.SessionStore

/-!
# Users, tokens and the routes that change them

`routers/auth.py` and `routers/users.py`: a login issues a token with the role that the user has
then, an administrator changes the users, and every request is checked against its token, the
session store and the row of the user.

A request is one step, and the background tasks that it leaves behind are steps of their own. A
token is what its signature protects, so that one that no login issued does not decode. A login that
fails changes nothing here (the lockout is in `Sessions.LoginLockout`).
-/

set_option autoImplicit false
set_option relaxedAutoImplicit false

namespace Lnmp.Sessions

open Lnmp.Foundation

/-- The roles, `role_name`. -/
inductive RoleName
  | admin
  | viewer
  deriving DecidableEq

/-- A row of `users`. -/
structure User where
  username : String
  passwordHash : String
  role : Option RoleName
  isActive : Bool
  mustChangePassword : Bool
  deriving DecidableEq

/-- The row after an update. -/
def User.update (user : User) (role : Option RoleName) (isActive : Option Bool) : User :=
  { user with role := role.or user.role, isActive := isActive.getD user.isActive }

/-- The claims of a token. `exp` is in seconds. -/
structure AccessToken where
  sub : UserId
  username : String
  role : RoleName
  jti : SessionId
  exp : ℤ
  deriving DecidableEq

/-- What `get_current_user` returns. -/
structure CurrentUser where
  payload : AccessToken
  mustChangePassword : Bool
  deriving DecidableEq

/-- A call of the session store that a request leaves to a background task. -/
inductive StoreCall
  | registerSession (userId : UserId) (jti : SessionId)
  | invalidateSession (userId : UserId) (jti : SessionId)
  | invalidateAllUserSessions (userId : UserId)
  deriving DecidableEq

/-- `settings.security`. -/
structure SecuritySettings where
  sessionTimeoutMinutes : ℤ
  maxActiveSessionsPerUser : ℕ
  deriving DecidableEq

/-- The tables `users` and `roles`, the session store with the calls that are left to it, the tokens
that logins have issued, and the time. -/
structure Accounts where
  users : Dict UserId User
  roles : List RoleName
  store : SessionStore
  background : List StoreCall
  issued : List AccessToken
  clock : ℤ
  deriving DecidableEq

/-- What happens: a request with its token, a background task makes its call, or time passes. -/
inductive AccountEvent
  | login (username password : String) (jti : SessionId)
  | logout (token : Option AccessToken)
  | request (token : Option AccessToken)
  | updateUser (token : Option AccessToken) (userId : UserId) (role : Option RoleName)
      (isActive : Option Bool)
  | deleteUser (token : Option AccessToken) (userId : UserId)
  | resetPassword (token : Option AccessToken) (userId : UserId) (hashed : String)
  | background (index : ℕ)
  | wait (duration : ℕ)
  deriving DecidableEq

namespace Accounts

variable (accounts : Accounts) (verifyPassword : String → String → Bool)
  (settings : SecuritySettings)

/-- `decode_access_token`. The library compares whole seconds. -/
def decodeAccessToken (token : AccessToken) : Option AccessToken :=
  if token ∈ accounts.issued ∧ accounts.clock / 1000000 ≤ token.exp then some token else none

/-- `get_current_user`. -/
def getCurrentUser : Option AccessToken → Except HttpError CurrentUser
  | none => .error ⟨401, "Not authenticated."⟩
  | some token =>
    match accounts.decodeAccessToken token with
    | none => .error ⟨401, "Session expired or invalid."⟩
    | some payload =>
      if accounts.store.isSessionActive payload.sub payload.jti accounts.clock then
        match accounts.users.get? payload.sub with
        | none => .error ⟨401, "User account is inactive or disabled."⟩
        | some user =>
          if user.isActive then .ok ⟨payload, user.mustChangePassword⟩
          else .error ⟨401, "User account is inactive or disabled."⟩
      else
        .error ⟨401,
          "Session terminated: maximum active sessions reached or session expired."⟩

/-- `require_admin`. -/
def requireAdmin (token : Option AccessToken) : Except HttpError CurrentUser :=
  match accounts.getCurrentUser token with
  | .error error => .error error
  | .ok currentUser =>
    if currentUser.payload.role = .admin then .ok currentUser
    else .error ⟨403, "Admin access required."⟩

/-- `get_user_by_username`. -/
def getUserByUsername (username : String) : Option (UserId × User) :=
  accounts.users.entries.find? fun entry ↦ entry.2.username = username

/-- `create_access_token`. -/
def createAccessToken (userId : UserId) (username : String) (role : RoleName) (jti : SessionId) :
    AccessToken where
  sub := userId
  username := username
  role := role
  jti := jti
  exp := (accounts.clock + seconds (settings.sessionTimeoutMinutes * 60)) / 1000000

/-- The sessions of a user are invalidated, and once more by a background task. -/
def invalidateAllUserSessions (userId : UserId) : Accounts :=
  { accounts with
    store := accounts.store.invalidateAllUserSessions userId
    background := accounts.background ++ [.invalidateAllUserSessions userId] }

/-- A user who is allowed to log in does so. -/
def openSession (userId : UserId) (user : User) (jti : SessionId) : Accounts :=
  { accounts with
    store := accounts.store.registerSession userId jti settings.maxActiveSessionsPerUser
      defaultTtlSeconds accounts.clock
    background := accounts.background ++ [.registerSession userId jti]
    issued := accounts.issued ++
      [accounts.createAccessToken settings userId user.username (user.role.getD .viewer) jti] }

/-- `login`. -/
def login (username password : String) (jti : SessionId) : Except HttpError Accounts :=
  match accounts.getUserByUsername username with
  | none => .error ⟨401, "Invalid username or password."⟩
  | some (userId, user) =>
    if user.isActive && verifyPassword password user.passwordHash then
      .ok (accounts.openSession settings userId user jti)
    else .error ⟨401, "Invalid username or password."⟩

/-- `logout`. -/
def logout (token : Option AccessToken) : Accounts :=
  match token.bind accounts.decodeAccessToken with
  | none => accounts
  | some payload =>
    { accounts with
      store := accounts.store.invalidateSession payload.sub payload.jti accounts.clock
      background := accounts.background ++ [.invalidateSession payload.sub payload.jti] }

/-- The checks of a route that changes another user. -/
def selectUser (token : Option AccessToken) (userId : UserId) (selfDetail : String) :
    Except HttpError User :=
  match accounts.requireAdmin token with
  | .error error => .error error
  | .ok currentUser =>
    if userId = currentUser.payload.sub then .error ⟨400, selfDetail⟩
    else
      match accounts.users.get? userId with
      | none => .error ⟨404, "User not found."⟩
      | some user => .ok user

/-- The checks of `update_user`. -/
def checkUpdate (token : Option AccessToken) (userId : UserId) (role : Option RoleName) :
    Except HttpError User :=
  match accounts.selectUser token userId
    "Administrative roles cannot modify their own privileges or status." with
  | .error error => .error error
  | .ok user =>
    if role.any (· ∉ accounts.roles) then .error ⟨400, "Invalid role specified."⟩ else .ok user

/-- `update_user`. -/
def updateUser (token : Option AccessToken) (userId : UserId) (role : Option RoleName)
    (isActive : Option Bool) : Except HttpError Accounts :=
  match accounts.checkUpdate token userId role with
  | .error error => .error error
  | .ok user =>
    if role = none ∧ isActive = none then .ok accounts
    else
      let updated :=
        { accounts with users := accounts.users.set userId (user.update role isActive) }
      .ok (if isActive = some false then updated.invalidateAllUserSessions userId else updated)

/-- `delete_user`. -/
def deleteUser (token : Option AccessToken) (userId : UserId) : Except HttpError Accounts :=
  match accounts.selectUser token userId
    "Administrators cannot delete or deactivate their own active accounts." with
  | .error error => .error error
  | .ok user =>
    .ok ({ accounts with users := accounts.users.set userId { user with isActive := false }
      }.invalidateAllUserSessions userId)

/-- `reset_password`. -/
def resetPassword (token : Option AccessToken) (userId : UserId) (hashed : String) :
    Except HttpError Accounts :=
  match accounts.selectUser token userId
    "Use the password change menu to update your own password." with
  | .error error => .error error
  | .ok user =>
    .ok ({ accounts with
      users := accounts.users.set userId
        { user with passwordHash := hashed, mustChangePassword := true }
      }.invalidateAllUserSessions userId)

/-- A background task makes its call. -/
def perform : StoreCall → SessionStore
  | .registerSession userId jti =>
    accounts.store.registerSession userId jti settings.maxActiveSessionsPerUser defaultTtlSeconds
      accounts.clock
  | .invalidateSession userId jti => accounts.store.invalidateSession userId jti accounts.clock
  | .invalidateAllUserSessions userId => accounts.store.invalidateAllUserSessions userId

/-- The accounts after an event. A login has a session id that no login had before. -/
def next : AccountEvent → Accounts
  | .login username password jti =>
    if jti ∈ accounts.issued.map AccessToken.jti then accounts
    else HttpError.orSame accounts (accounts.login verifyPassword settings username password jti)
  | .logout token => accounts.logout token
  | .request _ => accounts
  | .updateUser token userId role isActive =>
    HttpError.orSame accounts (accounts.updateUser token userId role isActive)
  | .deleteUser token userId => HttpError.orSame accounts (accounts.deleteUser token userId)
  | .resetPassword token userId hashed =>
    HttpError.orSame accounts (accounts.resetPassword token userId hashed)
  | .background index =>
    match accounts.background[index]? with
    | none => accounts
    | some call =>
      { accounts with
        store := accounts.perform settings call
        background := accounts.background.eraseIdx index }
  | .wait duration => { accounts with clock := accounts.clock + duration }

/-- The accounts before the first login. -/
def start (users : Dict UserId User) (roles : List RoleName) (driver : DriverMode) (origin : ℤ) :
    Accounts where
  users := users
  roles := roles
  store := SessionStore.empty driver
  background := []
  issued := []
  clock := origin

end Accounts

end Lnmp.Sessions
