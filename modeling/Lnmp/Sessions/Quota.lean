import Lnmp.Foundation.Runs
import Lnmp.Sessions.SessionStore

/-!
# The session quota

The logins of one user through the login route (`routers/auth.py`, `register_session` of
`services/auth_service.py`). A login registers its session in the store and then in memory, which
spawns a background task that registers it in the store once more. The task may run at any later
time.

`keepsQuota_iff` says when the active sessions are those of the last logins: when the registrations
that the store has recorded last are. The Redis driver records every registration, so that a
session that is registered twice takes two places (`meetsQuota_redis_iff`); the PostgreSQL driver
records none of a session that it has (`meetsQuota_postgres`).
-/

set_option autoImplicit false
set_option relaxedAutoImplicit false

namespace Lnmp.Sessions

open Lnmp.Foundation Lnmp.Foundation.BoundedQueue Lnmp.Foundation.Runs

/-! ### Logins -/

/-- The sessions of a user: the store, the list in memory, the registrations that were spawned and
have not run, the logins so far and the time of the last step. -/
structure LoginService where
  store : SessionStore
  activeUserSessions : List SessionId
  background : List SessionId
  logins : List SessionId
  clock : ℤ
  deriving DecidableEq

/-- A step: a login, up to its response, or a registration in the background. -/
inductive LoginEvent
  | login (jti : SessionId) (now : ℤ)
  | background (jti : SessionId) (now : ℤ)
  deriving DecidableEq

/-- The session that the step registers in the store. -/
def LoginEvent.jti : LoginEvent → SessionId
  | .login jti _ | .background jti _ => jti

/-- The session of a login. -/
def LoginEvent.login? : LoginEvent → Option SessionId
  | .login jti _ => some jti
  | .background .. => none

namespace LoginService

variable (userId : UserId) (maxSessions : ℕ)

/-- `register_session` of the authentication service: it spawns the registration of a session that
is not in memory. -/
def registerInMemory (service : LoginService) (jti : SessionId) : LoginService :=
  if jti ∈ service.activeUserSessions then service
  else
    { service with
      activeUserSessions := appendSession maxSessions service.activeUserSessions jti
      background := service.background ++ [jti] }

/-- The service after a step. The id of a new session is one that no login had before, and the
clock advances. -/
def step (service : LoginService) : LoginEvent → Option LoginService
  | .login jti now =>
    if jti ∉ service.logins ∧ service.clock < now then
      some (registerInMemory maxSessions
        { service with
          store := service.store.registerSession userId jti maxSessions defaultTtlSeconds now
          logins := service.logins ++ [jti]
          clock := now } jti)
    else none
  | .background jti now =>
    if jti ∈ service.background ∧ service.clock < now then
      some
        { service with
          store := service.store.registerSession userId jti maxSessions defaultTtlSeconds now
          background := service.background.erase jti
          clock := now }
    else none

/-- The service before the first login. -/
def start (driver : DriverMode) (origin : ℤ) : LoginService where
  store := SessionStore.empty driver
  activeUserSessions := []
  background := []
  logins := []
  clock := origin

/-- The active sessions are those of the last logins. -/
def KeepsQuota (service : LoginService) (now : ℤ) : Prop :=
  ∀ jti, service.store.isSessionActive userId jti now = true ↔
    jti ∈ service.logins.rtake maxSessions

end LoginService

/-! ### Recorded registrations -/

/-- The registrations that a driver records: all of them, or those of sessions that it does not
have. -/
def recorded (driver : DriverMode) (maxSessions : ℕ) (registrations : List SessionId) :
    List SessionId :=
  match driver with
  | .redis => registrations
  | .postgres => misses maxSessions registrations

/-- The last recorded registrations are of the last logins, and there is one of each. -/
def MeetsQuota (driver : DriverMode) (maxSessions : ℕ) (events : List LoginEvent) : Prop :=
  ∀ jti, jti ∈ (recorded driver maxSessions (events.map LoginEvent.jti)).rtake maxSessions ↔
    jti ∈ (events.filterMap LoginEvent.login?).rtake maxSessions

section Prompt

variable {maxSessions : ℕ} {events : List LoginEvent} {jtis : List SessionId}

/-- When every registration in the background runs before the next login, the Redis driver keeps
every other session: the quota is kept by few logins only. -/
theorem meetsQuota_redis_iff (hnodup : jtis.Nodup)
    (hregistrations : events.map LoginEvent.jti = twice jtis)
    (hlogins : events.filterMap LoginEvent.login? = jtis) :
    MeetsQuota .redis maxSessions events ↔ min jtis.length maxSessions ≤ (maxSessions + 1) / 2 := by
  rw [MeetsQuota, hregistrations, hlogins, ← mem_rtake_half_iff hnodup]
  exact forall_congr' fun jti ↦ iff_congr (mem_rtake_twice ..) Iff.rfl

/-- When every registration in the background runs before the next login, the PostgreSQL driver
keeps the quota. -/
theorem meetsQuota_postgres (hquota : 0 < maxSessions) (hnodup : jtis.Nodup)
    (hregistrations : events.map LoginEvent.jti = twice jtis)
    (hlogins : events.filterMap LoginEvent.login? = jtis) :
    MeetsQuota .postgres maxSessions events := by
  rw [MeetsQuota, hregistrations, hlogins, recorded, misses_twice hquota hnodup]
  exact fun _ ↦ Iff.rfl

end Prompt

/-! ### One registration -/

section Records

variable {userId : UserId} {maxSessions : ℕ} {origin clock now : ℤ} {registrations : List SessionId}
  {driver : DriverMode} {store : SessionStore} {jti : SessionId}

/-- A store has the last recorded registrations of the user, until the first session expires. -/
inductive Records (userId : UserId) (maxSessions : ℕ) (origin clock : ℤ)
    (registrations : List SessionId) : DriverMode → SessionStore → Prop
  | postgres {table : UserSessions} (horder : table.InOrder userId origin clock)
      (hjtis : table.rows.map UserSession.jti =
        (misses maxSessions registrations).rtake maxSessions) :
    Records userId maxSessions origin clock registrations .postgres (.postgres table)
  | redis {keys : SessionKeys}
      (hkey : ∀ time, time < origin + seconds defaultTtlSeconds →
        (SessionKeys.getKey keys userId time).getD [] = registrations.rtake maxSessions) :
    Records userId maxSessions origin clock registrations .redis (.redis keys)

theorem records_empty :
    Records userId maxSessions origin origin [] driver (SessionStore.empty driver) := by
  cases driver with
  | postgres =>
    refine .postgres ⟨?_, ?_, ?_, ?_, List.Pairwise.nil⟩ (by simp [UserSessions.empty, misses])
    all_goals exact fun row hrow ↦ absurd hrow List.not_mem_nil
  | redis => exact .redis fun time _ ↦ by simp [SessionKeys.getKey]

/-- A registration is one more registration. -/
theorem Records.registerSession
    (hrecords : Records userId maxSessions origin clock registrations driver store)
    (hquota : 0 < maxSessions) (horigin : origin ≤ clock) (hclock : clock < now)
    (hlife : now < origin + seconds defaultTtlSeconds) :
    Records userId maxSessions origin now (registrations ++ [jti]) driver
      (store.registerSession userId jti maxSessions defaultTtlSeconds now) := by
  cases hrecords with
  | postgres horder hjtis =>
    obtain ⟨horder', hjtis'⟩ := horder.registerSession hclock (horigin.trans_lt hclock) hlife
    refine .postgres horder' (hjtis'.trans ?_)
    rw [hjtis, ← foldl_pushNew, ← foldl_pushNew, List.foldl_concat]
  | redis hkey =>
    refine .redis fun time htime ↦ ?_
    rw [SessionKeys.registerSession, SessionKeys.getKey_setKey, if_pos rfl,
      if_pos (by omega), Option.getD_some, hkey now hlife, appendSession,
      if_neg hquota.ne', push_rtake]

/-- The active sessions are those of the last recorded registrations. -/
theorem Records.isSessionActive_iff
    (hrecords : Records userId maxSessions origin clock registrations driver store)
    (hlife : now < origin + seconds defaultTtlSeconds) :
    store.isSessionActive userId jti now = true ↔
      jti ∈ (recorded driver maxSessions registrations).rtake maxSessions := by
  cases hrecords with
  | @postgres table horder hjtis =>
    refine UserSessions.isSessionActive_iff.trans ?_
    rw [recorded, ← hjtis, List.mem_map]
    constructor
    · rintro ⟨row, hrow, -, hjti, -⟩
      exact ⟨row, hrow, hjti⟩
    · rintro ⟨row, hrow, hjti⟩
      exact ⟨row, hrow, horder.userId_eq row hrow, hjti, horder.now_lt hlife hrow⟩
  | @redis keys hkey =>
    refine SessionKeys.isSessionActive_iff.trans ?_
    rw [recorded, ← hkey now hlife]
    cases SessionKeys.getKey keys userId now <;> simp

end Records

/-! ### Histories of logins -/

namespace LoginService

variable {userId : UserId} {maxSessions : ℕ} {origin : ℤ} {driver : DriverMode}
  {events : List LoginEvent} {service next finish : LoginService} {event : LoginEvent}

/-- What a step does: it registers a session in the store. -/
theorem of_step (hstep : step userId maxSessions service event = some next) :
    service.clock < next.clock ∧
      next.store = service.store.registerSession userId event.jti maxSessions defaultTtlSeconds
        next.clock ∧
      next.logins = service.logins ++ event.login?.toList := by
  cases event with
  | login jti now =>
    obtain ⟨⟨-, hclock⟩, hnext⟩ := Option.ite_none_right_eq_some.mp hstep
    obtain rfl := Option.some.inj hnext
    rw [registerInMemory]
    split <;> exact ⟨hclock, rfl, rfl⟩
  | background jti now =>
    obtain ⟨⟨-, hclock⟩, hnext⟩ := Option.ite_none_right_eq_some.mp hstep
    obtain rfl := Option.some.inj hnext
    exact ⟨hclock, rfl, (List.append_nil _).symm⟩

/-- What a history of logins leaves, before the first session expires. -/
theorem records_of_run (hquota : 0 < maxSessions)
    (hrun : run (step userId maxSessions) (start driver origin) events = some finish)
    (hlife : finish.clock < origin + seconds defaultTtlSeconds) :
    origin ≤ finish.clock ∧
      Records userId maxSessions origin finish.clock (events.map LoginEvent.jti) driver
        finish.store ∧
      finish.logins = events.filterMap LoginEvent.login? := by
  induction events using List.reverseRecOn generalizing finish with
  | nil =>
    rw [run_nil, Option.some_inj] at hrun
    exact hrun ▸ ⟨le_rfl, records_empty, rfl⟩
  | append_singleton events event ih =>
    obtain ⟨middle, hmiddle, hlast⟩ := run_concat_eq_some.mp hrun
    obtain ⟨hclock, hstore, hlogins⟩ := of_step hlast
    obtain ⟨horigin, hrecords, hsame⟩ := ih hmiddle (hclock.trans hlife)
    refine ⟨horigin.trans hclock.le, ?_, ?_⟩
    · rw [hstore, List.map_append, List.map_singleton]
      exact hrecords.registerSession hquota horigin hclock hlife
    · rw [hlogins, hsame, List.filterMap_append]
      cases event <;> rfl

/-- The active sessions are those of the last logins exactly when the registrations that the driver
has recorded last are. -/
theorem keepsQuota_iff (hquota : 0 < maxSessions)
    (hrun : run (step userId maxSessions) (start driver origin) events = some finish)
    {now : ℤ} (hnow : finish.clock ≤ now) (hlife : now < origin + seconds defaultTtlSeconds) :
    finish.KeepsQuota userId maxSessions now ↔ MeetsQuota driver maxSessions events := by
  obtain ⟨-, hrecords, hlogins⟩ := records_of_run hquota hrun (hnow.trans_lt hlife)
  rw [KeepsQuota, MeetsQuota, hlogins]
  exact forall_congr' fun jti ↦ iff_congr (hrecords.isSessionActive_iff hlife) Iff.rfl

/-- Two logins, each with its registration in the background before the next step. -/
def promptEvents : List LoginEvent :=
  [.login 1 1, .background 1 2, .login 2 3, .background 2 4]

/-- The service after the two logins. -/
def promptService (driver : DriverMode) : LoginService :=
  (run (step 7 2) (start driver 0) promptEvents).getD (start driver 0)

theorem run_promptEvents (driver : DriverMode) :
    run (step 7 2) (start driver 0) promptEvents = some (promptService driver) := by
  cases driver <;> decide

/-- With the default quota of two sessions, the second login ends the session of the first one in
the Redis driver. -/
theorem not_keepsQuota_promptService :
    run (step 7 2) (start .redis 0) promptEvents = some (promptService .redis) ∧
      (promptService .redis).background = [] ∧
      ¬(promptService .redis).KeepsQuota 7 2 5 := by
  refine ⟨run_promptEvents .redis, by decide, fun hkeeps ↦ ?_⟩
  exact absurd ((hkeeps 1).mpr (by decide)) (by decide)

theorem keepsQuota_promptService_iff :
    (promptService .redis).KeepsQuota 7 2 5 ↔ MeetsQuota .redis 2 promptEvents :=
  keepsQuota_iff (by decide) (run_promptEvents .redis) (by decide) (by decide)

end LoginService

end Lnmp.Sessions
