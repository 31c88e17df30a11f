import Lnmp.Foundation.Runs
import Lnmp.Sessions.DriverManager

/-!
# Revocation across driver switches

The workers of the service, each with its own storage driver, over one PostgreSQL table and one
Redis. A request runs in the driver of the worker that serves it, and leaves the other store as it
is. A worker changes its driver when it is initialized, at its start or because a setting has
changed, and migrates the sessions then.

`everyState_staysRevoked_iff` says when no worker reports a session that was revoked: when a logout
finds no other driver in use in which the session is active, and a worker changes to a store in
which, after the migration, no revoked session is active.
-/

set_option autoImplicit false
set_option relaxedAutoImplicit false

namespace Lnmp.Sessions

open Lnmp.Foundation Lnmp.Foundation.Runs

/-! ### The cluster -/

/-- A session of a user. -/
abbrev Session := UserId × SessionId

/-- A worker. It serves requests when it has been initialized. -/
structure Worker where
  driverMode : DriverMode
  serving : Bool
  deriving DecidableEq

/-- The stores and the workers, the sessions of all logins and those that were revoked. -/
structure Cluster where
  table : UserSessions
  keys : SessionKeys
  workers : List Worker
  clock : ℤ
  issued : List Session
  revoked : List Session
  deriving DecidableEq

/-- What happens: a request to a worker, the start of one, an initialization, or time passes. -/
inductive ClusterEvent
  | login (worker : ℕ) (session : Session)
  | logout (worker : ℕ) (session : Session)
  | resetPassword (worker : ℕ) (userId : UserId)
  | startWorker
  | initializeDrivers (worker : ℕ) (redisEnabled redisReachable : Bool)
  | wait (duration : ℕ)
  deriving DecidableEq

namespace Cluster

variable (cluster : Cluster)

/-- The driver of a worker that serves requests. -/
def servingMode (worker : ℕ) : Option DriverMode :=
  (cluster.workers[worker]?).bind fun worker ↦
    if worker.serving then some worker.driverMode else none

/-- The session is active in the store of a driver. -/
def isActiveIn (mode : DriverMode) (session : Session) : Bool :=
  match mode with
  | .postgres => cluster.table.isSessionActive session.1 session.2 cluster.clock
  | .redis => cluster.keys.isSessionActive session.1 session.2 cluster.clock

/-- A request makes its call of the session store once, and once more in the background. -/
def call (mode : DriverMode) (onTable : UserSessions → UserSessions)
    (onKeys : SessionKeys → SessionKeys) : Cluster :=
  match mode with
  | .postgres => { cluster with table := onTable (onTable cluster.table) }
  | .redis => { cluster with keys := onKeys (onKeys cluster.keys) }

/-- The cluster after an event. A login has a session id that no login had before, and only a
session of a login can be logged out. -/
def next (maxSessions : ℕ) : ClusterEvent → Cluster
  | .login worker session =>
    match cluster.servingMode worker with
    | none => cluster
    | some mode =>
      if session.2 ∈ cluster.issued.map Prod.snd then cluster
      else
        { cluster.call mode
            (fun table ↦ table.registerSession session.1 session.2 maxSessions defaultTtlSeconds
              cluster.clock)
            (fun keys ↦ keys.registerSession session.1 session.2 maxSessions defaultTtlSeconds
              cluster.clock) with
          issued := cluster.issued ++ [session] }
  | .logout worker session =>
    match cluster.servingMode worker with
    | none => cluster
    | some mode =>
      if session ∈ cluster.issued then
        { cluster.call mode (fun table ↦ table.invalidateSession session.1 session.2)
            (fun keys ↦ keys.invalidateSession session.1 session.2 cluster.clock) with
          revoked := cluster.revoked ++ [session] }
      else cluster
  | .resetPassword worker userId =>
    match cluster.servingMode worker with
    | none => cluster
    | some mode =>
      { cluster.call mode (fun table ↦ table.invalidateAllUserSessions userId)
          (fun keys ↦ keys.invalidateAllUserSessions userId) with
        revoked := cluster.revoked ++ cluster.issued.filter fun session ↦ session.1 = userId }
  | .startWorker => { cluster with workers := cluster.workers ++ [⟨.postgres, false⟩] }
  | .initializeDrivers worker redisEnabled redisReachable =>
    match cluster.workers[worker]? with
    | none => cluster
    | some initialized =>
      let state : DriverState := DriverState.initializeDrivers
        ⟨cluster.table, cluster.keys, initialized.driverMode⟩ redisEnabled redisReachable
        cluster.clock
      { cluster with
        table := state.table
        keys := state.keys
        workers := cluster.workers.set worker ⟨state.driverMode, true⟩ }
  | .wait duration => { cluster with clock := cluster.clock + duration }

/-- A cluster without workers and sessions. -/
def start (clock : ℤ) : Cluster where
  table := UserSessions.empty
  keys := Dict.empty
  workers := []
  clock := clock
  issued := []
  revoked := []

/-! ### Statements -/

/-- A worker with the driver serves requests. -/
def Serves (mode : DriverMode) : Prop := ⟨mode, true⟩ ∈ cluster.workers

/-- No worker that serves requests reports a revoked session as active. -/
def StaysRevoked : Prop :=
  ∀ mode, cluster.Serves mode → ∀ session ∈ cluster.revoked,
    cluster.isActiveIn mode session = false

/-- The condition on an event. -/
def KeepsRevoked : ClusterEvent → Prop
  | .logout worker session => ∀ mode, cluster.servingMode worker = some mode →
    session ∈ cluster.issued → ∀ other, other ≠ mode → cluster.Serves other →
      cluster.isActiveIn other session = false
  | .resetPassword worker userId => ∀ mode, cluster.servingMode worker = some mode →
    ∀ session ∈ cluster.issued, session.1 = userId → ∀ other, other ≠ mode →
      cluster.Serves other → cluster.isActiveIn other session = false
  | .initializeDrivers worker redisEnabled redisReachable =>
    ∀ initialized, cluster.workers[worker]? = some initialized →
      ∀ session ∈ cluster.revoked,
        if redisEnabled ∧ redisReachable then
          initialized.driverMode = .postgres →
            (cluster.table.Migrates session.1 cluster.clock →
              cluster.isActiveIn .postgres session = false) ∧
            (¬cluster.table.Migrates session.1 cluster.clock →
              cluster.isActiveIn .redis session = false)
        else cluster.isActiveIn .postgres session = false
  | .login .. | .startWorker | .wait _ => True

/-- A worker with the Redis driver has been initialized, and every revoked session is one of a
login. -/
structure Consistent : Prop where
  serving : ∀ worker ∈ cluster.workers, worker.driverMode = .redis → worker.serving = true
  issued : ∀ session ∈ cluster.revoked, session ∈ cluster.issued

/-! ### Requests -/

variable {cluster} {mode other : DriverMode} {session : Session} {worker maxSessions : ℕ}
  {onTable : UserSessions → UserSessions} {onKeys : SessionKeys → SessionKeys}

/-- The call of a request leaves the other store as it is. -/
theorem isActiveIn_call_of_ne (hother : other ≠ mode) :
    (cluster.call mode onTable onKeys).isActiveIn other session =
      cluster.isActiveIn other session := by
  cases mode <;> cases other <;> first | rfl | exact absurd rfl hother

/-- What holds of a session that is active after a call of the store in which the call is made. -/
theorem isActiveIn_of_call {stays : Prop}
    (htable : ∀ table, (onTable table).isSessionActive session.1 session.2 cluster.clock = true →
      table.isSessionActive session.1 session.2 cluster.clock = true ∧ stays)
    (hkeys : ∀ keys, (onKeys keys).isSessionActive session.1 session.2 cluster.clock = true →
      SessionKeys.isSessionActive keys session.1 session.2 cluster.clock = true ∧ stays)
    (hactive : (cluster.call mode onTable onKeys).isActiveIn other session = true) :
    cluster.isActiveIn other session = true ∧ (other = mode → stays) := by
  cases mode with
  | postgres =>
    cases other with
    | postgres => exact ⟨(htable _ (htable _ hactive).1).1, fun _ ↦ (htable _ hactive).2⟩
    | redis => exact ⟨hactive, fun hsame ↦ DriverMode.noConfusion hsame⟩
  | redis =>
    cases other with
    | postgres => exact ⟨hactive, fun hsame ↦ DriverMode.noConfusion hsame⟩
    | redis => exact ⟨(hkeys _ (hkeys _ hactive).1).1, fun _ ↦ (hkeys _ hactive).2⟩

theorem workers_call : (cluster.call mode onTable onKeys).workers = cluster.workers := by
  cases mode <;> rfl

theorem issued_call : (cluster.call mode onTable onKeys).issued = cluster.issued := by
  cases mode <;> rfl

theorem revoked_call : (cluster.call mode onTable onKeys).revoked = cluster.revoked := by
  cases mode <;> rfl

/-- A login makes no revoked session active. -/
theorem StaysRevoked.login (hstays : cluster.StaysRevoked) (hconsistent : cluster.Consistent)
    (worker : ℕ) (session : Session) :
    (cluster.next maxSessions (.login worker session)).StaysRevoked := by
  rw [next]
  split
  · exact hstays
  · rename_i mode _
    split
    · exact hstays
    · rename_i hfresh
      intro other hserves old hrevoked
      simp only [Serves, workers_call, revoked_call] at hserves hrevoked
      have hne : old.2 ≠ session.2 := fun hsame ↦
        hfresh (hsame ▸ List.mem_map.mpr ⟨old, hconsistent.issued old hrevoked, rfl⟩)
      refine Bool.eq_false_iff.mpr fun hactive ↦ ?_
      have hbefore : cluster.isActiveIn other old = true ∧ (other = mode → True) := by
        refine isActiveIn_of_call (fun table htable ↦ ⟨?_, trivial⟩)
          (fun keys hkeys ↦ ⟨?_, trivial⟩) hactive
        · exact (UserSessions.isSessionActive_of_registerSession htable).resolve_right
            fun hsame ↦ hne hsame.2
        · exact (SessionKeys.isSessionActive_of_registerSession hkeys).resolve_right
            fun hsame ↦ hne hsame.2
      exact Bool.false_ne_true ((hstays other hserves old hrevoked).symm.trans hbefore.1)

/-- A request that revokes sessions keeps all of them inactive exactly when they are not active in
another store that is in use: its calls end them in its own store. -/
theorem staysRevoked_call_iff (hstays : cluster.StaysRevoked) {ended : List Session}
    (htable : ∀ table : UserSessions, ∀ session : Session,
      (onTable table).isSessionActive session.1 session.2 cluster.clock = true →
        table.isSessionActive session.1 session.2 cluster.clock = true ∧ session ∉ ended)
    (hkeys : ∀ keys : SessionKeys, ∀ session : Session,
      (onKeys keys).isSessionActive session.1 session.2 cluster.clock = true →
        keys.isSessionActive session.1 session.2 cluster.clock = true ∧ session ∉ ended) :
    StaysRevoked { cluster.call mode onTable onKeys with revoked := cluster.revoked ++ ended } ↔
      ∀ session ∈ ended, ∀ other, other ≠ mode → cluster.Serves other →
        cluster.isActiveIn other session = false := by
  constructor
  · intro hnext session hended other hother hserves
    refine (isActiveIn_call_of_ne hother).symm.trans (hnext other ?_ session ?_)
    · simpa only [Serves, workers_call] using hserves
    · exact List.mem_append_right _ hended
  · intro hended other hserves session hrevoked
    simp only [Serves, workers_call] at hserves
    refine Bool.eq_false_iff.mpr fun hactive ↦ ?_
    have hbefore : cluster.isActiveIn other session = true ∧ (other = mode → session ∉ ended) :=
      isActiveIn_of_call (fun table ↦ htable table session) (fun keys ↦ hkeys keys session) hactive
    rcases List.mem_append.mp hrevoked with hold | hnew
    · exact Bool.false_ne_true ((hstays other hserves session hold).symm.trans hbefore.1)
    · by_cases hother : other = mode
      · exact hbefore.2 hother hnew
      · exact Bool.false_ne_true
          ((hended session hnew other hother hserves).symm.trans hbefore.1)

/-- A logout ends its session in the store of its worker. -/
theorem staysRevoked_logout_iff (hstays : cluster.StaysRevoked) (worker : ℕ) (session : Session) :
    (cluster.next maxSessions (.logout worker session)).StaysRevoked ↔
      cluster.KeepsRevoked (.logout worker session) := by
  rw [next]
  split
  · rename_i hnone
    refine iff_of_true hstays fun mode hmode ↦ ?_
    exact absurd (hnone.symm.trans hmode) (Option.some_ne_none _).symm
  · rename_i mode hmode
    split
    · rename_i hissued
      refine (staysRevoked_call_iff hstays (fun table other htable ↦ ?_)
        fun keys other hkeys ↦ ?_).trans ⟨?_, ?_⟩
      · obtain ⟨hbefore, hne⟩ := UserSessions.isSessionActive_of_invalidateSession htable
        exact ⟨hbefore, fun hmem ↦ hne (List.mem_singleton.mp hmem)⟩
      · obtain ⟨hbefore, hne⟩ := SessionKeys.isSessionActive_of_invalidateSession hkeys
        exact ⟨hbefore, fun hmem ↦ hne (List.mem_singleton.mp hmem)⟩
      · intro hended mode' hmode' _
        obtain rfl := Option.some.inj (hmode.symm.trans hmode')
        exact hended session (List.mem_singleton_self _)
      · intro hkeeps old hold
        obtain rfl := List.mem_singleton.mp hold
        exact hkeeps mode hmode hissued
    · rename_i hissued
      exact iff_of_true hstays fun _ _ hmem ↦ absurd hmem hissued

/-- A reset ends the sessions of its user in the store of its worker. -/
theorem staysRevoked_resetPassword_iff (hstays : cluster.StaysRevoked) (worker : ℕ)
    (userId : UserId) :
    (cluster.next maxSessions (.resetPassword worker userId)).StaysRevoked ↔
      cluster.KeepsRevoked (.resetPassword worker userId) := by
  rw [next]
  split
  · rename_i hnone
    refine iff_of_true hstays fun mode hmode ↦ ?_
    exact absurd (hnone.symm.trans hmode) (Option.some_ne_none _).symm
  · rename_i mode hmode
    refine (staysRevoked_call_iff hstays (fun table other htable ↦ ?_)
      fun keys other hkeys ↦ ?_).trans ⟨?_, ?_⟩
    · obtain ⟨hbefore, hne⟩ := UserSessions.isSessionActive_of_invalidateAllUserSessions htable
      exact ⟨hbefore, fun hmem ↦ hne (of_decide_eq_true (List.mem_filter.mp hmem).2)⟩
    · obtain ⟨hbefore, hne⟩ := SessionKeys.isSessionActive_of_invalidateAllUserSessions hkeys
      exact ⟨hbefore, fun hmem ↦ hne (of_decide_eq_true (List.mem_filter.mp hmem).2)⟩
    · intro hended mode' hmode' session hissued huser
      obtain rfl := Option.some.inj (hmode.symm.trans hmode')
      exact hended session (List.mem_filter.mpr ⟨hissued, decide_eq_true huser⟩)
    · intro hkeeps session hmem
      obtain ⟨hissued, huser⟩ := List.mem_filter.mp hmem
      exact hkeeps mode hmode session hissued (of_decide_eq_true huser)

/-! ### Initializations -/

section Initialize

variable {initialized : Worker}

/-- The drivers in use after a worker has changed to one. -/
theorem serves_of_mem_set
    (hserves : (⟨other, true⟩ : Worker) ∈ cluster.workers.set worker ⟨mode, true⟩) :
    other = mode ∨ cluster.Serves other := by
  rcases List.mem_or_eq_of_mem_set hserves with hold | hnew
  · exact Or.inr hold
  · exact Or.inl (Worker.mk.inj hnew).1

theorem mem_set_of_getElem? (hworker : cluster.workers[worker]? = some initialized) :
    (⟨mode, true⟩ : Worker) ∈ cluster.workers.set worker ⟨mode, true⟩ := by
  obtain ⟨hlength, -⟩ := List.getElem?_eq_some_iff.mp hworker
  exact List.mem_set hlength _

/-- A worker with the Redis driver reports no revoked session. -/
theorem StaysRevoked.isActiveIn_redis (hstays : cluster.StaysRevoked)
    (hconsistent : cluster.Consistent) (hworker : cluster.workers[worker]? = some initialized)
    (hmode : initialized.driverMode = .redis) (hrevoked : session ∈ cluster.revoked) :
    cluster.isActiveIn .redis session = false := by
  have hmem := List.mem_of_getElem? hworker
  have hsame : initialized = ⟨.redis, true⟩ := by
    rw [← hmode, ← hconsistent.serving initialized hmem hmode]
  exact hstays .redis (by rwa [hsame] at hmem) session hrevoked

/-- A worker that changes to Redis keeps the revoked sessions inactive exactly when the migration
copies none of them and overwrites every list that has one. -/
theorem staysRevoked_toRedis_iff (hstays : cluster.StaysRevoked)
    (hconsistent : cluster.Consistent) (hworker : cluster.workers[worker]? = some initialized)
    {keys : SessionKeys}
    (hpostgres : initialized.driverMode = .postgres →
      keys = migrateToRedis cluster.table cluster.keys cluster.clock)
    (hredis : initialized.driverMode = .redis → keys = cluster.keys) :
    StaysRevoked
        { cluster with keys := keys, workers := cluster.workers.set worker ⟨.redis, true⟩ } ↔
      ∀ session ∈ cluster.revoked, initialized.driverMode = .postgres →
        (cluster.table.Migrates session.1 cluster.clock →
          cluster.isActiveIn .postgres session = false) ∧
        (¬cluster.table.Migrates session.1 cluster.clock →
          cluster.isActiveIn .redis session = false) := by
  have hmigrated : ∀ session : Session, initialized.driverMode = .postgres →
      (keys.isSessionActive session.1 session.2 cluster.clock = false ↔
        (cluster.table.Migrates session.1 cluster.clock →
          cluster.isActiveIn .postgres session = false) ∧
        (¬cluster.table.Migrates session.1 cluster.clock →
          cluster.isActiveIn .redis session = false)) := by
    intro session hmode
    rw [hpostgres hmode, ← Bool.not_eq_true, isSessionActive_migrateToRedis_iff, not_or, not_and,
      not_and, Bool.not_eq_true, Bool.not_eq_true]
    rfl
  constructor
  · intro hnext session hrevoked hmode
    exact (hmigrated session hmode).mp
      (hnext .redis (mem_set_of_getElem? hworker) session hrevoked)
  · intro hclean other hserves session hrevoked
    cases other with
    | postgres =>
      have hbefore := (serves_of_mem_set hserves).resolve_left DriverMode.noConfusion
      exact hstays .postgres hbefore session hrevoked
    | redis =>
      cases hmode : initialized.driverMode with
      | postgres => exact (hmigrated session hmode).mpr (hclean session hrevoked hmode)
      | redis =>
        obtain rfl := hredis hmode
        exact hstays.isActiveIn_redis hconsistent hworker hmode hrevoked

/-- A worker that changes to PostgreSQL keeps the revoked sessions inactive exactly when none of
them has a row that is not expired. -/
theorem staysRevoked_toPostgres_iff (hstays : cluster.StaysRevoked)
    (hconsistent : cluster.Consistent) (hworker : cluster.workers[worker]? = some initialized)
    {table : UserSessions}
    (htable : table = cluster.table ∨ initialized.driverMode = .redis ∧
      table = migrateToPostgres cluster.table cluster.keys cluster.clock) :
    StaysRevoked
        { cluster with table := table, workers := cluster.workers.set worker ⟨.postgres, true⟩ } ↔
      ∀ session ∈ cluster.revoked, cluster.isActiveIn .postgres session = false := by
  constructor
  · intro hnext session hrevoked
    have hafter := hnext .postgres (mem_set_of_getElem? hworker) session hrevoked
    refine Bool.eq_false_iff.mpr fun hactive ↦ Bool.false_ne_true (hafter.symm.trans ?_)
    rcases htable with rfl | ⟨-, rfl⟩
    · exact hactive
    · exact isSessionActive_migrateToPostgres hactive
  · intro hclean other hserves session hrevoked
    cases other with
    | redis =>
      have hbefore := (serves_of_mem_set hserves).resolve_left DriverMode.noConfusion
      exact hstays .redis hbefore session hrevoked
    | postgres =>
      rcases htable with rfl | ⟨hmode, rfl⟩
      · exact hclean session hrevoked
      · refine Bool.eq_false_iff.mpr fun hactive ↦ ?_
        have hredis := hstays.isActiveIn_redis hconsistent hworker hmode hrevoked
        rcases isSessionActive_of_migrateToPostgres hactive with hold | hnew
        · exact Bool.false_ne_true ((hclean session hrevoked).symm.trans hold)
        · exact Bool.false_ne_true (hredis.symm.trans hnew)

/-- A worker that is initialized changes to one of the drivers. -/
theorem staysRevoked_initializeDrivers_iff (hstays : cluster.StaysRevoked)
    (hconsistent : cluster.Consistent) (worker : ℕ) (redisEnabled redisReachable : Bool) :
    (cluster.next maxSessions
        (.initializeDrivers worker redisEnabled redisReachable)).StaysRevoked ↔
      cluster.KeepsRevoked (.initializeDrivers worker redisEnabled redisReachable) := by
  rw [next, KeepsRevoked]
  split
  · rename_i hnone
    refine iff_of_true hstays fun initialized hworker ↦ ?_
    exact absurd (hnone.symm.trans hworker) (Option.some_ne_none _).symm
  · rename_i initialized hworker
    have honly : ∀ property : Worker → Prop,
        (∀ other, cluster.workers[worker]? = some other → property other) ↔
          property initialized := by
      intro property
      rw [hworker]
      exact ⟨fun hall ↦ hall initialized rfl, fun hproperty other hother ↦
        Option.some.inj hother ▸ hproperty⟩
    rw [honly]
    by_cases hredis : redisEnabled ∧ redisReachable
    · simp only [DriverState.initializeDrivers, if_pos hredis]
      refine staysRevoked_toRedis_iff hstays hconsistent hworker (fun hmode ↦ ?_) fun hmode ↦ ?_
      · rw [hmode]
      · rw [hmode]
    · simp only [DriverState.initializeDrivers, if_neg hredis]
      refine staysRevoked_toPostgres_iff hstays hconsistent hworker ?_
      cases hmode : initialized.driverMode with
      | postgres => exact Or.inl rfl
      | redis =>
        cases redisReachable with
        | false => exact Or.inl rfl
        | true => exact Or.inr ⟨rfl, rfl⟩

end Initialize

/-! ### Histories -/

/-- A request that revokes sessions of logins leaves a consistent cluster. -/
theorem Consistent.call (hconsistent : cluster.Consistent) {ended : List Session}
    (hended : ∀ session ∈ ended, session ∈ cluster.issued) :
    Consistent { cluster.call mode onTable onKeys with revoked := cluster.revoked ++ ended } := by
  refine ⟨by simpa only [workers_call] using hconsistent.serving, fun session hmem ↦ ?_⟩
  simp only [issued_call]
  exact (List.mem_append.mp hmem).elim (hconsistent.issued session) (hended session)

/-- Every event leaves a consistent cluster. -/
theorem Consistent.next (hconsistent : cluster.Consistent) (maxSessions : ℕ)
    (event : ClusterEvent) : (cluster.next maxSessions event).Consistent := by
  cases event with
  | login worker session =>
    rw [Cluster.next]
    split
    · exact hconsistent
    · split
      · exact hconsistent
      · refine ⟨by simpa only [workers_call] using hconsistent.serving, fun old hrevoked ↦ ?_⟩
        simp only [revoked_call] at hrevoked
        exact List.mem_append_left _ (hconsistent.issued old hrevoked)
  | logout worker session =>
    rw [Cluster.next]
    split
    · exact hconsistent
    · split
      · rename_i hissued
        exact hconsistent.call fun old hold ↦ List.mem_singleton.mp hold ▸ hissued
      · exact hconsistent
  | resetPassword worker userId =>
    rw [Cluster.next]
    split
    · exact hconsistent
    · exact hconsistent.call fun old hold ↦ (List.mem_filter.mp hold).1
  | startWorker =>
    refine ⟨fun worker hworker hmode ↦ ?_, hconsistent.issued⟩
    rcases List.mem_append.mp hworker with hold | hnew
    · exact hconsistent.serving worker hold hmode
    · rw [List.mem_singleton.mp hnew] at hmode
      exact DriverMode.noConfusion hmode
  | initializeDrivers worker redisEnabled redisReachable =>
    rw [Cluster.next]
    split
    · exact hconsistent
    · refine ⟨fun other hother hmode ↦ ?_, hconsistent.issued⟩
      rcases List.mem_or_eq_of_mem_set hother with hold | rfl
      · exact hconsistent.serving other hold hmode
      · rfl
  | wait duration => exact ⟨hconsistent.serving, hconsistent.issued⟩

/-- In every history of logins, logouts, resets and initializations, no session that was revoked is
ever reported as active exactly when every event meets the condition. -/
theorem everyState_staysRevoked_iff (clock : ℤ) (maxSessions : ℕ) (events : List ClusterEvent) :
    EveryState (fun cluster event ↦ some (Cluster.next cluster maxSessions event)) (start clock)
        events StaysRevoked ↔
      EveryStep (fun cluster event ↦ some (Cluster.next cluster maxSessions event)) (start clock)
        events KeepsRevoked := by
  refine everyState_iff_everyStep Consistent _ ?_ ?_ ?_ ?_
    (run_some (fun cluster event ↦ Cluster.next cluster maxSessions event) ..)
  · rintro cluster event _ hconsistent hnext
    obtain rfl := Option.some.inj hnext
    exact hconsistent.next maxSessions event
  · rintro cluster event _ hconsistent hstays hnext
    obtain rfl := Option.some.inj hnext
    cases event with
    | login worker session => exact iff_of_true (hstays.login hconsistent worker session) trivial
    | logout worker session => exact staysRevoked_logout_iff hstays worker session
    | resetPassword worker userId => exact staysRevoked_resetPassword_iff hstays worker userId
    | startWorker =>
      refine iff_of_true (fun mode hserves ↦ ?_) trivial
      refine hstays mode ((List.mem_append.mp hserves).resolve_right fun hnew ↦ ?_)
      exact Bool.false_ne_true (Worker.mk.inj (List.mem_singleton.mp hnew)).2.symm
    | initializeDrivers worker redisEnabled redisReachable =>
      exact staysRevoked_initializeDrivers_iff hstays hconsistent worker redisEnabled redisReachable
    | wait duration =>
      refine iff_of_true (fun mode hserves session hrevoked ↦ ?_) trivial
      have hlater : cluster.clock ≤ cluster.clock + duration := by omega
      refine Bool.eq_false_iff.mpr fun hactive ↦ ?_
      refine Bool.false_ne_true ((hstays mode hserves session hrevoked).symm.trans ?_)
      cases mode with
      | postgres => exact UserSessions.isSessionActive_of_later hlater hactive
      | redis => exact SessionKeys.isSessionActive_of_later hlater hactive
  · exact ⟨fun worker hworker ↦ absurd hworker List.not_mem_nil,
      fun session hrevoked ↦ absurd hrevoked List.not_mem_nil⟩
  · exact fun _ _ session hrevoked ↦ absurd hrevoked List.not_mem_nil

/-- A worker goes from PostgreSQL to Redis and back, and a session is logged out in between. -/
def switchEvents : List ClusterEvent :=
  [.startWorker, .initializeDrivers 0 false true, .login 0 (7, 1), .wait 1000000,
    .initializeDrivers 0 true true, .logout 0 (7, 1), .initializeDrivers 0 false true]

/-- The row that the migration to Redis has left brings the session back. -/
theorem not_staysRevoked_switchEvents :
    ¬EveryState (fun cluster event ↦ some (Cluster.next cluster 2 event)) (start 0) switchEvents
      StaysRevoked := by
  intro hstays
  have hlast : StaysRevoked
      (switchEvents.foldl (fun cluster event ↦ Cluster.next cluster 2 event) (start 0)) :=
    hstays switchEvents [] _ (List.append_nil _).symm
      (run_some (fun cluster event ↦ Cluster.next cluster 2 event) ..)
  exact absurd (hlast .postgres (by unfold Serves; decide) (7, 1) (by decide))
    (by decide)

end Cluster

end Lnmp.Sessions
