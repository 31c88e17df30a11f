import Lnmp.Sessions.SessionStore

/-!
# Switching the storage driver

`StorageDriverManager.initialize` (`services/driver_manager.py`) and the warm migrations of
`services/session_store.py`: a worker that goes from one driver to the other copies the sessions
that are not expired, and leaves the ones it copied where they are.

`isSessionActive_migrateToRedis_iff` and `isSessionActive_of_migrateToPostgres` say what is active
after a migration. A list in Redis is overwritten when the user has a session with a second left to
live, and stays as it was when there is none.
-/

set_option autoImplicit false
set_option relaxedAutoImplicit false

namespace Lnmp.Sessions

open Lnmp.Foundation

/-! ### Migrations -/

/-- The sessions that are not expired, the oldest first. -/
def UserSessions.unexpired (table : UserSessions) (now : ℤ) : List UserSession :=
  (table.rows.filter fun row ↦ now < row.expiresAt).insertionSort
    fun first second ↦ first.createdAt ≤ second.createdAt

/-- `user_map`: the sessions of every user. -/
def userMap (sessions : List UserSession) : Dict UserId (List UserSession) :=
  sessions.foldl
    (fun map session ↦
      map.set session.userId ((map.get? session.userId).getD [] ++ [session])) Dict.empty

/-- The list of a user. It lives as long as the session that expires last, in whole seconds. -/
def migratedList (now : ℤ) (entry : UserId × List UserSession) : Option (UserId × SessionList) :=
  match (entry.2.map UserSession.expiresAt).max? with
  | none => none
  | some maxExp =>
    let ttl := (maxExp - now) / 1000000
    if 0 < ttl then some (entry.1, ⟨entry.2.map UserSession.jti, now + seconds ttl⟩) else none

/-- `migrate_sessions_pg_to_redis`. -/
def migrateToRedis (table : UserSessions) (keys : SessionKeys) (now : ℤ) : SessionKeys :=
  keys.update ((userMap (table.unexpired now)).entries.filterMap (migratedList now))

/-- The rows that a key becomes: the sessions of its list that the table does not have. -/
def migratedRows (table : UserSessions) (keys : SessionKeys) (now : ℤ) (userId : UserId) :
    List UserSession :=
  match keys.getKey userId now with
  | none => []
  | some jtis =>
    let ttl := keys.ttl userId now
    let expiresAt := now + seconds (if 0 < ttl then ttl else defaultTtlSeconds)
    (jtis.filter fun jti ↦ !table.isSessionActive userId jti now).map fun jti ↦
      ⟨userId, jti, now, expiresAt⟩

/-- `migrate_sessions_redis_to_pg`. The rows are inserted with the commit, which raises when an id
comes twice. -/
def migrateToPostgres (table : UserSessions) (keys : SessionKeys) (now : ℤ) : UserSessions :=
  ((keys.keys.flatMap (migratedRows table keys now)).foldlM UserSessions.insert table).getD table

/-! ### What is migrated to Redis -/

theorem mem_unexpired {table : UserSessions} {now : ℤ} {row : UserSession} :
    row ∈ table.unexpired now ↔ row ∈ table.rows ∧ now < row.expiresAt := by
  rw [UserSessions.unexpired, List.mem_insertionSort, List.mem_filter, decide_eq_true_iff]

/-- The map has the sessions of every user that has one. -/
theorem get?_userMap (sessions : List UserSession) (userId : UserId) :
    (userMap sessions).get? userId =
      if sessions.filter (·.userId = userId) = [] then none
      else some (sessions.filter (·.userId = userId)) := by
  induction sessions using List.reverseRecOn with
  | nil => rfl
  | append_singleton sessions session ih =>
    have hmap : userMap (sessions ++ [session]) = (userMap sessions).set session.userId
        (((userMap sessions).get? session.userId).getD [] ++ [session]) := by
      rw [userMap, List.foldl_concat]
      rfl
    rw [hmap, Dict.get?_set, List.filter_append]
    by_cases hsame : userId = session.userId
    · subst hsame
      have hlast : [session].filter (fun other ↦ decide (other.userId = session.userId)) =
          [session] := by simp
      rw [hlast, if_pos rfl, ih,
        if_neg (List.append_ne_nil_of_right_ne_nil _ (List.cons_ne_nil session []))]
      split
      · rename_i hnone
        rw [hnone, Option.getD_none]
      · rw [Option.getD_some]
    · rw [if_neg hsame, ih]
      have hother : [session].filter (fun session ↦ decide (session.userId = userId)) = [] := by
        simp [Ne.symm hsame]
      rw [hother, List.append_nil]

section ToRedis

variable {table : UserSessions} {keys : SessionKeys} {now : ℤ} {userId : UserId} {jti : SessionId}

/-- The user has a session that lives for a second or more. -/
def UserSessions.Migrates (table : UserSessions) (userId : UserId) (now : ℤ) : Prop :=
  ∃ row ∈ table.rows, row.userId = userId ∧ now + seconds 1 ≤ row.expiresAt

/-- What is written under a key: the sessions of a user, with the time of the last one in whole
seconds, of which there is one at least. -/
theorem mem_writes {value : SessionList} :
    (userId, value) ∈ (userMap (table.unexpired now)).entries.filterMap (migratedList now) ↔
      ∃ maxExp, (((table.unexpired now).filter (·.userId = userId)).map
          UserSession.expiresAt).max? = some maxExp ∧
        0 < (maxExp - now) / 1000000 ∧
        value = ⟨((table.unexpired now).filter (·.userId = userId)).map UserSession.jti,
          now + seconds ((maxExp - now) / 1000000)⟩ := by
  rw [List.mem_filterMap]
  constructor
  · rintro ⟨⟨user, sessions⟩, hmem, hlist⟩
    rw [← Dict.get?_eq_some_iff, get?_userMap, Option.ite_none_left_eq_some] at hmem
    obtain ⟨-, hsessions⟩ := hmem
    rw [Option.some_inj] at hsessions
    rw [migratedList] at hlist
    split at hlist
    · exact absurd hlist.symm (Option.some_ne_none _)
    · rename_i maxExp hmax
      rw [Option.ite_none_right_eq_some] at hlist
      obtain ⟨hpos, hentry⟩ := hlist
      obtain ⟨rfl, rfl⟩ := Prod.mk.inj (Option.some.inj hentry)
      subst hsessions
      exact ⟨maxExp, hmax, hpos, rfl⟩
  · rintro ⟨maxExp, hmax, hpos, hvalue⟩
    refine ⟨(userId, (table.unexpired now).filter (·.userId = userId)), ?_, ?_⟩
    · rw [← Dict.get?_eq_some_iff, get?_userMap, if_neg]
      rintro hnone
      rw [hnone] at hmax
      exact absurd hmax.symm (Option.some_ne_none _)
    · rw [migratedList, hmax]
      exact (if_pos hpos).trans (congrArg (fun value ↦ some (userId, value)) hvalue.symm)

/-- The users whose lists are written. -/
theorem mem_writes_iff :
    userId ∈ ((userMap (table.unexpired now)).entries.filterMap (migratedList now)).map Prod.fst ↔
      table.Migrates userId now := by
  rw [List.mem_map]
  constructor
  · rintro ⟨⟨_, value⟩, hmem, rfl⟩
    obtain ⟨maxExp, hmax, hpos, -⟩ := mem_writes.mp hmem
    obtain ⟨row, hrow, rfl⟩ := List.mem_map.mp (List.max?_mem hmax)
    obtain ⟨hrow, huser⟩ := List.mem_filter.mp hrow
    refine ⟨row, (mem_unexpired.mp hrow).1, of_decide_eq_true huser, ?_⟩
    rw [seconds]
    omega
  · rintro ⟨row, hrow, huser, hlong⟩
    rw [seconds] at hlong
    have hmem : row.expiresAt ∈ ((table.unexpired now).filter (·.userId = userId)).map
        UserSession.expiresAt := by
      refine List.mem_map.mpr ⟨row, List.mem_filter.mpr ⟨?_, decide_eq_true huser⟩, rfl⟩
      exact mem_unexpired.mpr ⟨hrow, by omega⟩
    obtain ⟨maxExp, hmax⟩ := Option.isSome_iff_exists.mp (List.isSome_max?_of_mem hmem)
    have hle : row.expiresAt ≤ maxExp := (List.max?_eq_some_iff.mp hmax).2 _ hmem
    exact ⟨(userId, _), mem_writes.mpr ⟨maxExp, hmax, by omega, rfl⟩, rfl⟩

/-- What is active in Redis after a migration. -/
theorem isSessionActive_migrateToRedis_iff :
    (migrateToRedis table keys now).isSessionActive userId jti now = true ↔
      (table.Migrates userId now ∧ table.isSessionActive userId jti now = true) ∨
        (¬table.Migrates userId now ∧ keys.isSessionActive userId jti now = true) := by
  rw [← mem_writes_iff]
  by_cases hwritten : userId ∈
      ((userMap (table.unexpired now)).entries.filterMap (migratedList now)).map Prod.fst
  · obtain ⟨value, hmem, hget⟩ := Dict.exists_get?_update keys hwritten
    obtain ⟨maxExp, -, hpos, rfl⟩ := mem_writes.mp hmem
    have hkey : (migrateToRedis table keys now).getKey userId now =
        some (((table.unexpired now).filter (·.userId = userId)).map UserSession.jti) := by
      rw [SessionKeys.getKey, migrateToRedis, hget, Option.filter_some, if_pos, Option.map_some]
      have hlonger : now < now + seconds ((maxExp - now) / 1000000) := by
        rw [seconds]
        omega
      exact decide_eq_true hlonger
    rw [SessionKeys.isSessionActive_iff, hkey, UserSessions.isSessionActive_iff]
    simp only [hwritten, not_true_eq_false, false_and, or_false, true_and, Option.some_inj,
      exists_eq_left', List.mem_map, List.mem_filter, mem_unexpired, decide_eq_true_eq]
    constructor
    · rintro ⟨row, ⟨⟨hrow, hlive⟩, huser⟩, hjti⟩
      exact ⟨row, hrow, huser, hjti, hlive⟩
    · rintro ⟨row, hrow, huser, hjti, hlive⟩
      exact ⟨row, ⟨⟨hrow, hlive⟩, huser⟩, hjti⟩
  · have hkey : (migrateToRedis table keys now).getKey userId now = keys.getKey userId now := by
      rw [SessionKeys.getKey, migrateToRedis, Dict.get?_update_of_not_mem keys hwritten]
      rfl
    rw [SessionKeys.isSessionActive, hkey]
    simp [hwritten, SessionKeys.isSessionActive]

end ToRedis

/-! ### What is migrated to PostgreSQL -/

section ToPostgres

variable {table : UserSessions} {keys : SessionKeys} {now : ℤ} {userId : UserId} {jti : SessionId}

/-- Rows that are all inserted stand behind the others. -/
theorem rows_of_foldlM_insert {rows : List UserSession} {inserted : UserSessions}
    (hinsert : rows.foldlM UserSessions.insert table = some inserted) :
    inserted.rows = table.rows ++ rows := by
  induction rows generalizing table with
  | nil =>
    obtain rfl := Option.some.inj hinsert
    exact (List.append_nil _).symm
  | cons row rest ih =>
    rw [List.foldlM_cons] at hinsert
    obtain ⟨next, hnext, hrest⟩ := Option.bind_eq_some_iff.mp hinsert
    rw [ih hrest, (UserSessions.rows_of_insert hnext).2, List.append_assoc, List.singleton_append]

/-- Rows whose ids are all different are all inserted. -/
theorem exists_foldlM_insert {rows : List UserSession}
    (hnodup : ((table.rows ++ rows).map UserSession.jti).Nodup) :
    ∃ inserted, rows.foldlM UserSessions.insert table = some inserted := by
  induction rows generalizing table with
  | nil => exact ⟨table, rfl⟩
  | cons row rest ih =>
    have hfresh : row.jti ∉ table.rows.map UserSession.jti := by
      rw [List.map_append, List.nodup_append] at hnodup
      exact fun hmem ↦ hnodup.2.2 _ hmem _ (List.mem_cons_self ..) rfl
    obtain ⟨next, hnext⟩ : ∃ next, table.insert row = some next :=
      ⟨_, by rw [UserSessions.insert, dif_pos hfresh]⟩
    rw [List.foldlM_cons, hnext]
    refine ih ?_
    rwa [(UserSessions.rows_of_insert hnext).2, List.append_assoc, List.singleton_append]

/-- The rows after a migration: those of before, and rows for sessions in Redis unless it is rolled
back. -/
theorem mem_migrateToPostgres :
    (∀ row ∈ table.rows, row ∈ (migrateToPostgres table keys now).rows) ∧
      ∀ row ∈ (migrateToPostgres table keys now).rows, row ∈ table.rows ∨
        keys.isSessionActive row.userId row.jti now = true := by
  rw [migrateToPostgres]
  cases hinsert : (keys.keys.flatMap (migratedRows table keys now)).foldlM UserSessions.insert
      table with
  | none => exact ⟨fun _ hrow ↦ hrow, fun _ hrow ↦ Or.inl hrow⟩
  | some inserted =>
    rw [Option.getD_some, rows_of_foldlM_insert hinsert]
    refine ⟨fun row hrow ↦ List.mem_append_left _ hrow, fun row hrow ↦ ?_⟩
    refine (List.mem_append.mp hrow).imp_right fun hnew ↦ ?_
    obtain ⟨user, -, hmigrated⟩ := List.mem_flatMap.mp hnew
    rw [migratedRows] at hmigrated
    split at hmigrated
    · exact absurd hmigrated List.not_mem_nil
    · rename_i jtis hget
      obtain ⟨session, hsession, rfl⟩ := List.mem_map.mp hmigrated
      exact SessionKeys.isSessionActive_iff.mpr ⟨jtis, hget, (List.mem_filter.mp hsession).1⟩

/-- A session that is active after a migration was active before in one of the stores. -/
theorem isSessionActive_of_migrateToPostgres
    (hactive : (migrateToPostgres table keys now).isSessionActive userId jti now = true) :
    table.isSessionActive userId jti now = true ∨ keys.isSessionActive userId jti now = true := by
  obtain ⟨row, hrow, rfl, rfl, hlive⟩ := UserSessions.isSessionActive_iff.mp hactive
  refine (mem_migrateToPostgres.2 row hrow).imp_left fun hold ↦ ?_
  exact UserSessions.isSessionActive_iff.mpr ⟨row, hold, rfl, rfl, hlive⟩

/-- A session that is active in PostgreSQL stays active. -/
theorem isSessionActive_migrateToPostgres
    (hactive : table.isSessionActive userId jti now = true) :
    (migrateToPostgres table keys now).isSessionActive userId jti now = true := by
  obtain ⟨row, hrow, huser, hjti, hlive⟩ := UserSessions.isSessionActive_iff.mp hactive
  exact UserSessions.isSessionActive_iff.mpr
    ⟨row, mem_migrateToPostgres.1 row hrow, huser, hjti, hlive⟩

end ToPostgres

/-! ### Initialization -/

/-- The stores, and the driver of a worker. -/
structure DriverState where
  table : UserSessions
  keys : SessionKeys
  driverMode : DriverMode
  deriving DecidableEq

/-- `initialize`, for the `performance_mode` that it reads. Without Redis a worker falls back to
PostgreSQL, and a migration from Redis fails. -/
def DriverState.initializeDrivers (state : DriverState) (redisEnabled redisReachable : Bool)
    (now : ℤ) : DriverState :=
  if redisEnabled ∧ redisReachable then
    { state with
      keys :=
        match state.driverMode with
        | .postgres => migrateToRedis state.table state.keys now
        | .redis => state.keys
      driverMode := .redis }
  else
    { state with
      table :=
        match state.driverMode with
        | .postgres => state.table
        | .redis =>
          if redisReachable then migrateToPostgres state.table state.keys now else state.table
      driverMode := .postgres }

end Lnmp.Sessions
