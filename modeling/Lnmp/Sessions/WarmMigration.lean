import Lnmp.Foundation.Eviction
import Lnmp.Sessions.DriverManager

/-!
# Sessions across a warm migration

What `migrate_sessions_pg_to_redis` and `migrate_sessions_redis_to_pg` (`services/session_store.py`)
leave of the sessions: which are active and until when, and in which order later registrations
evict them (`evictionOrder`, `SessionStore.Registers`).

A key in Redis has one lifetime for all sessions of a user, and the rows that are made of it have
one time of creation. `sessionsPreserved_migrateToRedis_iff` and `sessionsPreserved_iff` say for
which tables nothing is lost on the way to Redis, and on the way there and back.
-/

set_option autoImplicit false
set_option relaxedAutoImplicit false

namespace Lnmp.Sessions

open Lnmp.Foundation Lnmp.Foundation.BoundedQueue Lnmp.Foundation.Eviction

/-! ### The order of eviction -/

/-- The rows of a user that are not expired. -/
def UserSessions.live (table : UserSessions) (userId : UserId) (now : ℤ) : List UserSession :=
  table.rows.filter fun row ↦ row.userId = userId ∧ now < row.expiresAt

/-- The active sessions of a user, the one that is evicted first in front. -/
def SessionStore.evictionOrder (store : SessionStore) (userId : UserId) (now : ℤ) :
    List SessionId :=
  match store with
  | .postgres table => (table.activeIds userId now).reverse
  | .redis keys => (SessionKeys.getKey keys userId now).getD []

/-- A registration that the store takes as a new one: in the table, its id has no row, and the rows
of the user were created before. -/
def SessionStore.Registers (store : SessionStore) (userId : UserId) (jti : SessionId) (now : ℤ) :
    Prop :=
  match store with
  | .postgres table => jti ∉ table.rows.map UserSession.jti ∧
      ∀ row ∈ table.rows, row.userId = userId → row.createdAt < now
  | .redis _ => True

section Order

variable {table : UserSessions} {userId : UserId} {jti : SessionId} {now : ℤ} {row : UserSession}

theorem UserSessions.mem_live :
    row ∈ table.live userId now ↔
      row ∈ table.rows ∧ row.userId = userId ∧ now < row.expiresAt := by
  rw [live, List.mem_filter, decide_eq_true_iff]

theorem UserSessions.nodup_live : ((table.live userId now).map UserSession.jti).Nodup :=
  table.nodup_jtis.sublist (List.filter_sublist.map _)

theorem UserSessions.activeIds_eq :
    table.activeIds userId now =
      (byAge (fun row ↦ OrderDual.toDual row.createdAt) (table.live userId now)).map
        UserSession.jti :=
  rfl

theorem UserSessions.nodup_activeIds : (table.activeIds userId now).Nodup := by
  rw [activeIds_eq]
  exact ((perm_byAge _ _).map UserSession.jti).nodup_iff.mpr nodup_live

theorem UserSessions.mem_activeIds :
    jti ∈ table.activeIds userId now ↔ ∃ row ∈ table.live userId now, row.jti = jti := by
  rw [activeIds_eq, ((perm_byAge _ _).map UserSession.jti).mem_iff, List.mem_map]

theorem UserSessions.isSessionActive_iff_live :
    table.isSessionActive userId jti now = true ↔
      ∃ row ∈ table.live userId now, row.jti = jti := by
  rw [isSessionActive_iff]
  constructor
  · rintro ⟨row, hrow, huser, hjti, hlive⟩
    exact ⟨row, mem_live.mpr ⟨hrow, huser, hlive⟩, hjti⟩
  · rintro ⟨row, hrow, hjti⟩
    obtain ⟨hrow, huser, hlive⟩ := mem_live.mp hrow
    exact ⟨row, hrow, huser, hjti, hlive⟩

theorem SessionKeys.mem_getD_getKey {keys : SessionKeys} :
    jti ∈ (SessionKeys.getKey keys userId now).getD [] ↔
      SessionKeys.isSessionActive keys userId jti now = true := by
  rw [SessionKeys.isSessionActive_iff]
  cases SessionKeys.getKey keys userId now <;> simp

/-- The sessions in the order of eviction are the active ones. -/
theorem SessionStore.mem_evictionOrder {store : SessionStore} :
    jti ∈ store.evictionOrder userId now ↔ store.isSessionActive userId jti now = true := by
  cases store with
  | postgres table =>
    show jti ∈ (table.activeIds userId now).reverse ↔ table.isSessionActive userId jti now = true
    rw [List.mem_reverse, UserSessions.mem_activeIds, UserSessions.isSessionActive_iff_live]
  | redis keys => exact SessionKeys.mem_getD_getKey

/-- A row that is newer than those of its user is the first of the active ones. -/
theorem UserSessions.activeIds_of_insert {inserted : UserSessions}
    (hinsert : table.insert row = some inserted) (hlive : now < row.expiresAt)
    (hnewer : ∀ other ∈ table.live row.userId now, other.createdAt < row.createdAt) :
    inserted.activeIds row.userId now = row.jti :: table.activeIds row.userId now := by
  have hrows : inserted.live row.userId now = table.live row.userId now ++ [row] := by
    rw [live, (rows_of_insert hinsert).2, List.filter_append]
    exact congrArg _ (List.filter_cons_of_pos (decide_eq_true ⟨rfl, hlive⟩))
  rw [activeIds_eq, hrows, byAge_concat _ hnewer]
  rfl

/-- Deleting the ids behind the first ones leaves these. -/
theorem UserSessions.activeIds_keep_drop (count : ℕ) :
    (table.keep fun row ↦ row.jti ∉ (table.activeIds userId now).drop count).activeIds userId
      now = (table.activeIds userId now).take count := by
  have hrows : (table.keep fun row ↦ row.jti ∉ (table.activeIds userId now).drop count).live
      userId now =
        (table.live userId now).filter fun row ↦
          row.jti ∉ (table.activeIds userId now).drop count := by
    rw [live, keep, live, List.filter_comm]
  rw [activeIds_eq, hrows, byAge_filter, ← filter_notMem_drop nodup_activeIds, activeIds_eq,
    List.filter_map]
  rfl

/-- Deleting expired rows of a user does not change the active ones. -/
theorem UserSessions.live_keep_unexpired :
    (table.keep fun row ↦ ¬(row.userId = userId ∧ row.expiresAt ≤ now)).live userId now =
      table.live userId now := by
  rw [live, keep, List.filter_filter]
  refine List.filter_congr fun row _ ↦ ?_
  by_cases huser : row.userId = userId <;> simp [huser]

/-- A registration of a session that is new in the table. -/
theorem UserSessions.activeIds_registerSession {maxSessions : ℕ} {ttlSeconds : ℤ}
    (hlife : now < now + seconds ttlSeconds) (hfresh : jti ∉ table.rows.map UserSession.jti)
    (hnewer : ∀ row ∈ table.rows, row.userId = userId → row.createdAt < now) :
    (table.registerSession userId jti maxSessions ttlSeconds now).activeIds userId now =
      (jti :: table.activeIds userId now).take maxSessions := by
  rw [registerSession]
  split
  · rename_i hnone
    exact absurd ((List.filter_sublist.map _).subset (mem_of_insert_eq_none hnone)) hfresh
  · rename_i inserted hinsert
    have hids := activeIds_of_insert hinsert hlife fun row hrow ↦ by
      rw [live_keep_unexpired] at hrow
      obtain ⟨hrow, huser, -⟩ := mem_live.mp hrow
      exact hnewer row hrow huser
    have hcleaned : (table.keep fun row ↦ ¬(row.userId = userId ∧ row.expiresAt ≤ now)).activeIds
        userId now = table.activeIds userId now := by
      rw [activeIds_eq, live_keep_unexpired, activeIds_eq]
    rw [hcleaned] at hids
    exact (activeIds_keep_drop maxSessions).trans (congrArg (List.take maxSessions) hids)

/-- A registration puts its session behind the others and evicts from the front. -/
theorem SessionStore.evictionOrder_registerSession {store : SessionStore} {maxSessions : ℕ}
    {ttlSeconds : ℤ} (hquota : 0 < maxSessions) (httl : 0 < ttlSeconds)
    (hregisters : store.Registers userId jti now) :
    (store.registerSession userId jti maxSessions ttlSeconds now).evictionOrder userId now =
      push maxSessions (store.evictionOrder userId now) jti := by
  have hlife : now < now + seconds ttlSeconds := by
    rw [seconds]
    omega
  cases store with
  | redis keys =>
    show (SessionKeys.getKey (SessionKeys.registerSession keys userId jti maxSessions ttlSeconds
      now) userId now).getD [] = _
    rw [SessionKeys.registerSession, SessionKeys.getKey_setKey, if_pos rfl, if_pos hlife,
      Option.getD_some, appendSession, if_neg hquota.ne']
    rfl
  | postgres table =>
    obtain ⟨hfresh, hnewer⟩ := hregisters
    show ((table.registerSession userId jti maxSessions ttlSeconds now).activeIds userId
      now).reverse = push maxSessions (table.activeIds userId now).reverse jti
    rw [UserSessions.activeIds_registerSession hlife hfresh hnewer, push,
      List.rtake_eq_reverse_take_reverse, List.reverse_append, List.reverse_reverse]
    rfl

end Order

/-! ### Lists in Redis -/

/-- The seconds that a session has left, in whole. -/
def UserSession.wholeSeconds (row : UserSession) (now : ℤ) : ℤ := (row.expiresAt - now) / 1000000

/-- When a key expires that is written with the time that a session has left. -/
def UserSession.listedUntil (row : UserSession) (now : ℤ) : ℤ :=
  now + seconds (row.wholeSeconds now)

/-- The sessions of a user that are migrated, in the order of their creation. -/
def UserSessions.oldestIds (table : UserSessions) (userId : UserId) (now : ℤ) : List SessionId :=
  (byAge UserSession.createdAt (table.live userId now)).map UserSession.jti

section ToRedis

variable {table : UserSessions} {userId : UserId} {jti : SessionId} {start time : ℤ}
  {row : UserSession}

theorem UserSession.listedUntil_le : row.listedUntil start ≤ row.expiresAt := by
  rw [listedUntil, wholeSeconds, seconds]
  omega

/-- A session that expires later is listed as long or longer. -/
theorem UserSession.listedUntil_mono {other : UserSession} (hle : row.expiresAt ≤ other.expiresAt) :
    row.listedUntil start ≤ other.listedUntil start := by
  rw [listedUntil, listedUntil, wholeSeconds, wholeSeconds, seconds, seconds]
  omega

theorem UserSession.listedUntil_eq_iff {other : UserSession} :
    row.listedUntil start = other.listedUntil start ↔
      row.wholeSeconds start = other.wholeSeconds start := by
  rw [listedUntil, listedUntil, seconds, seconds]
  omega

theorem UserSession.lt_listedUntil_iff :
    start < row.listedUntil start ↔ 0 < row.wholeSeconds start := by
  rw [listedUntil, seconds]
  omega

theorem UserSessions.nodup_oldestIds : (table.oldestIds userId start).Nodup :=
  ((perm_byAge _ _).map UserSession.jti).nodup_iff.mpr nodup_live

theorem UserSessions.mem_oldestIds :
    jti ∈ table.oldestIds userId start ↔ ∃ row ∈ table.live userId start, row.jti = jti := by
  rw [oldestIds, ((perm_byAge _ _).map UserSession.jti).mem_iff, List.mem_map]

/-- The unexpired sessions of a user, in the order in which they are migrated. -/
theorem UserSessions.filter_unexpired :
    (table.unexpired start).filter (·.userId = userId) =
      byAge UserSession.createdAt (table.live userId start) := by
  have hsplit : table.live userId start =
      (table.rows.filter fun row ↦ start < row.expiresAt).filter (·.userId = userId) := by
    rw [live, List.filter_filter]
    exact List.filter_congr fun row _ ↦ by simp
  rw [hsplit, byAge_filter]
  rfl

/-- The key of a user after the migration. -/
theorem get?_migrateToRedis {value : SessionList} :
    (migrateToRedis table Dict.empty start).get? userId = some value ↔
      ∃ last ∈ table.live userId start,
        (∀ row ∈ table.live userId start, row.expiresAt ≤ last.expiresAt) ∧
        0 < last.wholeSeconds start ∧
        value = ⟨table.oldestIds userId start, last.listedUntil start⟩ := by
  have hwrites : ∀ value, (userId, value) ∈
      (userMap (table.unexpired start)).entries.filterMap (migratedList start) ↔
        ∃ last ∈ table.live userId start,
          (∀ row ∈ table.live userId start, row.expiresAt ≤ last.expiresAt) ∧
          0 < last.wholeSeconds start ∧
          value = ⟨table.oldestIds userId start, last.listedUntil start⟩ := by
    intro value
    rw [mem_writes, UserSessions.filter_unexpired]
    constructor
    · rintro ⟨maxExp, hmax, hpos, rfl⟩
      obtain ⟨hmem, hle⟩ := List.max?_eq_some_iff.mp hmax
      obtain ⟨last, hlast, rfl⟩ := List.mem_map.mp hmem
      refine ⟨last, (perm_byAge _ _).mem_iff.mp hlast, fun row hrow ↦ ?_, hpos, rfl⟩
      exact hle _ (List.mem_map_of_mem ((perm_byAge _ _).mem_iff.mpr hrow))
    · rintro ⟨last, hlast, hle, hpos, rfl⟩
      refine ⟨last.expiresAt, List.max?_eq_some_iff.mpr ⟨?_, ?_⟩, hpos, rfl⟩
      · exact List.mem_map_of_mem ((perm_byAge _ _).mem_iff.mpr hlast)
      · intro expiresAt hmem
        obtain ⟨row, hrow, rfl⟩ := List.mem_map.mp hmem
        exact hle row ((perm_byAge _ _).mem_iff.mp hrow)
  by_cases hwritten : userId ∈
      ((userMap (table.unexpired start)).entries.filterMap (migratedList start)).map Prod.fst
  · obtain ⟨found, hmem, hget⟩ := Dict.exists_get?_update Dict.empty hwritten
    rw [migrateToRedis, hget, Option.some_inj]
    rw [hwrites] at hmem
    constructor
    · rintro rfl
      exact hmem
    · -- two sessions that expire last expire together
      rintro ⟨last, hlast, hle, -, rfl⟩
      obtain ⟨other, hother, hotherLe, -, rfl⟩ := hmem
      have hsame : other.expiresAt = last.expiresAt :=
        le_antisymm (hle other hother) (hotherLe last hlast)
      rw [UserSession.listedUntil, UserSession.listedUntil, UserSession.wholeSeconds,
        UserSession.wholeSeconds, hsame]
  · rw [migrateToRedis, Dict.get?_update_of_not_mem Dict.empty hwritten, Dict.get?_empty]
    refine iff_of_false (Option.some_ne_none value).symm fun hexists ↦ hwritten ?_
    exact List.mem_map.mpr ⟨(userId, value), (hwrites value).mpr hexists, rfl⟩

/-- The list of a user in Redis: all sessions that were not expired, for as long as one of them
would be listed. -/
theorem getKey_migrateToRedis (htime : start ≤ time) {sessions : List SessionId} :
    SessionKeys.getKey (migrateToRedis table Dict.empty start) userId time = some sessions ↔
      sessions = table.oldestIds userId start ∧
        ∃ row ∈ table.live userId start, time < row.listedUntil start := by
  rw [SessionKeys.getKey, Option.map_eq_some_iff]
  constructor
  · rintro ⟨value, hvalue, rfl⟩
    obtain ⟨hget, hlive⟩ := Option.filter_eq_some_iff.mp hvalue
    obtain ⟨last, hlast, -, -, rfl⟩ := get?_migrateToRedis.mp hget
    exact ⟨rfl, last, hlast, of_decide_eq_true hlive⟩
  · rintro ⟨rfl, row, hrow, hlisted⟩
    -- the session that expires last is listed longest
    obtain ⟨maxExp, hmax⟩ := Option.isSome_iff_exists.mp
      (List.isSome_max?_of_mem (List.mem_map_of_mem (f := UserSession.expiresAt) hrow))
    obtain ⟨hmem, hle⟩ := List.max?_eq_some_iff.mp hmax
    obtain ⟨last, hlast, rfl⟩ := List.mem_map.mp hmem
    have hrest : ∀ row ∈ table.live userId start, row.expiresAt ≤ last.expiresAt :=
      fun row hrow ↦ hle _ (List.mem_map_of_mem hrow)
    have hlong : time < last.listedUntil start :=
      hlisted.trans_le (UserSession.listedUntil_mono (hrest row hrow))
    have hpos := UserSession.lt_listedUntil_iff.mp (htime.trans_lt hlong)
    refine ⟨⟨table.oldestIds userId start, last.listedUntil start⟩, ?_, rfl⟩
    rw [get?_migrateToRedis.mpr ⟨last, hlast, hrest, hpos, rfl⟩, Option.filter_some,
      if_pos (decide_eq_true hlong)]

/-- A session is active in Redis for as long as one of the user is listed. -/
theorem isSessionActive_migrateToRedis (htime : start ≤ time) :
    SessionKeys.isSessionActive (migrateToRedis table Dict.empty start) userId jti time = true ↔
      jti ∈ table.oldestIds userId start ∧
        ∃ row ∈ table.live userId start, time < row.listedUntil start := by
  rw [SessionKeys.isSessionActive_iff]
  simp only [getKey_migrateToRedis htime]
  constructor
  · rintro ⟨_, ⟨rfl, hlisted⟩, hjti⟩
    exact ⟨hjti, hlisted⟩
  · rintro ⟨hjti, hlisted⟩
    exact ⟨_, ⟨rfl, hlisted⟩, hjti⟩

end ToRedis

/-! ### Migrating to Redis -/

/-- What a migration at a time should keep: which sessions of which user are active, that none is
active for longer, and the order of eviction. -/
structure SessionsPreserved (before after : SessionStore) (now : ℤ) : Prop where
  active : ∀ userId jti, after.isSessionActive userId jti now = true ↔
    before.isSessionActive userId jti now = true
  lifetime : ∀ userId jti time, now ≤ time → after.isSessionActive userId jti time = true →
    before.isSessionActive userId jti time = true
  eviction : ∀ userId, after.evictionOrder userId now = before.evictionOrder userId now

/-- The unexpired sessions fit the keys of Redis: each has a whole second left, those of one user
have the same number of whole seconds left, and no two of them were created at one time. -/
structure UserSessions.FitsKeys (table : UserSessions) (start : ℤ) : Prop where
  lasting : ∀ row ∈ table.unexpired start, 0 < row.wholeSeconds start
  together : ∀ first ∈ table.unexpired start, ∀ second ∈ table.unexpired start,
    first.userId = second.userId → first.wholeSeconds start = second.wholeSeconds start
  ordered : ∀ first ∈ table.unexpired start, ∀ second ∈ table.unexpired start,
    first.userId = second.userId → first.createdAt = second.createdAt → first = second

section Preserved

variable {table : UserSessions} {userId : UserId} {jti : SessionId} {start back time : ℤ}
  {row other : UserSession}

theorem UserSessions.mem_unexpired_of_live (hrow : row ∈ table.live userId start) :
    row ∈ table.unexpired start ∧ row.userId = userId := by
  obtain ⟨hrow, huser, hlive⟩ := mem_live.mp hrow
  exact ⟨mem_unexpired.mpr ⟨hrow, hlive⟩, huser⟩

theorem UserSessions.mem_live_of_unexpired (hrow : row ∈ table.unexpired start) :
    row ∈ table.live row.userId start := by
  obtain ⟨hrow, hlive⟩ := mem_unexpired.mp hrow
  exact mem_live.mpr ⟨hrow, rfl, hlive⟩

/-- All sessions of a user are listed as long as each of them. -/
theorem UserSessions.FitsKeys.listedUntil_eq (hfits : table.FitsKeys start)
    (hrow : row ∈ table.live userId start) (hother : other ∈ table.live userId start) :
    row.listedUntil start = other.listedUntil start := by
  obtain ⟨hrow, huser⟩ := mem_unexpired_of_live hrow
  obtain ⟨hother, hotherUser⟩ := mem_unexpired_of_live hother
  exact UserSession.listedUntil_eq_iff.mpr
    (hfits.together row hrow other hother (huser.trans hotherUser.symm))

/-- A session expires with its row. -/
theorem UserSessions.not_isSessionActive_expiresAt (userId : UserId) (hrow : row ∈ table.rows) :
    ¬table.isSessionActive userId row.jti row.expiresAt = true := by
  intro hactive
  obtain ⟨other, hother, -, hjti, hlive⟩ := isSessionActive_iff.mp hactive
  rw [List.inj_on_of_nodup_map table.nodup_jtis hother hrow hjti] at hlive
  exact absurd hlive (lt_irrefl _)

/-- The orders of eviction of the two drivers are the same when no two rows were created at one
time. -/
theorem UserSessions.reverse_activeIds_iff :
    (table.activeIds userId start).reverse = table.oldestIds userId start ↔
      ∀ first ∈ table.live userId start, ∀ second ∈ table.live userId start,
        first.createdAt = second.createdAt → first = second := by
  rw [activeIds_eq, oldestIds,
    reverse_byAge_toDual_iff UserSession.createdAt UserSession.jti nodup_live]
  constructor
  · intro hdistinct first hfirst second hsecond hcreated
    exact List.inj_on_of_nodup_map (List.pairwise_map.mpr hdistinct) hfirst hsecond hcreated
  · intro hdistinct
    refine nodup_live.of_map.pairwise_of_forall_ne fun first hfirst second hsecond hne hcreated ↦ ?_
    exact hne (hdistinct first hfirst second hsecond hcreated)

/-- When the migration to Redis keeps the sessions, each one is listed, and no other one of the user
is for longer than it lives. -/
theorem listedUntil_le_of_sessionsPreserved
    (hpreserved : SessionsPreserved (.postgres table)
      (.redis (migrateToRedis table Dict.empty start)) start)
    (hrow : row ∈ table.unexpired start) :
    start < row.listedUntil start ∧
      ∀ other ∈ table.live row.userId start, other.listedUntil start ≤ row.expiresAt := by
  obtain ⟨hmem, hlive⟩ := mem_unexpired.mp hrow
  have hactive : SessionKeys.isSessionActive (migrateToRedis table Dict.empty start) row.userId
      row.jti start = true :=
    (hpreserved.active row.userId row.jti).mpr
      (UserSessions.isSessionActive_iff.mpr ⟨row, hmem, rfl, rfl, hlive⟩)
  obtain ⟨hjti, last, hlast, hlisted⟩ := (isSessionActive_migrateToRedis le_rfl).mp hactive
  have hothers : ∀ other ∈ table.live row.userId start,
      other.listedUntil start ≤ row.expiresAt := by
    intro other hother
    by_contra hlonger
    refine UserSessions.not_isSessionActive_expiresAt row.userId hmem
      (hpreserved.lifetime row.userId row.jti row.expiresAt hlive.le ?_)
    exact (isSessionActive_migrateToRedis hlive.le).mpr ⟨hjti, other, hother, not_le.mp hlonger⟩
  refine ⟨?_, hothers⟩
  have hle := hothers last hlast
  rw [UserSession.listedUntil, UserSession.wholeSeconds, seconds] at hle hlisted ⊢
  omega

/-- When the migration to Redis keeps the sessions, they fit the keys. -/
theorem fitsKeys_of_sessionsPreserved
    (hpreserved : SessionsPreserved (.postgres table)
      (.redis (migrateToRedis table Dict.empty start)) start) : table.FitsKeys start := by
  have hle : ∀ row ∈ table.unexpired start, ∀ other ∈ table.unexpired start,
      row.userId = other.userId → other.wholeSeconds start ≤ row.wholeSeconds start := by
    intro row hrow other hother huser
    have hlisted := (listedUntil_le_of_sessionsPreserved hpreserved hrow).2 other
      (huser ▸ UserSessions.mem_live_of_unexpired hother)
    rw [UserSession.listedUntil, UserSession.wholeSeconds, seconds] at hlisted
    rw [UserSession.wholeSeconds, UserSession.wholeSeconds]
    omega
  refine ⟨fun row hrow ↦ ?_, fun first hfirst second hsecond huser ↦ ?_,
    fun first hfirst second hsecond huser hcreated ↦ ?_⟩
  · exact UserSession.lt_listedUntil_iff.mp (listedUntil_le_of_sessionsPreserved hpreserved hrow).1
  · exact le_antisymm (hle second hsecond first hfirst huser.symm)
      (hle first hfirst second hsecond huser)
  · have hlive := UserSessions.mem_live_of_unexpired hfirst
    have hlist : SessionKeys.getKey (migrateToRedis table Dict.empty start) first.userId start =
        some (table.oldestIds first.userId start) :=
      (getKey_migrateToRedis le_rfl).mpr
        ⟨rfl, first, hlive, (listedUntil_le_of_sessionsPreserved hpreserved hfirst).1⟩
    have horder := (hpreserved.eviction first.userId).symm
    simp only [SessionStore.evictionOrder] at horder
    rw [hlist, Option.getD_some, UserSessions.reverse_activeIds_iff] at horder
    exact horder first hlive second (huser ▸ UserSessions.mem_live_of_unexpired hsecond) hcreated

/-- In a table that fits the keys the order of eviction is that of the creation. -/
theorem UserSessions.FitsKeys.reverse_activeIds (hfits : table.FitsKeys start) :
    (table.activeIds userId start).reverse = table.oldestIds userId start := by
  rw [reverse_activeIds_iff]
  intro first hfirst second hsecond hcreated
  obtain ⟨hfirst, huser⟩ := mem_unexpired_of_live hfirst
  obtain ⟨hsecond, hsecondUser⟩ := mem_unexpired_of_live hsecond
  exact hfits.ordered first hfirst second hsecond (huser.trans hsecondUser.symm) hcreated

/-- The migration to Redis keeps the sessions exactly when they fit the keys. -/
theorem sessionsPreserved_migrateToRedis_iff :
    SessionsPreserved (.postgres table) (.redis (migrateToRedis table Dict.empty start)) start ↔
      table.FitsKeys start := by
  refine ⟨fitsKeys_of_sessionsPreserved, fun hfits ↦ ?_⟩
  have hlisted : ∀ userId, ∀ row ∈ table.live userId start, start < row.listedUntil start :=
    fun userId row hrow ↦ UserSession.lt_listedUntil_iff.mpr
      (hfits.lasting row (UserSessions.mem_unexpired_of_live hrow).1)
  refine ⟨fun userId jti ↦ ?_, fun userId jti time htime hactive ↦ ?_, fun userId ↦ ?_⟩
  · refine (isSessionActive_migrateToRedis le_rfl).trans
      (Iff.trans ?_ UserSessions.isSessionActive_iff_live.symm)
    rw [UserSessions.mem_oldestIds]
    constructor
    · exact And.left
    · rintro ⟨row, hrow, hjti⟩
      exact ⟨⟨row, hrow, hjti⟩, row, hrow, hlisted userId row hrow⟩
  · obtain ⟨hjti, other, hother, hlater⟩ := (isSessionActive_migrateToRedis htime).mp hactive
    obtain ⟨row, hrow, hjti⟩ := UserSessions.mem_oldestIds.mp hjti
    obtain ⟨hmem, huser, -⟩ := UserSessions.mem_live.mp hrow
    refine UserSessions.isSessionActive_iff.mpr ⟨row, hmem, huser, hjti, ?_⟩
    rw [hfits.listedUntil_eq hother hrow] at hlater
    exact hlater.trans_le UserSession.listedUntil_le
  · show (SessionKeys.getKey (migrateToRedis table Dict.empty start) userId start).getD [] =
      (table.activeIds userId start).reverse
    rw [hfits.reverse_activeIds]
    cases hkey : SessionKeys.getKey (migrateToRedis table Dict.empty start) userId start with
    | some sessions => exact ((getKey_migrateToRedis le_rfl).mp hkey).1
    | none =>
      refine (List.eq_nil_iff_forall_not_mem.mpr fun jti hjti ↦ ?_).symm
      obtain ⟨row, hrow, -⟩ := UserSessions.mem_oldestIds.mp hjti
      have hsome : SessionKeys.getKey (migrateToRedis table Dict.empty start) userId start =
          some (table.oldestIds userId start) :=
        (getKey_migrateToRedis le_rfl).mpr ⟨rfl, row, hrow, hlisted userId row hrow⟩
      exact absurd (hkey.symm.trans hsome) (Option.some_ne_none _).symm

end Preserved

/-! ### Migrating to Redis and back -/

/-- The table after a migration to Redis without sessions and one back to a table without rows. -/
def UserSessions.roundTrip (table : UserSessions) (start back : ℤ) : UserSessions :=
  migrateToPostgres UserSessions.empty (migrateToRedis table Dict.empty start) back

/-- `ttl_sec`: the seconds of a row that is made of a key with some time left. -/
def renewedSeconds (remaining : ℤ) : ℤ :=
  let ttl := (remaining + 500000) / 1000000
  if 0 < ttl then ttl else defaultTtlSeconds

/-- The unexpired sessions come back as they were: they fit the keys, a user whose key is still
there has one session only, and a session expires before the second migration, or is listed then
and expires with the seconds that are left of the key or later. -/
structure UserSessions.RoundTripSafe (table : UserSessions) (start back : ℤ) : Prop extends
    table.FitsKeys start where
  alone : ∀ first ∈ table.unexpired start, ∀ second ∈ table.unexpired start,
    first.userId = second.userId → back < first.listedUntil start → first = second
  kept : ∀ row ∈ table.unexpired start, row.expiresAt ≤ back ∨
    back < row.listedUntil start ∧
      back + seconds (renewedSeconds (row.listedUntil start - back)) ≤ row.expiresAt

section RoundTrip

variable {table : UserSessions} {userId : UserId} {jti : SessionId} {start back time : ℤ}
  {row other : UserSession}

theorem renewedSeconds_pos (remaining : ℤ) : 0 < renewedSeconds remaining := by
  rw [renewedSeconds]
  split
  · assumption
  · exact defaultTtlSeconds_pos

/-- The rows of a key: one for each session of the list. -/
theorem migratedRows_empty {keys : SessionKeys} {sessions : List SessionId}
    (hkey : SessionKeys.getKey keys userId back = some sessions) :
    migratedRows UserSessions.empty keys back userId = sessions.map fun jti ↦
      ⟨userId, jti, back, back + seconds (if 0 < SessionKeys.ttl keys userId back
        then SessionKeys.ttl keys userId back else defaultTtlSeconds)⟩ := by
  rw [migratedRows, hkey]
  refine congrArg (List.map _) (List.filter_eq_self.mpr fun jti _ ↦ ?_)
  rfl

theorem migratedRows_of_none {keys : SessionKeys}
    (hkey : SessionKeys.getKey keys userId back = none) :
    migratedRows UserSessions.empty keys back userId = [] := by
  rw [migratedRows, hkey]

theorem map_jti_migratedRows {keys : SessionKeys} :
    (migratedRows UserSessions.empty keys back userId).map UserSession.jti =
      (SessionKeys.getKey keys userId back).getD [] := by
  cases hkey : SessionKeys.getKey keys userId back with
  | none =>
    rw [migratedRows_of_none hkey]
    rfl
  | some sessions =>
    rw [migratedRows_empty hkey, List.map_map]
    exact List.map_id sessions

theorem userId_of_migratedRows {keys : SessionKeys}
    (hrow : row ∈ migratedRows UserSessions.empty keys back userId) : row.userId = userId := by
  cases hkey : SessionKeys.getKey keys userId back with
  | none => exact absurd (migratedRows_of_none hkey ▸ hrow) List.not_mem_nil
  | some sessions =>
    rw [migratedRows_empty hkey] at hrow
    obtain ⟨jti, -, rfl⟩ := List.mem_map.mp hrow
    rfl

/-- All rows of the keys are inserted, since no two sessions have one id. -/
theorem rows_roundTrip (hback : start ≤ back) :
    (table.roundTrip start back).rows =
      (migrateToRedis table Dict.empty start).keys.flatMap
        (migratedRows UserSessions.empty (migrateToRedis table Dict.empty start) back) := by
  have hids : ∀ {userId jti}, jti ∈
      (migratedRows UserSessions.empty (migrateToRedis table Dict.empty start) back userId).map
        UserSession.jti → jti ∈ table.oldestIds userId start := by
    intro userId jti hjti
    rw [map_jti_migratedRows, SessionKeys.mem_getD_getKey] at hjti
    exact ((isSessionActive_migrateToRedis hback).mp hjti).1
  have hnodup : ((UserSessions.empty.rows ++
      (migrateToRedis table Dict.empty start).keys.flatMap (migratedRows UserSessions.empty
        (migrateToRedis table Dict.empty start) back)).map UserSession.jti).Nodup := by
    show (((migrateToRedis table Dict.empty start).keys.flatMap (migratedRows UserSessions.empty
      (migrateToRedis table Dict.empty start) back)).map UserSession.jti).Nodup
    rw [List.map_flatMap, List.nodup_flatMap]
    constructor
    · intro userId _
      rw [map_jti_migratedRows]
      cases hkey : SessionKeys.getKey (migrateToRedis table Dict.empty start) userId back with
      | none => exact List.nodup_nil
      | some sessions =>
        rw [((getKey_migrateToRedis hback).mp hkey).1]
        exact UserSessions.nodup_oldestIds
    · refine (migrateToRedis table Dict.empty start).nodup_keys.imp
        fun {first second} hne jti hfirst hsecond ↦ hne ?_
      obtain ⟨row, hrow, hjti⟩ := UserSessions.mem_oldestIds.mp (hids hfirst)
      obtain ⟨other, hother, hotherJti⟩ := UserSessions.mem_oldestIds.mp (hids hsecond)
      obtain ⟨hrow, huser, -⟩ := UserSessions.mem_live.mp hrow
      obtain ⟨hother, hotherUser, -⟩ := UserSessions.mem_live.mp hother
      have hsame := List.inj_on_of_nodup_map table.nodup_jtis hrow hother
        (hjti.trans hotherJti.symm)
      rw [← huser, ← hotherUser, hsame]
  obtain ⟨inserted, hinsert⟩ := exists_foldlM_insert hnodup
  rw [UserSessions.roundTrip, migrateToPostgres, hinsert, Option.getD_some,
    rows_of_foldlM_insert hinsert]
  rfl

/-- The rows of a user are those of the key. -/
theorem filter_rows_roundTrip (hback : start ≤ back) :
    (table.roundTrip start back).rows.filter (·.userId = userId) =
      migratedRows UserSessions.empty (migrateToRedis table Dict.empty start) back userId := by
  have hkeys : ∀ keys : List UserId, keys.Nodup →
      (keys.flatMap (migratedRows UserSessions.empty (migrateToRedis table Dict.empty start)
        back)).filter (·.userId = userId) =
          if userId ∈ keys then migratedRows UserSessions.empty
            (migrateToRedis table Dict.empty start) back userId else [] := by
    intro keys hnodup
    induction keys with
    | nil => rfl
    | cons first rest ih =>
      obtain ⟨hfirst, hrest⟩ := List.nodup_cons.mp hnodup
      rw [List.flatMap_cons, List.filter_append, ih hrest]
      by_cases huser : first = userId
      · subst huser
        rw [if_neg hfirst, if_pos (List.mem_cons_self ..), List.append_nil]
        exact List.filter_eq_self.mpr fun row hrow ↦ decide_eq_true (userId_of_migratedRows hrow)
      · have hnone : (migratedRows UserSessions.empty (migrateToRedis table Dict.empty start) back
            first).filter (·.userId = userId) = [] := by
          refine List.filter_eq_nil_iff.mpr fun row hrow hsame ↦ huser ?_
          exact (userId_of_migratedRows hrow).symm.trans (of_decide_eq_true hsame)
        rw [hnone, List.nil_append]
        exact if_congr (by simp [Ne.symm huser]) rfl rfl
  rw [rows_roundTrip hback]
  refine (hkeys _ (migrateToRedis table Dict.empty start).nodup_keys).trans ?_
  split
  · rfl
  · rename_i hmissing
    refine (migratedRows_of_none ?_).symm
    rw [SessionKeys.getKey, (Dict.get?_eq_none_iff _ _).mpr hmissing]
    rfl

/-- The rows of a user whose key is there: one for each session, with the lifetime that the key has
left. -/
theorem migratedRows_migrateToRedis (hfits : table.FitsKeys start) (hback : start ≤ back)
    (hrow : row ∈ table.live userId start) (hlisted : back < row.listedUntil start) :
    migratedRows UserSessions.empty (migrateToRedis table Dict.empty start) back userId =
      (table.oldestIds userId start).map fun jti ↦
        ⟨userId, jti, back, back + seconds (renewedSeconds (row.listedUntil start - back))⟩ := by
  have hkey : SessionKeys.getKey (migrateToRedis table Dict.empty start) userId back =
      some (table.oldestIds userId start) :=
    (getKey_migrateToRedis hback).mpr ⟨rfl, row, hrow, hlisted⟩
  have httl : SessionKeys.ttl (migrateToRedis table Dict.empty start) userId back =
      (row.listedUntil start - back + 500000) / 1000000 := by
    obtain ⟨value, hvalue, -⟩ := Option.map_eq_some_iff.mp hkey
    obtain ⟨last, hlast, -, -, rfl⟩ :=
      get?_migrateToRedis.mp (Option.filter_eq_some_iff.mp hvalue).1
    rw [SessionKeys.ttl, hvalue, hfits.listedUntil_eq hrow hlast]
  rw [migratedRows_empty hkey, httl]
  rfl

/-- A session is active after the round trip when its key was there at the second migration, and
until the lifetime of the key ends that is counted from then on. -/
theorem isSessionActive_roundTrip (hfits : table.FitsKeys start) (hback : start ≤ back) :
    (table.roundTrip start back).isSessionActive userId jti time = true ↔
      ∃ row ∈ table.live userId start, row.jti = jti ∧ back < row.listedUntil start ∧
        time < back + seconds (renewedSeconds (row.listedUntil start - back)) := by
  have hrows : (table.roundTrip start back).isSessionActive userId jti time = true ↔
      ∃ row ∈ migratedRows UserSessions.empty (migrateToRedis table Dict.empty start) back userId,
        row.jti = jti ∧ time < row.expiresAt := by
    rw [UserSessions.isSessionActive_iff, ← filter_rows_roundTrip hback]
    simp only [List.mem_filter, decide_eq_true_eq, and_assoc]
  rw [hrows]
  constructor
  · rintro ⟨row, hrow, hjti, hlive⟩
    cases hkey : SessionKeys.getKey (migrateToRedis table Dict.empty start) userId back with
    | none => exact absurd (migratedRows_of_none hkey ▸ hrow) List.not_mem_nil
    | some sessions =>
      obtain ⟨-, last, hlast, hlisted⟩ := (getKey_migrateToRedis hback).mp hkey
      rw [migratedRows_migrateToRedis hfits hback hlast hlisted] at hrow
      obtain ⟨session, hsession, rfl⟩ := List.mem_map.mp hrow
      obtain ⟨other, hother, hotherJti⟩ := UserSessions.mem_oldestIds.mp hsession
      have hsame := hfits.listedUntil_eq hlast hother
      exact ⟨other, hother, hotherJti.trans hjti, hsame ▸ hlisted, hsame ▸ hlive⟩
  · rintro ⟨row, hrow, hjti, hlisted, hlive⟩
    rw [migratedRows_migrateToRedis hfits hback hrow hlisted]
    refine ⟨_, List.mem_map_of_mem (UserSessions.mem_oldestIds.mpr ⟨row, hrow, hjti⟩), rfl, hlive⟩

/-- The sessions of a user whose key is there are evicted in the reverse order, since their rows
were all created at one time. -/
theorem activeIds_roundTrip (hfits : table.FitsKeys start) (hback : start ≤ back)
    (hrow : row ∈ table.live userId start) (hlisted : back < row.listedUntil start) :
    (table.roundTrip start back).activeIds userId back = table.oldestIds userId start := by
  have hlive : (table.roundTrip start back).live userId back =
      migratedRows UserSessions.empty (migrateToRedis table Dict.empty start) back userId := by
    have hsplit : (table.roundTrip start back).live userId back =
        ((table.roundTrip start back).rows.filter (·.userId = userId)).filter
          fun row ↦ back < row.expiresAt := by
      rw [UserSessions.live, List.filter_filter]
      exact List.filter_congr fun row _ ↦ by simp [and_comm]
    rw [hsplit, filter_rows_roundTrip hback, List.filter_eq_self]
    intro row hmigrated
    rw [migratedRows_migrateToRedis hfits hback hrow hlisted] at hmigrated
    obtain ⟨jti, -, rfl⟩ := List.mem_map.mp hmigrated
    have hpos := renewedSeconds_pos (row.listedUntil start - back)
    refine decide_eq_true ?_
    show back < back + seconds (renewedSeconds (row.listedUntil start - back))
    rw [seconds]
    omega
  rw [UserSessions.activeIds_eq, hlive, byAge_eq_self, map_jti_migratedRows,
    (getKey_migrateToRedis hback).mpr ⟨rfl, row, hrow, hlisted⟩, Option.getD_some]
  rw [migratedRows_migrateToRedis hfits hback hrow hlisted, List.pairwise_map]
  exact List.pairwise_of_forall fun _ _ ↦ le_rfl

/-- While no session of a user expires, the same ones are live. -/
theorem UserSessions.live_eq (hback : start ≤ back)
    (hlast : ∀ row ∈ table.live userId start, back < row.expiresAt) :
    table.live userId back = table.live userId start := by
  refine List.filter_congr fun row hrow ↦ decide_eq_decide.mpr ?_
  refine and_congr_right fun huser ↦ ⟨hback.trans_lt, fun hlive ↦ ?_⟩
  exact hlast row (mem_live.mpr ⟨hrow, huser, hlive⟩)

/-- When the round trip keeps the sessions, a user whose key is still there has one session only:
the order of eviction was that of the creation, and is the reverse of it. -/
theorem alone_of_sessionsPreserved (hfits : table.FitsKeys start) (hback : start ≤ back)
    (hpreserved : SessionsPreserved (.postgres table) (.postgres (table.roundTrip start back)) back)
    (hrow : row ∈ table.live userId start) (hother : other ∈ table.live userId start)
    (hlisted : back < row.listedUntil start) : row = other := by
  have hstill : table.live userId back = table.live userId start := by
    refine UserSessions.live_eq hback fun third hthird ↦ ?_
    rw [hfits.listedUntil_eq hrow hthird] at hlisted
    exact hlisted.trans_le UserSession.listedUntil_le
  have hbefore : (table.activeIds userId back).reverse = table.oldestIds userId start := by
    rw [UserSessions.activeIds_eq, hstill]
    exact hfits.reverse_activeIds
  have horder := hpreserved.eviction userId
  simp only [SessionStore.evictionOrder] at horder
  rw [activeIds_roundTrip hfits hback hrow hlisted, hbefore] at horder
  have hjti : row.jti = other.jti :=
    eq_of_reverse_eq UserSessions.nodup_oldestIds horder
      (UserSessions.mem_oldestIds.mpr ⟨row, hrow, rfl⟩)
      (UserSessions.mem_oldestIds.mpr ⟨other, hother, rfl⟩)
  exact List.inj_on_of_nodup_map table.nodup_jtis (UserSessions.mem_live.mp hrow).1
    (UserSessions.mem_live.mp hother).1 hjti

/-- When the round trip keeps the sessions, one that is not expired by then is listed, and its new
row does not outlive it. -/
theorem kept_of_sessionsPreserved (hfits : table.FitsKeys start) (hback : start ≤ back)
    (hpreserved : SessionsPreserved (.postgres table) (.postgres (table.roundTrip start back)) back)
    (hrow : row ∈ table.rows) (hlive : back < row.expiresAt) :
    back < row.listedUntil start ∧
      back + seconds (renewedSeconds (row.listedUntil start - back)) ≤ row.expiresAt := by
  have hactive : (table.roundTrip start back).isSessionActive row.userId row.jti back = true :=
    (hpreserved.active row.userId row.jti).mpr
      (UserSessions.isSessionActive_iff.mpr ⟨row, hrow, rfl, rfl, hlive⟩)
  obtain ⟨other, hother, hjti, hlisted, -⟩ := (isSessionActive_roundTrip hfits hback).mp hactive
  obtain rfl := List.inj_on_of_nodup_map table.nodup_jtis (UserSessions.mem_live.mp hother).1
    hrow hjti
  refine ⟨hlisted, ?_⟩
  by_contra hlonger
  refine UserSessions.not_isSessionActive_expiresAt other.userId hrow
    (hpreserved.lifetime other.userId other.jti other.expiresAt hlive.le ?_)
  exact (isSessionActive_roundTrip hfits hback).mpr
    ⟨other, hother, rfl, hlisted, not_le.mp hlonger⟩

/-- In a safe table the sessions that are listed at the second migration are kept. -/
theorem UserSessions.RoundTripSafe.le_expiresAt (hsafe : table.RoundTripSafe start back)
    (hrow : row ∈ table.live userId start) (hlisted : back < row.listedUntil start) :
    back + seconds (renewedSeconds (row.listedUntil start - back)) ≤ row.expiresAt := by
  obtain ⟨hunexpired, -⟩ := mem_unexpired_of_live hrow
  refine ((hsafe.kept row hunexpired).resolve_left fun hexpired ↦ ?_).2
  exact absurd (hlisted.trans_le UserSession.listedUntil_le) (not_lt.mpr hexpired)

/-- In a safe table the same sessions are active at the second migration and after it. -/
theorem UserSessions.RoundTripSafe.isSessionActive_iff (hsafe : table.RoundTripSafe start back)
    (hback : start ≤ back) :
    (table.roundTrip start back).isSessionActive userId jti back = true ↔
      table.isSessionActive userId jti back = true := by
  rw [isSessionActive_roundTrip hsafe.toFitsKeys hback, UserSessions.isSessionActive_iff]
  constructor
  · rintro ⟨row, hrow, hjti, hlisted, -⟩
    obtain ⟨hmem, huser, -⟩ := mem_live.mp hrow
    exact ⟨row, hmem, huser, hjti, hlisted.trans_le UserSession.listedUntil_le⟩
  · rintro ⟨row, hmem, huser, hjti, hlive⟩
    have hrow := mem_live.mpr ⟨hmem, huser, hback.trans_lt hlive⟩
    have hlisted :=
      ((hsafe.kept row (mem_unexpired_of_live hrow).1).resolve_left hlive.not_ge).1
    refine ⟨row, hrow, hjti, hlisted, ?_⟩
    have hpos := renewedSeconds_pos (row.listedUntil start - back)
    rw [seconds]
    omega

/-- In a safe table two sessions of a user that come back are one. -/
theorem UserSessions.RoundTripSafe.eq_of_mem_activeIds {first second : SessionId}
    (hsafe : table.RoundTripSafe start back) (hback : start ≤ back)
    (hfirst : first ∈ (table.roundTrip start back).activeIds userId back)
    (hsecond : second ∈ (table.roundTrip start back).activeIds userId back) : first = second := by
  rw [mem_activeIds, ← isSessionActive_iff_live,
    isSessionActive_roundTrip hsafe.toFitsKeys hback] at hfirst hsecond
  obtain ⟨row, hrow, rfl, hlisted, -⟩ := hfirst
  obtain ⟨other, hother, rfl, -, -⟩ := hsecond
  obtain ⟨hrow, huser⟩ := mem_unexpired_of_live hrow
  obtain ⟨hother, hotherUser⟩ := mem_unexpired_of_live hother
  rw [hsafe.alone row hrow other hother (huser.trans hotherUser.symm) hlisted]

/-- For sessions that fit the keys, the way to Redis and back keeps them exactly when the conditions
on the second migration hold. -/
theorem sessionsPreserved_roundTrip_iff (hfits : table.FitsKeys start) (hback : start ≤ back) :
    SessionsPreserved (.postgres table) (.postgres (table.roundTrip start back)) back ↔
      table.RoundTripSafe start back := by
  constructor
  · intro hpreserved
    refine ⟨hfits, fun first hfirst second hsecond huser hlisted ↦ ?_, fun row hrow ↦ ?_⟩
    · exact alone_of_sessionsPreserved hfits hback hpreserved
        (UserSessions.mem_live_of_unexpired hfirst)
        (huser ▸ UserSessions.mem_live_of_unexpired hsecond) hlisted
    · refine or_iff_not_imp_left.mpr fun hexpires ↦ ?_
      exact kept_of_sessionsPreserved hfits hback hpreserved (mem_unexpired.mp hrow).1
        (not_le.mp hexpires)
  · intro hsafe
    refine ⟨fun userId jti ↦ hsafe.isSessionActive_iff hback, fun userId jti time _ hafter ↦ ?_,
      fun userId ↦ ?_⟩
    · obtain ⟨row, hrow, hjti, hlisted, hlive⟩ := (isSessionActive_roundTrip hfits hback).mp hafter
      obtain ⟨hmem, huser, -⟩ := UserSessions.mem_live.mp hrow
      exact UserSessions.isSessionActive_iff.mpr
        ⟨row, hmem, huser, hjti, hlive.trans_le (hsafe.le_expiresAt hrow hlisted)⟩
    · -- there is one session at most, so that there is one order
      have hperm : ((table.roundTrip start back).activeIds userId back).Perm
          (table.activeIds userId back) := by
        refine (List.perm_ext_iff_of_nodup UserSessions.nodup_activeIds
          UserSessions.nodup_activeIds).mpr fun jti ↦ ?_
        rw [UserSessions.mem_activeIds, UserSessions.mem_activeIds,
          ← UserSessions.isSessionActive_iff_live, ← UserSessions.isSessionActive_iff_live]
        exact hsafe.isSessionActive_iff hback
      refine congrArg List.reverse (List.Perm.eq_of_pairwise
        (fun first second hfirst hsecond _ _ ↦ ?_) (List.pairwise_of_forall fun _ _ ↦ trivial)
        (List.pairwise_of_forall fun _ _ ↦ trivial) hperm)
      exact hsafe.eq_of_mem_activeIds hback hfirst (hperm.mem_iff.mpr hsecond)

/-- The sessions are preserved on the way to Redis and on the way back exactly when they come back
as they were. -/
theorem sessionsPreserved_iff (hback : start ≤ back) :
    SessionsPreserved (.postgres table) (.redis (migrateToRedis table Dict.empty start)) start ∧
        SessionsPreserved (.postgres table) (.postgres (table.roundTrip start back)) back ↔
      table.RoundTripSafe start back := by
  rw [sessionsPreserved_migrateToRedis_iff]
  constructor
  · rintro ⟨hfits, hpreserved⟩
    rwa [sessionsPreserved_roundTrip_iff hfits hback] at hpreserved
  · intro hsafe
    refine ⟨hsafe.toFitsKeys, ?_⟩
    rwa [sessionsPreserved_roundTrip_iff hsafe.toFitsKeys hback]

end RoundTrip

/-- Two sessions of a user, one that expires after an hour and one that expires after two. -/
def sampleRows : List UserSession :=
  [⟨7, 1, 0, seconds 3600⟩, ⟨7, 2, 1, seconds 7200⟩]

theorem nodup_sampleRows : (sampleRows.map UserSession.jti).Nodup := by decide

/-- The table with the two sessions. -/
def sampleSessions : UserSessions := ⟨sampleRows, nodup_sampleRows⟩

/-- The session that expires after an hour is still active half an hour later, in Redis and after
the round trip. -/
theorem active_after_expiry :
    sampleSessions.isSessionActive 7 1 (seconds 5400) = false ∧
      SessionKeys.isSessionActive (migrateToRedis sampleSessions Dict.empty 2) 7 1
        (seconds 5400) = true ∧
      (sampleSessions.roundTrip 2 (seconds 10)).isSessionActive 7 1 (seconds 5400) = true ∧
      ¬(SessionsPreserved (.postgres sampleSessions)
          (.redis (migrateToRedis sampleSessions Dict.empty 2)) 2 ∧
        SessionsPreserved (.postgres sampleSessions)
          (.postgres (sampleSessions.roundTrip 2 (seconds 10))) (seconds 10)) := by
  have hbefore : sampleSessions.isSessionActive 7 1 (seconds 5400) = false := by decide
  have hredis : SessionKeys.isSessionActive (migrateToRedis sampleSessions Dict.empty 2) 7 1
      (seconds 5400) = true := by decide
  refine ⟨hbefore, hredis, by decide, fun hpreserved ↦ ?_⟩
  have hactive : sampleSessions.isSessionActive 7 1 (seconds 5400) = true :=
    hpreserved.1.lifetime 7 1 (seconds 5400) (by decide) hredis
  exact absurd (hbefore.symm.trans hactive) (by decide)

theorem sessionsPreserved_sampleSessions_iff :
    SessionsPreserved (.postgres sampleSessions)
          (.redis (migrateToRedis sampleSessions Dict.empty 2)) 2 ∧
        SessionsPreserved (.postgres sampleSessions)
          (.postgres (sampleSessions.roundTrip 2 (seconds 10))) (seconds 10) ↔
      sampleSessions.RoundTripSafe 2 (seconds 10) :=
  sessionsPreserved_iff (by decide)

end Lnmp.Sessions
