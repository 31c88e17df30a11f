import Lnmp.Foundation.BoundedQueue
import Lnmp.Foundation.Dict
import Lnmp.Foundation.Uuid
import Mathlib.Data.List.Sort

/-!
# Session stores

`services/session_store.py`: where the sessions of the users are kept. The PostgreSQL driver has a
table with a row for every session, and the Redis driver a list of session ids under a key for every
user. A call of the PostgreSQL driver is one transaction; one of the Redis driver is a GET and a
SET, which the definitions here run without anything in between.

Times are microseconds, and lifetimes seconds. A session id is a token of 128 bits, and a user id a
UUID, so that the checks for missing and malformed ones are left out.
-/

set_option autoImplicit false
set_option relaxedAutoImplicit false

namespace Lnmp.Sessions

open Lnmp.Foundation Lnmp.Foundation.BoundedQueue

/-- The UUID of a user. -/
abbrev UserId := Uuid

/-- The id of a session, `jti`. -/
abbrev SessionId := Uuid

/-- Seconds in microseconds. -/
def seconds (count : ℤ) : ℤ := count * 1000000

/-- The lifetime of a session that is registered. -/
def defaultTtlSeconds : ℤ := 86400

theorem defaultTtlSeconds_pos : 0 < defaultTtlSeconds := by decide

/-! ### The PostgreSQL driver -/

/-- A row of `user_sessions`. -/
structure UserSession where
  userId : UserId
  jti : SessionId
  createdAt : ℤ
  expiresAt : ℤ
  deriving DecidableEq

/-- The table `user_sessions`, in the order of insertion. The column `jti` is unique. -/
structure UserSessions where
  rows : List UserSession
  nodup_jtis : (rows.map UserSession.jti).Nodup
  deriving DecidableEq

namespace UserSessions

/-- The table without rows. -/
def empty : UserSessions where
  rows := []
  nodup_jtis := List.nodup_nil

/-- `DELETE`: keep the rows that are not selected. -/
def keep (table : UserSessions) (keeps : UserSession → Bool) : UserSessions where
  rows := table.rows.filter keeps
  nodup_jtis := table.nodup_jtis.sublist (List.filter_sublist.map _)

/-- `INSERT`, `none` when the id of the session is there. -/
def insert (table : UserSessions) (row : UserSession) : Option UserSessions :=
  if hfresh : row.jti ∉ table.rows.map UserSession.jti then
    some
      { rows := table.rows ++ [row]
        nodup_jtis := by
          rw [List.map_append, List.nodup_append]
          refine ⟨table.nodup_jtis, List.nodup_singleton _, ?_⟩
          rintro first hfirst second hsecond rfl
          exact hfresh (List.mem_singleton.mp hsecond ▸ hfirst) }
  else none

/-- The ids of the sessions of a user that are not expired, the newest first. -/
def activeIds (table : UserSessions) (userId : UserId) (now : ℤ) : List SessionId :=
  ((table.rows.filter fun row ↦ row.userId = userId ∧ now < row.expiresAt).insertionSort
    fun first second ↦ second.createdAt ≤ first.createdAt).map UserSession.jti

/-- `register_session`. A call that raises is rolled back. -/
def registerSession (table : UserSessions) (userId : UserId) (jti : SessionId) (maxSessions : ℕ)
    (ttlSeconds now : ℤ) : UserSessions :=
  let cleaned := table.keep fun row ↦ ¬(row.userId = userId ∧ row.expiresAt ≤ now)
  match cleaned.insert ⟨userId, jti, now, now + seconds ttlSeconds⟩ with
  | none => table
  | some inserted =>
    let excessIds := (inserted.activeIds userId now).drop maxSessions
    inserted.keep fun row ↦ row.jti ∉ excessIds

/-- `is_session_active`. -/
def isSessionActive (table : UserSessions) (userId : UserId) (jti : SessionId) (now : ℤ) : Bool :=
  table.rows.any fun row ↦ row.userId = userId ∧ row.jti = jti ∧ now < row.expiresAt

/-- `invalidate_session`. -/
def invalidateSession (table : UserSessions) (userId : UserId) (jti : SessionId) : UserSessions :=
  table.keep fun row ↦ ¬(row.userId = userId ∧ row.jti = jti)

/-- `invalidate_all_user_sessions`. -/
def invalidateAllUserSessions (table : UserSessions) (userId : UserId) : UserSessions :=
  table.keep fun row ↦ row.userId ≠ userId

end UserSessions

/-! ### The Redis driver -/

/-- The value under the key of a user, and when it expires. -/
structure SessionList where
  sessions : List SessionId
  expiresAt : ℤ
  deriving DecidableEq

/-- The keys of the users. -/
abbrev SessionKeys := Dict UserId SessionList

/-- Append a session, and keep the last ones. For a limit of zero, `sessions[-0:]` is the whole
list. -/
def appendSession (maxSessions : ℕ) (sessions : List SessionId) (jti : SessionId) :
    List SessionId :=
  if maxSessions = 0 then sessions ++ [jti] else push maxSessions sessions jti

namespace SessionKeys

variable (keys : SessionKeys)

/-- `GET`. -/
def getKey (userId : UserId) (now : ℤ) : Option (List SessionId) :=
  ((keys.get? userId).filter fun value ↦ now < value.expiresAt).map SessionList.sessions

/-- `SET` with `EX`. -/
def setKey (userId : UserId) (sessions : List SessionId) (ex now : ℤ) : SessionKeys :=
  keys.set userId ⟨sessions, now + seconds ex⟩

/-- `DEL`. -/
def deleteKey (userId : UserId) : SessionKeys := keys.erase userId

/-- `TTL`: the seconds that are left, rounded. -/
def ttl (userId : UserId) (now : ℤ) : ℤ :=
  match (keys.get? userId).filter fun value ↦ now < value.expiresAt with
  | none => -2
  | some value => (value.expiresAt - now + 500000) / 1000000

/-- `register_session`. -/
def registerSession (userId : UserId) (jti : SessionId) (maxSessions : ℕ)
    (ttlSeconds now : ℤ) : SessionKeys :=
  keys.setKey userId (appendSession maxSessions ((keys.getKey userId now).getD []) jti) ttlSeconds
    now

/-- `is_session_active`. -/
def isSessionActive (userId : UserId) (jti : SessionId) (now : ℤ) : Bool :=
  (keys.getKey userId now).any (jti ∈ ·)

/-- The lifetime of a list from which a session was removed. -/
def renewal (ttl : ℤ) : ℤ := if 0 < ttl then max ttl 60 else 86400

/-- `invalidate_session`. -/
def invalidateSession (userId : UserId) (jti : SessionId) (now : ℤ) : SessionKeys :=
  match keys.getKey userId now with
  | none => keys
  | some raw =>
    let sessions := raw.filter (· ≠ jti)
    if sessions = [] then keys.deleteKey userId
    else keys.setKey userId sessions (renewal (keys.ttl userId now)) now

/-- `invalidate_all_user_sessions`. -/
def invalidateAllUserSessions (userId : UserId) : SessionKeys := keys.deleteKey userId

end SessionKeys

/-! ### Both drivers -/

/-- The two drivers. -/
inductive DriverMode
  | postgres
  | redis
  deriving DecidableEq

/-- A session store, with what it keeps. -/
inductive SessionStore
  | postgres (table : UserSessions)
  | redis (keys : SessionKeys)
  deriving DecidableEq

namespace SessionStore

/-- A store of a driver that keeps nothing. -/
def empty : DriverMode → SessionStore
  | .postgres => .postgres UserSessions.empty
  | .redis => .redis Dict.empty

/-- `register_session`. -/
def registerSession (store : SessionStore) (userId : UserId) (jti : SessionId) (maxSessions : ℕ)
    (ttlSeconds now : ℤ) : SessionStore :=
  match store with
  | .postgres table => .postgres (table.registerSession userId jti maxSessions ttlSeconds now)
  | .redis keys => .redis (SessionKeys.registerSession keys userId jti maxSessions ttlSeconds now)

/-- `is_session_active`. -/
def isSessionActive (store : SessionStore) (userId : UserId) (jti : SessionId) (now : ℤ) : Bool :=
  match store with
  | .postgres table => table.isSessionActive userId jti now
  | .redis keys => SessionKeys.isSessionActive keys userId jti now

/-- `invalidate_session`. -/
def invalidateSession (store : SessionStore) (userId : UserId) (jti : SessionId) (now : ℤ) :
    SessionStore :=
  match store with
  | .postgres table => .postgres (table.invalidateSession userId jti)
  | .redis keys => .redis (SessionKeys.invalidateSession keys userId jti now)

/-- `invalidate_all_user_sessions`. -/
def invalidateAllUserSessions (store : SessionStore) (userId : UserId) : SessionStore :=
  match store with
  | .postgres table => .postgres (table.invalidateAllUserSessions userId)
  | .redis keys => .redis (SessionKeys.invalidateAllUserSessions keys userId)

end SessionStore

/-! ### What the table has -/

namespace UserSessions

variable {table : UserSessions} {userId : UserId} {jti : SessionId} {maxSessions : ℕ}
  {ttlSeconds now : ℤ}

theorem mem_keep {keeps : UserSession → Bool} {row : UserSession} :
    row ∈ (table.keep keeps).rows ↔ row ∈ table.rows ∧ keeps row = true :=
  List.mem_filter

theorem rows_of_insert {row : UserSession} {inserted : UserSessions}
    (hinsert : table.insert row = some inserted) :
    row.jti ∉ table.rows.map UserSession.jti ∧ inserted.rows = table.rows ++ [row] := by
  rw [insert, Option.dite_none_right_eq_some] at hinsert
  obtain ⟨hfresh, hinserted⟩ := hinsert
  exact ⟨hfresh, congrArg rows (Option.some.inj hinserted).symm⟩

theorem mem_of_insert_eq_none {row : UserSession} (hinsert : table.insert row = none) :
    row.jti ∈ table.rows.map UserSession.jti := by
  by_contra hfresh
  rw [insert, dif_pos hfresh] at hinsert
  exact absurd hinsert (Option.some_ne_none _)

theorem isSessionActive_iff :
    table.isSessionActive userId jti now = true ↔
      ∃ row ∈ table.rows, row.userId = userId ∧ row.jti = jti ∧ now < row.expiresAt := by
  simp [isSessionActive]

/-- A session that is active after a registration was active before, or is the one that is
registered. -/
theorem isSessionActive_of_registerSession {other : UserId} {session : SessionId} {time : ℤ}
    (hactive : (table.registerSession userId jti maxSessions ttlSeconds now).isSessionActive other
      session time = true) :
    table.isSessionActive other session time = true ∨ other = userId ∧ session = jti := by
  rw [registerSession] at hactive
  split at hactive
  · exact Or.inl hactive
  · rename_i inserted hinsert
    obtain ⟨row, hrow, rfl, rfl, hlive⟩ := isSessionActive_iff.mp hactive
    have hmem := (mem_keep.mp hrow).1
    rw [(rows_of_insert hinsert).2, List.mem_append, List.mem_singleton] at hmem
    rcases hmem with hold | rfl
    · exact Or.inl (isSessionActive_iff.mpr ⟨row, (mem_keep.mp hold).1, rfl, rfl, hlive⟩)
    · exact Or.inr ⟨rfl, rfl⟩

/-- What is active later on is active now. -/
theorem isSessionActive_of_later {later : ℤ} (hlater : now ≤ later)
    (hactive : table.isSessionActive userId jti later = true) :
    table.isSessionActive userId jti now = true := by
  obtain ⟨row, hrow, huser, hjti, hlive⟩ := isSessionActive_iff.mp hactive
  exact isSessionActive_iff.mpr ⟨row, hrow, huser, hjti, hlater.trans_lt hlive⟩

/-- A session that is active after a logout was active before, and is another one. -/
theorem isSessionActive_of_invalidateSession {other : UserId} {session : SessionId}
    (hactive : (table.invalidateSession userId jti).isSessionActive other session now = true) :
    table.isSessionActive other session now = true ∧ (other, session) ≠ (userId, jti) := by
  obtain ⟨row, hrow, rfl, rfl, hlive⟩ := isSessionActive_iff.mp hactive
  obtain ⟨hold, hkept⟩ := mem_keep.mp hrow
  refine ⟨isSessionActive_iff.mpr ⟨row, hold, rfl, rfl, hlive⟩, fun hsame ↦ ?_⟩
  exact of_decide_eq_true hkept (Prod.mk.inj hsame)

/-- A session that is active after a reset was active before, and is one of another user. -/
theorem isSessionActive_of_invalidateAllUserSessions {other : UserId} {session : SessionId}
    (hactive : (table.invalidateAllUserSessions userId).isSessionActive other session now = true) :
    table.isSessionActive other session now = true ∧ other ≠ userId := by
  obtain ⟨row, hrow, rfl, rfl, hlive⟩ := isSessionActive_iff.mp hactive
  obtain ⟨hold, hkept⟩ := mem_keep.mp hrow
  exact ⟨isSessionActive_iff.mpr ⟨row, hold, rfl, rfl, hlive⟩, of_decide_eq_true hkept⟩

end UserSessions

/-! ### Rows in the order of their creation -/

/-- Sorting what is sorted the other way reverses it. -/
theorem insertionSort_createdAt {rows : List UserSession}
    (horder : rows.Pairwise fun first second ↦ first.createdAt < second.createdAt) :
    rows.insertionSort (fun first second ↦ second.createdAt ≤ first.createdAt) = rows.reverse := by
  induction rows with
  | nil => rfl
  | cons row rest ih =>
    obtain ⟨holdest, hrest⟩ := List.pairwise_cons.mp horder
    rw [List.insertionSort_cons, ih hrest, List.reverse_cons]
    have hlast : ∀ newer : List UserSession, (∀ other ∈ newer, row.createdAt < other.createdAt) →
        newer.orderedInsert (fun first second ↦ second.createdAt ≤ first.createdAt) row =
          newer ++ [row] := by
      intro newer hnewer
      induction newer with
      | nil => rfl
      | cons other newer ih =>
        rw [List.orderedInsert, if_neg (not_le.mpr (hnewer other (List.mem_cons_self ..))),
          ih fun third hthird ↦ hnewer third (List.mem_cons_of_mem _ hthird), List.cons_append]
    exact hlast _ fun other hother ↦ holdest other (List.mem_reverse.mp hother)

namespace UserSessions

/-- All rows are of one user, were created one after the other behind a start and up to a time, and
have the default lifetime. -/
structure InOrder (table : UserSessions) (userId : UserId) (start time : ℤ) : Prop where
  userId_eq : ∀ row ∈ table.rows, row.userId = userId
  start_lt : ∀ row ∈ table.rows, start < row.createdAt
  createdAt_le : ∀ row ∈ table.rows, row.createdAt ≤ time
  expiresAt_eq : ∀ row ∈ table.rows, row.expiresAt = row.createdAt + seconds defaultTtlSeconds
  pairwise : table.rows.Pairwise fun first second ↦ first.createdAt < second.createdAt

variable {table : UserSessions} {userId : UserId} {jti : SessionId} {maxSessions : ℕ}
  {start time now : ℤ}

/-- Within the lifetime of the first session no row is expired. -/
theorem InOrder.now_lt (horder : table.InOrder userId start time)
    (hlife : now < start + seconds defaultTtlSeconds) {row : UserSession}
    (hrow : row ∈ table.rows) : now < row.expiresAt := by
  rw [horder.expiresAt_eq row hrow]
  have := horder.start_lt row hrow
  omega

/-- The ids of the sessions, the newest first. -/
theorem InOrder.activeIds_eq (horder : table.InOrder userId start time)
    (hlife : now < start + seconds defaultTtlSeconds) :
    table.activeIds userId now = (table.rows.map UserSession.jti).reverse := by
  have hall : (table.rows.filter fun row ↦ row.userId = userId ∧ now < row.expiresAt) =
      table.rows := by
    refine List.filter_eq_self.mpr fun row hrow ↦ ?_
    exact decide_eq_true ⟨horder.userId_eq row hrow, horder.now_lt hlife hrow⟩
  rw [activeIds, hall, insertionSort_createdAt horder.pairwise, List.map_reverse]

/-- Rows in order stay in order when a new one is inserted. -/
theorem InOrder.insert (horder : table.InOrder userId start time) (htime : time < now)
    (hstart : start < now) {inserted : UserSessions}
    (hrows : inserted.rows =
      table.rows ++ [⟨userId, jti, now, now + seconds defaultTtlSeconds⟩]) :
    inserted.InOrder userId start now := by
  have hmem : ∀ row, row ∈ inserted.rows ↔
      row ∈ table.rows ∨ row = ⟨userId, jti, now, now + seconds defaultTtlSeconds⟩ := by
    intro row
    rw [hrows, List.mem_append, List.mem_singleton]
  refine ⟨fun row hrow ↦ ?_, fun row hrow ↦ ?_, fun row hrow ↦ ?_, fun row hrow ↦ ?_, ?_⟩
  · rcases (hmem row).mp hrow with hold | rfl
    · exact horder.userId_eq row hold
    · rfl
  · rcases (hmem row).mp hrow with hold | rfl
    · exact horder.start_lt row hold
    · exact hstart
  · rcases (hmem row).mp hrow with hold | rfl
    · exact (horder.createdAt_le row hold).trans htime.le
    · exact le_rfl
  · rcases (hmem row).mp hrow with hold | rfl
    · exact horder.expiresAt_eq row hold
    · rfl
  · rw [hrows, List.pairwise_append]
    refine ⟨horder.pairwise, List.pairwise_singleton _ _, fun first hfirst second hsecond ↦ ?_⟩
    rw [List.mem_singleton.mp hsecond]
    exact (horder.createdAt_le first hfirst).trans_lt htime

theorem InOrder.keep (horder : table.InOrder userId start time) (keeps : UserSession → Bool) :
    (table.keep keeps).InOrder userId start time where
  userId_eq row hrow := horder.userId_eq row (mem_keep.mp hrow).1
  start_lt row hrow := horder.start_lt row (mem_keep.mp hrow).1
  createdAt_le row hrow := horder.createdAt_le row (mem_keep.mp hrow).1
  expiresAt_eq row hrow := horder.expiresAt_eq row (mem_keep.mp hrow).1
  pairwise := horder.pairwise.sublist List.filter_sublist

/-- A registration in a table whose rows are in order: a session with a row keeps it, and another
one is pushed. -/
theorem InOrder.registerSession (horder : table.InOrder userId start time) (htime : time < now)
    (hstart : start < now) (hlife : now < start + seconds defaultTtlSeconds) :
    (table.registerSession userId jti maxSessions defaultTtlSeconds now).InOrder userId start now ∧
      (table.registerSession userId jti maxSessions defaultTtlSeconds now).rows.map
          UserSession.jti =
        pushNew maxSessions (table.rows.map UserSession.jti) jti := by
  have hcleaned : (table.keep fun row ↦ ¬(row.userId = userId ∧ row.expiresAt ≤ now)).rows =
      table.rows := by
    refine List.filter_eq_self.mpr fun row hrow ↦ ?_
    have hlive := horder.now_lt hlife hrow
    simp [hlive]
  rw [UserSessions.registerSession]
  split
  · -- The session has a row, and the insert raises.
    rename_i hnone
    have hmem := mem_of_insert_eq_none hnone
    rw [hcleaned] at hmem
    refine ⟨⟨horder.userId_eq, horder.start_lt, fun row hrow ↦ ?_, horder.expiresAt_eq,
      horder.pairwise⟩, (if_pos hmem).symm⟩
    exact (horder.createdAt_le row hrow).trans htime.le
  · rename_i inserted hinsert
    obtain ⟨hfresh, hrows⟩ := rows_of_insert hinsert
    rw [hcleaned] at hfresh hrows
    have hinserted := horder.insert htime hstart hrows
    refine ⟨hinserted.keep _, ?_⟩
    have hids : inserted.rows.map UserSession.jti = table.rows.map UserSession.jti ++ [jti] := by
      rw [hrows, List.map_append, List.map_singleton]
    have hkept : (inserted.keep fun row ↦
        row.jti ∉ (inserted.activeIds userId now).drop maxSessions).rows =
          inserted.rows.rtake maxSessions := by
      rw [hinserted.activeIds_eq hlife, List.drop_reverse, List.length_map, List.rtake,
        ← filter_notMem_take UserSession.jti inserted.nodup_jtis]
      exact List.filter_congr fun row _ ↦ by simp only [List.mem_reverse]
    rw [hkept, List.rtake, List.map_drop, pushNew, if_neg hfresh, push, ← hids, List.rtake,
      List.length_map]

end UserSessions

/-! ### What the keys hold -/

namespace SessionKeys

variable {keys : SessionKeys} {userId other : UserId} {jti session : SessionId} {maxSessions : ℕ}
  {ttlSeconds now : ℤ}

theorem getKey_setKey (sessions : List SessionId) (ex : ℤ) (time : ℤ) :
    getKey (setKey keys userId sessions ex now) other time =
      if other = userId then (if time < now + seconds ex then some sessions else none)
      else getKey keys other time := by
  rw [getKey, setKey, Dict.get?_set]
  split
  · rw [Option.filter_some]
    simp only [decide_eq_true_eq]
    split <;> rfl
  · rfl

theorem getKey_deleteKey (time : ℤ) :
    getKey (deleteKey keys userId) other time =
      if other = userId then none else getKey keys other time := by
  rw [getKey, deleteKey, Dict.get?_erase]
  split <;> rfl

theorem isSessionActive_iff :
    isSessionActive keys userId jti now = true ↔
      ∃ sessions, getKey keys userId now = some sessions ∧ jti ∈ sessions := by
  simp [isSessionActive, Option.any_eq_true]

/-- What is active later on is active now. -/
theorem isSessionActive_of_later {later : ℤ} (hlater : now ≤ later)
    (hactive : isSessionActive keys userId jti later = true) :
    isSessionActive keys userId jti now = true := by
  obtain ⟨sessions, hget, hmem⟩ := isSessionActive_iff.mp hactive
  obtain ⟨value, hvalue, rfl⟩ := Option.map_eq_some_iff.mp hget
  obtain ⟨hstored, hlive⟩ := Option.filter_eq_some_iff.mp hvalue
  refine isSessionActive_iff.mpr ⟨value.sessions, ?_, hmem⟩
  rw [getKey, hstored, Option.filter_some,
    if_pos (decide_eq_true (hlater.trans_lt (of_decide_eq_true hlive))), Option.map_some]

/-- The sessions of a list that was written are active. -/
theorem isSessionActive_setKey {sessions : List SessionId} {ex : ℤ} (hex : 0 < ex) :
    isSessionActive (setKey keys userId sessions ex now) userId jti now = true ↔
      jti ∈ sessions := by
  rw [isSessionActive_iff, getKey_setKey, if_pos rfl, if_pos (by rw [seconds]; omega)]
  simp

theorem isSessionActive_deleteKey :
    isSessionActive (deleteKey keys userId) userId jti now = false := by
  rw [isSessionActive, getKey_deleteKey, if_pos rfl, Option.any_none]

theorem renewal_pos (ttl : ℤ) : 0 < renewal ttl := by
  rw [renewal]
  split <;> omega

/-- A registered list has sessions of the list before, and the one that is registered. -/
theorem mem_of_mem_appendSession {sessions : List SessionId}
    (hmem : session ∈ appendSession maxSessions sessions jti) :
    session ∈ sessions ∨ session = jti := by
  rw [appendSession] at hmem
  split at hmem
  · simpa using hmem
  · simpa using (rtake_sublist _ _).subset hmem

/-- What is active after a list was written: what is on it, and for other users what was before. -/
theorem isSessionActive_of_setKey {sessions : List SessionId} {ex : ℤ}
    (hactive : isSessionActive (setKey keys userId sessions ex now) other session now = true) :
    other = userId ∧ session ∈ sessions ∨
      other ≠ userId ∧ isSessionActive keys other session now = true := by
  obtain ⟨found, hget, hmem⟩ := isSessionActive_iff.mp hactive
  rw [getKey_setKey] at hget
  split at hget
  · rename_i hsame
    obtain ⟨-, hfound⟩ := Option.ite_none_right_eq_some.mp hget
    exact Or.inl ⟨hsame, Option.some.inj hfound ▸ hmem⟩
  · rename_i hother
    exact Or.inr ⟨hother, isSessionActive_iff.mpr ⟨found, hget, hmem⟩⟩

/-- A session that is active after a registration was active before, or is the one that is
registered. -/
theorem isSessionActive_of_registerSession
    (hactive : isSessionActive (registerSession keys userId jti maxSessions ttlSeconds now) other
      session now = true) :
    isSessionActive keys other session now = true ∨ other = userId ∧ session = jti := by
  rcases isSessionActive_of_setKey hactive with ⟨rfl, hmem⟩ | ⟨-, hbefore⟩
  · refine (mem_of_mem_appendSession hmem).imp (fun hold ↦ ?_) fun hnew ↦ ⟨rfl, hnew⟩
    cases hget : getKey keys other now with
    | none => simp [hget] at hold
    | some raw => exact isSessionActive_iff.mpr ⟨raw, hget, by simpa [hget] using hold⟩
  · exact Or.inl hbefore

/-- A session that is active after a reset was active before, and is one of another user. -/
theorem isSessionActive_of_invalidateAllUserSessions
    (hactive : isSessionActive (invalidateAllUserSessions keys userId) other session now = true) :
    isSessionActive keys other session now = true ∧ other ≠ userId := by
  obtain ⟨found, hget, hmem⟩ := isSessionActive_iff.mp hactive
  rw [invalidateAllUserSessions, getKey_deleteKey, Option.ite_none_left_eq_some] at hget
  exact ⟨isSessionActive_iff.mpr ⟨found, hget.2, hmem⟩, hget.1⟩

/-- A session that is active after a logout was active before, and is another one. -/
theorem isSessionActive_of_invalidateSession
    (hactive : isSessionActive (invalidateSession keys userId jti now) other session now = true) :
    isSessionActive keys other session now = true ∧ (other, session) ≠ (userId, jti) := by
  have hdiffers : ∀ {user : UserId}, other ≠ user → (other, session) ≠ (user, jti) :=
    fun hne hsame ↦ hne (Prod.mk.inj hsame).1
  rw [invalidateSession] at hactive
  split at hactive
  · rename_i hnone
    refine ⟨hactive, fun hsame ↦ ?_⟩
    obtain ⟨rfl, rfl⟩ := Prod.mk.inj hsame
    obtain ⟨found, hget, -⟩ := isSessionActive_iff.mp hactive
    exact absurd (hnone.symm.trans hget) (Option.some_ne_none _).symm
  · rename_i raw hget
    dsimp only at hactive
    split at hactive
    · obtain ⟨hbefore, hne⟩ := isSessionActive_of_invalidateAllUserSessions hactive
      exact ⟨hbefore, hdiffers hne⟩
    · rcases isSessionActive_of_setKey hactive with ⟨rfl, hmem⟩ | ⟨hne, hbefore⟩
      · obtain ⟨hold, hkept⟩ := List.mem_filter.mp hmem
        refine ⟨isSessionActive_iff.mpr ⟨raw, hget, hold⟩, fun hsame ↦ ?_⟩
        exact of_decide_eq_true hkept (Prod.mk.inj hsame).2
      · exact ⟨hbefore, hdiffers hne⟩

end SessionKeys

/-! ### What a store has -/

namespace SessionStore

variable {store : SessionStore} {userId other : UserId} {jti session : SessionId} {maxSessions : ℕ}
  {ttlSeconds now : ℤ}

theorem isSessionActive_of_later {later : ℤ} (hlater : now ≤ later)
    (hactive : store.isSessionActive userId jti later = true) :
    store.isSessionActive userId jti now = true := by
  cases store with
  | postgres table => exact UserSessions.isSessionActive_of_later hlater hactive
  | redis keys => exact SessionKeys.isSessionActive_of_later hlater hactive

theorem isSessionActive_of_registerSession
    (hactive : (store.registerSession userId jti maxSessions ttlSeconds now).isSessionActive other
      session now = true) :
    store.isSessionActive other session now = true ∨ other = userId ∧ session = jti := by
  cases store with
  | postgres table => exact UserSessions.isSessionActive_of_registerSession hactive
  | redis keys => exact SessionKeys.isSessionActive_of_registerSession hactive

theorem isSessionActive_of_invalidateSession
    (hactive : (store.invalidateSession userId jti now).isSessionActive other session now = true) :
    store.isSessionActive other session now = true := by
  cases store with
  | postgres table => exact (UserSessions.isSessionActive_of_invalidateSession hactive).1
  | redis keys => exact (SessionKeys.isSessionActive_of_invalidateSession hactive).1

theorem isSessionActive_of_invalidateAllUserSessions
    (hactive : (store.invalidateAllUserSessions userId).isSessionActive other session now = true) :
    store.isSessionActive other session now = true ∧ other ≠ userId := by
  cases store with
  | postgres table => exact UserSessions.isSessionActive_of_invalidateAllUserSessions hactive
  | redis keys => exact SessionKeys.isSessionActive_of_invalidateAllUserSessions hactive

end SessionStore

end Lnmp.Sessions
