import Lnmp.Sessions.Lockout

/-!
# Lockout by the login route

What a login request does to the failed attempts (`routers/auth.py`). A failure is recorded in the
table of the process and by the session store. The PostgreSQL driver has no record of its own and
uses the table of the process (`services/session_store.py`), so that it records every failure
twice. The Redis driver counts in a key that expires half an hour after the first failure, and that
the end of a lock does not reset.

The service runs several worker processes, each with a table of its own, and any of them may get the
next request. They share the keys in Redis.

The policy is that five failures in a series lock a pair for fifteen minutes. Both drivers follow it
at every worker exactly as long as a failure locks the pair there when it is the fifth of its series
(`everyState_followsPolicy_iff`).

Requests of a pair come one after the other, a request reads the clock once, and Redis is reachable.
-/

set_option autoImplicit false
set_option relaxedAutoImplicit false

namespace Lnmp.Sessions

open Lnmp.Foundation Lnmp.Foundation.Eviction Lnmp.Foundation.Runs

/-! ### The Redis driver -/

/-- The value of `auth:failed:…`, and when it expires. -/
structure FailedCount where
  count : ℕ
  expiresAt : ℤ
  deriving DecidableEq

/-- The keys `auth:failed:…`, and the times at which the keys `auth:locked:…` expire. -/
structure LockoutKeys where
  failed : Dict LockoutKey FailedCount
  locked : Dict LockoutKey ℤ
  deriving DecidableEq

/-- `lockout_seconds`. -/
def lockoutSeconds : ℤ := 900

/-- The lifetime of `auth:failed:…`. -/
def failedSeconds : ℤ := 1800

namespace LockoutKeys

variable (keys : LockoutKeys) (key : LockoutKey) (now : ℤ)

/-- No keys. -/
def empty : LockoutKeys where
  failed := Dict.empty
  locked := Dict.empty

/-- The value of `auth:failed:…` that is not expired. -/
def failedCount : Option FailedCount :=
  (keys.failed.get? key).filter fun value ↦ now < value.expiresAt

/-- `is_account_locked`. -/
def isAccountLocked : Bool := (keys.locked.get? key).any fun expiresAt ↦ now < expiresAt

/-- `INCR`, with `EXPIRE` after the first one. -/
def incr : FailedCount :=
  match keys.failedCount key now with
  | none => ⟨1, now + seconds failedSeconds⟩
  | some value => ⟨value.count + 1, value.expiresAt⟩

/-- `record_failed_attempt`. -/
def recordFailedAttempt : LockoutKeys where
  failed := keys.failed.set key (keys.incr key now)
  locked := if maxAttempts ≤ (keys.incr key now).count then
      keys.locked.set key (now + seconds lockoutSeconds)
    else keys.locked

/-- `clear_failed_attempts`. -/
def clearFailedAttempts : LockoutKeys where
  failed := keys.failed.erase key
  locked := keys.locked.erase key

end LockoutKeys

/-! ### The route -/

/-- What a worker has to go by: the table of its process, and the keys in Redis. -/
structure Lockouts where
  failedAttempts : AttemptTable
  keys : LockoutKeys
  deriving DecidableEq

namespace Lockouts

variable (driver : DriverMode) (key : LockoutKey) (lockouts : Lockouts) (now : ℤ)

/-- `is_account_locked` of the process. -/
def isAccountLocked : Bool × Lockouts :=
  let answer := AttemptTable.isAccountLocked lockouts.failedAttempts key now
  (answer.1, { lockouts with failedAttempts := answer.2 })

/-- `record_failed_attempt` of the process. -/
def recordFailedAttempt : Lockouts :=
  { lockouts with
    failedAttempts := AttemptTable.recordFailedAttempt lockouts.failedAttempts key now }

/-- `clear_failed_attempts` of the process. -/
def clearFailedAttempts : Lockouts :=
  { lockouts with failedAttempts := AttemptTable.clearFailedAttempts lockouts.failedAttempts key }

/-- `is_account_locked` of the session store. -/
def storeIsAccountLocked : Bool × Lockouts :=
  match driver with
  | .postgres => isAccountLocked key lockouts now
  | .redis => (lockouts.keys.isAccountLocked key now, lockouts)

/-- `record_failed_attempt` of the session store. -/
def storeRecordFailedAttempt : Lockouts :=
  match driver with
  | .postgres => recordFailedAttempt key lockouts now
  | .redis => { lockouts with keys := lockouts.keys.recordFailedAttempt key now }

/-- `clear_failed_attempts` of the session store. -/
def storeClearFailedAttempts : Lockouts :=
  match driver with
  | .postgres => clearFailedAttempts key lockouts
  | .redis => { lockouts with keys := lockouts.keys.clearFailedAttempts key }

/-- The check at the start of `login`. -/
def checkLocked : Bool × Lockouts :=
  let asked := storeIsAccountLocked driver key lockouts now
  if asked.1 then asked else isAccountLocked key asked.2 now

/-- The answers of `login`. -/
inductive LoginAnswer
  | forbidden
  | unauthorized
  | successful
  deriving DecidableEq

/-- `login`, for a request with the right credentials of an active user or with others. -/
def login (succeeds : Bool) : LoginAnswer × Lockouts :=
  let checked := checkLocked driver key lockouts now
  if checked.1 then (.forbidden, checked.2)
  else if succeeds then
    (.successful, storeClearFailedAttempts driver key (clearFailedAttempts key checked.2))
  else
    (.unauthorized, storeRecordFailedAttempt driver key (recordFailedAttempt key checked.2 now) now)

end Lockouts

/-! ### The policy -/

namespace Series

/-- The series of failures is over: the lock that it started ran out, or there was no failure for
half an hour. -/
def isOver (now latest : ℤ) (count : ℕ) : Bool :=
  if maxAttempts ≤ count then latest + minutes 15 ≤ now else latest + minutes 30 < now

/-- The failures since the last success, the end of a lock, and the end of the counting window, the
latest first. -/
def current (now : ℤ) : List ℤ → List ℤ
  | [] => []
  | latest :: earlier =>
    if isOver now latest (earlier.length + 1) then [] else latest :: earlier

/-- The failures after a request. A request is refused while the pair is locked. -/
def observe (failures : List ℤ) (now : ℤ) (succeeds : Bool) : List ℤ :=
  let failures := current now failures
  if maxAttempts ≤ failures.length then failures
  else if succeeds then [] else now :: failures

end Series

/-- A login request: when it comes, the worker that handles it, and whether it has the right
credentials of an active user. -/
structure LoginAttempt (Worker : Type*) where
  now : ℤ
  worker : Worker
  succeeds : Bool

/-- The tables of the workers and the keys after the requests of a pair, and the series of its
failures. -/
structure LoginHistory (Worker : Type*) where
  tables : Worker → AttemptTable
  keys : LockoutKeys
  failures : List ℤ
  clock : ℤ

namespace LoginHistory

variable {Worker : Type*} (driver : DriverMode) (key : LockoutKey)

/-- The history before the first request. -/
def start (origin : ℤ) : LoginHistory Worker where
  tables _ := Dict.empty
  keys := LockoutKeys.empty
  failures := []
  clock := origin

/-- What a worker has to go by. -/
def lockouts (history : LoginHistory Worker) (worker : Worker) : Lockouts :=
  ⟨history.tables worker, history.keys⟩

/-- What the worker of a request leaves. -/
def handle (history : LoginHistory Worker) (request : LoginAttempt Worker) : Lockouts :=
  ((history.lockouts request.worker).login driver key request.now request.succeeds).2

/-- The history after a request. -/
def step [DecidableEq Worker] (history : LoginHistory Worker) (request : LoginAttempt Worker) :
    Option (LoginHistory Worker) :=
  if history.clock ≤ request.now then
    let handled := history.handle driver key request
    some
      { tables := Function.update history.tables request.worker handled.failedAttempts
        keys := handled.keys
        failures := Series.observe history.failures request.now request.succeeds
        clock := request.now }
  else none

/-- From now on, every worker finds the pair locked when its series has five failures. -/
def FollowsPolicy (history : LoginHistory Worker) : Prop :=
  ∀ worker now, history.clock ≤ now →
    (((history.lockouts worker).checkLocked driver key now).1 = true ↔
      maxAttempts ≤ (Series.current now history.failures).length)

/-- The failures that a worker has counted for the pair, and not dropped. -/
def counted (history : LoginHistory Worker) (worker : Worker) (now : ℤ) : ℕ :=
  ((AttemptTable.unexpired (history.lockouts worker).failedAttempts now).get? key).elim 0
    FailedAttempts.count

/-- How often a driver records a failure in the table of the process. -/
def perRequest : DriverMode → ℕ
  | .postgres => 2
  | .redis => 1

/-- With a failed request the table of a worker, which is the one that handles it, or the key in
Redis has five failures. -/
def CountsFive (history : LoginHistory Worker) (request : LoginAttempt Worker) (worker : Worker) :
    Prop :=
  driver = .redis ∧ maxAttempts ≤ (history.keys.incr key request.now).count ∨
    worker = request.worker ∧
      maxAttempts ≤ history.counted key worker request.now + perRequest driver

/-- A failed request of a pair that may log in brings every worker to five failures when it is the
fifth of its series, and none otherwise. -/
def CountsSeries (history : LoginHistory Worker) (request : LoginAttempt Worker) : Prop :=
  request.succeeds = false → (Series.current request.now history.failures).length < maxAttempts →
    ∀ worker, history.CountsFive driver key request worker ↔
      maxAttempts ≤ (Series.current request.now history.failures).length + 1

end LoginHistory

/-! ### A table with one pair -/

namespace AttemptTable

/-- The table has no pair but one, and its entry is this one until it expires. -/
structure Shows (table : AttemptTable) (key : LockoutKey) (clock : ℤ)
    (shown : Option FailedAttempts) : Prop where
  get?_of_ne : ∀ other, other ≠ key → table.get? other = none
  get?_eq : ∀ now, clock ≤ now →
    (unexpired table now).get? key = shown.filter fun entry ↦ !entry.isExpired now

variable {table : AttemptTable} {key : LockoutKey} {clock now : ℤ} {shown : Option FailedAttempts}

/-- A table with one pair has room for it. -/
theorem Shows.get?_pruneExpiredAttempts (hshows : Shows table key clock shown)
    (other : LockoutKey) :
    (pruneExpiredAttempts table now).get? other = (unexpired table now).get? other := by
  have hkeys : (unexpired table now).keys ⊆ [key] := by
    intro other hother
    obtain ⟨entry, hentry⟩ := (Dict.mem_keys_iff_exists _ _).mp hother
    rw [List.mem_singleton]
    by_contra hne
    rw [get?_unexpired, hshows.get?_of_ne other hne] at hentry
    exact absurd hentry.symm (Option.some_ne_none entry)
  have hlength := (List.subperm_of_subset (unexpired table now).nodup_keys hkeys).length_le
  rw [List.length_map, List.length_singleton] at hlength
  have hbehind : (behind FailedAttempts.lastAttempt (unexpired table now) other).length ≤
      (unexpired table now).entries.length - 1 := length_behind_le_pred _
  rw [pruneExpiredAttempts, get?_evictOldest, if_neg]
  rw [maxFailedAttemptsEntries]
  omega

/-- What is not expired is not expired before. -/
theorem filter_isExpired_of_le {found : Option FailedAttempts} (hclock : clock ≤ now) :
    (found.filter fun entry ↦ !entry.isExpired clock).filter (fun entry ↦ !entry.isExpired now) =
      found.filter fun entry ↦ !entry.isExpired now := by
  cases found with
  | none => rfl
  | some entry =>
    cases hexpired : entry.isExpired clock with
    | true => simp [Option.filter, hexpired, isExpired_of_le hclock hexpired]
    | false => simp [Option.filter, hexpired]

/-- A table that has what pruning leaves shows the same. -/
theorem Shows.of_pruned (hshows : Shows table key clock shown) (hclock : clock ≤ now)
    {pruned : AttemptTable}
    (hget : ∀ other, pruned.get? other = (pruneExpiredAttempts table now).get? other) :
    Shows pruned key now shown := by
  refine ⟨fun other hother ↦ ?_, fun later hlater ↦ ?_⟩
  · rw [hget, hshows.get?_pruneExpiredAttempts, get?_unexpired, hshows.get?_of_ne other hother]
    rfl
  · rw [get?_unexpired, hget, hshows.get?_pruneExpiredAttempts, hshows.get?_eq now hclock,
      filter_isExpired_of_le hlater]

/-- A table shows the same later on. -/
theorem Shows.of_le (hshows : Shows table key clock shown) (hclock : clock ≤ now) :
    Shows table key now shown :=
  ⟨hshows.get?_of_ne, fun later hlater ↦ hshows.get?_eq later (hclock.trans hlater)⟩

/-- A pair is locked when its entry is not expired and has a lock. -/
theorem Shows.isAccountLocked_iff (hshows : Shows table key clock shown) (hclock : clock ≤ now) :
    (isAccountLocked table key now).1 = true ↔
      ∃ entry, shown.filter (fun entry ↦ !entry.isExpired now) = some entry ∧
        entry.lockedUntil.isSome = true := by
  rw [AttemptTable.isAccountLocked_iff, hshows.get?_pruneExpiredAttempts, hshows.get?_eq now hclock]
  constructor
  · rintro ⟨entry, lockedUntil, hentry, hlocked, -⟩
    exact ⟨entry, hentry, hlocked ▸ rfl⟩
  · rintro ⟨entry, hentry, hlocked⟩
    obtain ⟨lockedUntil, hlocked⟩ := Option.isSome_iff_exists.mp hlocked
    refine ⟨entry, lockedUntil, hentry, hlocked, ?_⟩
    have hlive := (Option.filter_eq_some_iff.mp hentry).2
    simp only [FailedAttempts.isExpired, hlocked, Option.any_some, Bool.not_or, Bool.and_eq_true,
      Bool.not_eq_true', decide_eq_false_iff_not, not_le] at hlive
    exact hlive.1

/-- A check leaves what the table shows. -/
theorem Shows.check (hshows : Shows table key clock shown) (hclock : clock ≤ now) :
    Shows (isAccountLocked table key now).2 key now shown := by
  refine hshows.of_pruned hclock fun other ↦ ?_
  rcases isAccountLocked_cases table key now with
    hsame | ⟨-, entry, lockedUntil, hget, hlocked, hle⟩
  · rw [hsame]
  · -- A lock that is over was pruned.
    rw [hshows.get?_pruneExpiredAttempts, get?_unexpired, Option.filter_eq_some_iff] at hget
    have hlive := hget.2
    simp [FailedAttempts.isExpired, hlocked, hle] at hlive

/-- What the table shows after a failure. -/
theorem Shows.record (hshows : Shows table key clock shown) (hclock : clock ≤ now) :
    Shows (recordFailedAttempt table key now) key now
      (some (failAgain now (shown.filter fun entry ↦ !entry.isExpired now))) := by
  have hkey : (recordFailedAttempt table key now).get? key =
      some (failAgain now (shown.filter fun entry ↦ !entry.isExpired now)) := by
    rw [recordFailedAttempt, Dict.get?_set, if_pos rfl, hshows.get?_pruneExpiredAttempts,
      hshows.get?_eq now hclock]
  refine ⟨fun other hother ↦ ?_, fun later _ ↦ ?_⟩
  · rw [recordFailedAttempt, Dict.get?_set, if_neg hother, hshows.get?_pruneExpiredAttempts,
      get?_unexpired, hshows.get?_of_ne other hother]
    rfl
  · rw [get?_unexpired, hkey]

/-- What the table shows after a success. -/
theorem Shows.clear (hshows : Shows table key clock shown) :
    Shows (clearFailedAttempts table key) key now none := by
  refine ⟨fun other hother ↦ ?_, fun later _ ↦ ?_⟩
  · rw [clearFailedAttempts, Dict.get?_erase, if_neg hother, hshows.get?_of_ne other hother]
  · rw [get?_unexpired, clearFailedAttempts, Dict.get?_erase, if_pos rfl]

theorem shows_empty : Shows Dict.empty key clock none :=
  ⟨fun _ _ ↦ rfl, fun _ _ ↦ rfl⟩

end AttemptTable

/-! ### Entries of a series -/

namespace FailedAttempts

/-- The entry after a number of failures, the last of them now. -/
def recent (count : ℕ) (now : ℤ) : FailedAttempts where
  count := count
  lastAttempt := now
  lockedUntil := if maxAttempts ≤ count then some (now + minutes 15) else none

variable {count : ℕ} {latest now : ℤ}

theorem isSome_lockedUntil_recent :
    (recent count now).lockedUntil.isSome = true ↔ maxAttempts ≤ count := by
  rw [recent]
  split <;> simp_all

/-- An entry whose last failure is now is not expired. -/
theorem isExpired_recent_self : (recent count now).isExpired now = false := by
  have hminutes : 0 < minutes 15 ∧ 0 < minutes 30 := by decide
  simp only [isExpired, recent, sub_self]
  split <;> simp <;> omega

/-- An entry with a lock is kept as long as the lock. -/
theorem isExpired_recent_eq_false_iff (hmany : maxAttempts ≤ count) :
    (recent count latest).isExpired now = false ↔ now < latest + minutes 15 := by
  have hminutes : minutes 15 ≤ minutes 30 := by decide
  simp only [isExpired, recent, if_pos hmany, Option.any_some, Bool.or_eq_false_iff,
    decide_eq_false_iff_not]
  omega

/-- The entry has the lock of its count. -/
def LocksByCount (entry : FailedAttempts) : Prop :=
  entry.lockedUntil =
    if maxAttempts ≤ entry.count then some (entry.lastAttempt + minutes 15) else none

theorem locksByCount_recent : (recent count latest).LocksByCount := rfl

/-- An entry after another failure. -/
theorem failAgain_eq {found : Option FailedAttempts}
    (hfound : ∀ entry ∈ found, entry.LocksByCount) :
    AttemptTable.failAgain now found = recent (found.elim 0 FailedAttempts.count + 1) now := by
  cases found with
  | none => rfl
  | some entry =>
    have hlock : entry.LocksByCount := hfound entry rfl
    rw [AttemptTable.failAgain, recent, Option.bind_some, Option.elim_some, hlock]
    by_cases hmany : maxAttempts ≤ entry.count + 1
    · rw [if_pos hmany, if_pos hmany]
    · rw [if_neg hmany, if_neg hmany, if_neg fun hle ↦ hmany (Nat.le_succ_of_le hle)]

end FailedAttempts

namespace Series

variable {failures : List ℤ} {now later : ℤ}

theorem current_eq_or (failures : List ℤ) (now : ℤ) :
    current now failures = failures ∨ current now failures = [] := by
  cases failures with
  | nil => exact Or.inl rfl
  | cons latest earlier =>
    rw [current]
    split
    · exact Or.inr rfl
    · exact Or.inl rfl

theorem length_current_le (failures : List ℤ) (now : ℤ) :
    (current now failures).length ≤ failures.length := by
  rcases current_eq_or failures now with hsame | hnil
  · rw [hsame]
  · simp [hnil]

/-- A lock lasts fifteen minutes from the latest failure, and after it the series is empty. -/
theorem le_length_current_iff {latest : ℤ} {earlier : List ℤ}
    (hmany : maxAttempts ≤ (latest :: earlier).length) :
    maxAttempts ≤ (current now (latest :: earlier)).length ↔ now < latest + minutes 15 := by
  rw [List.length_cons] at hmany
  rw [current, isOver, if_pos hmany, ← not_le]
  by_cases hover : latest + minutes 15 ≤ now
  · simp [hover, maxAttempts]
  · simp [hover, hmany]

/-- A series whose pair is locked does not change. -/
theorem observe_of_le (hmany : maxAttempts ≤ (current now failures).length) (succeeds : Bool) :
    observe failures now succeeds = failures := by
  rw [observe, if_pos hmany]
  refine (current_eq_or failures now).resolve_right fun hnil ↦ ?_
  rw [hnil] at hmany
  exact absurd hmany (by decide)

theorem observe_true (hfew : (current now failures).length < maxAttempts) :
    observe failures now true = [] := by
  rw [observe, if_neg hfew.not_ge, if_pos rfl]

/-- The policy after another failure. -/
theorem le_length_current_observe_iff (hfew : (current now failures).length < maxAttempts) :
    maxAttempts ≤ (current later (observe failures now false)).length ↔
      maxAttempts ≤ (current now failures).length + 1 ∧ later < now + minutes 15 := by
  rw [observe, if_neg hfew.not_ge, if_neg Bool.false_ne_true]
  by_cases hmany : maxAttempts ≤ (current now failures).length + 1
  · rw [eq_true hmany, true_and]
    exact le_length_current_iff hmany
  · refine iff_of_false (fun hlong ↦ hmany (hlong.trans ?_)) fun hboth ↦ hmany hboth.1
    exact length_current_le _ _

end Series

/-! ### The keys in Redis -/

namespace LockoutKeys

variable {keys : LockoutKeys} {key : LockoutKey} {now later : ℤ}

/-- A lock of the driver that is there later on is there now. -/
theorem isAccountLocked_of_le (hle : now ≤ later)
    (hlocked : keys.isAccountLocked key later = true) :
    keys.isAccountLocked key now = true := by
  rw [isAccountLocked, Option.any_eq_true] at hlocked ⊢
  obtain ⟨expiresAt, hget, hlt⟩ := hlocked
  exact ⟨expiresAt, hget, decide_eq_true (hle.trans_lt (of_decide_eq_true hlt))⟩

/-- When the driver locks a pair after a failure. -/
theorem isAccountLocked_recordFailedAttempt :
    (keys.recordFailedAttempt key now).isAccountLocked key later =
      if maxAttempts ≤ (keys.incr key now).count then decide (later < now + minutes 15)
      else keys.isAccountLocked key later := by
  have hlife : seconds lockoutSeconds = minutes 15 := by decide
  rw [recordFailedAttempt, isAccountLocked, hlife]
  split
  · rw [Dict.get?_set, if_pos rfl, Option.any_some]
  · rfl

/-- A success takes a lock away. -/
theorem isAccountLocked_clearFailedAttempts :
    (keys.clearFailedAttempts key).isAccountLocked key now = false := by
  rw [clearFailedAttempts, isAccountLocked, Dict.get?_erase, if_pos rfl, Option.any_none]

end LockoutKeys

/-! ### The checks of the route -/

namespace Lockouts

open AttemptTable

variable {driver : DriverMode} {key : LockoutKey} {lockouts : Lockouts} {clock now : ℤ}
  {shown : Option FailedAttempts} {later : ℤ}

/-- The check asks the driver, and then the table of the process. -/
theorem checkLocked_iff (hshows : Shows lockouts.failedAttempts key clock shown)
    (hclock : clock ≤ now) :
    (checkLocked driver key lockouts now).1 = true ↔
      driver = .redis ∧ lockouts.keys.isAccountLocked key now = true ∨
        (AttemptTable.isAccountLocked lockouts.failedAttempts key now).1 = true := by
  cases driver with
  | postgres =>
    have hagain := (hshows.check hclock).isAccountLocked_iff le_rfl
    rw [← hshows.isAccountLocked_iff hclock] at hagain
    cases hlocked : (AttemptTable.isAccountLocked lockouts.failedAttempts key now).1 <;>
      simp_all [checkLocked, storeIsAccountLocked, isAccountLocked]
  | redis =>
    cases hlocked : lockouts.keys.isAccountLocked key now <;>
      simp [checkLocked, storeIsAccountLocked, isAccountLocked, hlocked]

variable (driver) in
/-- The check leaves the keys, and what the table shows. -/
theorem checkLocked_cases (hshows : Shows lockouts.failedAttempts key clock shown)
    (hclock : clock ≤ now) :
    (checkLocked driver key lockouts now).2.keys = lockouts.keys ∧
      Shows (checkLocked driver key lockouts now).2.failedAttempts key now shown := by
  have hlater := hshows.of_le hclock
  cases driver with
  | postgres =>
    cases hlocked : (AttemptTable.isAccountLocked lockouts.failedAttempts key now).1 with
    | true => simpa [checkLocked, storeIsAccountLocked, isAccountLocked, hlocked] using
        hlater.check le_rfl
    | false => simpa [checkLocked, storeIsAccountLocked, isAccountLocked, hlocked] using
        (hlater.check le_rfl).check le_rfl
  | redis =>
    cases hlocked : lockouts.keys.isAccountLocked key now with
    | true => simpa [checkLocked, storeIsAccountLocked, hlocked] using hlater
    | false => simpa [checkLocked, storeIsAccountLocked, isAccountLocked, hlocked] using
        hlater.check le_rfl

/-- A request is refused when the pair is locked. -/
theorem login_of_locked (hlocked : (checkLocked driver key lockouts now).1 = true)
    (succeeds : Bool) :
    (login driver key lockouts now succeeds).2 = (checkLocked driver key lockouts now).2 := by
  simp [login, hlocked]

theorem login_of_success (hlocked : (checkLocked driver key lockouts now).1 = false) :
    (login driver key lockouts now true).2 = storeClearFailedAttempts driver key
      (clearFailedAttempts key (checkLocked driver key lockouts now).2) := by
  simp [login, hlocked]

theorem login_of_failure (hlocked : (checkLocked driver key lockouts now).1 = false) :
    (login driver key lockouts now false).2 = storeRecordFailedAttempt driver key
      (recordFailedAttempt key (checkLocked driver key lockouts now).2 now) now := by
  simp [login, hlocked]

/-- A success clears the pair. -/
theorem shows_clear (hshows : Shows lockouts.failedAttempts key clock shown) :
    Shows (storeClearFailedAttempts driver key (clearFailedAttempts key lockouts)).failedAttempts
      key now none := by
  cases driver with
  | postgres =>
    have hcleared : Shows (clearFailedAttempts key lockouts).failedAttempts key now none :=
      hshows.clear
    exact hcleared.clear
  | redis => exact hshows.clear

/-- A failure is counted once or twice. -/
theorem shows_record (hshows : Shows lockouts.failedAttempts key clock shown)
    (hclock : clock ≤ now) (hlocks : ∀ entry ∈ shown, entry.LocksByCount) :
    Shows (storeRecordFailedAttempt driver key (recordFailedAttempt key lockouts now)
      now).failedAttempts key now
      (some (FailedAttempts.recent
        ((shown.filter fun entry ↦ !entry.isExpired now).elim 0 FailedAttempts.count +
          LoginHistory.perRequest driver) now)) := by
  have hlive : ∀ entry ∈ shown.filter fun entry ↦ !entry.isExpired now, entry.LocksByCount :=
    fun entry hentry ↦ hlocks entry (Option.filter_eq_some_iff.mp hentry).1
  have hfirst := hshows.record hclock
  rw [FailedAttempts.failAgain_eq hlive] at hfirst
  cases driver with
  | postgres =>
    have hsecond := hfirst.record le_rfl
    rw [Option.filter_some, FailedAttempts.isExpired_recent_self, Bool.not_false, if_pos rfl,
      FailedAttempts.failAgain_eq fun _ hentry ↦
        Option.mem_some_iff.mp hentry ▸ FailedAttempts.locksByCount_recent] at hsecond
    exact hsecond
  | redis => exact hfirst

/-- A worker that has the pair locked later on has it locked now. -/
theorem checkLocked_of_le (hshows : Shows lockouts.failedAttempts key clock shown)
    (hclock : clock ≤ now) (hle : now ≤ later)
    (hlocked : (checkLocked driver key lockouts later).1 = true) :
    (checkLocked driver key lockouts now).1 = true := by
  rw [checkLocked_iff hshows hclock]
  rcases (checkLocked_iff hshows (hclock.trans hle)).mp hlocked with ⟨hdriver, hkey⟩ | htable
  · exact Or.inl ⟨hdriver, LockoutKeys.isAccountLocked_of_le hle hkey⟩
  · obtain ⟨entry, hentry, hlock⟩ := (hshows.isAccountLocked_iff (hclock.trans hle)).mp htable
    rw [← filter_isExpired_of_le hle, Option.filter_eq_some_iff] at hentry
    exact Or.inr ((hshows.isAccountLocked_iff hclock).mpr ⟨entry, hentry.1, hlock⟩)

end Lockouts

/-! ### Drivers that follow the policy -/

namespace LoginHistory

open AttemptTable Lockouts

/-- The tables of the workers have no pair but one, whose entries have the locks of their counts. -/
def IsTracked {Worker : Type*} (key : LockoutKey) (history : LoginHistory Worker) : Prop :=
  ∀ worker, ∃ shown, Shows (history.lockouts worker).failedAttempts key history.clock shown ∧
    ∀ entry ∈ shown, entry.LocksByCount

variable {Worker : Type*} {driver : DriverMode} {key : LockoutKey}
  {history next : LoginHistory Worker} {request : LoginAttempt Worker} {now later : ℤ}

theorem isTracked_start (key : LockoutKey) (origin : ℤ) :
    IsTracked key (start origin : LoginHistory Worker) :=
  fun _ ↦ ⟨none, shows_empty, fun _ hentry ↦ absurd hentry.symm (Option.some_ne_none _)⟩

theorem followsPolicy_start (driver : DriverMode) (key : LockoutKey) (origin : ℤ) :
    FollowsPolicy driver key (start origin : LoginHistory Worker) := by
  intro worker now hclock
  have hshows : Shows ((start origin).lockouts worker).failedAttempts key origin none := shows_empty
  rw [checkLocked_iff hshows hclock]
  constructor
  · rintro (⟨-, hkey⟩ | htable)
    · exact absurd hkey Bool.false_ne_true
    · obtain ⟨entry, hentry, -⟩ := (hshows.isAccountLocked_iff hclock).mp htable
      exact absurd hentry.symm (Option.some_ne_none _)
  · exact fun hmany ↦ absurd hmany (by simp [start, Series.current, maxAttempts])

/-- A pair that may log in at a worker may do so at every one, then and later. -/
theorem FollowsPolicy.checkLocked_eq_false (hfollows : FollowsPolicy driver key history)
    (htracked : IsTracked key history) (hclock : history.clock ≤ now) (hle : now ≤ later)
    (hfew : (Series.current now history.failures).length < maxAttempts) (worker : Worker) :
    ((history.lockouts worker).checkLocked driver key later).1 = false := by
  obtain ⟨shown, hshows, -⟩ := htracked worker
  refine Bool.eq_false_iff.mpr fun hlocked ↦ hfew.not_ge ?_
  have hnow := checkLocked_of_le hshows hclock hle hlocked
  exact (hfollows worker now hclock).mp hnow

/-! ### The condition with several workers -/

/-- With several workers and the PostgreSQL driver, a failure must neither be the fifth of its
series nor find three counts in the table of its worker: the other workers do not see it. -/
theorem countsSeries_postgres_iff [Nontrivial Worker] :
    CountsSeries .postgres key history request ↔
      (request.succeeds = false →
        (Series.current request.now history.failures).length < maxAttempts →
          (Series.current request.now history.failures).length + 1 < maxAttempts ∧
            history.counted key request.worker request.now + 2 < maxAttempts) := by
  refine forall_congr' fun _ ↦ forall_congr' fun _ ↦ ?_
  simp only [CountsFive, false_and, false_or, perRequest, reduceCtorEq, ← not_le]
  constructor
  · intro hcounts
    obtain ⟨other, hother⟩ := exists_ne request.worker
    have hfew : ¬maxAttempts ≤ (Series.current request.now history.failures).length + 1 :=
      fun hmany ↦ hother ((hcounts other).mpr hmany).1
    exact ⟨hfew, fun hmany ↦ hfew ((hcounts request.worker).mp ⟨rfl, hmany⟩)⟩
  · rintro ⟨hfew, hcounted⟩ worker
    exact iff_of_false (fun hcounts ↦ hcounted (hcounts.1 ▸ hcounts.2)) hfew

/-- With several workers and the Redis driver, the key has to have five failures with the series,
and the table of a worker only then. -/
theorem countsSeries_redis_iff [Nontrivial Worker] :
    CountsSeries .redis key history request ↔
      (request.succeeds = false →
        (Series.current request.now history.failures).length < maxAttempts →
          (maxAttempts ≤ (history.keys.incr key request.now).count ↔
              maxAttempts ≤ (Series.current request.now history.failures).length + 1) ∧
            (maxAttempts ≤ history.counted key request.worker request.now + 1 →
              maxAttempts ≤ (Series.current request.now history.failures).length + 1)) := by
  refine forall_congr' fun _ ↦ forall_congr' fun _ ↦ ?_
  simp only [CountsFive, true_and, perRequest]
  constructor
  · intro hcounts
    obtain ⟨other, hother⟩ := exists_ne request.worker
    refine ⟨?_, fun hmany ↦ (hcounts request.worker).mp (Or.inr ⟨rfl, hmany⟩)⟩
    rw [← hcounts other]
    exact (or_iff_left fun hself ↦ hother hself.1).symm
  · rintro ⟨hkey, htable⟩ worker
    rw [hkey]
    exact or_iff_left_of_imp fun hself ↦ htable (hself.1 ▸ hself.2)

/-! ### One request -/

/-- The worker refuses a request and leaves what its table shows. -/
theorem handle_of_locked (hclock : history.clock ≤ request.now) {shown : Option FailedAttempts}
    (hshows : Shows (history.lockouts request.worker).failedAttempts key history.clock shown)
    (hlocked : ((history.lockouts request.worker).checkLocked driver key request.now).1 = true) :
    (history.handle driver key request).keys = history.keys ∧
      Shows (history.handle driver key request).failedAttempts key request.now shown := by
  rw [handle, login_of_locked hlocked]
  exact checkLocked_cases driver hshows hclock

/-- The worker clears the pair after a success. -/
theorem handle_of_success (hclock : history.clock ≤ request.now) {shown : Option FailedAttempts}
    (hshows : Shows (history.lockouts request.worker).failedAttempts key history.clock shown)
    (hlocked : ((history.lockouts request.worker).checkLocked driver key request.now).1 = false)
    (hsucceeds : request.succeeds = true) :
    (driver = .redis →
        (history.handle driver key request).keys = history.keys.clearFailedAttempts key) ∧
      Shows (history.handle driver key request).failedAttempts key request.now none := by
  obtain ⟨hkeys, hchecked⟩ := checkLocked_cases driver hshows hclock
  rw [handle, hsucceeds, login_of_success hlocked]
  refine ⟨?_, shows_clear hchecked⟩
  rintro rfl
  rw [storeClearFailedAttempts, Lockouts.clearFailedAttempts, hkeys, lockouts]

/-- The worker counts a failure. -/
theorem handle_of_failure (hclock : history.clock ≤ request.now) {shown : Option FailedAttempts}
    (hshows : Shows (history.lockouts request.worker).failedAttempts key history.clock shown)
    (hlocks : ∀ entry ∈ shown, entry.LocksByCount)
    (hlocked : ((history.lockouts request.worker).checkLocked driver key request.now).1 = false)
    (hfails : request.succeeds = false) :
    (driver = .redis → (history.handle driver key request).keys =
        history.keys.recordFailedAttempt key request.now) ∧
      Shows (history.handle driver key request).failedAttempts key request.now
        (some (FailedAttempts.recent
          (history.counted key request.worker request.now + perRequest driver) request.now)) := by
  obtain ⟨hkeys, hchecked⟩ := checkLocked_cases driver hshows hclock
  rw [handle, hfails, login_of_failure hlocked, counted, hshows.get?_eq request.now hclock]
  refine ⟨?_, shows_record hchecked le_rfl hlocks⟩
  rintro rfl
  rw [storeRecordFailedAttempt, Lockouts.recordFailedAttempt, hkeys, lockouts]

/-- The worker of a request leaves a table that has the pair only. -/
theorem exists_shows_handle (htracked : IsTracked key history)
    (hclock : history.clock ≤ request.now) :
    ∃ shown, Shows (history.handle driver key request).failedAttempts key request.now shown ∧
      ∀ entry ∈ shown, entry.LocksByCount := by
  obtain ⟨shown, hshows, hlocks⟩ := htracked request.worker
  cases hlocked : ((history.lockouts request.worker).checkLocked driver key request.now).1 with
  | true => exact ⟨shown, (handle_of_locked hclock hshows hlocked).2, hlocks⟩
  | false =>
    cases hresult : request.succeeds with
    | true =>
      refine ⟨none, (handle_of_success hclock hshows hlocked hresult).2, fun _ hentry ↦ ?_⟩
      exact absurd hentry.symm (Option.some_ne_none _)
    | false =>
      refine ⟨_, (handle_of_failure hclock hshows hlocks hlocked hresult).2, fun _ hentry ↦ ?_⟩
      exact Option.mem_some_iff.mp hentry ▸ FailedAttempts.locksByCount_recent

variable [DecidableEq Worker]

theorem step_eq_some_iff :
    step driver key history request = some next ↔
      history.clock ≤ request.now ∧
        next = ⟨Function.update history.tables request.worker
          (history.handle driver key request).failedAttempts,
          (history.handle driver key request).keys,
          Series.observe history.failures request.now request.succeeds, request.now⟩ := by
  rw [step, Option.ite_none_right_eq_some, Option.some_inj, eq_comm (a := next)]

theorem IsTracked.step (htracked : IsTracked key history)
    (hstep : step driver key history request = some next) : IsTracked key next := by
  obtain ⟨hclock, rfl⟩ := step_eq_some_iff.mp hstep
  intro worker
  simp only [lockouts]
  by_cases hworker : worker = request.worker
  · rw [hworker, Function.update_self]
    exact exists_shows_handle htracked hclock
  · rw [Function.update_of_ne hworker]
    obtain ⟨shown, hshows, hlocks⟩ := htracked worker
    exact ⟨shown, hshows.of_le hclock, hlocks⟩

/-- After a request of a pair that may log in, a worker finds it locked by the key, or by its table
when it has handled the request. -/
theorem FollowsPolicy.checkLocked_step_iff (hfollows : FollowsPolicy driver key history)
    (htracked : IsTracked key history) (hstep : step driver key history request = some next)
    (hfew : (Series.current request.now history.failures).length < maxAttempts)
    (hle : request.now ≤ later) (worker : Worker) :
    ((next.lockouts worker).checkLocked driver key later).1 = true ↔
      driver = .redis ∧
          (history.handle driver key request).keys.isAccountLocked key later = true ∨
        worker = request.worker ∧ (AttemptTable.isAccountLocked
          (history.handle driver key request).failedAttempts key later).1 = true := by
  obtain ⟨hclock, rfl⟩ := step_eq_some_iff.mp hstep
  rw [lockouts]
  dsimp only
  by_cases hworker : worker = request.worker
  · obtain ⟨shown, hshows, -⟩ : ∃ shown,
        Shows (history.handle driver key request).failedAttempts key request.now shown ∧
          ∀ entry ∈ shown, entry.LocksByCount := exists_shows_handle htracked hclock
    rw [hworker, Function.update_self, eq_self, true_and]
    exact checkLocked_iff hshows hle
  · obtain ⟨shown, hshows, -⟩ := htracked worker
    have hopen := hfollows.checkLocked_eq_false htracked hclock hle hfew worker
    rw [← Bool.not_eq_true, checkLocked_iff hshows (hclock.trans hle), not_or] at hopen
    have hafter : Shows (Lockouts.mk (history.tables worker)
        (history.handle driver key request).keys).failedAttempts key history.clock shown := hshows
    rw [Function.update_of_ne hworker, checkLocked_iff hafter (hclock.trans hle)]
    exact or_congr_right (iff_of_false hopen.2 fun hself ↦ hworker hself.1)

/-- A worker has the pair locked after a failure as long as the lock lasts, when it counts five. -/
theorem FollowsPolicy.checkLocked_failure_iff (hfollows : FollowsPolicy driver key history)
    (htracked : IsTracked key history) (hstep : step driver key history request = some next)
    (hfails : request.succeeds = false)
    (hfew : (Series.current request.now history.failures).length < maxAttempts)
    (hle : request.now ≤ later) (worker : Worker) :
    ((next.lockouts worker).checkLocked driver key later).1 = true ↔
      history.CountsFive driver key request worker ∧ later < request.now + minutes 15 := by
  have hclock := (step_eq_some_iff.mp hstep).1
  obtain ⟨shown, hshows, hlocks⟩ := htracked request.worker
  have hopen := hfollows.checkLocked_eq_false htracked hclock le_rfl hfew request.worker
  obtain ⟨hkeys, htable⟩ := handle_of_failure hclock hshows hlocks hopen hfails
  rw [hfollows.checkLocked_step_iff htracked hstep hfew hle, CountsFive, or_and_right]
  refine or_congr ?_ ?_
  · -- The key had no lock before, which would be there at the time of the request.
    rw [and_assoc]
    refine and_congr_right fun hdriver ↦ ?_
    have hunlocked : history.keys.isAccountLocked key later = false := by
      rw [← Bool.not_eq_true, checkLocked_iff hshows hclock, not_or] at hopen
      exact Bool.eq_false_iff.mpr fun hkey ↦
        hopen.1 ⟨hdriver, LockoutKeys.isAccountLocked_of_le hle hkey⟩
    rw [hkeys hdriver, LockoutKeys.isAccountLocked_recordFailedAttempt]
    by_cases hmany : maxAttempts ≤ (history.keys.incr key request.now).count
    · rw [if_pos hmany, decide_eq_true_eq, eq_true hmany, true_and]
    · rw [if_neg hmany, hunlocked, eq_false hmany, false_and, eq_false Bool.false_ne_true]
  · rw [and_assoc]
    refine and_congr_right fun hworker ↦ ?_
    subst hworker
    rw [htable.isAccountLocked_iff hle, Option.filter_some]
    by_cases hmany : maxAttempts ≤
        history.counted key request.worker request.now + perRequest driver
    · rw [eq_true hmany, true_and, ← FailedAttempts.isExpired_recent_eq_false_iff hmany]
      constructor
      · rintro ⟨entry, hentry, -⟩
        simpa using (Option.ite_none_right_eq_some.mp hentry).1
      · intro hlive
        exact ⟨_, by rw [hlive]; rfl, FailedAttempts.isSome_lockedUntil_recent.mpr hmany⟩
    · rw [eq_false hmany, false_and, iff_false]
      rintro ⟨entry, hentry, hlock⟩
      obtain rfl := Option.some.inj (Option.ite_none_right_eq_some.mp hentry).2
      exact hmany (FailedAttempts.isSome_lockedUntil_recent.mp hlock)

/-- A request that is refused changes no answer. -/
theorem checkLocked_refused_iff (htracked : IsTracked key history)
    (hstep : step driver key history request = some next)
    (hlocked : ((history.lockouts request.worker).checkLocked driver key request.now).1 = true)
    (hle : request.now ≤ later) (worker : Worker) :
    ((next.lockouts worker).checkLocked driver key later).1 = true ↔
      ((history.lockouts worker).checkLocked driver key later).1 = true := by
  obtain ⟨hclock, rfl⟩ := step_eq_some_iff.mp hstep
  obtain ⟨shown, hshows, -⟩ := htracked request.worker
  obtain ⟨hkeys, htable⟩ := handle_of_locked hclock hshows hlocked
  rw [lockouts]
  dsimp only
  by_cases hworker : worker = request.worker
  · rw [hworker, Function.update_self, checkLocked_iff hshows (hclock.trans hle),
      hshows.isAccountLocked_iff (hclock.trans hle), ← htable.isAccountLocked_iff hle]
    exact hkeys ▸ checkLocked_iff htable hle
  · rw [Function.update_of_ne hworker, hkeys, lockouts]

/-- The step lemma: a request keeps the policy exactly when it brings the workers to five failures
with the series. -/
theorem FollowsPolicy.step_iff (hfollows : FollowsPolicy driver key history)
    (htracked : IsTracked key history) (hstep : step driver key history request = some next) :
    FollowsPolicy driver key next ↔ CountsSeries driver key history request := by
  obtain ⟨hclock, hnext⟩ := step_eq_some_iff.mp hstep
  have hfailures : next.failures =
      Series.observe history.failures request.now request.succeeds := hnext ▸ rfl
  have hnow : next.clock = request.now := hnext ▸ rfl
  rw [FollowsPolicy, hfailures, hnow]
  by_cases hfew : (Series.current request.now history.failures).length < maxAttempts
  · cases hresult : request.succeeds with
    | true =>
      -- The worker clears the pair, and the others do not have it locked.
      refine iff_of_true (fun worker later hle ↦ ?_) fun hfails ↦ ?_
      · rw [Series.observe_true hfew, hfollows.checkLocked_step_iff htracked hstep hfew hle]
        obtain ⟨shown, hshows, -⟩ := htracked request.worker
        obtain ⟨hkeys, htable⟩ := handle_of_success hclock hshows
          (hfollows.checkLocked_eq_false htracked hclock le_rfl hfew request.worker) hresult
        refine iff_of_false ?_ (by simp [Series.current, maxAttempts])
        rintro (⟨hdriver, hkey⟩ | ⟨-, hlocked⟩)
        · rw [hkeys hdriver, LockoutKeys.isAccountLocked_clearFailedAttempts] at hkey
          exact absurd hkey Bool.false_ne_true
        · obtain ⟨entry, hentry, -⟩ := (htable.isAccountLocked_iff hle).mp hlocked
          exact absurd hentry.symm (Option.some_ne_none _)
      · exact absurd (hresult.symm.trans hfails).symm Bool.false_ne_true
    | false =>
      have hlocked : ∀ worker later, request.now ≤ later →
          (((next.lockouts worker).checkLocked driver key later).1 = true ↔
            history.CountsFive driver key request worker ∧ later < request.now + minutes 15) :=
        fun worker _ hle ↦ hfollows.checkLocked_failure_iff htracked hstep hresult hfew hle worker
      have hlasts : request.now < request.now + minutes 15 := by
        rw [lt_add_iff_pos_right]
        decide
      constructor
      · intro hnext _ _ worker
        have hself := hnext worker request.now le_rfl
        rwa [hlocked worker _ le_rfl, Series.le_length_current_observe_iff hfew, eq_true hlasts,
          and_true, and_true] at hself
      · intro hcounts worker later hle
        rw [hlocked worker later hle, Series.le_length_current_observe_iff hfew,
          hcounts hresult hfew worker]
  · have hmany := not_lt.mp hfew
    have hlocked := (hfollows request.worker request.now hclock).mpr hmany
    refine iff_of_true (fun worker later hle ↦ ?_) fun _ hopen ↦ absurd hopen hfew
    rw [Series.observe_of_le hmany, checkLocked_refused_iff htracked hstep hlocked hle]
    exact hfollows worker later (hclock.trans hle)

/-- The driver follows the policy after every request exactly when every failure brings the workers
to five failures with its series. -/
theorem everyState_followsPolicy_iff {origin : ℤ} {requests : List (LoginAttempt Worker)}
    {finish : LoginHistory Worker}
    (hrun : run (LoginHistory.step driver key) (start origin) requests = some finish) :
    EveryState (LoginHistory.step driver key) (start origin) requests (FollowsPolicy driver key) ↔
      EveryStep (LoginHistory.step driver key) (start origin) requests
        (CountsSeries driver key) :=
  everyState_iff_everyStep (IsTracked key) (FollowsPolicy driver key)
    (fun _ _ _ htracked hstep ↦ htracked.step hstep)
    (fun _ _ _ htracked hfollows hstep ↦ hfollows.step_iff htracked hstep)
    (isTracked_start key origin) (followsPolicy_start driver key origin) hrun

/-- The worker processes of the deployed service. -/
inductive ApiWorker
  | first
  | second
  deriving DecidableEq

/-- Two failures, one at each worker. -/
def twoFailures : List (LoginAttempt ApiWorker) :=
  [⟨0, .first, false⟩, ⟨1, .second, false⟩]

theorem isSome_twoFailures :
    (run (LoginHistory.step .postgres "203.0.113.9:admin") (start 0)
      twoFailures).isSome = true := by
  decide

theorem everyState_followsPolicy_iff_two_failures :
    EveryState (LoginHistory.step .postgres "203.0.113.9:admin") (start 0) twoFailures
        (FollowsPolicy .postgres "203.0.113.9:admin") ↔
      EveryStep (LoginHistory.step .postgres "203.0.113.9:admin") (start 0) twoFailures
        (CountsSeries .postgres "203.0.113.9:admin") :=
  everyState_followsPolicy_iff (Option.some_get isSome_twoFailures).symm

/-- Three failures at one worker, or five and another one after their lock. -/
def earlyLock : DriverMode → List (LoginAttempt ApiWorker)
  | .postgres => List.replicate 3 ⟨0, .first, false⟩
  | .redis => List.replicate 5 ⟨0, .first, false⟩ ++ [⟨minutes 16, .first, false⟩]

/-- Neither driver follows the policy on every sequence of requests. -/
theorem exists_not_followsPolicy :
    ¬∃ driver : DriverMode, ∀ (key : LockoutKey) (origin : ℤ)
      (requests : List (LoginAttempt ApiWorker)) (finish : LoginHistory ApiWorker),
      run (LoginHistory.step driver key) (start origin) requests = some finish →
        EveryState (LoginHistory.step driver key) (start origin) requests
          (FollowsPolicy driver key) := by
  rintro ⟨driver, hall⟩
  have hlocked : (run (LoginHistory.step driver "203.0.113.9:admin") (start 0)
      (earlyLock driver)).any (fun history ↦
        ((history.lockouts .first).checkLocked driver "203.0.113.9:admin" history.clock).1 ∧
          ¬maxAttempts ≤ (Series.current history.clock history.failures).length) = true := by
    cases driver <;> decide +kernel
  obtain ⟨finish, hrun, hearly⟩ := (Option.any_eq_true _ _).mp hlocked
  obtain ⟨hlock, hfew⟩ := of_decide_eq_true hearly
  have hstates := hall _ 0 _ finish hrun
  exact hfew ((hstates _ [] finish (List.append_nil _).symm hrun .first _ le_rfl).mp hlock)

/-- Five failures at workers by turns, the last one after the key has expired. -/
def byTurns : List (LoginAttempt ApiWorker) :=
  [⟨0, .first, false⟩, ⟨minutes 10, .second, false⟩, ⟨minutes 20, .first, false⟩,
    ⟨minutes 29, .second, false⟩, ⟨minutes 31, .first, false⟩]

/-- No worker has the pair locked, although its series has five failures. -/
example : (run (LoginHistory.step .redis "203.0.113.9:admin") (start 0) byTurns).any (fun history ↦
    maxAttempts ≤ (Series.current history.clock history.failures).length ∧
      ((history.lockouts .first).checkLocked .redis "203.0.113.9:admin" history.clock).1 = false ∧
      ((history.lockouts .second).checkLocked .redis "203.0.113.9:admin" history.clock).1 = false) =
    true := by
  decide +kernel

end LoginHistory

end Lnmp.Sessions
