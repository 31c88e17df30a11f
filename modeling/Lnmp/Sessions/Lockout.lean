import Lnmp.Foundation.Eviction
import Lnmp.Foundation.PythonText
import Lnmp.Foundation.Runs
import Lnmp.Sessions.SessionStore

/-!
# Account lockout

The table of failed login attempts of `services/auth_service.py`. It has an entry for every pair of
a client address and a user name that failed to log in. The fifth failure locks the pair for fifteen
minutes. Every call first drops the entries that are expired, and of the others the oldest ones when
there are more than the table may have.

An entry is evicted whether it is locked or not. A lock outlives the failures of other pairs
exactly when there is room for its entry at every point (`everyState_staysLocked_iff`).

Times are microseconds. One call reads the clock once, and `str.lower` is a parameter.
-/

set_option autoImplicit false
set_option relaxedAutoImplicit false

namespace Lnmp.Sessions

open Lnmp.Foundation Lnmp.Foundation.Eviction Lnmp.Foundation.PythonText Lnmp.Foundation.Runs

/-! ### The table -/

/-- Minutes in microseconds. -/
def minutes (count : ℤ) : ℤ := seconds (count * 60)

/-- The text that a pair has in the table. -/
abbrev LockoutKey := String

/-- An entry of `_failed_attempts`. -/
structure FailedAttempts where
  count : ℕ
  lastAttempt : ℤ
  lockedUntil : Option ℤ
  deriving DecidableEq

/-- `_failed_attempts`. -/
abbrev AttemptTable := Dict LockoutKey FailedAttempts

/-- `MAX_FAILED_ATTEMPTS_ENTRIES`. -/
@[irreducible] def maxFailedAttemptsEntries : ℕ := 2000

/-- The failures that lock a pair. -/
def maxAttempts : ℕ := 5

/-- `_get_lockout_key`. -/
def getLockoutKey (lower : String → String) (clientIp username : String) : LockoutKey :=
  let ip := if clientIp ≠ "" then strip clientIp else "127.0.0.1"
  let user := if username ≠ "" then lower (strip username) else ""
  ip ++ ":" ++ user

/-- An entry that is not kept: its lock is over, or it had no attempt for half an hour. -/
def FailedAttempts.isExpired (now : ℤ) (entry : FailedAttempts) : Bool :=
  entry.lockedUntil.any (· ≤ now) || minutes 30 < now - entry.lastAttempt

namespace AttemptTable

variable (table : AttemptTable) (key : LockoutKey) (now : ℤ)

/-- The entries that are not expired. -/
def unexpired : AttemptTable := table.eraseWhere fun entry ↦ entry.2.isExpired now

/-- `_prune_expired_attempts`. -/
def pruneExpiredAttempts : AttemptTable :=
  evictOldest FailedAttempts.lastAttempt maxFailedAttemptsEntries (unexpired table now)

/-- `is_account_locked`: the answer, and the table that it leaves. -/
def isAccountLocked : Bool × AttemptTable :=
  let pruned := pruneExpiredAttempts table now
  match pruned.get? key with
  | none => (false, pruned)
  | some entry =>
    match entry.lockedUntil with
    | none => (false, pruned)
    | some lockedUntil => if now < lockedUntil then (true, pruned) else (false, pruned.erase key)

/-- An entry after another failure. -/
def failAgain (now : ℤ) (found : Option FailedAttempts) : FailedAttempts :=
  let count := (found.elim 0 FailedAttempts.count) + 1
  { count := count
    lastAttempt := now
    lockedUntil := if maxAttempts ≤ count then some (now + minutes 15)
      else found.bind FailedAttempts.lockedUntil }

/-- `record_failed_attempt`. -/
def recordFailedAttempt : AttemptTable :=
  let pruned := pruneExpiredAttempts table now
  pruned.set key (failAgain now (pruned.get? key))

/-- `clear_failed_attempts`. -/
def clearFailedAttempts : AttemptTable := table.erase key

end AttemptTable

/-! ### Calls -/

/-- A call about a pair. -/
inductive LockoutCall
  | check (clientIp username : String)
  | fail (clientIp username : String)
  | clear (clientIp username : String)

/-- The table, and the time of the last call. -/
structure LockoutService where
  failedAttempts : AttemptTable
  clock : ℤ
  deriving DecidableEq

namespace LockoutService

variable (lower : String → String)

/-- The table that a call leaves. -/
def call (table : AttemptTable) (now : ℤ) : LockoutCall → AttemptTable
  | .check clientIp username =>
    (AttemptTable.isAccountLocked table (getLockoutKey lower clientIp username) now).2
  | .fail clientIp username =>
    AttemptTable.recordFailedAttempt table (getLockoutKey lower clientIp username) now
  | .clear clientIp username =>
    AttemptTable.clearFailedAttempts table (getLockoutKey lower clientIp username)

/-- The service after a call at a time. The clock does not go back. -/
def step (service : LockoutService) (event : ℤ × LockoutCall) : Option LockoutService :=
  if service.clock ≤ event.1 then
    some ⟨call lower service.failedAttempts event.1 event.2, event.1⟩
  else none

/-- The service before the first call. -/
def start (origin : ℤ) : LockoutService where
  failedAttempts := Dict.empty
  clock := origin

/-- The call clears a key. -/
def Clears (key : LockoutKey) : LockoutCall → Prop
  | .clear clientIp username => getLockoutKey lower clientIp username = key
  | _ => False

/-- Until a time, every check answers that the key is locked. -/
def StaysLocked (key : LockoutKey) (lockedUntil : ℤ) (service : LockoutService) : Prop :=
  ∀ now, service.clock ≤ now → now < lockedUntil →
    (AttemptTable.isAccountLocked service.failedAttempts key now).1 = true

/-- Until a time, fewer entries are behind the one of the key than the table may have. -/
def HasRoom (key : LockoutKey) (lockedUntil : ℤ) (service : LockoutService) : Prop :=
  service.clock < lockedUntil →
    (behind FailedAttempts.lastAttempt
      (AttemptTable.unexpired service.failedAttempts service.clock) key).length <
        maxFailedAttemptsEntries

end LockoutService

/-! ### Pruning -/

namespace AttemptTable

variable {table : AttemptTable} {key other : LockoutKey} {clock now : ℤ} {entry : FailedAttempts}

/-- An entry that is expired stays expired. -/
theorem isExpired_of_le (hclock : clock ≤ now) (hexpired : entry.isExpired clock = true) :
    entry.isExpired now = true := by
  simp only [FailedAttempts.isExpired, Bool.or_eq_true, Option.any_eq_true, decide_eq_true_eq]
    at hexpired ⊢
  rcases hexpired with ⟨lockedUntil, hlocked, hle⟩ | hold
  · exact Or.inl ⟨lockedUntil, hlocked, hle.trans hclock⟩
  · exact Or.inr (by omega)

theorem get?_unexpired :
    (unexpired table now).get? key = (table.get? key).filter fun entry ↦ !entry.isExpired now :=
  Dict.get?_eraseWhere ..

/-- Later on fewer entries are behind one. -/
theorem length_behind_unexpired_le (hclock : clock ≤ now) :
    (behind FailedAttempts.lastAttempt (unexpired table now) key).length ≤
      (behind FailedAttempts.lastAttempt (unexpired table clock) key).length := by
  apply length_behind_le _ fun entry ↦ !entry.2.isExpired now
  rw [unexpired, unexpired, Dict.entries_eraseWhere, Dict.entries_eraseWhere, List.filter_filter]
  refine List.filter_congr fun entry _ ↦ ?_
  cases hnow : entry.2.isExpired now with
  | true => rfl
  | false =>
    have hclock : entry.2.isExpired clock = false := by
      by_contra hexpired
      rw [Bool.not_eq_false] at hexpired
      exact absurd (isExpired_of_le hclock hexpired) (Bool.not_eq_true _ ▸ hnow)
    rw [hclock]
    rfl

/-- An entry is kept when it is not expired and there is room for it. -/
theorem get?_pruneExpiredAttempts_eq_some_iff :
    (pruneExpiredAttempts table now).get? key = some entry ↔
      table.get? key = some entry ∧ entry.isExpired now = false ∧
        (behind FailedAttempts.lastAttempt (unexpired table now) key).length <
          maxFailedAttemptsEntries := by
  rw [pruneExpiredAttempts, get?_evictOldest, get?_unexpired, Option.ite_none_left_eq_some,
    Option.filter_eq_some_iff, Nat.not_le, Bool.not_eq_true', and_comm, and_assoc]

/-- A key is locked when its entry is kept and its lock is not over. -/
theorem isAccountLocked_iff :
    (isAccountLocked table key now).1 = true ↔
      ∃ entry lockedUntil, (pruneExpiredAttempts table now).get? key = some entry ∧
        entry.lockedUntil = some lockedUntil ∧ now < lockedUntil := by
  simp only [isAccountLocked]
  split
  · rename_i hget
    refine iff_of_false Bool.false_ne_true ?_
    rintro ⟨entry, -, hentry, -⟩
    exact absurd (hget.symm.trans hentry) (Option.some_ne_none entry).symm
  · rename_i entry hget
    split
    · rename_i hlocked
      refine iff_of_false Bool.false_ne_true ?_
      rintro ⟨found, lockedUntil, hfound, hlock, -⟩
      obtain rfl := Option.some.inj (hget.symm.trans hfound)
      exact absurd (hlocked.symm.trans hlock) (Option.some_ne_none lockedUntil).symm
    · rename_i lockedUntil hlocked
      split
      · rename_i hnow
        exact iff_of_true rfl ⟨entry, lockedUntil, hget, hlocked, hnow⟩
      · rename_i hnow
        refine iff_of_false Bool.false_ne_true ?_
        rintro ⟨found, time, hfound, hlock, htime⟩
        obtain rfl := Option.some.inj (hget.symm.trans hfound)
        obtain rfl := Option.some.inj (hlocked.symm.trans hlock)
        exact hnow htime

/-- A check leaves what pruning leaves, without the key when its lock is over. -/
theorem isAccountLocked_cases (table : AttemptTable) (key : LockoutKey) (now : ℤ) :
    (isAccountLocked table key now).2 = pruneExpiredAttempts table now ∨
      (isAccountLocked table key now).2 = (pruneExpiredAttempts table now).erase key ∧
        ∃ entry lockedUntil, (pruneExpiredAttempts table now).get? key = some entry ∧
          entry.lockedUntil = some lockedUntil ∧ lockedUntil ≤ now := by
  simp only [isAccountLocked]
  split
  · exact Or.inl rfl
  · rename_i entry hget
    split
    · exact Or.inl rfl
    · rename_i lockedUntil hlocked
      split
      · exact Or.inl rfl
      · rename_i hnow
        exact Or.inr ⟨rfl, entry, lockedUntil, hget, hlocked, not_lt.mp hnow⟩

end AttemptTable

/-! ### Entries -/

/-- An entry of a time: its lock is there from the fifth failure on, and lasts fifteen minutes from
the last one. -/
structure FailedAttempts.Proper (entry : FailedAttempts) (clock : ℤ) : Prop where
  lastAttempt_le : entry.lastAttempt ≤ clock
  lockedUntil_eq : entry.lockedUntil =
    if maxAttempts ≤ entry.count then some (entry.lastAttempt + minutes 15) else none

namespace AttemptTable

/-- All entries are proper ones. -/
def Proper (table : AttemptTable) (clock : ℤ) : Prop :=
  ∀ key entry, table.get? key = some entry → entry.Proper clock

variable {table : AttemptTable} {key other : LockoutKey} {clock now : ℤ} {entry : FailedAttempts}

theorem Proper.of_get? {pruned : AttemptTable} (hproper : Proper table clock) (hclock : clock ≤ now)
    (hget : ∀ key entry, pruned.get? key = some entry → table.get? key = some entry) :
    Proper pruned now := by
  intro key entry hentry
  obtain ⟨hle, heq⟩ := hproper key entry (hget key entry hentry)
  exact ⟨hle.trans hclock, heq⟩

theorem get?_of_pruneExpiredAttempts
    (hget : (pruneExpiredAttempts table now).get? key = some entry) :
    table.get? key = some entry :=
  (get?_pruneExpiredAttempts_eq_some_iff.mp hget).1

theorem get?_of_erase (hget : (table.erase key).get? other = some entry) :
    table.get? other = some entry := by
  rw [Dict.get?_erase, Option.ite_none_left_eq_some] at hget
  exact hget.2

/-- An entry that fails again is proper. -/
theorem proper_failAgain {found : Option FailedAttempts}
    (hfound : ∀ entry, found = some entry → entry.Proper clock) :
    (failAgain now found).Proper now := by
  refine ⟨le_rfl, ?_⟩
  by_cases hmany : maxAttempts ≤ (failAgain now found).count
  · exact (if_pos hmany).trans (if_pos hmany).symm
  · refine (if_neg hmany).trans (Eq.trans ?_ (if_neg hmany).symm)
    cases found with
    | none => rfl
    | some entry =>
      have hfew : ¬maxAttempts ≤ entry.count := fun hle ↦ hmany (Nat.le_succ_of_le hle)
      rw [Option.bind_some, (hfound entry rfl).lockedUntil_eq, if_neg hfew]

/-- The calls keep the entries proper. -/
theorem Proper.call {lower : String → String} (hproper : Proper table clock) (hclock : clock ≤ now)
    (call : LockoutCall) : Proper (LockoutService.call lower table now call) now := by
  have hpruned : Proper (pruneExpiredAttempts table now) now :=
    hproper.of_get? hclock fun _ _ ↦ get?_of_pruneExpiredAttempts
  cases call with
  | check clientIp username =>
    rcases isAccountLocked_cases table (getLockoutKey lower clientIp username) now with
      hsame | ⟨herased, -⟩
    · rw [LockoutService.call, hsame]
      exact hpruned
    · rw [LockoutService.call, herased]
      exact hpruned.of_get? le_rfl fun _ _ ↦ get?_of_erase
  | fail clientIp username =>
    intro key entry hget
    rw [LockoutService.call, recordFailedAttempt, Dict.get?_set] at hget
    split at hget
    · rw [← Option.some.inj hget]
      exact proper_failAgain fun entry hentry ↦ hpruned _ entry hentry
    · exact hpruned key entry hget
  | clear clientIp username => exact hproper.of_get? hclock fun _ _ ↦ get?_of_erase

/-- An entry that is locked is not expired before its lock is over. -/
theorem isExpired_of_locked (hproper : entry.Proper clock) {lockedUntil : ℤ}
    (hlocked : entry.lockedUntil = some lockedUntil) (hnow : now < lockedUntil) :
    entry.isExpired now = false := by
  have htime : lockedUntil = entry.lastAttempt + minutes 15 := by
    have heq := hproper.lockedUntil_eq
    rw [hlocked] at heq
    exact (Option.ite_none_right_eq_some.mp heq.symm).2 |> Option.some.inj |>.symm
  have hthirty : minutes 15 ≤ minutes 30 := by decide
  rw [FailedAttempts.isExpired, hlocked]
  simp only [Option.any_some, Bool.or_eq_false_iff, decide_eq_false_iff_not, not_le, not_lt]
  omega

/-- A lock that is not over survives pruning when there is room for its entry. -/
theorem get?_pruneExpiredAttempts_of_locked (hproper : Proper table clock) (hclock : clock ≤ now)
    (hget : table.get? key = some entry) {lockedUntil : ℤ}
    (hlocked : entry.lockedUntil = some lockedUntil) (hnow : now < lockedUntil)
    (hroom : (behind FailedAttempts.lastAttempt (unexpired table clock) key).length <
      maxFailedAttemptsEntries) :
    (pruneExpiredAttempts table now).get? key = some entry :=
  get?_pruneExpiredAttempts_eq_some_iff.mpr
    ⟨hget, isExpired_of_locked (hproper key entry hget) hlocked hnow,
      (length_behind_unexpired_le hclock).trans_lt hroom⟩

/-- The key has a lock until a time, or a longer one. -/
def HoldsLock (table : AttemptTable) (key : LockoutKey) (time : ℤ) : Prop :=
  ∃ entry lockedUntil, table.get? key = some entry ∧ entry.lockedUntil = some lockedUntil ∧
    time ≤ lockedUntil

/-- A call that does not clear the key keeps its lock when there is room for the entry. -/
theorem HoldsLock.call {lower : String → String} {time : ℤ} (hlock : HoldsLock table key time)
    (hproper : Proper table clock) (hclock : clock ≤ now) (hnow : now < time)
    (hroom : (behind FailedAttempts.lastAttempt (unexpired table clock) key).length <
      maxFailedAttemptsEntries)
    {call : LockoutCall} (hkept : ¬LockoutService.Clears lower key call) :
    HoldsLock (LockoutService.call lower table now call) key time := by
  obtain ⟨entry, lockedUntil, hget, hlocked, htime⟩ := hlock
  have hpruned := get?_pruneExpiredAttempts_of_locked hproper hclock hget hlocked
    (hnow.trans_le htime) hroom
  cases call with
  | check clientIp username =>
    refine ⟨entry, lockedUntil, ?_, hlocked, htime⟩
    rcases isAccountLocked_cases table (getLockoutKey lower clientIp username) now with
      hsame | ⟨herased, found, ending, hfound, hending, hle⟩
    · rw [LockoutService.call, hsame, hpruned]
    · rw [LockoutService.call, herased, Dict.get?_erase, if_neg, hpruned]
      rintro rfl
      obtain rfl := Option.some.inj (hpruned.symm.trans hfound)
      obtain rfl := Option.some.inj (hlocked.symm.trans hending)
      exact absurd (hnow.trans_le htime) (not_lt.mpr hle)
  | fail clientIp username =>
    by_cases hkey : key = getLockoutKey lower clientIp username
    · -- The entry fails again, so that its lock starts anew.
      have hentry := hproper key entry hget
      have heq := hentry.lockedUntil_eq
      rw [hlocked] at heq
      obtain ⟨hmany, hsome⟩ := Option.ite_none_right_eq_some.mp heq.symm
      refine ⟨failAgain now (some entry), now + minutes 15, ?_, ?_, ?_⟩
      · rw [LockoutService.call, recordFailedAttempt, ← hkey, Dict.get?_set, if_pos rfl, hpruned]
      · exact if_pos (Nat.le_succ_of_le hmany)
      · have hlast := hentry.lastAttempt_le
        have := Option.some.inj hsome
        omega
    · refine ⟨entry, lockedUntil, ?_, hlocked, htime⟩
      rw [LockoutService.call, recordFailedAttempt, Dict.get?_set, if_neg hkey, hpruned]
  | clear clientIp username =>
    refine ⟨entry, lockedUntil, ?_, hlocked, htime⟩
    rw [LockoutService.call, clearFailedAttempts, Dict.get?_erase,
      if_neg fun hsame ↦ hkept hsame.symm, hget]

end AttemptTable

/-! ### Runs -/

namespace LockoutService

open AttemptTable

variable {lower : String → String} {service next : LockoutService} {key : LockoutKey}
  {lockedUntil : ℤ} {event : ℤ × LockoutCall}

theorem step_eq_some_iff :
    step lower service event = some next ↔
      service.clock ≤ event.1 ∧
        next = ⟨call lower service.failedAttempts event.1 event.2, event.1⟩ := by
  rw [step, Option.ite_none_right_eq_some, Option.some_inj, eq_comm (a := next)]

/-- Proper entries, and a lock of the key until it is over. -/
structure Locks (key : LockoutKey) (lockedUntil : ℤ) (service : LockoutService) : Prop where
  proper : Proper service.failedAttempts service.clock
  holdsLock : service.clock < lockedUntil → HoldsLock service.failedAttempts key lockedUntil

/-- The entries are proper after every run. -/
theorem proper_of_run {origin : ℤ} {history : List (ℤ × LockoutCall)}
    (hrun : run (step lower) (start origin) history = some service) :
    Proper service.failedAttempts service.clock := by
  refine invariant_of_forall_mem
    (fun service : LockoutService ↦ Proper service.failedAttempts service.clock)
    (fun service event next hproper (_ : True) hstep ↦ ?_) ?_ (fun _ _ ↦ trivial) hrun
  · obtain ⟨hclock, rfl⟩ := step_eq_some_iff.mp hstep
    exact hproper.call hclock event.2
  · intro key entry hget
    exact absurd hget (Option.some_ne_none entry).symm

/-- A lock is kept by a step from a state with room for its entry. -/
theorem Locks.step (hlocks : Locks key lockedUntil service)
    (hroom : HasRoom key lockedUntil service) (hkept : ¬Clears lower key event.2)
    (hstep : step lower service event = some next) : Locks key lockedUntil next := by
  obtain ⟨hclock, rfl⟩ := step_eq_some_iff.mp hstep
  refine ⟨hlocks.proper.call hclock event.2, fun hnow ↦ ?_⟩
  have hbefore : service.clock < lockedUntil := hclock.trans_lt hnow
  exact (hlocks.holdsLock hbefore).call hlocks.proper hclock hnow (hroom hbefore) hkept

/-- A lock that is there is seen by every check exactly when there is room for its entry. -/
theorem Locks.staysLocked_iff (hlocks : Locks key lockedUntil service) :
    StaysLocked key lockedUntil service ↔ HasRoom key lockedUntil service := by
  constructor
  · intro hstays hbefore
    obtain ⟨entry, -, hget, -⟩ := isAccountLocked_iff.mp (hstays service.clock le_rfl hbefore)
    exact (get?_pruneExpiredAttempts_eq_some_iff.mp hget).2.2
  · intro hroom now hclock hnow
    have hbefore := hclock.trans_lt hnow
    obtain ⟨entry, time, hget, hlocked, htime⟩ := hlocks.holdsLock hbefore
    exact isAccountLocked_iff.mpr ⟨entry, time, get?_pruneExpiredAttempts_of_locked hlocks.proper
      hclock hget hlocked (hnow.trans_le htime) (hroom hbefore), hlocked, hnow.trans_le htime⟩

/-- A lock is not flushed by other calls exactly when its entry has room at every point. -/
theorem everyState_staysLocked_iff {origin : ℤ} {history events : List (ℤ × LockoutCall)}
    {clientIp username : String} {entry : FailedAttempts}
    (hreached : run (LockoutService.step lower) (start origin) history = some service)
    (hget : service.failedAttempts.get? (getLockoutKey lower clientIp username) = some entry)
    (hlocked : entry.lockedUntil = some lockedUntil)
    (hkept : ∀ event ∈ events, ¬Clears lower (getLockoutKey lower clientIp username) event.2) :
    EveryState (LockoutService.step lower) service events
        (StaysLocked (getLockoutKey lower clientIp username) lockedUntil) ↔
      EveryState (LockoutService.step lower) service events
        (HasRoom (getLockoutKey lower clientIp username) lockedUntil) :=
  everyState_congr (Locks (getLockoutKey lower clientIp username) lockedUntil)
    (fun _ _ _ hlocks hevent hstays hstep ↦
      hlocks.step (hlocks.staysLocked_iff.mp hstays) hevent hstep)
    (fun _ hlocks ↦ hlocks.staysLocked_iff)
    ⟨proper_of_run hreached, fun _ ↦ ⟨entry, lockedUntil, hget, hlocked, le_rfl⟩⟩ hkept

end LockoutService

/-! ### A flood of failures -/

namespace AttemptTable

variable {table : AttemptTable} {key : LockoutKey} {now : ℤ}

theorem unexpired_eq_self (hlive : ∀ entry ∈ table.entries, entry.2.isExpired now = false) :
    unexpired table now = table := by
  have hnone : table.entries.filter (fun entry ↦ entry.2.isExpired now) = [] :=
    List.filter_eq_nil_iff.mpr fun entry hentry ↦ by simp [hlive entry hentry]
  rw [unexpired, Dict.eraseWhere, hnone]
  rfl

/-- A table without expired entries that is not too large is left as it is. -/
theorem pruneExpiredAttempts_eq_self
    (hlive : ∀ entry ∈ table.entries, entry.2.isExpired now = false)
    (hlength : table.entries.length ≤ maxFailedAttemptsEntries) :
    pruneExpiredAttempts table now = table := by
  rw [pruneExpiredAttempts, unexpired_eq_self hlive, evictOldest, Nat.sub_eq_zero_of_le hlength,
    List.take_zero]
  rfl

/-- The first failure of a pair appends an entry. -/
theorem entries_recordFailedAttempt
    (hlive : ∀ entry ∈ table.entries, entry.2.isExpired now = false)
    (hlength : table.entries.length ≤ maxFailedAttemptsEntries) (hfresh : key ∉ table.keys) :
    (recordFailedAttempt table key now).entries = table.entries ++ [(key, ⟨1, now, none⟩)] := by
  rw [recordFailedAttempt, pruneExpiredAttempts_eq_self hlive hlength,
    (Dict.get?_eq_none_iff _ _).mpr hfresh, Dict.set, dif_neg hfresh]
  rfl

end AttemptTable

namespace LockoutService

open AttemptTable

variable {lower : String → String} {clientIp : String} {now : ℤ}

/-- Failures of pairs that are not in the table append their entries, as long as it is not too
large. -/
theorem run_fail {service : LockoutService} (usernames : List String)
    (hclock : service.clock ≤ now)
    (hlive : ∀ entry ∈ service.failedAttempts.entries, entry.2.isExpired now = false)
    (hlength : service.failedAttempts.entries.length + usernames.length ≤
      maxFailedAttemptsEntries + 1)
    (hnodup : (usernames.map (getLockoutKey lower clientIp)).Nodup)
    (hfresh : ∀ username ∈ usernames,
      getLockoutKey lower clientIp username ∉ service.failedAttempts.keys) :
    ∃ flooded, run (step lower) service
        (usernames.map fun username ↦ (now, .fail clientIp username)) = some flooded ∧
      flooded.clock ≤ now ∧
      flooded.failedAttempts.entries = service.failedAttempts.entries ++
        usernames.map fun username ↦ (getLockoutKey lower clientIp username, ⟨1, now, none⟩) := by
  induction usernames generalizing service with
  | nil => exact ⟨service, rfl, hclock, (List.append_nil _).symm⟩
  | cons username usernames ih =>
    rw [List.map_cons, List.nodup_cons] at hnodup
    rw [List.length_cons] at hlength
    obtain ⟨next, hstep, hnow, hentries⟩ : ∃ next,
        step lower service (now, .fail clientIp username) = some next ∧ next.clock = now ∧
          next.failedAttempts.entries = service.failedAttempts.entries ++
            [(getLockoutKey lower clientIp username, (⟨1, now, none⟩ : FailedAttempts))] := by
      refine ⟨_, step_eq_some_iff.mpr ⟨hclock, rfl⟩, rfl, ?_⟩
      exact entries_recordFailedAttempt hlive (by omega) (hfresh username (List.mem_cons_self ..))
    have hlater : ∀ entry ∈ next.failedAttempts.entries, entry.2.isExpired now = false := by
      intro entry hentry
      rw [hentries, List.mem_append, List.mem_singleton] at hentry
      rcases hentry with hold | rfl
      · exact hlive entry hold
      · simp [FailedAttempts.isExpired, show (0 : ℤ) ≤ minutes 30 by decide]
    have hroom : next.failedAttempts.entries.length + usernames.length ≤
        maxFailedAttemptsEntries + 1 := by
      rw [hentries, List.length_append, List.length_singleton]
      omega
    have hothers : ∀ other ∈ usernames,
        getLockoutKey lower clientIp other ∉ next.failedAttempts.keys := by
      intro other hother hmem
      rw [Dict.keys, hentries, List.map_append, List.mem_append, List.map_singleton,
        List.mem_singleton] at hmem
      rcases hmem with hold | hnew
      · exact hfresh other (List.mem_cons_of_mem _ hother) hold
      · exact hnodup.1 (hnew.subst (motive := (· ∈ _)) (List.mem_map_of_mem hother))
    obtain ⟨flooded, hrun, hflooded, hall⟩ := ih hnow.le hlater hroom hnodup.2 hothers
    refine ⟨flooded, ?_, hflooded, ?_⟩
    · rw [List.map_cons, run_cons, hstep, Option.bind_some, hrun]
    · rw [hall, hentries, List.append_assoc, List.singleton_append, List.map_cons]

/-- `str.lower` on ASCII text. -/
def lowerAscii (text : String) : String := String.ofList (text.toList.map Char.toLower)

/-- The user name with a number of letters. -/
def letters (count : ℕ) : String := String.ofList (List.replicate (count + 1) 'a')

theorem toList_getLockoutKey_letters (count : ℕ) :
    (getLockoutKey lowerAscii "203.0.113.9" (letters count)).toList =
      "203.0.113.9:".toList ++ List.replicate (count + 1) 'a' := by
  have hne : letters count ≠ "" := by
    intro hempty
    have hlist := congrArg String.toList hempty
    rw [letters, String.toList_ofList] at hlist
    exact absurd hlist (by simp)
  have hstrip : strip (letters count) = letters count := by
    rw [strip, letters, String.toList_ofList, stripChars_eq_self]
    intro char hchar
    rw [List.eq_of_mem_replicate hchar]
    decide
  have hip : strip "203.0.113.9" = "203.0.113.9" := by decide
  rw [getLockoutKey, if_pos (by decide), if_pos hne, hstrip, hip, lowerAscii, letters]
  simp

/-- The keys of different user names are different. -/
theorem nodup_getLockoutKey_letters (count : ℕ) :
    (((List.range count).map letters).map (getLockoutKey lowerAscii "203.0.113.9")).Nodup := by
  rw [List.map_map]
  refine List.nodup_range.map fun first second hsame ↦ ?_
  have hlist : (getLockoutKey lowerAscii "203.0.113.9" (letters first)).toList =
      (getLockoutKey lowerAscii "203.0.113.9" (letters second)).toList :=
    congrArg String.toList hsame
  rw [toList_getLockoutKey_letters, toList_getLockoutKey_letters] at hlist
  have hlength := congrArg List.length (List.append_cancel_left hlist)
  rw [List.length_replicate, List.length_replicate] at hlength
  exact Nat.succ.inj hlength

/-- The key of another address. -/
theorem getLockoutKey_letters_ne (count : ℕ) :
    getLockoutKey lowerAscii "203.0.113.9" (letters count) ≠
      getLockoutKey lowerAscii "198.51.100.7" "admin" := by
  intro hsame
  have hlist := congrArg String.toList hsame
  rw [toList_getLockoutKey_letters] at hlist
  have hhead : "203.0.113.9:".toList.take 1 =
      (getLockoutKey lowerAscii "198.51.100.7" "admin").toList.take 1 := by
    rw [← hlist, List.take_append_of_le_length (by decide)]
  exact absurd hhead (by decide)

/-- Five failures at one time. -/
def fiveFailures : List (ℤ × LockoutCall) := List.replicate 5 (0, .fail "198.51.100.7" "admin")

/-- The service after five failures. -/
def lockedService : LockoutService where
  failedAttempts := Dict.empty.set (getLockoutKey lowerAscii "198.51.100.7" "admin")
    ⟨5, 0, some (minutes 15)⟩
  clock := 0

theorem run_fiveFailures : run (step lowerAscii) (start 0) fiveFailures = some lockedService := by
  decide +kernel

theorem everyState_staysLocked_iff_lockedService :
    EveryState (step lowerAscii) lockedService [(minutes 1, .fail "203.0.113.9" "admin")]
        (StaysLocked (getLockoutKey lowerAscii "198.51.100.7" "admin") (minutes 15)) ↔
      EveryState (step lowerAscii) lockedService [(minutes 1, .fail "203.0.113.9" "admin")]
        (HasRoom (getLockoutKey lowerAscii "198.51.100.7" "admin") (minutes 15)) :=
  everyState_staysLocked_iff run_fiveFailures rfl rfl fun event hevent hclears ↦ by
    rw [List.mem_singleton.mp hevent] at hclears
    exact hclears

/-- Two thousand failures of other pairs flush a lock. -/
theorem exists_not_staysLocked :
    ¬∀ (lower : String → String) (origin : ℤ) (history events : List (ℤ × LockoutCall))
      (service : LockoutService) (clientIp username : String) (entry : FailedAttempts)
      (lockedUntil : ℤ),
      run (step lower) (start origin) history = some service →
      service.failedAttempts.get? (getLockoutKey lower clientIp username) = some entry →
      entry.lockedUntil = some lockedUntil →
      (∀ event ∈ events, ∃ otherIp otherName, event.2 = .fail otherIp otherName ∧
        getLockoutKey lower otherIp otherName ≠ getLockoutKey lower clientIp username) →
      EveryState (step lower) service events
        (StaysLocked (getLockoutKey lower clientIp username) lockedUntil) := by
  intro hall
  have hentries : lockedService.failedAttempts.entries =
      [(getLockoutKey lowerAscii "198.51.100.7" "admin", ⟨5, 0, some (minutes 15)⟩)] := rfl
  have hlive : ∀ entry ∈ lockedService.failedAttempts.entries,
      entry.2.isExpired (minutes 1) = false := by
    intro entry hentry
    rw [hentries, List.mem_singleton] at hentry
    rw [hentry]
    decide
  have hfresh : ∀ username ∈ (List.range 2000).map letters,
      getLockoutKey lowerAscii "203.0.113.9" username ∉ lockedService.failedAttempts.keys := by
    intro username husername hmem
    obtain ⟨count, -, rfl⟩ := List.mem_map.mp husername
    rw [Dict.keys, hentries, List.map_singleton, List.mem_singleton] at hmem
    exact getLockoutKey_letters_ne count hmem
  obtain ⟨flooded, hrun, hclock, hflooded⟩ := run_fail ((List.range 2000).map letters)
    (show lockedService.clock ≤ minutes 1 by decide) hlive
    (by simp [hentries, maxFailedAttemptsEntries]) (nodup_getLockoutKey_letters 2000) hfresh
  have hstays := hall lowerAscii 0 fiveFailures _ lockedService "198.51.100.7" "admin" _ _
    run_fiveFailures rfl rfl ?_ _ [] flooded (List.append_nil _).symm hrun (minutes 1) hclock
    (by decide)
  · obtain ⟨entry, -, hget, -⟩ := isAccountLocked_iff.mp hstays
    have hroom := (get?_pruneExpiredAttempts_eq_some_iff.mp hget).2.2
    rw [hentries, List.singleton_append] at hflooded
    have hnew : ∀ entry ∈ ((List.range 2000).map letters).map fun username ↦
        (getLockoutKey lowerAscii "203.0.113.9" username,
          (⟨1, minutes 1, none⟩ : FailedAttempts)), entry.2 = ⟨1, minutes 1, none⟩ := by
      intro entry hentry
      obtain ⟨username, -, rfl⟩ := List.mem_map.mp hentry
      rfl
    have hlater : ∀ entry ∈ flooded.failedAttempts.entries,
        entry.2.isExpired (minutes 1) = false := by
      intro entry hentry
      rw [hflooded] at hentry
      rcases List.mem_cons.mp hentry with rfl | hmem
      · decide
      · rw [hnew entry hmem]
        decide
    have horder : flooded.failedAttempts.entries.Pairwise fun first second ↦
        first.2.lastAttempt ≤ second.2.lastAttempt := by
      rw [hflooded, List.pairwise_cons]
      refine ⟨fun entry hmem ↦ ?_,
        List.pairwise_of_forall_mem_list fun first hfirst second hsecond ↦ ?_⟩
      · rw [hnew entry hmem]
        decide
      · rw [hnew first hfirst, hnew second hsecond]
    rw [unexpired_eq_self hlater, behind, oldestFirst, byAge_eq_self _ horder, hflooded,
      List.dropWhile_cons_of_neg (by simp), List.tail_cons, List.length_map, List.length_map,
      List.length_range, maxFailedAttemptsEntries] at hroom
    exact absurd hroom (lt_irrefl 2000)
  · intro event hevent
    obtain ⟨username, husername, rfl⟩ := List.mem_map.mp hevent
    obtain ⟨count, -, rfl⟩ := List.mem_map.mp husername
    exact ⟨_, _, rfl, getLockoutKey_letters_ne count⟩

end LockoutService

end Lnmp.Sessions
