import Lnmp.Foundation.Runs
import Mathlib.Algebra.Order.Group.Int

/-!
# The election of the active dispatcher

The workers of the API share a database, and the one whose connection holds a session advisory lock
dispatches alerts (`services/alert_dispatcher.py`). A worker asks for the lock when it starts, and
on standby again and again. It becomes the leader with the answer, and stays it until it stops. The
lock is released when its session ends, which a leader does not notice.

At most one worker accepts events in every run in which no session that holds the lock ends while a
running worker has its connection (`everyState_hasSingleLeader`).

The lifespan of a worker calls `start` and `stop` one after the other. Every `await` in them, and in
the loop of the standby, is a point at which other workers go on.
-/

set_option autoImplicit false
set_option relaxedAutoImplicit false

namespace Lnmp.Alerts

open Lnmp.Foundation.Runs

/-- A call of `start` or `stop`, at one of its awaits. -/
inductive Call
  | connecting
  | asking (conn : ℕ)
  | answered (conn : ℕ) (acquired : Bool)
  | yielding
  | stopping
  | unlocking
  | closing
  deriving DecidableEq

/-- The call is one of `start`. -/
@[simp] def Call.isStart : Call → Bool
  | .connecting | .asking _ | .answered _ _ | .yielding => true
  | .stopping | .unlocking | .closing => false

/-- The connection with which `start` asks for the lock. -/
@[simp] def Call.conn? : Call → Option ℕ
  | .asking conn | .answered conn _ => some conn
  | .connecting | .yielding | .stopping | .unlocking | .closing => none

/-- The task of `_standby_election_loop`, at one of its awaits. -/
inductive Standby
  | sleeping
  | connecting
  | asking (conn : ℕ)
  | answered (conn : ℕ) (acquired : Bool)
  deriving DecidableEq

/-- The connection with which the task asks for the lock. -/
@[simp] def Standby.conn? : Standby → Option ℕ
  | .asking conn | .answered conn _ => some conn
  | .sleeping | .connecting => none

/-- The dispatcher of a worker. -/
structure Candidate where
  running : Bool
  isLeader : Bool
  stopEvent : Bool
  lockConn : Option ℕ
  call : Option Call
  electionTask : Option Standby
  deriving DecidableEq

/-- The workers and the database: the session that holds the lock, those that have ended, and the
number of the next one. -/
structure Election (Worker : Type*) where
  candidate : Worker → Candidate
  lock : Option ℕ
  ended : List ℕ
  nextConn : ℕ

/-- What happens next. -/
inductive ElectionEvent (Worker : Type*)
  | start (worker : Worker)
  | connect (worker : Worker)
  | execute (worker : Worker)
  | answer (worker : Worker)
  | yield (worker : Worker)
  | fail (worker : Worker)
  | stop (worker : Worker)
  | cancelTasks (worker : Worker)
  | unlock (worker : Worker)
  | close (worker : Worker)
  | wake (worker : Worker)
  | reconnect (worker : Worker)
  | retry (worker : Worker)
  | promote (worker : Worker)
  | retryFails (worker : Worker)
  | endSession (conn : ℕ)

namespace Candidate

/-- A dispatcher that was not started. -/
def init : Candidate where
  running := false
  isLeader := false
  stopEvent := false
  lockConn := none
  call := none
  electionTask := none

/-- `start` up to its first await. -/
def start (candidate : Candidate) : Candidate :=
  if candidate.running then candidate
  else { candidate with running := true, stopEvent := false, call := some .connecting }

/-- `start` goes to standby. -/
def standBy (candidate : Candidate) : Candidate :=
  { candidate with
    lockConn := none, isLeader := false, call := none, electionTask := some .sleeping }

/-- `stop` up to its first await. -/
def stop (candidate : Candidate) : Candidate :=
  { candidate with
    running := false, stopEvent := true, electionTask := none, call := some .stopping }

/-- The end of `stop`. -/
def stopped (candidate : Candidate) : Candidate :=
  { candidate with lockConn := none, isLeader := false, call := none }

/-- `enqueue_event` takes events. -/
def accepts (candidate : Candidate) : Bool := candidate.running && candidate.isLeader

end Candidate

namespace Election

variable {Worker : Type*} [DecidableEq Worker]

/-- No worker was started. -/
def init : Election Worker where
  candidate _ := Candidate.init
  lock := none
  ended := []
  nextConn := 0

/-- A worker goes on. -/
def proceed (election : Election Worker) (worker : Worker) (candidate : Candidate) :
    Election Worker :=
  { election with candidate := Function.update election.candidate worker candidate }

/-- `pg_try_advisory_lock` in a session succeeds. -/
def admits (election : Election Worker) (conn : ℕ) : Bool :=
  election.lock = none ∨ election.lock = some conn

/-- `pg_try_advisory_lock`. -/
def tryLock (election : Election Worker) (conn : ℕ) : Election Worker :=
  { election with lock := if election.admits conn then some conn else election.lock }

/-- `pg_advisory_unlock`, which fails in a session that has ended. -/
def unlock (election : Election Worker) (conn : ℕ) : Election Worker :=
  { election with
    lock := if election.lock = some conn ∧ conn ∉ election.ended then none else election.lock }

/-- The end of a session releases its lock. -/
def endSession (election : Election Worker) (conn : ℕ) : Election Worker :=
  { election with
    lock := if election.lock = some conn then none else election.lock
    ended := conn :: election.ended }

/-- The state after an event, `none` when the event cannot happen. -/
def step (election : Election Worker) : ElectionEvent Worker → Option (Election Worker)
  | .start worker =>
    let candidate := election.candidate worker
    match candidate.call with
    | none => some (election.proceed worker candidate.start)
    | _ => none
  | .connect worker =>
    let candidate := election.candidate worker
    match candidate.call with
    | some .connecting =>
      some ({ election with nextConn := election.nextConn + 1 }.proceed worker
        { candidate with
          lockConn := some election.nextConn, call := some (.asking election.nextConn) })
    | _ => none
  | .execute worker =>
    let candidate := election.candidate worker
    match candidate.call with
    | some (.asking conn) =>
      if conn ∉ election.ended then
        some ((election.tryLock conn).proceed worker
          { candidate with call := some (.answered conn (election.admits conn)) })
      else none
    | _ => none
  | .answer worker =>
    let candidate := election.candidate worker
    match candidate.call with
    | some (.answered _ true) =>
      some (election.proceed worker { candidate with isLeader := true, call := none })
    | some (.answered _ false) =>
      some (election.proceed worker { candidate with call := some .yielding })
    | _ => none
  | .yield worker =>
    let candidate := election.candidate worker
    match candidate.call with
    | some .yielding => some (election.proceed worker candidate.standBy)
    | _ => none
  | .fail worker =>
    let candidate := election.candidate worker
    match candidate.call with
    | some .connecting | some (.asking _) | some (.answered _ _) | some .yielding =>
      some (election.proceed worker candidate.standBy)
    | _ => none
  | .stop worker =>
    let candidate := election.candidate worker
    match candidate.call with
    | none => some (election.proceed worker candidate.stop)
    | _ => none
  | .cancelTasks worker =>
    let candidate := election.candidate worker
    match candidate.call with
    | some .stopping =>
      if candidate.lockConn = none then some (election.proceed worker candidate.stopped)
      else some (election.proceed worker
        { candidate with call := some (if candidate.isLeader then .unlocking else .closing) })
    | _ => none
  | .unlock worker =>
    let candidate := election.candidate worker
    match candidate.call, candidate.lockConn with
    | some .unlocking, some conn =>
      some ((election.unlock conn).proceed worker { candidate with call := some .closing })
    | _, _ => none
  | .close worker =>
    let candidate := election.candidate worker
    match candidate.call with
    | some .closing => some (election.proceed worker candidate.stopped)
    | _ => none
  | .wake worker =>
    let candidate := election.candidate worker
    match candidate.electionTask with
    | some .sleeping =>
      some (election.proceed worker
        { candidate with
          electionTask := if candidate.stopEvent then none else some .connecting })
    | _ => none
  | .reconnect worker =>
    let candidate := election.candidate worker
    match candidate.electionTask with
    | some .connecting =>
      some ({ election with nextConn := election.nextConn + 1 }.proceed worker
        { candidate with electionTask := some (.asking election.nextConn) })
    | _ => none
  | .retry worker =>
    let candidate := election.candidate worker
    match candidate.electionTask with
    | some (.asking conn) =>
      if conn ∉ election.ended then
        some ((election.tryLock conn).proceed worker
          { candidate with electionTask := some (.answered conn (election.admits conn)) })
      else none
    | _ => none
  | .promote worker =>
    let candidate := election.candidate worker
    match candidate.electionTask with
    | some (.answered conn true) =>
      some (election.proceed worker
        { candidate with lockConn := some conn, isLeader := true, electionTask := none })
    | some (.answered _ false) =>
      some (election.proceed worker { candidate with electionTask := some .sleeping })
    | _ => none
  | .retryFails worker =>
    let candidate := election.candidate worker
    match candidate.electionTask with
    | some .connecting | some (.asking _) | some (.answered _ _) =>
      some (election.proceed worker { candidate with electionTask := some .sleeping })
    | _ => none
  | .endSession conn => some (election.endSession conn)

/-- At most one worker accepts events. -/
def HasSingleLeader (election : Election Worker) : Prop :=
  ∀ first second, (election.candidate first).accepts = true →
    (election.candidate second).accepts = true → first = second

end Election

/-! ### Connections -/

namespace Candidate

/-- The worker has the connection. -/
def Owns (candidate : Candidate) (conn : ℕ) : Prop :=
  candidate.lockConn = some conn ∨ candidate.electionTask.bind Standby.conn? = some conn

/-- The worker runs, and acts on the connection having the lock, or is about to. -/
def Trusts (candidate : Candidate) (conn : ℕ) : Prop :=
  candidate.running = true ∧
    ((candidate.isLeader = true ∧ candidate.lockConn = some conn) ∨
      candidate.call = some (.answered conn true) ∨
        candidate.electionTask = some (.answered conn true))

/-- What holds of a dispatcher by itself. It is the leader only while it runs or stops, and with a
connection. -/
structure Proper (candidate : Candidate) : Prop where
  not_leader_of_idle : candidate.running = false → candidate.call = none →
    candidate.isLeader = false
  starting : candidate.call.any Call.isStart = true →
    candidate.running = true ∧ candidate.isLeader = false ∧ candidate.electionTask = none
  stopping : candidate.call.any (!·.isStart) = true → candidate.running = false
  lockConn_eq : ∀ conn, candidate.call.bind Call.conn? = some conn →
    candidate.lockConn = some conn
  lockConn_ne_none : candidate.running = true → candidate.isLeader = true →
    candidate.lockConn ≠ none
  electionTask_eq_none : candidate.running = false → candidate.electionTask = none

variable {candidate : Candidate} {conn : ℕ}

theorem Trusts.owns (htrusts : candidate.Trusts conn) (hproper : candidate.Proper) :
    candidate.Owns conn := by
  obtain ⟨-, ⟨-, hconn⟩ | hcall | htask⟩ := htrusts
  · exact Or.inl hconn
  · exact Or.inl (hproper.lockConn_eq conn (by rw [hcall]; rfl))
  · exact Or.inr (by rw [htask]; rfl)

theorem not_trusts_of_not_running (hrunning : candidate.running = false) :
    ¬candidate.Trusts conn := fun htrusts ↦
  absurd (hrunning.symm.trans htrusts.1) Bool.false_ne_true

end Candidate

namespace Election

variable {Worker : Type*} [DecidableEq Worker] {election base next : Election Worker}
  {worker : Worker} {candidate : Candidate} {conn : ℕ}

/-- Every connection is of one worker, and what a running worker trusts in is the connection that
has the lock. -/
structure Sound (election : Election Worker) : Prop where
  proper : ∀ worker, (election.candidate worker).Proper
  owns_unique : ∀ first second conn, (election.candidate first).Owns conn →
    (election.candidate second).Owns conn → first = second
  lt_nextConn : ∀ worker conn, (election.candidate worker).Owns conn → conn < election.nextConn
  lock_eq : ∀ worker conn, (election.candidate worker).Trusts conn → election.lock = some conn

omit [DecidableEq Worker] in
theorem Sound.hasSingleLeader (hsound : Sound election) : HasSingleLeader election := by
  have hlock : ∀ worker, (election.candidate worker).accepts = true →
      ∃ conn, (election.candidate worker).Owns conn ∧ election.lock = some conn := by
    intro worker haccepts
    obtain ⟨hrunning, hleader⟩ := Bool.and_eq_true_iff.mp haccepts
    obtain ⟨conn, hconn⟩ :=
      Option.ne_none_iff_exists'.mp ((hsound.proper worker).lockConn_ne_none hrunning hleader)
    exact ⟨conn, Or.inl hconn, hsound.lock_eq worker conn ⟨hrunning, Or.inl ⟨hleader, hconn⟩⟩⟩
  intro first second hfirst hsecond
  obtain ⟨conn, howns, hheld⟩ := hlock first hfirst
  obtain ⟨other, hother, hsame⟩ := hlock second hsecond
  obtain rfl := Option.some.inj (hheld.symm.trans hsame)
  exact hsound.owns_unique first second conn howns hother

/-- A worker goes on, maybe with a new connection, while the database changes the lock only as the
others allow. -/
theorem Sound.proceed (hsound : Sound election) (hcandidates : base.candidate = election.candidate)
    (hnext : election.nextConn ≤ base.nextConn) (hproper : candidate.Proper)
    (howns : ∀ conn, candidate.Owns conn → (election.candidate worker).Owns conn ∨
      election.nextConn ≤ conn ∧ conn < base.nextConn)
    (htrusts : ∀ conn, candidate.Trusts conn → base.lock = some conn)
    (hothers : ∀ other conn, other ≠ worker → (election.candidate other).Trusts conn →
      base.lock = some conn) :
    Sound (base.proceed worker candidate) := by
  have hself : (base.proceed worker candidate).candidate worker = candidate :=
    Function.update_self ..
  have hother : ∀ other, other ≠ worker →
      (base.proceed worker candidate).candidate other = election.candidate other := by
    intro other hne
    exact (Function.update_of_ne hne ..).trans (congrFun hcandidates other)
  -- A connection of the worker is not one of another.
  have hdistinct : ∀ other conn, other ≠ worker → candidate.Owns conn →
      ¬(election.candidate other).Owns conn := by
    intro other conn hne hmine htheirs
    rcases howns conn hmine with hbefore | ⟨hnew, -⟩
    · exact hne (hsound.owns_unique other worker conn htheirs hbefore)
    · exact absurd (hsound.lt_nextConn other conn htheirs) (not_lt.mpr hnew)
  refine ⟨fun other ↦ ?_, fun first second conn hfirst hsecond ↦ ?_, fun other conn hconn ↦ ?_,
    fun other conn hconn ↦ ?_⟩
  · by_cases hworker : other = worker
    · rw [hworker, hself]
      exact hproper
    · rw [hother other hworker]
      exact hsound.proper other
  · by_cases hfirstWorker : first = worker <;> by_cases hsecondWorker : second = worker
    · rw [hfirstWorker, hsecondWorker]
    · rw [hfirstWorker, hself] at hfirst
      rw [hother second hsecondWorker] at hsecond
      exact absurd hsecond (hdistinct second conn hsecondWorker hfirst)
    · rw [hsecondWorker, hself] at hsecond
      rw [hother first hfirstWorker] at hfirst
      exact absurd hfirst (hdistinct first conn hfirstWorker hsecond)
    · rw [hother first hfirstWorker] at hfirst
      rw [hother second hsecondWorker] at hsecond
      exact hsound.owns_unique first second conn hfirst hsecond
  · show conn < base.nextConn
    by_cases hworker : other = worker
    · rw [hworker, hself] at hconn
      rcases howns conn hconn with hbefore | ⟨-, hlt⟩
      · exact (hsound.lt_nextConn worker conn hbefore).trans_le hnext
      · exact hlt
    · rw [hother other hworker] at hconn
      exact (hsound.lt_nextConn other conn hconn).trans_le hnext
  · show base.lock = some conn
    by_cases hworker : other = worker
    · rw [hworker, hself] at hconn
      exact htrusts conn hconn
    · rw [hother other hworker] at hconn
      exact hothers other conn hworker hconn

/-- A worker goes on with the connections that it has, and trusts in no other than before. -/
theorem Sound.proceed_self (hsound : Sound election) (hproper : candidate.Proper)
    (howns : ∀ conn, candidate.Owns conn → (election.candidate worker).Owns conn)
    (htrusts : ∀ conn, candidate.Trusts conn → (election.candidate worker).Trusts conn) :
    Sound (election.proceed worker candidate) :=
  hsound.proceed rfl le_rfl hproper (fun conn hconn ↦ Or.inl (howns conn hconn))
    (fun conn hconn ↦ hsound.lock_eq worker conn (htrusts conn hconn))
    fun other conn _ hconn ↦ hsound.lock_eq other conn hconn

/-- A worker asks for the lock. When it gets it, no other running worker trusted in it. -/
theorem Sound.proceed_tryLock (hsound : Sound election) (hproper : candidate.Proper)
    (hconn : (election.candidate worker).Owns conn)
    (howns : ∀ conn, candidate.Owns conn → (election.candidate worker).Owns conn)
    (htrusts : ∀ other, candidate.Trusts other →
      (election.candidate worker).Trusts other ∨ other = conn ∧ election.admits conn = true) :
    Sound ((election.tryLock conn).proceed worker candidate) := by
  have hkept : ∀ other held, other ≠ worker → (election.candidate other).Trusts held →
      (election.tryLock conn).lock = some held := by
    intro other held hne hheld
    have hlock := hsound.lock_eq other held hheld
    have hforeign : held ≠ conn := by
      rintro rfl
      exact hne (hsound.owns_unique other worker held (hheld.owns (hsound.proper other)) hconn)
    have hdenied : election.admits conn = false := by
      simp [admits, hlock, hforeign]
    simp [tryLock, hdenied, hlock]
  refine hsound.proceed rfl le_rfl hproper (fun conn hconn ↦ Or.inl (howns conn hconn))
    (fun other hother ↦ ?_) hkept
  rcases htrusts other hother with hbefore | ⟨rfl, hadmits⟩
  · have hlock := hsound.lock_eq worker other hbefore
    by_cases hadmits : election.admits conn = true
    · have hsame : election.lock = some conn := by
        simpa [admits, hlock] using hadmits
      simp [tryLock, hadmits, ← hsame, hlock]
    · simp [tryLock, hadmits, hlock]
  · simp [tryLock, hadmits]

/-! ### Steps -/

/-- A session that holds the lock ends only while no running worker has its connection. -/
def KeepsSession (election : Election Worker) : ElectionEvent Worker → Prop
  | .endSession conn => election.lock = some conn →
      ∀ worker, (election.candidate worker).running = true → ¬(election.candidate worker).Owns conn
  | _ => True

theorem Sound.start (hsound : Sound election)
    (hstep : step election (.start worker) = some next) : Sound next := by
  simp only [step] at hstep
  split at hstep
  · rename_i hcall
    obtain rfl := Option.some.inj hstep
    have hproper := hsound.proper worker
    rw [Candidate.start]
    split
    · exact hsound.proceed_self hproper (fun _ howns ↦ howns) fun _ htrusts ↦ htrusts
    · rename_i hrunning
      rw [Bool.not_eq_true] at hrunning
      have hnot := hproper.not_leader_of_idle hrunning hcall
      have hnone := hproper.electionTask_eq_none hrunning
      refine hsound.proceed_self ?_ (fun conn howns ↦ ?_) fun conn htrusts ↦ ?_
      · constructor <;> simp_all
      · simpa [Candidate.Owns, hcall] using howns
      · simp [Candidate.Trusts, hnot, hnone] at htrusts
  · exact absurd hstep.symm (Option.some_ne_none next)

theorem Sound.connect (hsound : Sound election)
    (hstep : step election (.connect worker) = some next) : Sound next := by
  simp only [step] at hstep
  split at hstep
  · rename_i hcall
    obtain rfl := Option.some.inj hstep
    obtain ⟨hidle, hstarting, hstopping, hconn, hleader, htask⟩ := hsound.proper worker
    obtain ⟨hrunning, hnot, hidleTask⟩ := hstarting (by rw [hcall]; rfl)
    refine hsound.proceed rfl (Nat.le_succ _) ?_ (fun conn howns ↦ ?_) (fun conn htrusts ↦ ?_)
      fun other conn _ htrusts ↦ hsound.lock_eq other conn htrusts
    · constructor <;> simp_all
    · rcases howns with hlock | hstandby
      · obtain rfl := Option.some.inj hlock
        exact Or.inr ⟨le_rfl, Nat.lt_succ_self _⟩
      · exact Or.inl (Or.inr hstandby)
    · refine hsound.lock_eq worker conn ?_
      simpa [Candidate.Trusts, hnot, hcall] using htrusts
  · exact absurd hstep.symm (Option.some_ne_none next)

theorem Sound.execute (hsound : Sound election)
    (hstep : step election (.execute worker) = some next) : Sound next := by
  simp only [step] at hstep
  split at hstep
  · rename_i conn hcall
    rw [Option.ite_none_right_eq_some] at hstep
    obtain rfl := Option.some.inj hstep.2
    obtain ⟨hidle, hstarting, hstopping, hconn, hleader, htask⟩ := hsound.proper worker
    obtain ⟨hrunning, hnot, hidleTask⟩ := hstarting (by rw [hcall]; rfl)
    refine hsound.proceed_tryLock ?_ (Or.inl (hconn conn (by rw [hcall]; rfl)))
      (fun _ howns ↦ howns)
      fun other htrusts ↦ ?_
    · constructor <;> simp_all
    · obtain ⟨-, ⟨hlead, -⟩ | hanswered | hstandby⟩ := htrusts
      · exact absurd (hnot.symm.trans hlead) Bool.false_ne_true
      · obtain ⟨rfl, hadmits⟩ := Call.answered.inj (Option.some.inj hanswered)
        exact Or.inr ⟨rfl, hadmits⟩
      · exact Or.inl ⟨hrunning, Or.inr (Or.inr hstandby)⟩
  · exact absurd hstep.symm (Option.some_ne_none next)

theorem Sound.answer (hsound : Sound election)
    (hstep : step election (.answer worker) = some next) : Sound next := by
  simp only [step] at hstep
  split at hstep
  · rename_i conn hcall
    obtain rfl := Option.some.inj hstep
    obtain ⟨hidle, hstarting, hstopping, hconn, hleader, htask⟩ := hsound.proper worker
    obtain ⟨hrunning, hnot, hidleTask⟩ := hstarting (by rw [hcall]; rfl)
    have hlock := hconn conn (by rw [hcall]; rfl)
    refine hsound.proceed_self ?_ (fun _ howns ↦ howns) fun other htrusts ↦ ?_
    · constructor <;> simp_all
    · obtain ⟨-, ⟨-, hsame⟩ | hnone | hstandby⟩ := htrusts
      · obtain rfl := Option.some.inj (hlock.symm.trans hsame)
        exact ⟨hrunning, Or.inr (Or.inl hcall)⟩
      · exact absurd hnone.symm (Option.some_ne_none _)
      · exact ⟨hrunning, Or.inr (Or.inr hstandby)⟩
  · rename_i conn hcall
    obtain rfl := Option.some.inj hstep
    obtain ⟨hidle, hstarting, hstopping, hconn, hleader, htask⟩ := hsound.proper worker
    obtain ⟨hrunning, hnot, hidleTask⟩ := hstarting (by rw [hcall]; rfl)
    refine hsound.proceed_self ?_ (fun _ howns ↦ howns) fun other htrusts ↦ ?_
    · constructor <;> simp_all
    · simpa [Candidate.Trusts, hnot, hcall] using htrusts
  · exact absurd hstep.symm (Option.some_ne_none next)

/-- A start that goes to standby gives up its connection. -/
theorem Sound.standBy (hsound : Sound election) {call : Call}
    (hcall : (election.candidate worker).call = some call) (hstart : call.isStart = true) :
    Sound (election.proceed worker (election.candidate worker).standBy) := by
  obtain ⟨hidle, hstarting, hstopping, hconn, hleader, htask⟩ := hsound.proper worker
  obtain ⟨hrunning, hnot, hidleTask⟩ := hstarting (by rw [hcall]; exact hstart)
  refine hsound.proceed_self ?_ (fun other howns ↦ ?_) fun other htrusts ↦ ?_
  · constructor <;> simp_all [Candidate.standBy]
  · simp [Candidate.Owns, Candidate.standBy] at howns
  · simp [Candidate.Trusts, Candidate.standBy] at htrusts

/-- A dispatcher that does not run trusts in no connection. -/
theorem Sound.proceed_stopped (hsound : Sound election) (hproper : candidate.Proper)
    (hrunning : candidate.running = false)
    (howns : ∀ conn, candidate.Owns conn → (election.candidate worker).Owns conn) :
    Sound (election.proceed worker candidate) :=
  hsound.proceed_self hproper howns fun _ htrusts ↦
    absurd htrusts (Candidate.not_trusts_of_not_running hrunning)

theorem Sound.stop (hsound : Sound election)
    (hstep : step election (.stop worker) = some next) : Sound next := by
  simp only [step] at hstep
  split at hstep
  · obtain rfl := Option.some.inj hstep
    refine hsound.proceed_stopped ?_ rfl fun conn howns ↦ Or.inl ?_
    · constructor <;> simp [Candidate.stop]
    · simpa [Candidate.Owns, Candidate.stop] using howns
  · exact absurd hstep.symm (Option.some_ne_none next)

theorem Sound.stopped (hsound : Sound election) {call : Call}
    (hcall : (election.candidate worker).call = some call) (hstop : call.isStart = false) :
    Sound (election.proceed worker (election.candidate worker).stopped) := by
  have hproper := hsound.proper worker
  have hrunning := hproper.stopping (by rw [hcall, Option.any_some, hstop]; rfl)
  have hnone := hproper.electionTask_eq_none hrunning
  refine hsound.proceed_stopped ?_ hrunning fun conn howns ↦ ?_
  · constructor <;> simp_all [Candidate.stopped]
  · simp [Candidate.Owns, Candidate.stopped, hnone] at howns

theorem Sound.cancelTasks (hsound : Sound election)
    (hstep : step election (.cancelTasks worker) = some next) : Sound next := by
  simp only [step] at hstep
  split at hstep
  · rename_i hcall
    split at hstep
    · obtain rfl := Option.some.inj hstep
      exact hsound.stopped hcall rfl
    · obtain rfl := Option.some.inj hstep
      have hproper := hsound.proper worker
      have hrunning := hproper.stopping (by rw [hcall]; rfl)
      have hnone := hproper.electionTask_eq_none hrunning
      refine hsound.proceed_stopped ?_ hrunning fun _ howns ↦ howns
      split <;> constructor <;> simp_all
  · exact absurd hstep.symm (Option.some_ne_none next)

theorem Sound.unlock (hsound : Sound election)
    (hstep : step election (.unlock worker) = some next) : Sound next := by
  simp only [step] at hstep
  split at hstep
  · rename_i conn hcall hlock
    obtain rfl := Option.some.inj hstep
    have hproper := hsound.proper worker
    have hrunning := hproper.stopping (by rw [hcall]; rfl)
    have hnone := hproper.electionTask_eq_none hrunning
    refine hsound.proceed rfl le_rfl ?_ (fun _ howns ↦ Or.inl howns)
      (fun _ htrusts ↦ absurd htrusts (Candidate.not_trusts_of_not_running hrunning))
      fun other held hne htrusts ↦ ?_
    · constructor <;> simp_all
    · -- The lock of another running worker is not the one that is released.
      have hheld := hsound.lock_eq other held htrusts
      have hforeign : held ≠ conn := by
        rintro rfl
        exact hne (hsound.owns_unique other worker held (htrusts.owns (hsound.proper other))
          (Or.inl hlock))
      simp [Election.unlock, hheld, hforeign]
  · exact absurd hstep.symm (Option.some_ne_none next)

theorem Sound.wake (hsound : Sound election)
    (hstep : step election (.wake worker) = some next) : Sound next := by
  simp only [step] at hstep
  split at hstep
  · rename_i htask
    obtain rfl := Option.some.inj hstep
    obtain ⟨hidle, hstarting, hstopping, hconn, hleader, hnone⟩ := hsound.proper worker
    refine hsound.proceed_self ?_ (fun conn howns ↦ ?_) fun conn htrusts ↦ ?_
    · split <;> constructor <;> simp_all
    · refine howns.imp_right fun hstandby ↦ ?_
      split at hstandby <;> exact absurd hstandby.symm (Option.some_ne_none conn)
    · obtain ⟨hrunning, hleads | hanswered | hstandby⟩ := htrusts
      · exact ⟨hrunning, Or.inl hleads⟩
      · exact ⟨hrunning, Or.inr (Or.inl hanswered)⟩
      · dsimp only at hstandby
        split at hstandby <;> simp at hstandby
  · exact absurd hstep.symm (Option.some_ne_none next)

theorem Sound.reconnect (hsound : Sound election)
    (hstep : step election (.reconnect worker) = some next) : Sound next := by
  simp only [step] at hstep
  split at hstep
  · rename_i htask
    obtain rfl := Option.some.inj hstep
    obtain ⟨hidle, hstarting, hstopping, hconn, hleader, hnone⟩ := hsound.proper worker
    refine hsound.proceed rfl (Nat.le_succ _) ?_ (fun conn howns ↦ ?_) (fun conn htrusts ↦ ?_)
      fun other conn _ htrusts ↦ hsound.lock_eq other conn htrusts
    · constructor <;> simp_all
    · rcases howns with hlock | hstandby
      · exact Or.inl (Or.inl hlock)
      · obtain rfl := Option.some.inj hstandby
        exact Or.inr ⟨le_rfl, Nat.lt_succ_self _⟩
    · refine hsound.lock_eq worker conn ?_
      simpa [Candidate.Trusts, htask] using htrusts
  · exact absurd hstep.symm (Option.some_ne_none next)

theorem Sound.retry (hsound : Sound election)
    (hstep : step election (.retry worker) = some next) : Sound next := by
  simp only [step] at hstep
  split at hstep
  · rename_i conn htask
    rw [Option.ite_none_right_eq_some] at hstep
    obtain rfl := Option.some.inj hstep.2
    obtain ⟨hidle, hstarting, hstopping, hconn, hleader, hnone⟩ := hsound.proper worker
    refine hsound.proceed_tryLock ?_ (Or.inr (by rw [htask]; rfl)) (fun other howns ↦ ?_)
      fun other htrusts ↦ ?_
    · constructor <;> simp_all
    · simpa [Candidate.Owns, htask] using howns
    · obtain ⟨hrunning, hleads | hanswered | hstandby⟩ := htrusts
      · exact Or.inl ⟨hrunning, Or.inl hleads⟩
      · exact Or.inl ⟨hrunning, Or.inr (Or.inl hanswered)⟩
      · obtain ⟨rfl, hadmits⟩ := Standby.answered.inj (Option.some.inj hstandby)
        exact Or.inr ⟨rfl, hadmits⟩
  · exact absurd hstep.symm (Option.some_ne_none next)

/-- The task goes back to sleep. -/
theorem Sound.sleep (hsound : Sound election) {standby : Standby}
    (htask : (election.candidate worker).electionTask = some standby) :
    Sound (election.proceed worker
      { election.candidate worker with electionTask := some .sleeping }) := by
  obtain ⟨hidle, hstarting, hstopping, hconn, hleader, hnone⟩ := hsound.proper worker
  refine hsound.proceed_self ?_ (fun conn howns ↦ ?_) fun conn htrusts ↦ ?_
  · constructor <;> simp_all
  · exact howns.imp_right fun hsleeping ↦ absurd hsleeping.symm (Option.some_ne_none conn)
  · obtain ⟨hrunning, hleads | hanswered | hstandby⟩ := htrusts
    · exact ⟨hrunning, Or.inl hleads⟩
    · exact ⟨hrunning, Or.inr (Or.inl hanswered)⟩
    · exact absurd (Option.some.inj hstandby) Standby.noConfusion

theorem Sound.promote (hsound : Sound election)
    (hstep : step election (.promote worker) = some next) : Sound next := by
  simp only [step] at hstep
  split at hstep
  · rename_i conn htask
    obtain rfl := Option.some.inj hstep
    obtain ⟨hidle, hstarting, hstopping, hconn, hleader, hnone⟩ := hsound.proper worker
    -- A worker that is being started has no such task.
    have hcall : (election.candidate worker).call.any Call.isStart = false := by
      by_contra hstart
      obtain ⟨-, -, hidleTask⟩ := hstarting (Bool.eq_true_of_not_eq_false hstart)
      exact absurd (htask.symm.trans hidleTask) (Option.some_ne_none _)
    have hasks : (election.candidate worker).call.bind Call.conn? = none := by
      cases hcurrent : (election.candidate worker).call with
      | none => rfl
      | some call => cases call <;> simp_all
    refine hsound.proceed_self ?_ (fun other howns ↦ ?_) fun other htrusts ↦ ?_
    · refine ⟨?_, ?_, ?_, fun other hother ↦ ?_, ?_, ?_⟩
      case refine_4 => exact absurd (hother.symm.trans hasks) (Option.some_ne_none other)
      all_goals simp_all
    · rcases howns with hlock | hstandby
      · exact Or.inr (by rw [htask]; exact hlock)
      · exact absurd hstandby.symm (Option.some_ne_none other)
    · obtain ⟨hrunning, ⟨-, hsame⟩ | hanswered | hstandby⟩ := htrusts
      · obtain rfl := Option.some.inj hsame
        exact ⟨hrunning, Or.inr (Or.inr htask)⟩
      · exact ⟨hrunning, Or.inr (Or.inl hanswered)⟩
      · exact absurd hstandby.symm (Option.some_ne_none _)
  · rename_i conn htask
    obtain rfl := Option.some.inj hstep
    exact hsound.sleep htask
  · exact absurd hstep.symm (Option.some_ne_none next)

omit [DecidableEq Worker] in
/-- The end of a session releases a lock in which no running worker trusts. -/
theorem Sound.endSession (hsound : Sound election)
    (hkeeps : KeepsSession election (.endSession conn)) : Sound (election.endSession conn) := by
  refine ⟨hsound.proper, hsound.owns_unique, hsound.lt_nextConn, fun worker held htrusts ↦ ?_⟩
  have hheld := hsound.lock_eq worker held htrusts
  have hforeign : held ≠ conn := by
    rintro rfl
    exact hkeeps hheld worker htrusts.1 (htrusts.owns (hsound.proper worker))
  simp [Election.endSession, hheld, hforeign]

theorem Sound.step {event : ElectionEvent Worker} (hsound : Sound election)
    (hkeeps : KeepsSession election event) (hstep : step election event = some next) :
    Sound next := by
  cases event with
  | start worker => exact hsound.start hstep
  | connect worker => exact hsound.connect hstep
  | execute worker => exact hsound.execute hstep
  | answer worker => exact hsound.answer hstep
  | yield worker =>
    simp only [Election.step] at hstep
    split at hstep
    · rename_i hcall
      obtain rfl := Option.some.inj hstep
      exact hsound.standBy hcall rfl
    · exact absurd hstep.symm (Option.some_ne_none next)
  | fail worker =>
    simp only [Election.step] at hstep
    split at hstep
    all_goals first
      | exact absurd hstep.symm (Option.some_ne_none next)
      | obtain rfl := Option.some.inj hstep
        exact hsound.standBy ‹_› rfl
  | stop worker => exact hsound.stop hstep
  | cancelTasks worker => exact hsound.cancelTasks hstep
  | unlock worker => exact hsound.unlock hstep
  | close worker =>
    simp only [Election.step] at hstep
    split at hstep
    · rename_i hcall
      obtain rfl := Option.some.inj hstep
      exact hsound.stopped hcall rfl
    · exact absurd hstep.symm (Option.some_ne_none next)
  | wake worker => exact hsound.wake hstep
  | reconnect worker => exact hsound.reconnect hstep
  | retry worker => exact hsound.retry hstep
  | promote worker => exact hsound.promote hstep
  | retryFails worker =>
    simp only [Election.step] at hstep
    split at hstep
    all_goals first
      | exact absurd hstep.symm (Option.some_ne_none next)
      | obtain rfl := Option.some.inj hstep
        exact hsound.sleep ‹_›
  | endSession conn =>
    obtain rfl := Option.some.inj hstep
    exact hsound.endSession hkeeps

omit [DecidableEq Worker] in
theorem sound_init : Sound (init : Election Worker) := by
  refine ⟨fun worker ↦ ?_, fun first second conn howns ↦ ?_, fun worker conn howns ↦ ?_,
    fun worker conn htrusts ↦ ?_⟩
  · constructor <;> simp [init, Candidate.init]
  · simp [init, Candidate.init, Candidate.Owns] at howns
  · simp [init, Candidate.init, Candidate.Owns] at howns
  · simp [init, Candidate.init, Candidate.Trusts] at htrusts

/-! ### Runs -/

/-- At most one worker accepts events at any time, in every run in which no session that holds the
lock ends while a running worker has its connection. -/
theorem everyState_hasSingleLeader (events : List (ElectionEvent Worker))
    (hkeeps : EveryStep step init events KeepsSession) :
    EveryState step init events HasSingleLeader := by
  intro before after state hsplit hvisited
  have hsound := everyState_of_everyStep Sound
    (fun _ _ _ hsound hkept hstep ↦ hsound.step hkept hstep) sound_init hkeeps
  exact (hsound before after state hsplit hvisited).hasSingleLeader

/-- The first of two workers is elected. The second is denied the lock, and asks for it again after
the first has stopped. -/
def handover : List (ElectionEvent Bool) :=
  [.start true, .connect true, .execute true, .answer true,
    .start false, .connect false, .execute false, .answer false, .yield false,
    .stop true, .cancelTasks true, .unlock true, .close true,
    .wake false, .reconnect false, .retry false, .promote false]

theorem everyState_hasSingleLeader_handover :
    EveryState step init (handover ++ [.endSession 0]) HasSingleLeader := by
  have hkeeps : EveryStep step init handover KeepsSession := by
    intro before event after state hsplit _
    have hevent : event ∈ handover := hsplit ▸ List.mem_append_right _ (List.mem_cons_self ..)
    cases event with
    | endSession conn => simp [handover] at hevent
    | _ => trivial
  have hlast : ∀ state, run step init handover = some state →
      KeepsSession state (.endSession 0) := by
    intro state hrun hlock
    -- By then the second worker has the lock.
    have hheld : (run step init handover).bind Election.lock = some 2 := by
      decide
    rw [hrun, Option.bind_some, hlock] at hheld
    exact absurd (Option.some.inj hheld) (by decide)
  exact everyState_hasSingleLeader _ (hkeeps.concat hlast)

/-- The session of the leader ends, and the second of two workers gets the lock. -/
def lostSession : List (ElectionEvent Bool) :=
  [.start true, .connect true, .execute true, .answer true,
    .start false, .connect false, .execute false, .answer false, .yield false,
    .endSession 0, .wake false, .reconnect false, .retry false, .promote false]

theorem exists_not_hasSingleLeader :
    ¬∀ events : List (ElectionEvent Bool), EveryState step init events HasSingleLeader := by
  intro hall
  have hany : (run step init lostSession).any (fun last ↦
      (last.candidate true).accepts && (last.candidate false).accepts) = true := by
    decide
  obtain ⟨last, hrun, hboth⟩ := (Option.any_eq_true _ _).mp hany
  obtain ⟨hfirst, hsecond⟩ := Bool.and_eq_true_iff.mp hboth
  have hsingle := hall lostSession lostSession [] last (List.append_nil _).symm hrun
  exact Bool.noConfusion (hsingle true false hfirst hsecond)

end Election

end Lnmp.Alerts
