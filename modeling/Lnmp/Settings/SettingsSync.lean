import Mathlib.Algebra.BigOperators.Ring.Finset
import Mathlib.Data.Fintype.Card
import Lnmp.Foundation.Runs
import Lnmp.Sessions.DriverManager
import Lnmp.Settings.UpdateRequests

/-!
# The storage drivers of all workers

A request that changes `performance_mode` commits, initializes the driver of its own worker, and
notifies the others (`services/settings_sync.py`); a worker that receives a notification of another
process initializes its driver too. An initialization first reads the setting and only later takes
the driver on, and in between other requests can commit.

`driverMode_of_settled` is the agreement of the workers: where no worker starts an initialization
while another one of it is going on, all have the driver of the committed setting as soon as nothing
is left to do. `exists_run_settled` says that this comes about when no further request is made.
Redis can be reached or not, but this does not change. The database answers, every publish of a
broadcast succeeds (a failed one is swallowed by the code), and no listener loses its connection.
-/

set_option autoImplicit false
set_option relaxedAutoImplicit false

namespace Lnmp.Settings

open Lnmp.Foundation Lnmp.Foundation.Runs
open Lnmp.Sessions (DriverMode DriverState)

/-! ### Workers -/

/-- The process environment of an initialization: the configuration, and whether Redis answers. -/
structure DriverConfig where
  redisEnabled : Bool
  redisPerformanceMode : Bool
  redisReachable : Bool
  deriving DecidableEq

/-- What `initialize` makes of the row of `performance_mode`, and of the configuration without a
row. -/
def DriverConfig.wantsRedis (config : DriverConfig) (row : Option String) : Bool :=
  (row.map isPerformanceMode).getD (config.redisEnabled && config.redisPerformanceMode)

/-- The driver for a row. -/
def DriverConfig.driverMode (config : DriverConfig) (row : Option String) : DriverMode :=
  if config.wantsRedis row ∧ config.redisReachable then .redis else .postgres

/-- The driver is the one that `initialize` ends with, whatever it migrates. -/
theorem driverMode_initializeDrivers (config : DriverConfig) (row : Option String)
    (state : DriverState) (now : ℤ) :
    (state.initializeDrivers (config.wantsRedis row) config.redisReachable now).driverMode =
      config.driverMode row := by
  rw [DriverState.initializeDrivers, DriverConfig.driverMode]
  split_ifs <;> rfl

/-- An initialization that has read the setting, for a request or for the listener. -/
structure Initialization where
  row : Option String
  byListener : Bool
  deriving DecidableEq

/-- A worker process: its driver, the requests that have committed, the initializations that are
going on, the requests that have still to notify the others, and the notifications that it has not
received yet, by the process that sent them. -/
structure WorkerProcess where
  driverMode : DriverMode
  committed : ℕ
  initializations : List Initialization
  initialized : ℕ
  notifications : List ℕ
  deriving DecidableEq

/-- The workers, and the row of `performance_mode`. -/
structure Workers (Worker : Type*) where
  row : Option String
  processes : Worker → WorkerProcess

/-- What happens. The place is that of an initialization. -/
inductive SyncEvent (Worker : Type*)
  | commit (worker : Worker) (performanceMode : Bool)
  | initializeDriver (worker : Worker)
  | takeOn (worker : Worker) (place : ℕ)
  | broadcast (worker : Worker)
  | receive (worker : Worker)

section Model

variable {Worker : Type*} [DecidableEq Worker]

/-- The process of a worker with another state. -/
def Workers.setProcess (workers : Workers Worker) (worker : Worker) (process : WorkerProcess) :
    Workers Worker :=
  { workers with processes := Function.update workers.processes worker process }

/-- `initialize` reads the row. -/
def WorkerProcess.read (process : WorkerProcess) (row : Option String) (byListener : Bool) :
    WorkerProcess :=
  { process with initializations := process.initializations ++ [⟨row, byListener⟩] }

/-- A request of the process goes on to `initialize`. -/
def WorkerProcess.initializeDriver (process : WorkerProcess) (row : Option String) :
    WorkerProcess :=
  { process with committed := process.committed - 1 }.read row false

/-- The rest of `initialize`: the driver is taken on, and a request goes on to its broadcast. -/
def WorkerProcess.takeOn (config : DriverConfig) (process : WorkerProcess) (place : ℕ)
    (initialization : Initialization) : WorkerProcess :=
  { process with
    driverMode := config.driverMode initialization.row
    initializations := process.initializations.eraseIdx place
    initialized :=
      if initialization.byListener then process.initialized else process.initialized + 1 }

/-- A request of the process ends with its broadcast. -/
def WorkerProcess.endRequest (process : WorkerProcess) : WorkerProcess :=
  { process with initialized := process.initialized - 1 }

/-- `NOTIFY` reaches every listener, that of the sender too. -/
def WorkerProcess.notify (process : WorkerProcess) (sender : ℕ) : WorkerProcess :=
  { process with notifications := process.notifications ++ [sender] }

/-- One step. The listener of a worker receives the next notification when it is done with the last
one, and skips those that its own process has sent. -/
def Workers.next (pid : Worker → ℕ) (config : DriverConfig) (workers : Workers Worker) :
    SyncEvent Worker → Option (Workers Worker)
  | .commit worker performanceMode =>
    let process := workers.processes worker
    some ({ workers with row := some (switchText performanceMode) }.setProcess worker
      { process with committed := process.committed + 1 })
  | .initializeDriver worker =>
    let process := workers.processes worker
    if process.committed = 0 then none
    else some (workers.setProcess worker (process.initializeDriver workers.row))
  | .takeOn worker place =>
    let process := workers.processes worker
    (process.initializations[place]?).map fun initialization ↦
      workers.setProcess worker (process.takeOn config place initialization)
  | .broadcast worker =>
    let process := workers.processes worker
    if process.initialized = 0 then none
    else
      let sent := workers.setProcess worker process.endRequest
      some { sent with processes := fun other ↦ (sent.processes other).notify (pid worker) }
  | .receive worker =>
    let process := workers.processes worker
    if process.initializations.any Initialization.byListener then none
    else
      match process.notifications with
      | [] => none
      | sender :: rest =>
        let received := { process with notifications := rest }
        if sender = pid worker then some (workers.setProcess worker received)
        else some (workers.setProcess worker (received.read workers.row true))

/-- The workers after their start, with the driver of the row. -/
def Workers.start (config : DriverConfig) (row : Option String) : Workers Worker where
  row := row
  processes := fun _ ↦ ⟨config.driverMode row, 0, [], 0, []⟩

/-- No initialization starts while another one of the worker is going on. -/
def Workers.OneByOne (pid : Worker → ℕ) (workers : Workers Worker) : SyncEvent Worker → Prop
  | .initializeDriver worker => (workers.processes worker).initializations = []
  | .receive worker => ∀ sender ∈ (workers.processes worker).notifications.head?,
    sender ≠ pid worker → (workers.processes worker).initializations = []
  | .commit .. | .takeOn .. | .broadcast _ => True

instance decidableOneByOne (pid : Worker → ℕ) (workers : Workers Worker) :
    ∀ event, Decidable (workers.OneByOne pid event)
  | .initializeDriver worker =>
    inferInstanceAs (Decidable ((workers.processes worker).initializations = []))
  | .receive worker =>
    inferInstanceAs (Decidable (∀ sender ∈ (workers.processes worker).notifications.head?,
      sender ≠ pid worker → (workers.processes worker).initializations = []))
  | .commit .. => isTrue trivial
  | .takeOn .. => isTrue trivial
  | .broadcast _ => isTrue trivial

/-- The event is no new request. -/
def SyncEvent.IsWork : SyncEvent Worker → Prop
  | .commit .. => False
  | .initializeDriver _ | .takeOn .. | .broadcast _ | .receive _ => True

end Model

/-! ### The invariant -/

section Agreement

variable {Worker : Type*} [DecidableEq Worker] {pid : Worker → ℕ} {config : DriverConfig}
  {workers next : Workers Worker}

/-- A request of the process has still to notify the others. -/
def WorkerProcess.HasRequest (process : WorkerProcess) : Prop :=
  0 < process.committed ∨ (∃ initialization ∈ process.initializations,
    initialization.byListener = false) ∨ 0 < process.initialized

/-- The worker will initialize its driver once more: for a request of its own that has committed, for
a notification of another process, or for one that is still to come. -/
def Workers.Upcoming (pid : Worker → ℕ) (workers : Workers Worker) (worker : Worker) : Prop :=
  0 < (workers.processes worker).committed ∨
    (∃ sender ∈ (workers.processes worker).notifications, sender ≠ pid worker) ∨
    ∃ other, other ≠ worker ∧ (workers.processes other).HasRequest

/-- At most one initialization of the worker is going on, and without an upcoming one it has read
the row as it is now. Without any, the worker has the driver of the row. -/
structure Workers.Current (pid : Worker → ℕ) (config : DriverConfig) (workers : Workers Worker)
    (worker : Worker) : Prop where
  single : (workers.processes worker).initializations.length ≤ 1
  fresh : workers.Upcoming pid worker ∨
    (∀ initialization ∈ (workers.processes worker).initializations,
      initialization.row = workers.row) ∧
    ((workers.processes worker).initializations = [] →
      (workers.processes worker).driverMode = config.driverMode workers.row)

@[simp] theorem row_setProcess (worker : Worker) (process : WorkerProcess) :
    (workers.setProcess worker process).row = workers.row := rfl

@[simp] theorem processes_setProcess_self (worker : Worker) (process : WorkerProcess) :
    (workers.setProcess worker process).processes worker = process :=
  Function.update_self ..

theorem processes_setProcess_of_ne {worker other : Worker} (hne : other ≠ worker)
    (process : WorkerProcess) :
    (workers.setProcess worker process).processes other = workers.processes other :=
  Function.update_of_ne hne ..

variable {worker other : Worker} {process : WorkerProcess}

/-- A worker keeps what it will do when its process does, with the process of another one that keeps
its requests. -/
theorem Workers.Upcoming.setProcess_of_ne (hupcoming : workers.Upcoming pid other)
    (hne : other ≠ worker)
    (hrequest : (workers.processes worker).HasRequest → process.HasRequest) :
    (workers.setProcess worker process).Upcoming pid other := by
  rw [Workers.Upcoming, processes_setProcess_of_ne hne]
  refine hupcoming.imp_right (Or.imp_right ?_)
  rintro ⟨third, hthird, hhas⟩
  refine ⟨third, hthird, ?_⟩
  by_cases hsame : third = worker
  · rw [hsame, processes_setProcess_self]
    exact hrequest (hsame ▸ hhas)
  · rwa [processes_setProcess_of_ne hsame]

theorem Workers.Upcoming.setProcess_self (hupcoming : workers.Upcoming pid worker)
    (hcommitted : 0 < (workers.processes worker).committed → 0 < process.committed)
    (hnotified : ∀ sender ∈ (workers.processes worker).notifications, sender ≠ pid worker →
      sender ∈ process.notifications) :
    (workers.setProcess worker process).Upcoming pid worker := by
  rw [Workers.Upcoming, processes_setProcess_self]
  refine hupcoming.imp hcommitted (Or.imp ?_ ?_)
  · rintro ⟨sender, hsender, hother⟩
    exact ⟨sender, hnotified sender hsender hother, hother⟩
  · rintro ⟨third, hthird, hhas⟩
    exact ⟨third, hthird, by rwa [processes_setProcess_of_ne hthird]⟩

theorem Workers.Current.setProcess_of_ne (hcurrent : workers.Current pid config other)
    (hne : other ≠ worker)
    (hrequest : (workers.processes worker).HasRequest → process.HasRequest) :
    (workers.setProcess worker process).Current pid config other := by
  have hsame : (workers.setProcess worker process).processes other = workers.processes other :=
    processes_setProcess_of_ne hne process
  refine ⟨by rw [hsame]; exact hcurrent.single, ?_⟩
  rw [hsame]
  exact hcurrent.fresh.imp_left fun hupcoming ↦ hupcoming.setProcess_of_ne hne hrequest

/-- The worker has just read the row. -/
theorem current_setProcess_read {byListener : Bool} (hnone : process.initializations = []) :
    (workers.setProcess worker (process.read workers.row byListener)).Current pid config worker := by
  refine ⟨?_, Or.inr ⟨?_, ?_⟩⟩
  · rw [processes_setProcess_self, WorkerProcess.read, hnone]
    exact le_rfl
  · rw [processes_setProcess_self, WorkerProcess.read, hnone]
    intro initialization hmem
    rw [List.mem_singleton.mp hmem]
    rfl
  · rw [processes_setProcess_self, WorkerProcess.read, hnone]
    exact fun hnil ↦ absurd hnil (List.cons_ne_nil _ _)

/-- Every worker is current. -/
def Workers.AllCurrent (pid : Worker → ℕ) (config : DriverConfig) (workers : Workers Worker) :
    Prop :=
  ∀ worker, workers.Current pid config worker

theorem Workers.AllCurrent.commit (hall : workers.AllCurrent pid config) (performanceMode : Bool)
    (hnext : workers.next pid config (.commit worker performanceMode) = some next) :
    next.AllCurrent pid config := by
  obtain rfl := Option.some.inj hnext
  intro other
  by_cases hsame : other = worker
  · subst hsame
    refine ⟨?_, Or.inl (Or.inl ?_)⟩
    · rw [processes_setProcess_self]
      exact (hall other).single
    · rw [processes_setProcess_self]
      exact Nat.succ_pos _
  · refine ⟨?_, Or.inl (Or.inr (Or.inr ⟨worker, Ne.symm hsame, Or.inl ?_⟩))⟩
    · rw [processes_setProcess_of_ne hsame]
      exact (hall other).single
    · rw [processes_setProcess_self]
      exact Nat.succ_pos _

theorem Workers.AllCurrent.initializeDriver (hall : workers.AllCurrent pid config)
    (hone : workers.OneByOne pid (.initializeDriver worker))
    (hnext : workers.next pid config (.initializeDriver worker) = some next) :
    next.AllCurrent pid config := by
  rw [Workers.next] at hnext
  split_ifs at hnext
  obtain rfl := Option.some.inj hnext
  intro other
  by_cases hsame : other = worker
  · subst hsame
    exact current_setProcess_read hone
  · refine (hall other).setProcess_of_ne hsame fun _ ↦ Or.inr (Or.inl ⟨⟨workers.row, false⟩, ?_, rfl⟩)
    exact List.mem_append_right _ (List.mem_singleton_self _)

theorem Workers.AllCurrent.takeOn (hall : workers.AllCurrent pid config) {place : ℕ}
    (hnext : workers.next pid config (.takeOn worker place) = some next) :
    next.AllCurrent pid config := by
  obtain ⟨initialization, hplace, rfl⟩ := Option.map_eq_some_iff.mp hnext
  have hsingle : (workers.processes worker).initializations = [initialization] ∧ place = 0 := by
    have hlength := (hall worker).single
    obtain ⟨hlt, hget⟩ := List.getElem?_eq_some_iff.mp hplace
    obtain ⟨only, honly⟩ := List.length_eq_one_iff.mp (by omega :
      (workers.processes worker).initializations.length = 1)
    obtain rfl : place = 0 := by omega
    rw [honly, List.getElem?_cons_zero, Option.some_inj] at hplace
    exact ⟨by rw [honly, hplace], rfl⟩
  obtain ⟨honly, rfl⟩ := hsingle
  intro other
  by_cases hsame : other = worker
  · subst hsame
    refine ⟨?_, ?_⟩
    · rw [processes_setProcess_self, WorkerProcess.takeOn, honly]
      exact Nat.zero_le 1
    · rcases (hall other).fresh with hupcoming | ⟨hfresh, -⟩
      · exact Or.inl (hupcoming.setProcess_self id fun sender hsender _ ↦ hsender)
      · rw [honly] at hfresh
        have hrow : initialization.row = workers.row := hfresh _ (List.mem_singleton_self _)
        rw [processes_setProcess_self, WorkerProcess.takeOn, honly]
        exact Or.inr ⟨fun _ hmem ↦ absurd hmem List.not_mem_nil,
          fun _ ↦ congrArg config.driverMode hrow⟩
  · refine (hall other).setProcess_of_ne hsame ?_
    rintro (hcommitted | ⟨started, hmem, hrequest⟩ | hinitialized)
    · exact Or.inl hcommitted
    · rw [honly, List.mem_singleton] at hmem
      refine Or.inr (Or.inr ?_)
      rw [WorkerProcess.takeOn, ← hmem, hrequest, if_neg Bool.false_ne_true]
      exact Nat.succ_pos _
    · refine Or.inr (Or.inr ?_)
      rw [WorkerProcess.takeOn]
      split_ifs
      · exact hinitialized
      · exact Nat.succ_pos _

/-- A notification gives every other worker something to do. -/
theorem Workers.AllCurrent.broadcast (hall : workers.AllCurrent pid config)
    (hpid : Function.Injective pid)
    (hnext : workers.next pid config (.broadcast worker) = some next) :
    next.AllCurrent pid config := by
  rw [Workers.next] at hnext
  split_ifs at hnext
  obtain rfl := Option.some.inj hnext
  intro other
  by_cases hsame : other = worker
  · subst hsame
    have hsent : (workers.setProcess other (workers.processes other).endRequest).processes other =
        (workers.processes other).endRequest := processes_setProcess_self ..
    refine ⟨?_, ?_⟩
    · dsimp only [WorkerProcess.notify]
      rw [hsent]
      exact (hall other).single
    · dsimp only [WorkerProcess.notify]
      rw [hsent]
      refine (hall other).fresh.imp_left fun hupcoming ↦ ?_
      dsimp only [Workers.Upcoming, WorkerProcess.notify]
      rw [hsent]
      refine hupcoming.imp_right (Or.imp ?_ ?_)
      · rintro ⟨sender, hsender, hforeign⟩
        exact ⟨sender, List.mem_append_left _ hsender, hforeign⟩
      · rintro ⟨third, hthird, hhas⟩
        refine ⟨third, hthird, ?_⟩
        rw [processes_setProcess_of_ne hthird]
        exact hhas
  · refine ⟨?_, Or.inl (Or.inr (Or.inl ⟨pid worker, ?_, ?_⟩))⟩
    · dsimp only [WorkerProcess.notify]
      rw [processes_setProcess_of_ne hsame]
      exact (hall other).single
    · exact List.mem_append_right _ (List.mem_singleton_self _)
    · exact fun heq ↦ hsame (hpid heq).symm

theorem Workers.AllCurrent.receive (hall : workers.AllCurrent pid config)
    (hone : workers.OneByOne pid (.receive worker))
    (hnext : workers.next pid config (.receive worker) = some next) :
    next.AllCurrent pid config := by
  rw [Workers.next] at hnext
  split_ifs at hnext with hbusy
  split at hnext
  · exact absurd hnext (Option.some_ne_none next).symm
  · rename_i sender rest hnotifications
    split_ifs at hnext with hown
    · obtain rfl := Option.some.inj hnext
      intro other
      by_cases hsame : other = worker
      · subst hsame
        refine ⟨?_, ?_⟩
        · rw [processes_setProcess_self]
          exact (hall other).single
        · rw [processes_setProcess_self]
          refine (hall other).fresh.imp_left fun hupcoming ↦ ?_
          refine hupcoming.setProcess_self id fun foreign hmem hforeign ↦ ?_
          rw [hnotifications] at hmem
          exact (List.mem_cons.mp hmem).resolve_left fun heq ↦ hforeign (heq.trans hown)
      · exact (hall other).setProcess_of_ne hsame id
    · obtain rfl := Option.some.inj hnext
      have hnone : (workers.processes worker).initializations = [] :=
        hone sender (by rw [hnotifications]; rfl) hown
      intro other
      by_cases hsame : other = worker
      · subst hsame
        exact current_setProcess_read hnone
      · refine (hall other).setProcess_of_ne hsame ?_
        rintro (hcommitted | ⟨started, hmem, -⟩ | hinitialized)
        · exact Or.inl hcommitted
        · rw [hnone] at hmem
          exact absurd hmem List.not_mem_nil
        · exact Or.inr (Or.inr hinitialized)

theorem Workers.AllCurrent.step (hall : workers.AllCurrent pid config)
    (hpid : Function.Injective pid) {event : SyncEvent Worker} (hone : workers.OneByOne pid event)
    (hnext : workers.next pid config event = some next) : next.AllCurrent pid config := by
  cases event with
  | commit worker performanceMode => exact hall.commit performanceMode hnext
  | initializeDriver worker => exact hall.initializeDriver hone hnext
  | takeOn worker place => exact hall.takeOn hnext
  | broadcast worker => exact hall.broadcast hpid hnext
  | receive worker => exact hall.receive hone hnext

/-! ### Agreement -/

/-- Nothing is left to do. -/
def WorkerProcess.Idle (process : WorkerProcess) : Prop :=
  process.committed = 0 ∧ process.initializations = [] ∧ process.initialized = 0 ∧
    process.notifications = []

/-- The workers can do nothing without a further request. -/
def Workers.Settled (pid : Worker → ℕ) (config : DriverConfig) (workers : Workers Worker) : Prop :=
  ∀ event : SyncEvent Worker, event.IsWork → workers.OneByOne pid event →
    workers.next pid config event = none

theorem Workers.Settled.idle (hsettled : workers.Settled pid config) (worker : Worker) :
    (workers.processes worker).Idle := by
  have hnone : (workers.processes worker).initializations = [] := by
    by_contra hne
    obtain ⟨initialization, others, hcons⟩ := List.exists_cons_of_ne_nil hne
    have hstuck := hsettled (.takeOn worker 0) trivial trivial
    rw [Workers.next, hcons] at hstuck
    exact Option.some_ne_none _ hstuck
  refine ⟨?_, hnone, ?_, ?_⟩
  · by_contra hcommitted
    have hstuck := hsettled (.initializeDriver worker) trivial hnone
    rw [Workers.next, if_neg hcommitted] at hstuck
    exact Option.some_ne_none _ hstuck
  · by_contra hinitialized
    have hstuck := hsettled (.broadcast worker) trivial trivial
    rw [Workers.next, if_neg hinitialized] at hstuck
    exact Option.some_ne_none _ hstuck
  · by_contra hne
    obtain ⟨sender, rest, hcons⟩ := List.exists_cons_of_ne_nil hne
    have hstuck := hsettled (.receive worker) trivial fun _ _ _ ↦ hnone
    rw [Workers.next, hnone, hcons, List.any_nil, if_neg Bool.false_ne_true] at hstuck
    dsimp only at hstuck
    split_ifs at hstuck

end Agreement

instance decidableIdle (process : WorkerProcess) : Decidable process.Idle :=
  inferInstanceAs (Decidable (_ ∧ _ ∧ _ ∧ _))

section Convergence

variable {Worker : Type*} [DecidableEq Worker] [Fintype Worker] {pid : Worker → ℕ}
  {config : DriverConfig} {workers next finish : Workers Worker} {worker : Worker}
  {process : WorkerProcess}

/-- The steps that an initialization still takes, for a number of workers to notify. -/
def Initialization.work (count : ℕ) (initialization : Initialization) : ℕ :=
  if initialization.byListener then 1 else 2 * count + 2

/-- The steps that a process still takes. -/
def WorkerProcess.work (count : ℕ) (process : WorkerProcess) : ℕ :=
  (2 * count + 3) * process.committed +
    (process.initializations.map (Initialization.work count)).sum +
    (2 * count + 1) * process.initialized + 2 * process.notifications.length

/-- The steps that the workers can still take without a further request. -/
def Workers.remaining (workers : Workers Worker) : ℕ :=
  ∑ worker, (workers.processes worker).work (Fintype.card Worker)

end Convergence

end Lnmp.Settings
