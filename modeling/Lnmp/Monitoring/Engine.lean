import Mathlib.Data.Int.ConditionallyCompleteOrder
import Mathlib.Logic.Function.Basic
import Lnmp.Foundation.Runs
import Lnmp.Monitoring.EventTable

/-!
# The monitoring engine

`monitoring/engine.py` as a transition system: workers crash and restart, a task is spawned for an
endpoint and cancelled when the endpoint is disabled, a task creates an initial event or processes
a cycle, and gaps are opened and closed from outside. One operation is one transaction at one
reading of the clock, and the clock strictly increases. An endpoint has at most one task.

`history` is not part of the engine: it remembers, for every time between two operations, which
endpoints were monitored.

`Engine.Coherent` is the invariant of the system: the tables are coherent, and the state of every
task is right about them. `Written` is what one operation does to the tables.
-/

set_option autoImplicit false
set_option relaxedAutoImplicit false

namespace Lnmp.Monitoring

open Lnmp.Foundation Lnmp.Foundation.Runs

/-! ### Operations -/

/-- The worker that an endpoint is assigned to, by the first four bytes of its UUID. -/
def assignedWorker (numWorkers : ℕ) (endpointId : EndpointId) : ℕ :=
  if 1 < numWorkers then endpointId.toNat / 2 ^ 96 % numWorkers else 0

/-- What happens to the engine. -/
inductive Operation
  | crash (worker : ℕ)
  | restart (worker : ℕ)
  | spawn (environment : Environment) (endpointId : EndpointId)
  | createInitial (environment : Environment) (endpointId : EndpointId) (result : PingResult)
      (baseline : Option (ℚ × ℚ))
  | processCycle (environment : Environment) (endpointId : EndpointId) (result : PingResult)
      (baseline : Option (ℚ × ℚ)) (nowIso : ℤ)
  | failCycle (endpointId : EndpointId)
  | disable (endpointId : EndpointId)
  | openGap (eventType : ServiceEventType) (description : Option String)
  | closeGap (gapId : RowId)

/-- An operation at a time. -/
structure Event where
  time : ℤ
  operation : Operation

/-- A stretch of time from one operation to the next, and the endpoints monitored in it. -/
structure Watch where
  start : ℤ
  finish : ℤ
  monitored : EndpointId → Bool

/-- The engine: its tables, the workers that are running, and for every endpoint with a task the
state it has, if it has one. -/
structure Engine where
  database : Database
  running : ℕ → Bool
  tasks : EndpointId → Option (Option EndpointState)
  now : ℤ
  history : List Watch

/-- The engine before its first start. -/
def Engine.start (now : ℤ) : Engine where
  database := Database.empty
  running := fun _ ↦ false
  tasks := fun _ ↦ none
  now := now
  history := []

/-- The engine monitors an endpoint. -/
def Engine.monitors (engine : Engine) (endpointId : EndpointId) : Bool :=
  (engine.tasks endpointId).isSome

/-- The engine with another task for an endpoint. -/
def Engine.setTask (engine : Engine) (endpointId : EndpointId)
    (task : Option (Option EndpointState)) : Engine :=
  { engine with tasks := Function.update engine.tasks endpointId task }

/-- The engine after a transaction of the task of an endpoint. -/
def Engine.record (engine : Engine) (endpointId : EndpointId)
    (recorded : EndpointState × Database) : Engine :=
  { engine.setTask endpointId (some (some recorded.1)) with database := recorded.2 }

/-- An operation, `none` when it is not enabled or its transaction is rolled back. -/
def Engine.execute (threshold numWorkers : ℕ) (engine : Engine) (time : ℤ) :
    Operation → Option Engine
  | .crash worker =>
    some { engine with
      running := Function.update engine.running worker false
      tasks := fun endpointId ↦
        if assignedWorker numWorkers endpointId = worker then none else engine.tasks endpointId }
  | .restart worker =>
    if engine.running worker then none
    else
      some { engine with
        running := Function.update engine.running worker true
        database := resolveStartupState time engine.database }
  | .spawn environment endpointId =>
    if engine.running (assignedWorker numWorkers endpointId) ∧ !engine.monitors endpointId then
      some (engine.setTask endpointId
        (some (initializeEndpoint environment endpointId engine.database)))
    else none
  | .createInitial environment endpointId result baseline =>
    match engine.tasks endpointId with
    | some none =>
      (createInitialEvent environment endpointId result baseline time engine.database).map
        (engine.record endpointId)
    | _ => none
  | .processCycle environment endpointId result baseline nowIso =>
    match engine.tasks endpointId with
    | some (some state) =>
      (processCycle threshold environment state result baseline nowIso time
        engine.database).result.map (engine.record endpointId)
    | _ => none
  | .failCycle endpointId => if engine.monitors endpointId then some engine else none
  | .disable endpointId => some (engine.setTask endpointId none)
  | .openGap eventType description =>
    some { engine with
      database := (openMonitoringGap eventType description time engine.database).2 }
  | .closeGap gapId =>
    some { engine with database := closeMonitoringGap gapId time engine.database }

/-- The stretch of time that ends with an operation. -/
def Engine.watch (engine : Engine) (time : ℤ) : Watch := ⟨engine.now, time, engine.monitors⟩

/-- The next state of the engine, `none` unless the clock has advanced. -/
def step (threshold numWorkers : ℕ) (engine : Engine) (event : Event) : Option Engine :=
  if engine.now < event.time then
    (engine.execute threshold numWorkers event.time event.operation).map fun next ↦
      { next with
        now := event.time
        history := engine.history ++ [engine.watch event.time] }
  else none

variable {threshold numWorkers : ℕ} {engine next finish : Engine} {event : Event}
  {events : List Event}

/-- What every step does. -/
theorem step_eq_some (hstep : step threshold numWorkers engine event = some next) :
    engine.now < event.time ∧ next.now = event.time ∧
      next.history = engine.history ++ [engine.watch event.time] ∧
      ∃ executed, engine.execute threshold numWorkers event.time event.operation = some executed ∧
        next.database = executed.database ∧ next.tasks = executed.tasks := by
  obtain ⟨hlater, hmap⟩ := Option.ite_none_right_eq_some.mp hstep
  obtain ⟨executed, hexecuted, rfl⟩ := Option.map_eq_some_iff.mp hmap
  exact ⟨hlater, rfl, rfl, executed, hexecuted, rfl, rfl⟩

theorem execute_createInitial {time : ℤ} {executed : Engine} {environment : Environment}
    {endpointId : EndpointId} {result : PingResult} {baseline : Option (ℚ × ℚ)}
    (hexecute : engine.execute threshold numWorkers time
      (.createInitial environment endpointId result baseline) = some executed) :
    engine.tasks endpointId = some none ∧
      ∃ recorded, createInitialEvent environment endpointId result baseline time
        engine.database = some recorded ∧ engine.record endpointId recorded = executed := by
  simp only [Engine.execute] at hexecute
  split at hexecute
  · exact ⟨‹_›, Option.map_eq_some_iff.mp hexecute⟩
  · exact absurd hexecute (Option.some_ne_none _).symm

theorem execute_processCycle {time : ℤ} {executed : Engine} {environment : Environment}
    {endpointId : EndpointId} {result : PingResult} {baseline : Option (ℚ × ℚ)} {nowIso : ℤ}
    (hexecute : engine.execute threshold numWorkers time
      (.processCycle environment endpointId result baseline nowIso) = some executed) :
    ∃ state, engine.tasks endpointId = some (some state) ∧
      ∃ recorded, (processCycle threshold environment state result baseline nowIso time
        engine.database).result = some recorded ∧ engine.record endpointId recorded = executed := by
  simp only [Engine.execute] at hexecute
  split at hexecute
  · exact ⟨_, ‹_›, Option.map_eq_some_iff.mp hexecute⟩
  · exact absurd hexecute (Option.some_ne_none _).symm

/-! ### Coherent engines -/

/-- The task of an endpoint is right about the tables: without a state, the endpoint has no
rows. -/
def RightTask (database : Database) (endpointId : EndpointId) :
    Option (Option EndpointState) → Prop
  | none => True
  | some none => ∀ event ∈ database.endpointEvents, event.endpointId ≠ endpointId
  | some (some state) => Tracks database endpointId state

/-- The invariant of the engine. -/
structure Engine.Coherent (engine : Engine) : Prop where
  database : Monitoring.Coherent engine.database engine.now
  tasks : ∀ endpointId, RightTask engine.database endpointId (engine.tasks endpointId)

theorem Engine.coherent_start (now : ℤ) : (Engine.start now).Coherent where
  database :=
    { issued := fun _ hmem ↦ absurd hmem List.not_mem_nil
      ordered := List.Pairwise.nil
      started := fun _ hmem ↦ absurd hmem List.not_mem_nil
      ended := fun _ hmem ↦ absurd hmem List.not_mem_nil
      gapStarted := fun _ hmem ↦ absurd hmem List.not_mem_nil
      gapEnded := fun _ hmem ↦ absurd hmem List.not_mem_nil }
  tasks := fun _ ↦ trivial

/-- A task stays right when no row of its endpoint is appended. -/
theorem RightTask.rewrite {database written : Database} {endpointId : EndpointId}
    {task : Option (Option EndpointState)} {closing time : ℤ}
    {revise : EndpointEvent → EndpointEvent} {fresh : Option EndpointEvent}
    (hright : RightTask database endpointId task)
    (hrewrites : Rewrites closing time revise fresh database written)
    (hother : ∀ event ∈ fresh, event.endpointId ≠ endpointId) :
    RightTask written endpointId task := by
  match task, hright with
  | none, _ => trivial
  | some none, hnone =>
    intro event hmem
    rcases (hrewrites.mem_iff event).mp hmem with ⟨old, hold, rfl⟩ | hfresh
    · rw [(hrewrites.revises old).endpointId]
      exact hnone old hold
    · exact hother event hfresh
  | some (some state), htracks => exact Tracks.rewrite htracks hrewrites hother

/-- A gap after an operation that ends some of the gaps. -/
def updateGap (ends : ServiceEvent → Bool) (time : ℤ) (gap : ServiceEvent) : ServiceEvent :=
  if ends gap then gap.close time else gap

/-- The gaps after an operation: some have ended, and one more may have begun. -/
structure GapsWritten (engine : Engine) (event : Event) (written : Database)
    (ends : ServiceEvent → Bool) (fresh : Option ServiceEvent) : Prop where
  gaps : written.serviceEvents =
    engine.database.serviceEvents.map (updateGap ends event.time) ++ fresh.toList
  fresh : ∀ gap ∈ fresh, gap.startTime = event.time ∧ gap.endTime = none
  ends : ∀ gap, ends gap = true →
    event.operation = .closeGap gap.id ∨ latestUnresolvedGap engine.database ≠ none

/-- The rows after an operation: what is closed is closed at the time of the operation, or by a
restart at the start of the latest unresolved gap. -/
structure RowsWritten (engine : Engine) (event : Event) (written : Database) (closing : ℤ)
    (revise : EndpointEvent → EndpointEvent) (fresh : Option EndpointEvent) : Prop where
  rewrites : Rewrites closing event.time revise fresh engine.database written
  closing : closing = event.time ∨ ∃ worker gap, event.operation = .restart worker ∧
    latestUnresolvedGap engine.database = some gap ∧ closing = gap.startTime
  closed : ∀ event ∈ fresh, ∀ old ∈ engine.database.endpointEvents,
    old.endpointId = event.endpointId → (revise old).endTime ≠ none

/-- What an operation does to the tables. -/
structure Written (engine : Engine) (event : Event) (written : Database) : Prop where
  rows : ∃ closing revise fresh, RowsWritten engine event written closing revise fresh
  gaps : ∃ ends fresh, GapsWritten engine event written ends fresh

variable {time : ℤ} {written : Database} {endpointId : EndpointId} {recorded : EndpointState}
  {executed : Engine} {operation : Operation}

theorem updateGap_false (time : ℤ) : updateGap (fun _ ↦ false) time = id := rfl

theorem gapsWritten_of_serviceEvents_eq
    (hgaps : written.serviceEvents = engine.database.serviceEvents) :
    GapsWritten engine event written (fun _ ↦ false) none where
  gaps := by rw [hgaps, updateGap_false, List.map_id, Option.toList_none, List.append_nil]
  fresh := forall_mem_none
  ends := fun _ hends ↦ absurd hends Bool.false_ne_true

theorem rowsWritten_of_endpointEvents_eq
    (hrows : written.endpointEvents = engine.database.endpointEvents)
    (hnext : written.nextId = engine.database.nextId) :
    RowsWritten engine event written event.time id none where
  rewrites := rewrites_of_endpointEvents_eq hrows hnext
  closing := Or.inl rfl
  closed := forall_mem_none

theorem written_refl (engine : Engine) (event : Event) : Written engine event engine.database where
  rows := ⟨_, _, _, rowsWritten_of_endpointEvents_eq rfl rfl⟩
  gaps := ⟨_, _, gapsWritten_of_serviceEvents_eq rfl⟩

/-- An operation that closes open events of all endpoints. -/
theorem rowsWritten_closeOpenEvents {closeTime : ℤ} {middle : Database}
    (hrows : middle.endpointEvents = engine.database.endpointEvents)
    (hnext : engine.database.nextId ≤ middle.nextId)
    (hclosing : closeTime = event.time ∨ ∃ worker gap, event.operation = .restart worker ∧
      latestUnresolvedGap engine.database = some gap ∧ closeTime = gap.startTime) :
    RowsWritten engine event (middle.closeOpenEvents closeTime) closeTime
      (updateRow (EndpointEvent.isReached closeTime) (EndpointEvent.close · closeTime)) none where
  rewrites := (rewrites_closeOpenEvents closeTime middle).of_endpointEvents_eq hrows hnext
  closing := hclosing
  closed := forall_mem_none

theorem rowsWritten_restart (engine : Engine) (time : ℤ) (worker : ℕ) :
    ∃ closing revise, RowsWritten engine ⟨time, .restart worker⟩
      (resolveStartupState time engine.database) closing revise none := by
  unfold resolveStartupState
  cases hgap : latestUnresolvedGap engine.database with
  | none => exact ⟨_, _, rowsWritten_closeOpenEvents rfl le_rfl (Or.inl rfl)⟩
  | some gap =>
    exact ⟨_, _, rowsWritten_closeOpenEvents rfl le_rfl (Or.inr ⟨worker, gap, rfl, hgap, rfl⟩)⟩

theorem gapsWritten_restart (engine : Engine) (time : ℤ) (worker : ℕ) :
    ∃ ends, GapsWritten engine ⟨time, .restart worker⟩
      (resolveStartupState time engine.database) ends none := by
  unfold resolveStartupState
  cases hgap : latestUnresolvedGap engine.database with
  | none => exact ⟨_, gapsWritten_of_serviceEvents_eq rfl⟩
  | some gap =>
    refine ⟨fun other ↦ other.id = gap.id, ?_, forall_mem_none, fun _ _ ↦ Or.inr ?_⟩
    · rw [Option.toList_none, List.append_nil]
      refine List.map_congr_left fun other _ ↦ ?_
      simp only [updateGap, decide_eq_true_eq]
    · rw [hgap]
      exact Option.some_ne_none _

/-- The gap that `openMonitoringGap` inserts. -/
def openedGap (eventType : ServiceEventType) (description : Option String) (gapStart : ℤ)
    (database : Database) : ServiceEvent where
  id := database.nextId
  eventType := eventType
  description := description
  startTime := gapStart
  endTime := none
  durationSeconds := none

theorem rowsWritten_openGap (engine : Engine) (time : ℤ) (eventType : ServiceEventType)
    (description : Option String) :
    ∃ revise, RowsWritten engine ⟨time, .openGap eventType description⟩
      (openMonitoringGap eventType description time engine.database).2 time revise none :=
  ⟨_, rowsWritten_closeOpenEvents rfl (Nat.le_succ _) (Or.inl rfl)⟩

theorem gapsWritten_openGap (engine : Engine) (time : ℤ) (eventType : ServiceEventType)
    (description : Option String) :
    GapsWritten engine ⟨time, .openGap eventType description⟩
      (openMonitoringGap eventType description time engine.database).2 (fun _ ↦ false)
      (some (openedGap eventType description time engine.database)) where
  gaps := by
    rw [updateGap_false, List.map_id]
    rfl
  fresh := by
    rintro gap ⟨⟩
    exact ⟨rfl, rfl⟩
  ends := fun _ hends ↦ absurd hends Bool.false_ne_true

theorem gapsWritten_closeGap (engine : Engine) (time : ℤ) (gapId : RowId) :
    GapsWritten engine ⟨time, .closeGap gapId⟩ (closeMonitoringGap gapId time engine.database)
      (fun gap ↦ gap.id = gapId) none where
  gaps := by
    rw [Option.toList_none, List.append_nil]
    refine List.map_congr_left fun gap _ ↦ ?_
    simp only [updateGap, decide_eq_true_eq]
  fresh := forall_mem_none
  ends := fun gap hends ↦ Or.inl (by rw [of_decide_eq_true hends])

/-- An operation on one endpoint. -/
theorem written_of_maintains
    (hmaintains : Maintains event.time engine.database endpointId recorded written) :
    Written engine event written := by
  obtain ⟨revise, fresh, hrewrites, hfresh⟩ := hmaintains.rewrites
  refine ⟨⟨_, revise, fresh, hrewrites, Or.inl rfl, fun new hnew old hold hsame ↦ ?_⟩,
    ⟨_, _, gapsWritten_of_serviceEvents_eq hmaintains.gaps⟩⟩
  obtain ⟨hendpoint, hclosed⟩ := hfresh new hnew
  exact hclosed old hold (hsame.trans hendpoint)

/-- The tasks after an operation on one endpoint are right. -/
theorem Maintains.tasks (hcoherent : engine.Coherent)
    (hmaintains : Maintains time engine.database endpointId recorded written) (other : EndpointId) :
    RightTask written other
      (Function.update engine.tasks endpointId (some (some recorded)) other) := by
  obtain ⟨revise, fresh, hrewrites, hfresh⟩ := hmaintains.rewrites
  by_cases hsame : other = endpointId
  · subst hsame
    rw [Function.update_self]
    exact hmaintains.tracks
  · rw [Function.update_of_ne hsame]
    refine (hcoherent.tasks other).rewrite hrewrites fun new hnew hother ↦ hsame ?_
    exact hother.symm.trans (hfresh new hnew).1

/-- An operation that appends no row keeps the tasks right. -/
theorem RowsWritten.tasks {closing : ℤ} {revise : EndpointEvent → EndpointEvent}
    (hcoherent : engine.Coherent)
    (hrows : RowsWritten engine event written closing revise none) (endpointId : EndpointId) :
    RightTask written endpointId (engine.tasks endpointId) :=
  (hcoherent.tasks endpointId).rewrite hrows.rewrites forall_mem_none

/-- Setting a task that is right. -/
theorem Engine.Coherent.setTask (hcoherent : engine.Coherent)
    {task : Option (Option EndpointState)} (htask : RightTask engine.database endpointId task)
    (other : EndpointId) :
    RightTask engine.database other ((engine.setTask endpointId task).tasks other) := by
  show RightTask engine.database other (Function.update engine.tasks endpointId task other)
  by_cases hsame : other = endpointId
  · subst hsame
    rwa [Function.update_self]
  · rw [Function.update_of_ne hsame]
    exact hcoherent.tasks other

/-- The spec of every operation: what it writes, and that the tasks stay right. -/
theorem written_execute (hcoherent : engine.Coherent)
    (hexecute : engine.execute threshold numWorkers time operation = some executed) :
    Written engine ⟨time, operation⟩ executed.database ∧
      ∀ endpointId, RightTask executed.database endpointId (executed.tasks endpointId) := by
  cases operation with
  | crash worker =>
    obtain rfl := Option.some.inj hexecute
    refine ⟨written_refl engine _, fun endpointId ↦ ?_⟩
    dsimp only
    split_ifs
    · trivial
    · exact hcoherent.tasks endpointId
  | restart worker =>
    obtain rfl := Option.some.inj (Option.ite_none_left_eq_some.mp hexecute).2
    obtain ⟨closing, revise, hrows⟩ := rowsWritten_restart engine time worker
    obtain ⟨ends, hgaps⟩ := gapsWritten_restart engine time worker
    have htasks := hrows.tasks hcoherent
    exact ⟨⟨⟨closing, revise, none, hrows⟩, ⟨ends, none, hgaps⟩⟩, htasks⟩
  | spawn environment endpointId =>
    obtain rfl := Option.some.inj (Option.ite_none_right_eq_some.mp hexecute).2
    refine ⟨written_refl engine _, hcoherent.setTask ?_⟩
    cases hstate : initializeEndpoint environment endpointId engine.database with
    | none => exact initializeEndpoint_eq_none hstate
    | some state => exact tracks_initializeEndpoint hcoherent.database hstate
  | createInitial environment endpointId result baseline =>
    obtain ⟨htask, ⟨recorded, written⟩, hcreate, rfl⟩ := execute_createInitial hexecute
    have hnone : RightTask engine.database endpointId (some none) :=
      htask ▸ hcoherent.tasks endpointId
    have hmaintains := maintains_createInitialEvent hcoherent.database hnone hcreate
    exact ⟨written_of_maintains hmaintains, hmaintains.tasks hcoherent⟩
  | processCycle environment endpointId result baseline nowIso =>
    obtain ⟨state, htask, ⟨recorded, written⟩, hrecord, rfl⟩ := execute_processCycle hexecute
    have htracks : RightTask engine.database endpointId (some (some state)) :=
      htask ▸ hcoherent.tasks endpointId
    have hmaintains := maintains_processCycle hcoherent.database htracks hrecord
    exact ⟨written_of_maintains hmaintains, hmaintains.tasks hcoherent⟩
  | failCycle endpointId =>
    obtain rfl := Option.some.inj (Option.ite_none_right_eq_some.mp hexecute).2
    exact ⟨written_refl engine _, hcoherent.tasks⟩
  | disable endpointId =>
    obtain rfl := Option.some.inj hexecute
    exact ⟨written_refl engine _, hcoherent.setTask trivial⟩
  | openGap eventType description =>
    obtain rfl := Option.some.inj hexecute
    obtain ⟨revise, hrows⟩ := rowsWritten_openGap engine time eventType description
    have hgaps := gapsWritten_openGap engine time eventType description
    have htasks := hrows.tasks hcoherent
    exact ⟨⟨⟨time, revise, none, hrows⟩, ⟨_, _, hgaps⟩⟩, htasks⟩
  | closeGap gapId =>
    obtain rfl := Option.some.inj hexecute
    have hrows : RowsWritten engine ⟨time, .closeGap gapId⟩
        (closeMonitoringGap gapId time engine.database) time id none :=
      rowsWritten_of_endpointEvents_eq rfl rfl
    have hgaps := gapsWritten_closeGap engine time gapId
    have htasks := hrows.tasks hcoherent
    exact ⟨⟨⟨time, id, none, hrows⟩, ⟨_, _, hgaps⟩⟩, htasks⟩

/-- What is closed is closed no later than at the time of the operation. -/
theorem RowsWritten.closing_le {closing : ℤ} {revise : EndpointEvent → EndpointEvent}
    {fresh : Option EndpointEvent} (hrows : RowsWritten engine event written closing revise fresh)
    (hcoherent : Coherent engine.database engine.now) (hlater : engine.now < event.time) :
    closing ≤ event.time := by
  rcases hrows.closing with rfl | ⟨worker, gap, -, hgap, rfl⟩
  · exact le_rfl
  · exact (hcoherent.gapStarted gap (mem_of_latestUnresolvedGap hgap).1).trans hlater.le

/-- A gap after an operation began or ended with it, or is as it was. -/
theorem GapsWritten.mem_iff {ends : ServiceEvent → Bool} {fresh : Option ServiceEvent}
    (hgaps : GapsWritten engine event written ends fresh) (gap : ServiceEvent) :
    gap ∈ written.serviceEvents ↔
      (∃ old ∈ engine.database.serviceEvents, updateGap ends event.time old = gap) ∨
        gap ∈ fresh := by
  rw [hgaps.gaps, List.mem_append, List.mem_map, Option.mem_toList, Option.mem_def]

theorem startTime_updateGap (ends : ServiceEvent → Bool) (time : ℤ) (gap : ServiceEvent) :
    (updateGap ends time gap).startTime = gap.startTime := by
  unfold updateGap
  split_ifs <;> rfl

/-- The end of a gap after an operation is one that it had, or the time of the operation. -/
theorem endTime_updateGap {ends : ServiceEvent → Bool} {gap : ServiceEvent} {ended : ℤ}
    (hended : (updateGap ends time gap).endTime = some ended) :
    gap.endTime = some ended ∨ ended = time := by
  unfold updateGap at hended
  split_ifs at hended
  · exact Or.inr (Option.some.inj hended).symm
  · exact Or.inl hended

/-- An operation keeps the tables coherent. -/
theorem Written.coherent (hwritten : Written engine event written)
    (hcoherent : Coherent engine.database engine.now) (hlater : engine.now < event.time) :
    Coherent written event.time := by
  obtain ⟨closing, revise, fresh, hrows⟩ := hwritten.rows
  obtain ⟨ends, freshGap, hgaps⟩ := hwritten.gaps
  refine hcoherent.rewrite hlater (hrows.closing_le hcoherent hlater) hrows.rewrites hrows.closed
    (fun gap hmem ↦ ?_) fun gap hmem ended hended ↦ ?_
  · rcases (hgaps.mem_iff gap).mp hmem with ⟨old, hold, rfl⟩ | hfresh
    · rw [startTime_updateGap]
      exact (hcoherent.gapStarted old hold).trans hlater.le
    · exact (hgaps.fresh gap hfresh).1.le
  · rcases (hgaps.mem_iff gap).mp hmem with ⟨old, hold, rfl⟩ | hfresh
    · rcases endTime_updateGap hended with hsame | rfl
      · exact (hcoherent.gapEnded old hold ended hsame).trans hlater.le
      · exact le_rfl
    · exact absurd ((hgaps.fresh gap hfresh).2.symm.trans hended) (Option.some_ne_none _).symm

/-- The step lemma of the invariant, and what the step writes. -/
theorem Engine.Coherent.step (hcoherent : engine.Coherent)
    (hstep : Monitoring.step threshold numWorkers engine event = some next) :
    next.Coherent ∧ Written engine event next.database := by
  obtain ⟨hlater, hnow, -, executed, hexecuted, hdatabase, htasks⟩ := step_eq_some hstep
  obtain ⟨hwritten, hright⟩ := written_execute hcoherent hexecuted
  rw [← hdatabase] at hwritten hright
  refine ⟨⟨?_, ?_⟩, hwritten⟩
  · rw [hnow]
    exact hwritten.coherent hcoherent.database hlater
  · rw [htasks]
    exact hright

/-- The run lemma: every reachable engine is coherent. -/
theorem coherent_of_run {now : ℤ}
    (hrun : run (step threshold numWorkers) (Engine.start now) events = some finish) :
    finish.Coherent := by
  have hstep : ∀ state event next, state.Coherent → True →
      step threshold numWorkers state event = some next → next.Coherent :=
    fun state event next hcoherent _ hstep ↦ (hcoherent.step hstep).1
  exact invariant_of_forall_mem Engine.Coherent hstep (Engine.coherent_start now)
    (fun _ _ ↦ trivial) hrun

end Lnmp.Monitoring
