import Lnmp.Monitoring.Engine

/-!
# The latest event of an endpoint

The queries of the backend take the state of an endpoint from its latest event. In every reachable
engine no two events of an endpoint start at one time, so the latest one is unique
(`Coherent.eq_of_startTime`), and it has the states that the task of the endpoint has confirmed,
whether it is open or a gap has closed it (`latestShown_of_run`).
-/

set_option autoImplicit false
set_option relaxedAutoImplicit false

namespace Lnmp.Monitoring

open Lnmp.Foundation Lnmp.Foundation.Runs

variable {database written : Database} {now time closing : ℤ} {endpointId : EndpointId}
  {state recorded : EndpointState} {event row : EndpointEvent}

/-- An event of an endpoint that started no earlier than the others. -/
structure IsLatest (rows : List EndpointEvent) (endpointId : EndpointId) (event : EndpointEvent) :
    Prop where
  mem : event ∈ rows
  owner : event.endpointId = endpointId
  le : ∀ other ∈ rows, other.endpointId = endpointId → other.startTime ≤ event.startTime

/-- Two events of an endpoint that start at one time are the same. -/
theorem Coherent.eq_of_startTime (hcoherent : Coherent database now)
    (hevent : event ∈ database.endpointEvents) (hrow : row ∈ database.endpointEvents)
    (hendpoint : event.endpointId = row.endpointId) (hstart : event.startTime = row.startTime) :
    event = row := by
  rcases hcoherent.before_or hevent hrow with hsame | hbefore | hbefore
  · exact hsame
  · exact absurd hstart (hbefore.precedes hendpoint).starts.ne
  · exact absurd hstart (hbefore.precedes hendpoint.symm).starts.ne'

/-- The latest event is unique. -/
theorem IsLatest.unique (hcoherent : Coherent database now)
    (hevent : IsLatest database.endpointEvents endpointId event)
    (hrow : IsLatest database.endpointEvents endpointId row) : event = row :=
  hcoherent.eq_of_startTime hevent.mem hrow.mem (hevent.owner.trans hrow.owner.symm)
    ((hrow.le event hevent.mem hevent.owner).antisymm (hevent.le row hrow.mem hrow.owner))

/-- An open event is the latest one. -/
theorem Coherent.isLatest_of_open (hcoherent : Coherent database now)
    (hevent : event ∈ database.endpointEvents) (hendpoint : event.endpointId = endpointId)
    (hopen : event.endTime = none) : IsLatest database.endpointEvents endpointId event := by
  refine ⟨hevent, hendpoint, fun other hother hsame ↦ ?_⟩
  rcases hcoherent.before_or hevent hother with heq | hbefore | hbefore
  · exact heq ▸ le_rfl
  · exact absurd hopen (hbefore.endTime_ne_none (hendpoint.trans hsame.symm))
  · exact (hbefore.precedes (hsame.trans hendpoint.symm)).starts.le

/-- A revision keeps the latest event where no other is appended. -/
theorem IsLatest.rewrite {revise : EndpointEvent → EndpointEvent} {fresh : Option EndpointEvent}
    (hlatest : IsLatest database.endpointEvents endpointId event)
    (hrewrites : Rewrites closing time revise fresh database written)
    (hother : ∀ new ∈ fresh, new.endpointId ≠ endpointId) :
    IsLatest written.endpointEvents endpointId (revise event) where
  mem := (hrewrites.mem_iff _).mpr (Or.inl ⟨event, hlatest.mem, rfl⟩)
  owner := (hrewrites.revises event).endpointId.trans hlatest.owner
  le := by
    intro other hmem hsame
    rcases (hrewrites.mem_iff other).mp hmem with ⟨old, hold, rfl⟩ | hfresh
    · rw [(hrewrites.revises old).endpointId] at hsame
      have hstart : (revise old).startTime = old.startTime := (hrewrites.revises old).span.start
      have hevent : (revise event).startTime = event.startTime :=
        (hrewrites.revises event).span.start
      rw [hstart, hevent]
      exact hlatest.le old hold hsame
    · exact absurd hsame (hother other hfresh)

/-! ### What the tasks have confirmed -/

/-- The latest event of an endpoint is the one that the state in memory has as its active event, and
has the confirmed states. -/
def LatestShown (database : Database) (endpointId : EndpointId) (state : EndpointState) : Prop :=
  ∃ event, IsLatest database.endpointEvents endpointId event ∧ state.Shows event

/-- The tasks of an engine that have a state. -/
def Engine.LatestShown (engine : Engine) : Prop :=
  ∀ endpointId state, engine.tasks endpointId = some (some state) →
    Monitoring.LatestShown engine.database endpointId state

theorem LatestShown.rewrite {revise : EndpointEvent → EndpointEvent} {fresh : Option EndpointEvent}
    (hshown : LatestShown database endpointId state)
    (hrewrites : Rewrites closing time revise fresh database written)
    (hother : ∀ new ∈ fresh, new.endpointId ≠ endpointId) :
    LatestShown written endpointId state := by
  obtain ⟨event, hlatest, hshows⟩ := hshown
  exact ⟨revise event, hlatest.rewrite hrewrites hother,
    hshows.revised (hrewrites.revises event)⟩

/-- An operation on an endpoint leaves an open event, which its state shows. -/
theorem Maintains.latestShown (hcoherent : Coherent written time)
    (hmaintains : Maintains time database endpointId recorded written) :
    LatestShown written endpointId recorded := by
  obtain ⟨event, hmem, hendpoint, hopen⟩ := hmaintains.opened
  exact ⟨event, hcoherent.isLatest_of_open hmem hendpoint hopen,
    hmaintains.tracks.active event hmem hendpoint hopen⟩

/-- A task starts with the states of the latest event. -/
theorem latestShown_initializeEndpoint {environment : Environment}
    (hstate : initializeEndpoint environment endpointId database = some state) :
    LatestShown database endpointId state := by
  obtain ⟨row, hrow, rfl⟩ := Option.map_eq_some_iff.mp hstate
  obtain ⟨hmem, hsame⟩ := List.mem_filter.mp (List.maxOn?_mem hrow)
  refine ⟨row, ⟨hmem, of_decide_eq_true hsame, fun other hother hendpoint ↦ ?_⟩, rfl, rfl, rfl⟩
  have hfiltered : other ∈ database.endpointEvents.filter fun event ↦
      event.endpointId = endpointId :=
    List.mem_filter.mpr ⟨hother, decide_eq_true hendpoint⟩
  have hle := List.le_apply_get_maxOn?_of_mem (f := EndpointEvent.startTime) hfiltered
  simpa [hrow] using hle

variable {threshold numWorkers : ℕ} {engine next finish : Engine} {event : Event}
  {executed : Engine} {operation : Operation}

/-- The tasks of the engine after an operation on one endpoint. -/
theorem Maintains.latestShown_record {recorded : EndpointState × Database}
    (hshown : engine.LatestShown) (hwritten : Coherent recorded.2 time)
    (hmaintains : Maintains time engine.database endpointId recorded.1 recorded.2) :
    (engine.record endpointId recorded).LatestShown := by
  intro other state htask
  obtain ⟨revise, fresh, hrewrites, hfresh⟩ := hmaintains.rewrites
  replace htask : Function.update engine.tasks endpointId (some (some recorded.1)) other =
    some (some state) := htask
  by_cases hsame : other = endpointId
  · subst hsame
    rw [Function.update_self] at htask
    exact Option.some.inj (Option.some.inj htask) ▸ hmaintains.latestShown hwritten
  · rw [Function.update_of_ne hsame] at htask
    exact (hshown other state htask).rewrite hrewrites fun new hnew hother ↦
      hsame (hother.symm.trans (hfresh new hnew).1)

/-- An operation that appends no row keeps what the tasks show. -/
theorem RowsWritten.latestShown {revise : EndpointEvent → EndpointEvent}
    (hshown : engine.LatestShown)
    (hrows : RowsWritten engine event written closing revise none)
    {state : EndpointState} (htask : engine.tasks endpointId = some (some state)) :
    LatestShown written endpointId state :=
  (hshown endpointId state htask).rewrite hrows.rewrites forall_mem_none

/-- The step lemma. -/
theorem Engine.LatestShown.step (hshown : engine.LatestShown) (hcoherent : engine.Coherent)
    (hstep : Monitoring.step threshold numWorkers engine event = some next) :
    next.LatestShown := by
  obtain ⟨-, hnow, -, executed, hexecuted, hdatabase, htasks⟩ := step_eq_some hstep
  have hnext : Monitoring.Coherent executed.database event.time :=
    hdatabase ▸ hnow ▸ (hcoherent.step hstep).1.database
  suffices hexecute : executed.LatestShown by
    intro endpointId state htask
    rw [htasks] at htask
    rw [hdatabase]
    exact hexecute endpointId state htask
  obtain ⟨time, operation⟩ := event
  cases operation with
  | crash worker =>
    obtain rfl := Option.some.inj hexecuted
    intro endpointId state htask
    dsimp only at htask
    split_ifs at htask
    exact hshown endpointId state htask
  | restart worker =>
    obtain rfl := Option.some.inj (Option.ite_none_left_eq_some.mp hexecuted).2
    obtain ⟨closing, revise, hrows⟩ := rowsWritten_restart engine time worker
    exact fun _ _ htask ↦ hrows.latestShown hshown htask
  | spawn environment endpointId =>
    obtain rfl := Option.some.inj (Option.ite_none_right_eq_some.mp hexecuted).2
    intro other state htask
    replace htask : Function.update engine.tasks endpointId
        (some (initializeEndpoint environment endpointId engine.database)) other =
      some (some state) := htask
    by_cases hsame : other = endpointId
    · subst hsame
      rw [Function.update_self] at htask
      exact latestShown_initializeEndpoint (Option.some.inj htask)
    · rw [Function.update_of_ne hsame] at htask
      exact hshown other state htask
  | createInitial environment endpointId result baseline =>
    obtain ⟨htask, ⟨recorded, written⟩, hcreate, rfl⟩ := execute_createInitial hexecuted
    have hnone : RightTask engine.database endpointId (some none) :=
      htask ▸ hcoherent.tasks endpointId
    exact (maintains_createInitialEvent hcoherent.database hnone hcreate).latestShown_record
      hshown hnext
  | processCycle environment endpointId result baseline nowIso =>
    obtain ⟨state, htask, ⟨recorded, written⟩, hrecord, rfl⟩ := execute_processCycle hexecuted
    have htracks : RightTask engine.database endpointId (some (some state)) :=
      htask ▸ hcoherent.tasks endpointId
    exact (maintains_processCycle hcoherent.database htracks hrecord).latestShown_record
      hshown hnext
  | failCycle endpointId =>
    obtain rfl := Option.some.inj (Option.ite_none_right_eq_some.mp hexecuted).2
    exact hshown
  | disable endpointId =>
    obtain rfl := Option.some.inj hexecuted
    intro other state htask
    replace htask : Function.update engine.tasks endpointId none other = some (some state) := htask
    by_cases hsame : other = endpointId
    · subst hsame
      rw [Function.update_self] at htask
      exact absurd htask (Option.some_ne_none _).symm
    · rw [Function.update_of_ne hsame] at htask
      exact hshown other state htask
  | openGap eventType description =>
    obtain rfl := Option.some.inj hexecuted
    obtain ⟨revise, hrows⟩ := rowsWritten_openGap engine time eventType description
    exact fun _ _ htask ↦ hrows.latestShown hshown htask
  | closeGap gapId =>
    obtain rfl := Option.some.inj hexecuted
    have hrows : RowsWritten engine ⟨time, .closeGap gapId⟩
        (closeMonitoringGap gapId time engine.database) time id none :=
      rowsWritten_of_endpointEvents_eq rfl rfl
    exact fun _ _ htask ↦ hrows.latestShown hshown htask

/-- The run lemma. -/
theorem latestShown_of_run {events : List Event}
    (hrun : run (Monitoring.step threshold numWorkers) (Engine.start now) events = some finish) :
    finish.LatestShown := by
  have hinvariant : finish.Coherent ∧ finish.LatestShown := by
    refine invariant_of_forall_mem (fun engine ↦ engine.Coherent ∧ engine.LatestShown)
      (fun engine event next hengine _ hstep ↦ ?_) ⟨Engine.coherent_start now, ?_⟩
      (fun _ _ ↦ trivial) hrun
    · exact ⟨(hengine.1.step hstep).1, hengine.2.step hengine.1 hstep⟩
    · intro endpointId state htask
      exact absurd htask (Option.some_ne_none _).symm
  exact hinvariant.2

end Lnmp.Monitoring
