import Lnmp.Foundation.Runs
import Lnmp.Topology.TelemetryRelay

/-!
# The queue of the route discovery

`services/baseline_route.py`: the routes of endpoints are discovered one after the other. The
midnight job and a request enqueue all endpoints that are up, and the relay enqueues an endpoint
that recovers without a route. `discovery_in_progress` keeps an endpoint from being enqueued a
second time until its discovery is over.

The queue has no bound, so that putting an item in gives way to no other task, and a producer is one
step. The consumer gives way where it waits: for the queue, the session, the trace with its
database, the topology, the broadcast, and between two endpoints. The topology can change at any
time, and the consumer can be cancelled.

`discovery_exact` says that an endpoint is in `discovery_in_progress` exactly when it is queued or
being processed, which it is at most once, and that the consumer can always bring it out again.
-/

set_option autoImplicit false
set_option relaxedAutoImplicit false

namespace Lnmp.Topology

open Lnmp.Foundation Lnmp.Foundation.Runs
open Lnmp.Monitoring (EndpointId)

namespace Relay

/-- Add an endpoint to `discovery_in_progress` and to the queue. -/
def enqueue (relay : Relay) (row : EndpointId × String) : Relay :=
  { relay with
    discoveryInProgress := relay.discoveryInProgress.insert row.1
    discoveryRouteQueue := relay.discoveryRouteQueue ++ [row] }

/-- A round of the loop of `enqueue_scheduled_discovery`. -/
def scheduleRow (relay : Relay) (row : EndpointId × String) : Relay :=
  if row.1 ∈ relay.discoveryInProgress then relay else relay.enqueue row

/-- `enqueue_scheduled_discovery` behind its query. -/
def enqueueScheduledDiscovery (relay : Relay) (rows : List (EndpointId × String)) : Relay :=
  rows.foldl scheduleRow relay

/-- `discovery_in_progress.discard`. -/
def discard (relay : Relay) (endpointId : EndpointId) : Relay :=
  { relay with discoveryInProgress := relay.discoveryInProgress.filter (· ≠ endpointId) }

/-- The relay enqueues an endpoint that is not in progress, or does nothing. -/
theorem maybeTriggerAutoDiscovery_cases (relay : Relay) (endpointId : EndpointId)
    (ipAddress : Option String) :
    relay.maybeTriggerAutoDiscovery endpointId ipAddress = relay ∨
      (endpointId ∉ relay.discoveryInProgress ∧
        ∃ ip, relay.maybeTriggerAutoDiscovery endpointId ipAddress =
          relay.enqueue (endpointId, ip)) := by
  rw [maybeTriggerAutoDiscovery]
  split
  · exact Or.inl rfl
  · rename_i hfree
    split
    · exact Or.inl rfl
    · split
      · exact Or.inl rfl
      · split
        · exact Or.inl rfl
        · exact Or.inr ⟨hfree, _, rfl⟩

end Relay

/-! ### The consumer -/

/-- What the consumer waits for while it processes an endpoint. `aborting` is the end of the session
after a cancellation. -/
inductive Stage
  | opening
  | refreshing
  | committing
  | updating
  | rebuilding
  | broadcasting
  | closing
  | aborting
  deriving DecidableEq

/-- Where the consumer is. -/
inductive Consumer
  | waiting
  | processing (endpointId : EndpointId) (ipAddress : String) (stage : Stage)
  | pausing
  | stopped
  deriving DecidableEq

/-- The endpoint that is being processed. -/
def Consumer.endpoint : Consumer → Option EndpointId
  | processing endpointId _ _ => some endpointId
  | waiting | pausing | stopped => none

/-- The process with its consumer. -/
structure Discovery where
  relay : Relay
  consumer : Consumer

/-- What happens next. The query of the scheduled discovery gives rows or fails. -/
inductive DiscoveryEvent
  | schedule (rows : Option (List (EndpointId × String)))
  | recover (endpointId : EndpointId) (ipAddress : Option String)
  | topology (manager : Manager)
  | get
  | succeed
  | fail
  | wake
  | cancel

/-- The event is a step of the consumer. -/
def DiscoveryEvent.isConsumer : DiscoveryEvent → Bool
  | get | succeed | fail | wake => true
  | schedule _ | recover _ _ | topology _ | cancel => false

namespace Discovery

/-- The process at the start. -/
def init (manager : Manager) : Discovery where
  relay := { manager := manager, discoveryInProgress := [], discoveryRouteQueue := [] }
  consumer := .waiting

/-- The `finally` behind an endpoint. -/
def release (discovery : Discovery) (endpointId : EndpointId) (consumer : Consumer) :
    Discovery where
  relay := discovery.relay.discard endpointId
  consumer := consumer

/-- What the consumer waits for after a success, `none` behind the session. A drained queue makes it
rebuild the topology. -/
def stageAfter (drained : Bool) : Stage → Option Stage
  | .opening => some .refreshing
  | .refreshing => some .committing
  | .committing => some .updating
  | .updating => if drained then some .rebuilding else some .closing
  | .rebuilding => some .broadcasting
  | .broadcasting => some .closing
  | .closing | .aborting => none

/-- What the consumer waits for after an exception, which ends the session when there is one. -/
def stageAfterFailure : Stage → Option Stage
  | .opening | .closing | .aborting => none
  | .refreshing | .committing | .updating | .rebuilding | .broadcasting => some .closing

/-- What the consumer does behind an endpoint. -/
def consumerAfter : Stage → Consumer
  | .aborting => .stopped
  | .opening | .refreshing | .committing | .updating | .rebuilding | .broadcasting | .closing =>
    .pausing

/-- The consumer goes on with an endpoint, or leaves it. -/
def proceed (discovery : Discovery) (endpointId : EndpointId) (ipAddress : String)
    (stage : Option Stage) (consumer : Consumer) : Discovery :=
  match stage with
  | some stage => { discovery with consumer := .processing endpointId ipAddress stage }
  | none => discovery.release endpointId consumer

/-- The process after an event, `none` when the event cannot happen. -/
def step (discovery : Discovery) : DiscoveryEvent → Option Discovery
  | .schedule none => some discovery
  | .schedule (some rows) =>
    some { discovery with relay := discovery.relay.enqueueScheduledDiscovery rows }
  | .recover endpointId ipAddress =>
    some { discovery with relay := discovery.relay.maybeTriggerAutoDiscovery endpointId ipAddress }
  | .topology manager =>
    some { discovery with relay := { discovery.relay with manager := manager } }
  | .get =>
    match discovery.consumer, discovery.relay.discoveryRouteQueue with
    | .waiting, (endpointId, ipAddress) :: rest =>
      some {
        relay := { discovery.relay with discoveryRouteQueue := rest }
        consumer := .processing endpointId ipAddress .opening }
    | _, _ => none
  | .succeed =>
    match discovery.consumer with
    | .processing endpointId ipAddress stage =>
      some (discovery.proceed endpointId ipAddress
        (stageAfter discovery.relay.discoveryRouteQueue.isEmpty stage) (consumerAfter stage))
    | _ => none
  | .fail =>
    match discovery.consumer with
    | .processing endpointId ipAddress stage =>
      some (discovery.proceed endpointId ipAddress (stageAfterFailure stage) (consumerAfter stage))
    | _ => none
  | .wake =>
    match discovery.consumer with
    | .pausing => some { discovery with consumer := .waiting }
    | _ => none
  | .cancel =>
    match discovery.consumer with
    | .processing endpointId ipAddress stage =>
      some (discovery.proceed endpointId ipAddress
        ((stageAfterFailure stage).map fun _ ↦ .aborting) .stopped)
    | _ => some { discovery with consumer := .stopped }

/-- The endpoints that are being processed or queued. -/
def pending (discovery : Discovery) : List EndpointId :=
  discovery.consumer.endpoint.toList ++ discovery.relay.discoveryRouteQueue.map Prod.fst

/-- Every endpoint is pending at most once, and in progress exactly when it is pending. -/
structure Exact (discovery : Discovery) : Prop where
  nodup : discovery.pending.Nodup
  mem_iff : ∀ endpointId,
    endpointId ∈ discovery.relay.discoveryInProgress ↔ endpointId ∈ discovery.pending

variable {discovery next : Discovery} {event : DiscoveryEvent}

theorem exact_init (manager : Manager) : Exact (init manager) :=
  ⟨List.nodup_nil, fun _ ↦ Iff.rfl⟩

/-- Enqueueing an endpoint that is not in progress makes it pending once. -/
theorem Exact.enqueue (hexact : discovery.Exact) {row : EndpointId × String}
    (hfree : row.1 ∉ discovery.relay.discoveryInProgress) :
    Exact { discovery with relay := discovery.relay.enqueue row } := by
  have hpending : pending { discovery with relay := discovery.relay.enqueue row } =
      discovery.pending ++ [row.1] := by
    simp [pending, Relay.enqueue]
  refine ⟨?_, fun endpointId ↦ ?_⟩
  · rw [hpending, List.nodup_append_comm]
    exact List.nodup_cons.mpr ⟨fun hmem ↦ hfree ((hexact.mem_iff row.1).mpr hmem), hexact.nodup⟩
  · rw [hpending, List.mem_append, List.mem_singleton, ← hexact.mem_iff]
    show endpointId ∈ discovery.relay.discoveryInProgress.insert row.1 ↔ _
    rw [List.mem_insert_iff, or_comm]

theorem Exact.scheduleRow (hexact : discovery.Exact) (row : EndpointId × String) :
    Exact { discovery with relay := discovery.relay.scheduleRow row } := by
  rw [Relay.scheduleRow]
  split
  · exact hexact
  · rename_i hfree
    exact hexact.enqueue hfree

theorem Exact.enqueueScheduledDiscovery (hexact : discovery.Exact)
    (rows : List (EndpointId × String)) :
    Exact { discovery with relay := discovery.relay.enqueueScheduledDiscovery rows } := by
  induction rows generalizing discovery with
  | nil => exact hexact
  | cons row rows ih => exact ih (hexact.scheduleRow row)

theorem Exact.maybeTriggerAutoDiscovery (hexact : discovery.Exact) (endpointId : EndpointId)
    (ipAddress : Option String) :
    Exact { discovery with
      relay := discovery.relay.maybeTriggerAutoDiscovery endpointId ipAddress } := by
  rcases discovery.relay.maybeTriggerAutoDiscovery_cases endpointId ipAddress with
    hsame | ⟨hfree, ip, henqueue⟩
  · rw [hsame]
    exact hexact
  · rw [henqueue]
    exact hexact.enqueue hfree

/-- What is pending with the consumer at another place. -/
theorem Exact.of_pending_eq (hexact : discovery.Exact)
    (hprogress : next.relay.discoveryInProgress = discovery.relay.discoveryInProgress)
    (hpending : next.pending = discovery.pending) : next.Exact :=
  ⟨hpending ▸ hexact.nodup, fun endpointId ↦ by rw [hprogress, hpending, hexact.mem_iff]⟩

/-- An endpoint that the consumer leaves is not pending any more. -/
theorem Exact.release (hexact : discovery.Exact) {endpointId : EndpointId}
    (hprocessing : discovery.consumer.endpoint = some endpointId) {consumer : Consumer}
    (hidle : consumer.endpoint = none) : (discovery.release endpointId consumer).Exact := by
  have hpending : discovery.pending =
      endpointId :: (discovery.release endpointId consumer).pending := by
    rw [pending, pending, hprocessing, Discovery.release, hidle]
    rfl
  have hnodup := hexact.nodup
  rw [hpending, List.nodup_cons] at hnodup
  refine ⟨hnodup.2, fun other ↦ ?_⟩
  show other ∈ discovery.relay.discoveryInProgress.filter (· ≠ endpointId) ↔ _
  rw [List.mem_filter, hexact.mem_iff, hpending, List.mem_cons, decide_eq_true_eq]
  constructor
  · rintro ⟨hmem, hne⟩
    exact hmem.resolve_left hne
  · intro hmem
    exact ⟨Or.inr hmem, fun hsame ↦ hnodup.1 (hsame ▸ hmem)⟩

theorem Exact.proceed (hexact : discovery.Exact) {endpointId : EndpointId} {ipAddress : String}
    {stage : Stage} (hprocessing : discovery.consumer = .processing endpointId ipAddress stage)
    (nextStage : Option Stage) {consumer : Consumer} (hidle : consumer.endpoint = none) :
    (discovery.proceed endpointId ipAddress nextStage consumer).Exact := by
  have hendpoint : discovery.consumer.endpoint = some endpointId := by
    rw [hprocessing]
    rfl
  cases nextStage with
  | none => exact hexact.release hendpoint hidle
  | some nextStage =>
    refine hexact.of_pending_eq rfl ?_
    rw [pending, pending, hendpoint]
    rfl

theorem endpoint_consumerAfter (stage : Stage) : (consumerAfter stage).endpoint = none := by
  cases stage <;> rfl

/-- The consumer takes an endpoint from the queue and goes on with it. -/
theorem Exact.get (hexact : discovery.Exact) (hstep : discovery.step .get = some next) :
    next.Exact := by
  simp only [step] at hstep
  split at hstep
  · rename_i endpointId ipAddress rest hconsumer hqueue
    obtain rfl := Option.some.inj hstep
    refine hexact.of_pending_eq rfl ?_
    rw [pending, pending, hconsumer, hqueue]
    rfl
  · exact absurd hstep.symm (Option.some_ne_none next)

/-- Every step keeps the set exact. -/
theorem exact_step (hexact : discovery.Exact) (hstep : discovery.step event = some next) :
    next.Exact := by
  cases event with
  | schedule rows =>
    cases rows with
    | none => exact Option.some.inj hstep ▸ hexact
    | some rows => exact Option.some.inj hstep ▸ hexact.enqueueScheduledDiscovery rows
  | recover endpointId ipAddress =>
    exact Option.some.inj hstep ▸ hexact.maybeTriggerAutoDiscovery endpointId ipAddress
  | topology manager =>
    obtain rfl := Option.some.inj hstep
    exact hexact.of_pending_eq rfl rfl
  | get => exact hexact.get hstep
  | succeed =>
    simp only [step] at hstep
    split at hstep
    · rename_i endpointId ipAddress stage hprocessing
      exact Option.some.inj hstep ▸ hexact.proceed hprocessing _ (endpoint_consumerAfter stage)
    · exact absurd hstep.symm (Option.some_ne_none next)
  | fail =>
    simp only [step] at hstep
    split at hstep
    · rename_i endpointId ipAddress stage hprocessing
      exact Option.some.inj hstep ▸ hexact.proceed hprocessing _ (endpoint_consumerAfter stage)
    · exact absurd hstep.symm (Option.some_ne_none next)
  | wake =>
    simp only [step] at hstep
    split at hstep
    · rename_i hpausing
      obtain rfl := Option.some.inj hstep
      refine hexact.of_pending_eq rfl ?_
      rw [pending, pending, hpausing]
      rfl
    · exact absurd hstep.symm (Option.some_ne_none next)
  | cancel =>
    simp only [step] at hstep
    split at hstep
    · rename_i endpointId ipAddress stage hprocessing
      exact Option.some.inj hstep ▸ hexact.proceed hprocessing _ rfl
    · rename_i hidle
      obtain rfl := Option.some.inj hstep
      refine hexact.of_pending_eq rfl ?_
      cases hconsumer : discovery.consumer with
      | processing endpointId ipAddress stage => exact absurd hconsumer (hidle _ _ _)
      | waiting | pausing | stopped => simp [pending, hconsumer, Consumer.endpoint]

theorem Exact.of_run {events : List DiscoveryEvent} (hexact : discovery.Exact)
    (hrun : run step discovery events = some next) : next.Exact := by
  have hstep : ∀ (state : Discovery) (event : DiscoveryEvent) (after : Discovery), state.Exact →
      True → state.step event = some after → after.Exact :=
    fun _ _ _ hexact _ hstep ↦ exact_step hexact hstep
  exact invariant_of_forall_mem Exact hstep hexact (fun _ _ ↦ trivial) hrun

theorem exact_of_run {manager : Manager} {events : List DiscoveryEvent}
    (hrun : run step (init manager) events = some discovery) : discovery.Exact :=
  (exact_init manager).of_run hrun

/-! ### Progress -/

/-- The steps of the consumer alone lead from one state to another. -/
def Drains (discovery next : Discovery) : Prop :=
  ∃ events : List DiscoveryEvent, (∀ event ∈ events, event.isConsumer) ∧
    run step discovery events = some next

theorem Drains.refl (discovery : Discovery) : Drains discovery discovery :=
  ⟨[], fun _ hmem ↦ absurd hmem List.not_mem_nil, rfl⟩

theorem Drains.trans {middle : Discovery} (hfirst : Drains discovery middle)
    (hsecond : Drains middle next) : Drains discovery next := by
  obtain ⟨first, hfirstKind, hfirst⟩ := hfirst
  obtain ⟨second, hsecondKind, hsecond⟩ := hsecond
  refine ⟨first ++ second, fun event hmem ↦ ?_, run_append_eq_some.mpr ⟨middle, hfirst, hsecond⟩⟩
  exact (List.mem_append.mp hmem).elim (hfirstKind event) (hsecondKind event)

theorem Drains.of_step (event : DiscoveryEvent) (hkind : event.isConsumer)
    (hstep : discovery.step event = some next) :
    Drains discovery next :=
  ⟨[event], fun _ hmem ↦ List.mem_singleton.mp hmem ▸ hkind, by
    rw [← List.nil_append [event], run_concat_eq_some]
    exact ⟨discovery, rfl, hstep⟩⟩

/-- The consumer was not cancelled. -/
def IsRunning : Consumer → Prop
  | .processing _ _ .aborting | .stopped => False
  | .processing _ _ _ | .waiting | .pausing => True

theorem exists_drains_of_pausing (discovery : Discovery)
    (hpausing : discovery.consumer = .pausing) :
    ∃ next, Drains discovery next ∧ next.consumer = .waiting ∧
      next.relay.discoveryRouteQueue = discovery.relay.discoveryRouteQueue := by
  refine ⟨{ discovery with consumer := .waiting }, Drains.of_step .wake rfl ?_, rfl,
    rfl⟩
  simp only [step, hpausing]

/-- A failure without a session to end leaves the endpoint. -/
theorem exists_drains_of_left (discovery : Discovery) {endpointId : EndpointId}
    {ipAddress : String} {stage : Stage}
    (hprocessing : discovery.consumer = .processing endpointId ipAddress stage)
    (hleft : stageAfterFailure stage = none) (hpausing : consumerAfter stage = .pausing) :
    ∃ next, Drains discovery next ∧ next.consumer = .waiting ∧
      next.relay.discoveryRouteQueue = discovery.relay.discoveryRouteQueue := by
  have hfail : discovery.step .fail = some (discovery.release endpointId .pausing) := by
    simp only [step, hprocessing, hleft, hpausing, Discovery.proceed]
  obtain ⟨next, hdrains, hnext⟩ :=
    exists_drains_of_pausing (discovery.release endpointId .pausing) rfl
  exact ⟨next, (Drains.of_step .fail rfl hfail).trans hdrains, hnext⟩

/-- The consumer gets back to the queue, which it leaves as it is. -/
theorem exists_drains_waiting (discovery : Discovery) (hrunning : IsRunning discovery.consumer) :
    ∃ next, Drains discovery next ∧ next.consumer = .waiting ∧
      next.relay.discoveryRouteQueue = discovery.relay.discoveryRouteQueue := by
  cases hconsumer : discovery.consumer with
  | waiting => exact ⟨discovery, Drains.refl discovery, hconsumer, rfl⟩
  | pausing => exact exists_drains_of_pausing discovery hconsumer
  | stopped =>
    rw [hconsumer] at hrunning
    exact hrunning.elim
  | processing endpointId ipAddress stage =>
    cases stage with
    | opening => exact exists_drains_of_left discovery hconsumer rfl rfl
    | closing => exact exists_drains_of_left discovery hconsumer rfl rfl
    | aborting =>
      rw [hconsumer] at hrunning
      exact hrunning.elim
    | refreshing | committing | updating | rebuilding | broadcasting =>
      have hfail : discovery.step .fail =
          some { discovery with consumer := .processing endpointId ipAddress .closing } := by
        simp only [step, hconsumer, stageAfterFailure, Discovery.proceed]
      obtain ⟨next, hdrains, hnext⟩ := exists_drains_of_left
        { discovery with consumer := .processing endpointId ipAddress .closing } rfl rfl rfl
      exact ⟨next, (Drains.of_step .fail rfl hfail).trans hdrains, hnext⟩

/-- The consumer brings all endpoints out of the queue. -/
theorem exists_drains_empty {queue : List (EndpointId × String)}
    (hqueue : discovery.relay.discoveryRouteQueue = queue)
    (hwaiting : discovery.consumer = .waiting) :
    ∃ next, Drains discovery next ∧ next.consumer = .waiting ∧
      next.relay.discoveryRouteQueue = [] := by
  induction queue generalizing discovery with
  | nil => exact ⟨discovery, Drains.refl discovery, hwaiting, hqueue⟩
  | cons row rest ih =>
    let taken : Discovery :=
      { relay := { discovery.relay with discoveryRouteQueue := rest }
        consumer := .processing row.1 row.2 .opening }
    have hget : discovery.step .get = some taken := by
      simp only [step, hwaiting, hqueue, taken]
    obtain ⟨waiting, hreturns, hwaiting, hrest⟩ :=
      exists_drains_waiting taken trivial
    obtain ⟨next, hdrains, hnext⟩ := ih hrest hwaiting
    exact ⟨next, ((Drains.of_step .get rfl hget).trans hreturns).trans hdrains, hnext⟩

theorem Drains.exact (hdrains : Drains discovery next) (hexact : discovery.Exact) :
    next.Exact := by
  obtain ⟨events, -, hrun⟩ := hdrains
  exact hexact.of_run hrun

/-- In every run, an endpoint is queued or being processed at most once, and in progress exactly
when it is. A consumer that was not cancelled can bring all endpoints out of progress. -/
theorem discovery_exact {manager : Manager} {events : List DiscoveryEvent}
    (hrun : run step (init manager) events = some discovery) :
    discovery.pending.Nodup ∧
      (∀ endpointId,
        endpointId ∈ discovery.relay.discoveryInProgress ↔ endpointId ∈ discovery.pending) ∧
      (IsRunning discovery.consumer →
        ∃ next, Drains discovery next ∧ next.relay.discoveryInProgress = []) := by
  have hexact := exact_of_run hrun
  refine ⟨hexact.nodup, hexact.mem_iff, fun hrunning ↦ ?_⟩
  obtain ⟨waiting, hreturns, hwaiting, -⟩ := exists_drains_waiting discovery hrunning
  obtain ⟨next, hdrains, hidle, hempty⟩ := exists_drains_empty rfl hwaiting
  have hnext := (hreturns.trans hdrains).exact hexact
  refine ⟨next, hreturns.trans hdrains, List.eq_nil_iff_forall_not_mem.mpr fun endpointId ↦ ?_⟩
  rw [hnext.mem_iff, pending, hidle, hempty]
  exact List.not_mem_nil

/-- Two endpoints are scheduled, one recovers while it is processed, its trace fails, and it
recovers once more. -/
def discoverySample : List DiscoveryEvent :=
  [.schedule (some [(1, "192.0.2.1"), (2, "192.0.2.2")]), .get, .succeed,
    .recover 1 (some "192.0.2.1"), .fail, .fail, .wake, .recover 1 (some "192.0.2.1")]

theorem isSome_run_discoverySample :
    (run step (init Manager.empty) discoverySample).isSome := by decide

example : ((run step (init Manager.empty) discoverySample).map pending) = some [2, 1] := by decide

theorem discovery_exact_discoverySample :
    ((run step (init Manager.empty) discoverySample).get isSome_run_discoverySample).pending.Nodup ∧
      (∀ endpointId,
        endpointId ∈ ((run step (init Manager.empty) discoverySample).get
          isSome_run_discoverySample).relay.discoveryInProgress ↔
        endpointId ∈ ((run step (init Manager.empty) discoverySample).get
          isSome_run_discoverySample).pending) ∧
      (IsRunning ((run step (init Manager.empty) discoverySample).get
          isSome_run_discoverySample).consumer →
        ∃ next, Drains ((run step (init Manager.empty) discoverySample).get
          isSome_run_discoverySample) next ∧ next.relay.discoveryInProgress = []) :=
  discovery_exact (Option.some_get _).symm

end Discovery

end Lnmp.Topology
