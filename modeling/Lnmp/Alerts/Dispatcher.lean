import Lnmp.Foundation.Dict
import Lnmp.Foundation.Runs

/-!
# The alert dispatcher

`AlertDispatcher` (`services/alert_dispatcher.py`) turns events into alerts. It has four caches:
when an alert was last sent for a channel, an endpoint and a severity; the last transitions of the
endpoints; the endpoints that a root cause suppresses; and the incidents that are open. Up to ten
dispatches run at a time. Each gives way to the others where it waits: for the master toggle, for
the channels, for a provider, and for the log.

The filters of a channel, which decide before the limits do, are a parameter. The texts of alerts
are left out. Times are microseconds.
-/

set_option autoImplicit false
set_option relaxedAutoImplicit false

namespace Lnmp.Alerts

open Lnmp.Foundation

/-- Minutes in microseconds. -/
def minutes (count : ℤ) : ℤ := count * 60000000

/-! ### Caches -/

/-- A channel, an endpoint and a severity. -/
abbrev RateKey := String × String × String

/-- A value of `_suppressed_children`. -/
structure ChildSuppression where
  incidentId : String
  parentId : String
  expiresAt : ℤ
  deriving DecidableEq

/-- A value of `_active_rca_incidents`. -/
structure RcaIncident where
  rootId : String
  symptoms : List String
  expiresAt : ℤ
  deriving DecidableEq

/-- The caches of the dispatcher. -/
structure Caches where
  rateLimits : Dict RateKey ℤ
  flappingTracker : Dict String (List ℤ)
  suppressedChildren : Dict String ChildSuppression
  activeRcaIncidents : Dict String RcaIncident
  deriving DecidableEq

namespace Caches

/-- The caches at the start. -/
def empty : Caches where
  rateLimits := Dict.empty
  flappingTracker := Dict.empty
  suppressedChildren := Dict.empty
  activeRcaIncidents := Dict.empty

/-- Drop the transitions of an endpoint that are older than ten minutes, and the endpoint when there
are no others. -/
def pruneEndpoint (now : ℤ) (tracker : Dict String (List ℤ)) (entry : String × List ℤ) :
    Dict String (List ℤ) :=
  let active := entry.2.filter fun time ↦ now - minutes 10 ≤ time
  if active = [] then tracker.erase entry.1 else tracker.set entry.1 active

/-- `_prune_memory_caches`. -/
def pruneMemoryCaches (now : ℤ) (caches : Caches) : Caches where
  rateLimits := caches.rateLimits.eraseWhere fun entry ↦ entry.2 < now - minutes 60
  flappingTracker := caches.flappingTracker.entries.foldl (pruneEndpoint now) caches.flappingTracker
  suppressedChildren := caches.suppressedChildren.eraseWhere fun entry ↦ entry.2.expiresAt < now
  activeRcaIncidents := caches.activeRcaIncidents.eraseWhere fun entry ↦ entry.2.expiresAt < now

/-- `_check_flapping`: four transitions within ten minutes. -/
def checkFlapping (endpoint : String) (now : ℤ) (caches : Caches) : Bool × Caches :=
  let window := (caches.flappingTracker.get? endpoint).getD [] ++ [now]
  let kept := window.filter fun time ↦ now - minutes 10 ≤ time
  (4 ≤ kept.length, { caches with flappingTracker := caches.flappingTracker.set endpoint kept })

end Caches

/-! ### Events -/

/-- The data of an `RCA_INCIDENT` event. A missing id is empty. -/
structure RcaEvent where
  incidentId : String
  rootCauseEndpointId : String
  symptomEndpointIds : List String
  isResolved : Bool
  deriving DecidableEq

/-- The data of another event. -/
structure StateEvent where
  eventType : String
  endpointId : Option String
  nodeId : Option String
  endpointName : String
  operationalState : Option String
  currentState : Option String
  newState : Option String
  isSymptom : Bool
  suppressedByUpstream : Bool
  deriving DecidableEq

/-- `first or second`. -/
def orElse (first second : Option String) : Option String :=
  match first with
  | some text => if text ≠ "" then some text else second
  | none => second

/-- `str.upper` on ASCII text. -/
def upper (text : String) : String := String.ofList (text.toList.map Char.toUpper)

namespace StateEvent

/-- `endpoint_id`, `none` when it is missing or empty. -/
def endpoint (event : StateEvent) : Option String :=
  orElse event.endpointId (orElse event.nodeId none)

/-- `new_state`, which is the severity of the alert. -/
def severity (event : StateEvent) : String :=
  upper ((orElse event.operationalState
    (orElse event.currentState (orElse event.newState none))).getD "UNKNOWN")

/-- `ep_key` of the rate limit. -/
def rateEndpoint (event : StateEvent) : String :=
  event.endpoint.getD ("event:" ++ event.eventType ++ ":" ++
    (orElse (some event.endpointName) none).getD "global")

/-- `rl_key`. -/
def rateKey (event : StateEvent) (channel : String) : RateKey :=
  (channel, event.rateEndpoint, event.severity)

/-- The endpoint recovered. -/
def isRecovery (event : StateEvent) : Bool :=
  event.severity = "UP" ∨ event.severity = "RECOVERED"

end StateEvent

/-- An event of the queue. -/
inductive Message
  | rca (event : RcaEvent)
  | state (event : StateEvent)
  deriving DecidableEq

namespace Caches

/-- The record of a child. -/
def childSuppression (event : RcaEvent) (now : ℤ) : ChildSuppression where
  incidentId := event.incidentId
  parentId := event.rootCauseEndpointId
  expiresAt := now + minutes 30

/-- The part of `_dispatch_event` for `RCA_INCIDENT`. -/
def handleRcaIncident (event : RcaEvent) (now : ℤ) (caches : Caches) : Caches :=
  if event.isResolved then
    { caches with
      activeRcaIncidents := caches.activeRcaIncidents.erase event.incidentId
      suppressedChildren := caches.suppressedChildren.eraseWhere fun entry ↦
        entry.2.incidentId = event.incidentId ∨ entry.2.parentId = event.rootCauseEndpointId }
  else
    { caches with
      activeRcaIncidents := if event.incidentId ≠ "" then
          caches.activeRcaIncidents.set event.incidentId
            ⟨event.rootCauseEndpointId, event.symptomEndpointIds, now + minutes 30⟩
        else caches.activeRcaIncidents
      suppressedChildren := caches.suppressedChildren.update
        (event.symptomEndpointIds.map fun child ↦ (child, childSuppression event now)) }

/-- The suppressions by a parent that recovered are cleared. -/
def recoverParent (parent : String) (caches : Caches) : Caches :=
  { caches with
    activeRcaIncidents := caches.activeRcaIncidents.eraseWhere fun entry ↦ entry.2.rootId = parent
    suppressedChildren := caches.suppressedChildren.eraseWhere fun entry ↦
      entry.2.parentId = parent }

/-- The caches after the first step of `transition`. -/
def recover (event : StateEvent) (caches : Caches) : Caches :=
  match event.endpoint with
  | none => caches
  | some endpoint => if event.isRecovery then caches.recoverParent endpoint else caches

/-- `_is_child_suppressed`. -/
def isChildSuppressed (endpoint : Option String) (now : ℤ) (caches : Caches) : Bool × Caches :=
  match orElse endpoint none with
  | none => (false, caches)
  | some child =>
    match caches.suppressedChildren.get? child with
    | none => (false, caches)
    | some info =>
      if info.expiresAt < now then
        (false, { caches with suppressedChildren := caches.suppressedChildren.erase child })
      else (true, caches)

/-- The part of `_dispatch_event` between the toggle and the channels: `none` for an alert that is
suppressed, and otherwise whether the endpoint is flapping. -/
def transition (event : StateEvent) (now : ℤ) (caches : Caches) : Option Bool × Caches :=
  let recovered := caches.recover event
  if event.isSymptom || event.suppressedByUpstream then (none, recovered)
  else
    let checked := recovered.isChildSuppressed event.endpoint now
    if checked.1 then (none, checked.2)
    else
      let flapping := checked.2.checkFlapping (event.endpoint.getD event.endpointName) now
      (some flapping.1, flapping.2)

end Caches

/-! ### Dispatches -/

/-- What happens for one channel. -/
inductive Stage
  | ready
  | sending
  | done
  deriving DecidableEq

/-- Where a dispatch is. -/
inductive Phase
  | toggling
  | loading (isFlapping : Bool)
  | evaluating (isFlapping : Bool) (stages : Dict String Stage)
  | logging
  deriving DecidableEq

/-- A `_worker_dispatch` that has the semaphore. -/
structure Dispatch where
  event : StateEvent
  timestamp : ℤ
  phase : Phase
  deriving DecidableEq

/-- The dispatcher: its caches, its dispatches, and the alerts that were sent and reported
`DELIVERED`, with their timestamps. -/
structure Dispatcher where
  caches : Caches
  dispatches : Dict ℕ Dispatch
  clock : ℤ
  delivered : List (RateKey × ℤ)
  deriving DecidableEq

/-- What happens next. -/
inductive DispatcherEvent
  | prune (now : ℤ)
  | start (task : ℕ) (message : Message) (now : ℤ)
  | toggle (task : ℕ) (enabled : Bool)
  | load (task : ℕ) (channels : List String)
  | evaluate (task : ℕ) (channel : String)
  | provide (task : ℕ) (channel : String) (delivered : Bool)
  | finish (task : ℕ)

namespace Dispatcher

variable (passesFilters : String → StateEvent → Bool)

/-- The number of dispatches that `_dispatch_semaphore` admits. -/
def maxDispatches : ℕ := 10

/-- The dispatcher at the start. -/
def init (origin : ℤ) : Dispatcher where
  caches := Caches.empty
  dispatches := Dict.empty
  clock := origin
  delivered := []

/-- The part of `_evaluate_and_send_channel` before the provider is called. -/
def evaluateChannel (dispatch : Dispatch) (isFlapping : Bool) (channel : String)
    (caches : Caches) : Stage :=
  if ¬passesFilters channel dispatch.event ∨ isFlapping then .done
  else
    match caches.rateLimits.get? (dispatch.event.rateKey channel) with
    | none => .sending
    | some lastSent => if dispatch.timestamp - lastSent < minutes 5 then .done else .sending

/-- A dispatch goes on. -/
def proceed (dispatcher : Dispatcher) (task : ℕ) (dispatch : Dispatch) (phase : Phase) :
    Dispatcher :=
  { dispatcher with dispatches := dispatcher.dispatches.set task { dispatch with phase := phase } }

/-- The part of `_evaluate_and_send_channel` behind the answer of the provider. -/
def recordSent (dispatcher : Dispatcher) (dispatch : Dispatch) (channel : String)
    (delivered : Bool) : Dispatcher :=
  if delivered then
    { dispatcher with
      caches.rateLimits :=
        dispatcher.caches.rateLimits.set (dispatch.event.rateKey channel) dispatch.timestamp
      delivered := dispatcher.delivered ++ [(dispatch.event.rateKey channel, dispatch.timestamp)] }
  else dispatcher

/-- The dispatcher after an event, `none` when the event cannot happen. -/
def step (dispatcher : Dispatcher) : DispatcherEvent → Option Dispatcher
  | .prune now =>
    if dispatcher.clock ≤ now then
      some { dispatcher with caches := dispatcher.caches.pruneMemoryCaches now, clock := now }
    else none
  | .start task message now =>
    if dispatcher.clock ≤ now ∧ task ∉ dispatcher.dispatches.keys ∧
        dispatcher.dispatches.keys.length < maxDispatches then
      match message with
      | .rca event =>
        some { dispatcher with
          caches := dispatcher.caches.handleRcaIncident event now, clock := now }
      | .state event =>
        some { dispatcher with
          dispatches := dispatcher.dispatches.set task ⟨event, now, .toggling⟩, clock := now }
    else none
  | .toggle task enabled =>
    match dispatcher.dispatches.get? task with
    | some ⟨event, timestamp, .toggling⟩ =>
      if enabled then
        let outcome := dispatcher.caches.transition event timestamp
        some ({ dispatcher with caches := outcome.2 }.proceed task ⟨event, timestamp, .toggling⟩
          (outcome.1.elim .logging .loading))
      else some (dispatcher.proceed task ⟨event, timestamp, .toggling⟩ .logging)
    | _ => none
  | .load task channels =>
    match dispatcher.dispatches.get? task with
    | some ⟨event, timestamp, .loading isFlapping⟩ =>
      some (dispatcher.proceed task ⟨event, timestamp, .loading isFlapping⟩
        (.evaluating isFlapping (Dict.empty.update (channels.map fun channel ↦ (channel, .ready)))))
    | _ => none
  | .evaluate task channel =>
    match dispatcher.dispatches.get? task with
    | some ⟨event, timestamp, .evaluating isFlapping stages⟩ =>
      if stages.get? channel = some .ready then
        let dispatch := ⟨event, timestamp, .evaluating isFlapping stages⟩
        some (dispatcher.proceed task dispatch (.evaluating isFlapping (stages.set channel
          (evaluateChannel passesFilters dispatch isFlapping channel dispatcher.caches))))
      else none
    | _ => none
  | .provide task channel delivered =>
    match dispatcher.dispatches.get? task with
    | some ⟨event, timestamp, .evaluating isFlapping stages⟩ =>
      if stages.get? channel = some .sending then
        let dispatch := ⟨event, timestamp, .evaluating isFlapping stages⟩
        some ((dispatcher.recordSent dispatch channel delivered).proceed task dispatch
          (.evaluating isFlapping (stages.set channel .done)))
      else none
    | _ => none
  | .finish task =>
    match dispatcher.dispatches.get? task with
    | some ⟨_, _, .logging⟩ =>
      some { dispatcher with dispatches := dispatcher.dispatches.erase task }
    | some ⟨_, _, .evaluating _ stages⟩ =>
      if ∀ stage ∈ stages.values, stage = .done then
        some { dispatcher with dispatches := dispatcher.dispatches.erase task }
      else none
    | _ => none

end Dispatcher

end Lnmp.Alerts
