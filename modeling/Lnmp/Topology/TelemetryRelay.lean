import Lnmp.Monitoring.Announcements
import Mathlib.Data.List.Permutation
import Lnmp.Topology.InferredDown

/-!
# The telemetry relay

`TelemetryRelay` (`services/telemetry_relay.py`): the process that serves the topology hears of a
confirmed transition in two messages, one on each of two channels, and sets the status of the node
from both. The message of one channel has the detailed state of the endpoint, and the relay takes
it from there; from the other one it takes the operational state.

`status_deliver_iff` says when the node of an endpoint ends with the detailed state of its last
transition: when the message with the detailed state comes last, or the operational state has the
same text.
-/

set_option autoImplicit false
set_option relaxedAutoImplicit false

namespace Lnmp.Topology

open Lnmp.Foundation
open Lnmp.Monitoring (EndpointId EndpointState DetailedState OperationalState TransitionPayload
  Effect Environment PingResult MonitoringCycle confirmsTransition processCycle classifyCycle
  fst_classifyCycle transitionMessages transitionHooks transitionEffects_eq transitionPayload
  orElseText)

/-! ### The relay -/

/-- The channels of the event broker that the relay listens to. -/
inductive Channel
  | stateTransition
  | nodeStateChange
  | rcaIncident
  deriving DecidableEq

/-- The entries of an event that the relay reads, and the detailed state. An entry that the event
does not have is `none`. -/
structure EventData where
  nodeId : Option NodeId
  endpointId : Option EndpointId
  currentState : Option String
  operationalState : Option String
  detailedState : Option String
  newState : Option String
  ipAddress : Option String
  deriving DecidableEq

/-- The process of the relay: its topology, and the queue of the route discovery. -/
structure Relay where
  manager : Manager
  discoveryInProgress : List EndpointId
  discoveryRouteQueue : List (EndpointId × String)

namespace Relay

/-- `_maybe_trigger_auto_discovery`. -/
def maybeTriggerAutoDiscovery (relay : Relay) (endpointId : EndpointId)
    (ipAddress : Option String) : Relay :=
  if endpointId ∈ relay.discoveryInProgress then relay
  else if (relay.manager.baselineRoutes.get? endpointId).getD [] ≠ [] then relay
  else
    match orElseText ipAddress
        ((relay.manager.graph.nodes.get? (.monitored endpointId)).bind Node.ipAddress) with
    | none => relay
    | some resolvedIp =>
      if resolvedIp = "" then relay
      else
        { relay with
          discoveryInProgress := relay.discoveryInProgress.insert endpointId
          discoveryRouteQueue := relay.discoveryRouteQueue ++ [(endpointId, resolvedIp)] }

/-- `topology_manager.update_node_status`, with a state that is not empty. -/
def updateNodeStatus (relay : Relay) (id : NodeId) (newState : String) : Relay :=
  { relay with manager := relay.manager.updateNodeStatus id newState }

/-- `_handle_relayed_event`. -/
def handleRelayedEvent (relay : Relay) (channel : Channel) (data : EventData) : Relay :=
  match channel with
  | .stateTransition =>
    match data.endpointId, orElseText data.currentState data.operationalState with
    | some endpointId, some newState =>
      if newState = "" then relay
      else if newState.toUpper = "UP" then
        (relay.updateNodeStatus (.monitored endpointId) newState).maybeTriggerAutoDiscovery
          endpointId data.ipAddress
      else relay.updateNodeStatus (.monitored endpointId) newState
    | _, _ => relay
  | .nodeStateChange =>
    match data.nodeId.or (data.endpointId.map NodeId.monitored),
        orElseText data.operationalState data.newState with
    | some nodeId, some newState =>
      if newState = "" then relay else relay.updateNodeStatus nodeId newState
    | _, _ => relay
  | .rcaIncident => relay

/-- The relay after a list of messages. -/
def deliver (relay : Relay) (messages : List (Channel × EventData)) : Relay :=
  messages.foldl (fun relay message ↦ relay.handleRelayedEvent message.1 message.2) relay

/-- The status of the node of an endpoint. -/
def status (relay : Relay) (endpointId : EndpointId) : Option String :=
  (relay.manager.graph.nodes.get? (.monitored endpointId)).map Node.status

end Relay

/-! ### Transitions -/

/-- The event of a `NODE_STATE_CHANGE` message. -/
def nodeStateChangeData (endpointId : EndpointId) (newState : DetailedState) : EventData where
  nodeId := none
  endpointId := some endpointId
  currentState := none
  operationalState := none
  detailedState := none
  newState := some newState.text
  ipAddress := none

/-- The event of a `STATE_TRANSITION` message. -/
def stateTransitionData (payload : TransitionPayload) : EventData where
  nodeId := none
  endpointId := some payload.endpointId
  currentState := none
  operationalState := some payload.operationalState.text
  detailedState := some payload.detailedState.text
  newState := none
  ipAddress := payload.ipAddress

/-- The message that a task of a cycle publishes. -/
def publishedMessage : Effect → Option (Channel × EventData)
  | .publishNodeStateChange endpointId newState =>
    some (.nodeStateChange, nodeStateChangeData endpointId newState)
  | .publishStateTransition payload => some (.stateTransition, stateTransitionData payload)
  | _ => none

/-- A cycle that confirms a transition of an endpoint. -/
structure ConfirmedTransition where
  threshold : ℕ
  state : EndpointState
  cycle : MonitoringCycle
  confirmed : confirmsTransition threshold state cycle.detailedState = true

namespace ConfirmedTransition

/-- The endpoint of the transition. -/
def endpointId (transition : ConfirmedTransition) : EndpointId := transition.state.endpointId

/-- The state that is confirmed. -/
def detailedState (transition : ConfirmedTransition) : DetailedState :=
  transition.cycle.detailedState

/-- The messages that `process_cycle` publishes. -/
def messages (transition : ConfirmedTransition) : List (Channel × EventData) :=
  (transition.cycle.transact transition.threshold transition.state).effects.filterMap
    publishedMessage

/-- The hooks of a transition publish nothing. -/
theorem filterMap_transitionHooks (environment : Environment) (state : EndpointState)
    (operational : OperationalState) :
    (transitionHooks environment state operational).filterMap publishedMessage = [] := by
  rw [List.filterMap_eq_nil_iff]
  intro effect hmem
  unfold transitionHooks at hmem
  cases operational <;> grind [publishedMessage]

/-- What a transition publishes when there is a broker. -/
theorem filterMap_transitionMessages {environment : Environment} {state : EndpointState}
    {result : PingResult} {operational : OperationalState} {detailed : DetailedState} {nowIso : ℤ}
    (hbroker : environment.hasEventBroker = true) :
    (transitionMessages environment state result operational detailed nowIso).filterMap
        publishedMessage =
      [(.nodeStateChange, nodeStateChangeData state.endpointId detailed),
        (.stateTransition, stateTransitionData
          (transitionPayload environment state result operational detailed nowIso))] := by
  rw [transitionMessages, if_pos hbroker]
  rfl

/-- A confirmed transition is published in two messages, of which one has the detailed state as the
new state and the other one the operational state. -/
theorem exists_messages_eq (transition : ConfirmedTransition) :
    ∃ payload : TransitionPayload,
      transition.messages =
          [(.nodeStateChange,
              nodeStateChangeData transition.endpointId transition.detailedState),
            (.stateTransition, stateTransitionData payload)] ∧
        payload.endpointId = transition.endpointId ∧
        payload.operationalState = transition.detailedState.operational := by
  obtain ⟨threshold, state, cycle, hconfirmed⟩ := transition
  have hconfirmed' : confirmsTransition threshold state
    (classifyCycle cycle.result cycle.baseline).2 = true := hconfirmed
  have hbroker := cycle.broker
  -- Whatever fails in the cycle, the messages are handed to the broker before.
  have hprocessed : ∀ environment : Environment,
      (processCycle threshold environment state cycle.result cycle.baseline cycle.nowIso
          cycle.executionTime cycle.database).effects.filterMap publishedMessage =
        (transitionMessages environment state cycle.result
          (classifyCycle cycle.result cycle.baseline).1 cycle.detailedState
          cycle.nowIso).filterMap publishedMessage := by
    intro environment
    simp only [processCycle, if_pos hconfirmed', transitionEffects_eq, List.filterMap_append,
      filterMap_transitionHooks, List.append_nil]
    rfl
  have hmessages : ∃ environment : Environment, environment.hasEventBroker = true ∧
      (cycle.transact threshold state).effects.filterMap publishedMessage =
        (transitionMessages environment state cycle.result
          (classifyCycle cycle.result cycle.baseline).1 cycle.detailedState
          cycle.nowIso).filterMap publishedMessage := by
    unfold MonitoringCycle.transact
    split
    · exact ⟨cycle.environment, hbroker, hprocessed _⟩
    · exact ⟨cycle.environment, hbroker, hprocessed _⟩
    · exact ⟨cycle.environment, hbroker, hprocessed _⟩
    · exact ⟨cycle.environment, hbroker, by rw [if_pos hconfirmed]⟩
    · exact ⟨cycle.environment.withoutRows, hbroker, hprocessed _⟩
  obtain ⟨environment, henvironment, hmessages⟩ := hmessages
  refine ⟨_, hmessages.trans (filterMap_transitionMessages henvironment), rfl, ?_⟩
  exact fst_classifyCycle cycle.result cycle.baseline

end ConfirmedTransition

/-! ### Statuses -/

section Status

variable {relay : Relay} {endpointId : EndpointId}

/-- Setting the status of the node of an endpoint sets it: the propagation marks routers only. -/
theorem Manager.WellFormed.status_updateNodeStatus {manager : Manager}
    (hmanager : manager.WellFormed)
    (hnode : .monitored endpointId ∈ manager.graph.nodes.keys) (newState : String) :
    ((manager.updateNodeStatus (.monitored endpointId) newState).graph.nodes.get?
      (.monitored endpointId)).map Node.status = some newState := by
  have hdisabled : manager.isDisabled (.monitored endpointId) = false :=
    decide_eq_false fun hmem ↦ hmanager.inventory.disabled_not_mem endpointId hmem
      ((hmanager.hasNodes endpointId).mp hnode)
  obtain ⟨node, hget⟩ := (Dict.mem_keys_iff_exists ..).mp hnode
  have htype := hmanager.graph.nodeType_eq _ _ hget
  rw [Manager.updateNodeStatus, if_neg (by rw [hdisabled]; exact Bool.false_ne_true), if_pos hnode]
  rw [(hmanager.graph.setStatus ..).get?_propagateInferredDown, Graph.get?_setStatus, if_pos rfl,
    hget, Option.map_some, Option.map_some, Option.map_some, Graph.mark, if_neg]
  simp [Node.isInferable, htype, NodeId.nodeType]

/-- The node of the endpoint is there, in a well-formed topology. -/
structure Relay.Shows (relay : Relay) (endpointId : EndpointId) : Prop where
  wellFormed : relay.manager.WellFormed
  mem_keys : .monitored endpointId ∈ relay.manager.graph.nodes.keys

/-- The discovery does not touch the topology. -/
theorem Relay.manager_maybeTriggerAutoDiscovery (relay : Relay) (endpointId : EndpointId)
    (ipAddress : Option String) :
    (relay.maybeTriggerAutoDiscovery endpointId ipAddress).manager = relay.manager := by
  rw [Relay.maybeTriggerAutoDiscovery]
  split_ifs
  · rfl
  · rfl
  · split
    · rfl
    · split_ifs <;> rfl

/-- What a message does to the topology: nothing, or it sets the status of a node. -/
theorem Relay.manager_handleRelayedEvent (relay : Relay) (channel : Channel) (data : EventData) :
    (relay.handleRelayedEvent channel data).manager = relay.manager ∨
      ∃ id newState, (relay.handleRelayedEvent channel data).manager =
        relay.manager.updateNodeStatus id newState := by
  cases channel with
  | stateTransition =>
    simp only [Relay.handleRelayedEvent]
    split
    · split_ifs
      · exact Or.inl rfl
      · exact Or.inr ⟨_, _, Relay.manager_maybeTriggerAutoDiscovery ..⟩
      · exact Or.inr ⟨_, _, rfl⟩
    · exact Or.inl rfl
  | nodeStateChange =>
    simp only [Relay.handleRelayedEvent]
    split
    · split_ifs
      · exact Or.inl rfl
      · exact Or.inr ⟨_, _, rfl⟩
    · exact Or.inl rfl
  | rcaIncident => exact Or.inl rfl

/-- No message takes the node of an endpoint away. -/
theorem Relay.Shows.handleRelayedEvent (hshows : relay.Shows endpointId) (channel : Channel)
    (data : EventData) : (relay.handleRelayedEvent channel data).Shows endpointId := by
  rcases relay.manager_handleRelayedEvent channel data with hsame | ⟨id, newState, hnext⟩
  · exact ⟨hsame ▸ hshows.wellFormed, hsame ▸ hshows.mem_keys⟩
  · refine ⟨hnext ▸ hshows.wellFormed.updateNodeStatus id newState, ?_⟩
    rw [hnext]
    exact (Manager.mem_keys_updateNodeStatus ..).mpr hshows.mem_keys

/-- No list of messages takes the node of an endpoint away. -/
theorem Relay.Shows.deliver (hshows : relay.Shows endpointId)
    (messages : List (Channel × EventData)) : (relay.deliver messages).Shows endpointId := by
  induction messages generalizing relay with
  | nil => exact hshows
  | cons message rest ih => exact ih (hshows.handleRelayedEvent message.1 message.2)

theorem text_ne_empty (detailed : DetailedState) : detailed.text ≠ "" := by
  cases detailed <;> decide

/-- A `NODE_STATE_CHANGE` message sets the detailed state. -/
theorem Relay.Shows.status_nodeStateChange (hshows : relay.Shows endpointId)
    (newState : DetailedState) :
    (relay.handleRelayedEvent .nodeStateChange
      (nodeStateChangeData endpointId newState)).status endpointId = some newState.text := by
  have hstate : orElseText none (some newState.text) = some newState.text := rfl
  have hhandled : relay.handleRelayedEvent .nodeStateChange
      (nodeStateChangeData endpointId newState) =
        relay.updateNodeStatus (.monitored endpointId) newState.text := by
    simp only [Relay.handleRelayedEvent, nodeStateChangeData, hstate, Option.none_or,
      Option.map_some, if_neg (text_ne_empty newState)]
  rw [hhandled]
  exact hshows.wellFormed.status_updateNodeStatus hshows.mem_keys newState.text

/-- A `STATE_TRANSITION` message sets the operational state. -/
theorem Relay.Shows.status_stateTransition (hshows : relay.Shows endpointId)
    {payload : TransitionPayload} (hpayload : payload.endpointId = endpointId) :
    (relay.handleRelayedEvent .stateTransition (stateTransitionData payload)).status endpointId =
      some payload.operationalState.text := by
  have hstate : orElseText none (some payload.operationalState.text) =
      some payload.operationalState.text := rfl
  have hhandled : (relay.handleRelayedEvent .stateTransition
      (stateTransitionData payload)).manager =
        relay.manager.updateNodeStatus (.monitored endpointId) payload.operationalState.text := by
    have htext : payload.operationalState.text ≠ "" := by
      cases payload.operationalState <;> decide
    simp only [Relay.handleRelayedEvent, stateTransitionData, hstate, if_neg htext, hpayload]
    split_ifs
    · exact Relay.manager_maybeTriggerAutoDiscovery ..
    · rfl
  rw [Relay.status, hhandled]
  exact hshows.wellFormed.status_updateNodeStatus hshows.mem_keys _

/-- Behind whatever was delivered before, the two messages of a transition leave its detailed state
exactly when the message with the detailed state is the last one, or the operational state has the
same text. -/
theorem status_deliver_iff (hshows : relay.Shows endpointId) (transition : ConfirmedTransition)
    (hendpoint : transition.endpointId = endpointId) (earlier : List (Channel × EventData))
    {order : List (Channel × EventData)} (horder : order.Perm transition.messages) :
    (relay.deliver (earlier ++ order)).status endpointId = some transition.detailedState.text ↔
      (order.getLast?.map Prod.fst = some .nodeStateChange ∨
        transition.detailedState.operational.text = transition.detailedState.text) := by
  obtain ⟨payload, hmessages, hpayload, hoperational⟩ := transition.exists_messages_eq
  have hbefore := hshows.deliver earlier
  rw [hmessages, hendpoint, List.perm_pair] at horder
  rw [hendpoint] at hpayload
  rw [Relay.deliver, List.foldl_append]
  rcases horder with rfl | rfl
  · -- The operational state comes last.
    have hlast := (hbefore.handleRelayedEvent .nodeStateChange
      (nodeStateChangeData endpointId transition.detailedState)).status_stateTransition hpayload
    rw [hoperational] at hlast
    refine (iff_of_eq (congrArg (· = _) hlast)).trans ?_
    rw [Option.some_inj]
    exact (or_iff_right (by simp)).symm
  · refine iff_of_true ?_ (Or.inl rfl)
    exact (hbefore.handleRelayedEvent .stateTransition
      (stateTransitionData payload)).status_nodeStateChange transition.detailedState

end Status

/-! ### An unstable endpoint -/

/-- A broker, and no rows to look up. -/
def brokerOnly : Environment where
  topologyNode := fun _ ↦ none
  endpointRow := fun _ ↦ none
  hasEventBroker := true

theorem hasEventBroker_brokerOnly : brokerOnly.hasEventBroker = true := rfl

/-- An endpoint that is up, of which the last cycle lost one ping in five. -/
def wobblingState : EndpointState where
  endpointId := 1
  activeEventId := 0
  confirmedOperationalState := .up
  confirmedDetailedState := .up
  pendingDetailedState := some .upUnstable
  pendingCycleCount := 2
  hostname := some "host"
  ipAddress := some "192.0.2.1"

/-- A cycle that loses one ping in five again. -/
def wobblingCycle : MonitoringCycle where
  environment := brokerOnly
  result := ⟨4, 1, some 10⟩
  baseline := none
  nowIso := 0
  executionTime := 0
  database := Lnmp.Monitoring.Database.empty
  fault := none
  broker := hasEventBroker_brokerOnly

theorem confirmed_wobblingTransition :
    confirmsTransition 3 wobblingState wobblingCycle.detailedState = true := by decide +kernel

/-- The endpoint becomes unstable. -/
def wobblingTransition : ConfirmedTransition where
  threshold := 3
  state := wobblingState
  cycle := wobblingCycle
  confirmed := confirmed_wobblingTransition

theorem nodup_ids_wobblingTables : ([1] : List EndpointId).Nodup := by decide

/-- The endpoint. -/
def wobblingTables : Tables where
  endpoints := [{
    id := 1
    ipAddress := "192.0.2.1"
    deviceType := none
    endpointStatus := "ACTIVE"
    allowTopologyDiscovery := true
    manualParentId := none
    operationalState := some "UP"
    detailedState := some "UP" }]
  baselineRoutes := []
  diagnosticTraces := []
  rcaIncidents := []
  nodup_ids := nodup_ids_wobblingTables

/-- The relay after a rebuild. -/
def wobblingRelay : Relay where
  manager := Manager.fullRebuild wobblingTables
  discoveryInProgress := []
  discoveryRouteQueue := []

theorem shows_wobblingRelay : wobblingRelay.Shows 1 where
  wellFormed := Manager.wellFormed_fullRebuild wobblingTables
  mem_keys := by decide

/-- In the order in which the two messages are published, the topology ends with a stable endpoint
that is up. -/
theorem not_converges_wobblingRelay :
    wobblingRelay.Shows 1 ∧ wobblingTransition.endpointId = 1 ∧
      ¬∀ order : List (Channel × EventData), order.Perm wobblingTransition.messages →
        (wobblingRelay.deliver order).status 1 = some wobblingTransition.detailedState.text := by
  refine ⟨shows_wobblingRelay, rfl, fun hconverges ↦ ?_⟩
  exact absurd (hconverges _ (List.Perm.refl _)) (by decide +kernel)

theorem status_deliver_wobblingRelay_iff :
    (wobblingRelay.deliver ([] ++ wobblingTransition.messages)).status 1 =
        some wobblingTransition.detailedState.text ↔
      (wobblingTransition.messages.getLast?.map Prod.fst = some .nodeStateChange ∨
        wobblingTransition.detailedState.operational.text =
          wobblingTransition.detailedState.text) :=
  status_deliver_iff shows_wobblingRelay wobblingTransition rfl [] (List.Perm.refl _)

end Lnmp.Topology
