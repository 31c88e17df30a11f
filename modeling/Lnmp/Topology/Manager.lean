import Lnmp.Foundation.Search
import Lnmp.Topology.Hops

/-!
# The topology manager

`TopologyGraphManager` (`services/topology.py`): the graph of the monitored endpoints and of the
hops on the way to them. `fullRebuild` makes it from the tables, `updateEndpointPath` replaces the
route of one endpoint, and `updateNodeStatus` sets the status of one node. Every call runs under one
lock, so that a history of the manager is a list of calls.

Sets are lists without duplicates, and the edges carry the proof of it. A node has its `state` and
its `status` as one field, since they are written together. The levels, the labels and the
serialized graph are left out.
-/

set_option autoImplicit false
set_option relaxedAutoImplicit false

namespace Lnmp.Topology

open Lnmp.Foundation Lnmp.Foundation.Digraph Lnmp.Foundation.IpAddress Lnmp.Foundation.Search
open Lnmp.Monitoring (EndpointId)

/-! ### Graphs -/

/-- The type of a node. -/
inductive NodeType
  | root
  | monitored
  | transit
  | subnetHub
  deriving DecidableEq

/-- The device type of a node. -/
inductive DeviceType
  | monitoringEngine
  | endpoint (deviceType : String)
  | anonymousHop
  | transitRouter
  | subnetHub
  deriving DecidableEq

/-- A node. -/
structure Node where
  nodeType : NodeType
  deviceType : DeviceType
  status : String
  ipAddress : Option String
  deriving DecidableEq

/-- The nodes and edges, and the children of every node. -/
structure Graph where
  nodes : Dict NodeId Node
  edges : List (NodeId × NodeId)
  nodup_edges : edges.Nodup
  transitChildren : Dict NodeId (List NodeId)
  deriving DecidableEq

namespace Graph

/-- The graph before the first rebuild. -/
def empty : Graph where
  nodes := Dict.empty
  edges := []
  nodup_edges := List.nodup_nil
  transitChildren := Dict.empty

/-- `transit_children.get(node, set())`. -/
def children (graph : Graph) (id : NodeId) : List NodeId := (graph.transitChildren.get? id).getD []

/-- Add an edge. -/
def connect (graph : Graph) (source target : NodeId) : Graph :=
  { graph with
    edges := graph.edges.insert (source, target)
    nodup_edges := graph.nodup_edges.insert
    transitChildren := graph.transitChildren.set source ((graph.children source).insert target) }

/-- Discard an edge. -/
def disconnect (graph : Graph) (source target : NodeId) : Graph :=
  { graph with
    edges := graph.edges.filter (· ≠ (source, target))
    nodup_edges := graph.nodup_edges.filter _
    transitChildren :=
      match graph.transitChildren.get? source with
      | none => graph.transitChildren
      | some targets => graph.transitChildren.set source (targets.filter (· ≠ target)) }

/-- Add a node unless it is there. -/
def addNode (graph : Graph) (id : NodeId) (node : Node) : Graph :=
  if id ∈ graph.nodes.keys then graph else { graph with nodes := graph.nodes.set id node }

/-- Set the status of a node if it is there. -/
def setStatus (graph : Graph) (id : NodeId) (status : String) : Graph :=
  match graph.nodes.get? id with
  | none => graph
  | some node => { graph with nodes := graph.nodes.set id { node with status := status } }

end Graph

/-! ### Inferred outages -/

/-- The states in which an endpoint is down. -/
def isDownState (status : String) : Bool :=
  status = "DOWN" || status = "DOWN-UNSTABLE" || status = "FAILURE_POINT"

/-- A transit router with an address that is not a failure point. -/
def Node.isInferable (node : Node) : Bool :=
  node.nodeType = .transit && node.deviceType = .transitRouter && node.status ≠ "FAILURE_POINT"

/-- The node is there and of the type of the monitored endpoints. -/
def Graph.isMonitored (graph : Graph) (id : NodeId) : Bool :=
  match graph.nodes.get? id with
  | none => false
  | some node => node.nodeType = .monitored

/-- `get_all_downstream_monitored`. The search goes from child to child, so that it visits each
entry of the children once at most. -/
def Graph.downstreamMonitored (graph : Graph) (start : NodeId) : List NodeId :=
  (collect graph.children graph.isMonitored (graph.transitChildren.values.flatten.length + 1) start
    []).1

/-- The node is there and not down. -/
def Graph.isUp (graph : Graph) (id : NodeId) : Bool :=
  match graph.nodes.get? id with
  | none => false
  | some node => ¬isDownState node.status

/-- There are monitored nodes downstream, and all of them are down. -/
def Graph.infersDown (graph : Graph) (id : NodeId) : Bool :=
  let downstream := graph.downstreamMonitored id
  downstream ≠ [] && downstream.all fun child ↦ !graph.isUp child

/-- One node of `_propagate_inferred_down`. -/
def Graph.inferDown (graph : Graph) (id : NodeId) : Graph :=
  match graph.nodes.get? id with
  | none => graph
  | some node =>
    if node.isInferable && graph.infersDown id then graph.setStatus id "INFERRED_DOWN" else graph

/-- `_propagate_inferred_down`. -/
def Graph.propagateInferredDown (graph : Graph) : Graph :=
  graph.nodes.keys.foldl Graph.inferDown graph

/-! ### Tables -/

/-- The columns of an endpoint and the states of its newest event. -/
structure EndpointRow where
  id : EndpointId
  ipAddress : String
  deviceType : Option String
  endpointStatus : String
  allowTopologyDiscovery : Bool
  manualParentId : Option EndpointId
  operationalState : Option String
  detailedState : Option String
  deriving DecidableEq

/-- The hops of a row, `none` when its column is no list of hops. -/
structure RouteRow where
  endpointId : EndpointId
  hops : Option (List Hop)
  deriving DecidableEq

/-- An incident of the root cause analysis. -/
structure IncidentRow where
  endpointId : EndpointId
  failedHopIp : Option String
  isResolved : Bool
  deriving DecidableEq

/-- The tables that a rebuild reads. The identifier is the primary key of the endpoints. A query
that fails returns no rows. -/
structure Tables where
  endpoints : List EndpointRow
  baselineRoutes : List RouteRow
  diagnosticTraces : List RouteRow
  rcaIncidents : List IncidentRow
  nodup_ids : (endpoints.map EndpointRow.id).Nodup

/-- The rows with `endpoint_status != 'DELETED'`. -/
def Tables.epRows (tables : Tables) : List EndpointRow :=
  tables.endpoints.filter fun row ↦ row.endpointStatus ≠ "DELETED"

/-- `first or second`. -/
def orText (first second : String) : String := if first = "" then second else first

/-- What the manager has of a monitored endpoint. -/
structure MonitoredEndpoint where
  ipAddress : String
  status : String
  deviceType : String
  manualParentId : Option EndpointId
  subnet : Option Address
  deriving DecidableEq

/-- The entry of a row. -/
def EndpointRow.monitored (row : EndpointRow) : MonitoredEndpoint where
  ipAddress := row.ipAddress
  status :=
    orText (row.detailedState.getD "UP") (orText (row.operationalState.getD "UP") "UP")
  deviceType := orText (row.deviceType.getD "") "ENDPOINT"
  manualParentId := row.manualParentId
  subnet := getSubnetGroup row.ipAddress

/-- What the manager keeps of the endpoints and the incidents. -/
structure Inventory where
  monitoredById : Dict EndpointId MonitoredEndpoint
  monitoredByIp : Dict String EndpointId
  disabledTopologyEpIds : List EndpointId
  failedHopIps : List String
  failedEndpointIds : List EndpointId
  deriving DecidableEq

/-- The inventory before the first rebuild. -/
def Inventory.empty : Inventory where
  monitoredById := Dict.empty
  monitoredByIp := Dict.empty
  disabledTopologyEpIds := []
  failedHopIps := []
  failedEndpointIds := []

/-- Enter a row: an endpoint without topology discovery is only noted as such. -/
def Inventory.addRow (inventory : Inventory) (row : EndpointRow) : Inventory :=
  if row.allowTopologyDiscovery then
    { inventory with
      monitoredById := inventory.monitoredById.set row.id row.monitored
      monitoredByIp := inventory.monitoredByIp.set row.ipAddress row.id }
  else
    { inventory with
      disabledTopologyEpIds := inventory.disabledTopologyEpIds.insert row.id }

/-- The endpoints and the active incidents. -/
def Tables.inventory (tables : Tables) : Inventory :=
  let active := tables.rcaIncidents.filter fun row ↦ !row.isResolved
  tables.epRows.foldl Inventory.addRow
    { Inventory.empty with
      failedHopIps := (active.filterMap IncidentRow.failedHopIp).filter (· ≠ "")
      failedEndpointIds := active.map IncidentRow.endpointId }

/-- Enter the hops of a row. -/
def addRoute (routes : Dict EndpointId (List Hop)) (row : RouteRow) : Dict EndpointId (List Hop) :=
  match row.hops with
  | none => routes
  | some hops => routes.set row.endpointId hops

/-- Enter the hops of a trace of an endpoint without a route. -/
def addTrace (routes : Dict EndpointId (List Hop)) (row : RouteRow) : Dict EndpointId (List Hop) :=
  if row.endpointId ∈ routes.keys then routes else addRoute routes row

/-- The routes: those of the baseline, and the newest traces of the other endpoints. -/
def Tables.routes (tables : Tables) : Dict EndpointId (List Hop) :=
  tables.diagnosticTraces.foldl addTrace (tables.baselineRoutes.foldl addRoute Dict.empty)

/-! ### Routes -/

/-- The walk along a route: the graph, the last node and the last hop address. -/
structure Walk where
  graph : Graph
  previousNodeId : NodeId
  previousHopIp : Option String

/-- Add the node of a hop, and mark a failed one. -/
def Graph.addHop (graph : Graph) (failedHopIps : List String) : NodeId → Graph
  | .anonymous previousHopIp epId =>
    graph.addNode (.anonymous previousHopIp epId) ⟨.transit, .anonymousHop, "UP", none⟩
  | .transit hopIp =>
    if .transit hopIp ∈ graph.nodes.keys then
      if hopIp ∈ failedHopIps then graph.setStatus (.transit hopIp) "FAILURE_POINT" else graph
    else
      graph.addNode (.transit hopIp)
        ⟨.transit, .transitRouter, if hopIp ∈ failedHopIps then "FAILURE_POINT" else "UP",
          some hopIp⟩
  | _ => graph

/-- One hop of a route. -/
def Walk.step (failedHopIps : List String) (monitoredByIp : Dict String EndpointId)
    (epId : EndpointId) (walk : Walk) (hop : Hop) : Walk :=
  let currentNodeId := hopNode monitoredByIp epId walk.previousHopIp hop
  let graph := walk.graph.addHop failedHopIps currentNodeId
  { graph :=
      if walk.previousNodeId ≠ currentNodeId then graph.connect walk.previousNodeId currentNodeId
      else graph
    previousNodeId := currentNodeId
    previousHopIp := hop.ip.or walk.previousHopIp }

/-- Add the path from the root along the hops to an endpoint. A rebuild marks failed hops, an update
has none to mark. Without hops the endpoint hangs on the root. -/
def Graph.stitch (graph : Graph) (failedHopIps : List String)
    (monitoredByIp : Dict String EndpointId) (epId : EndpointId) (hops : List Hop) : Graph :=
  let walk := hops.foldl (Walk.step failedHopIps monitoredByIp epId) ⟨graph, .root, none⟩
  if walk.previousNodeId ≠ .monitored epId ∧ .monitored epId ∈ walk.graph.nodes.keys then
    walk.graph.connect walk.previousNodeId (.monitored epId)
  else walk.graph

/-! ### Rebuilding -/

/-- The node of a monitored endpoint. An endpoint that is down is a failure point when it, or a hop
at its address, has an active incident. -/
def Inventory.monitoredNode (inventory : Inventory) (epId : EndpointId)
    (epData : MonitoredEndpoint) : Node where
  nodeType := .monitored
  deviceType := .endpoint epData.deviceType
  status :=
    if (epData.ipAddress ∈ inventory.failedHopIps ∨ epId ∈ inventory.failedEndpointIds) ∧
        (epData.status = "DOWN" ∨ epData.status = "DOWN-UNSTABLE") then "FAILURE_POINT"
    else epData.status
  ipAddress := some epData.ipAddress

/-- Add a monitored endpoint. -/
def Inventory.addMonitored (inventory : Inventory) (graph : Graph)
    (entry : EndpointId × MonitoredEndpoint) : Graph :=
  { graph with
    nodes := graph.nodes.set (.monitored entry.1) (inventory.monitoredNode entry.1 entry.2) }

/-- The root and the monitored endpoints. -/
def Inventory.startGraph (inventory : Inventory) : Graph :=
  inventory.monitoredById.entries.foldl inventory.addMonitored
    { Graph.empty with
      nodes := Dict.empty.set .root ⟨.root, .monitoringEngine, "UP", none⟩ }

/-- Connect an endpoint to its manual parent, or along its route. -/
def Inventory.mergeEndpoint (inventory : Inventory) (routes : Dict EndpointId (List Hop))
    (graph : Graph) (entry : EndpointId × MonitoredEndpoint) : Graph :=
  match (entry.2.manualParentId.map NodeId.monitored).filter (· ∈ graph.nodes.keys) with
  | some manualParent => graph.connect manualParent (.monitored entry.1)
  | none =>
    graph.stitch inventory.failedHopIps inventory.monitoredByIp entry.1
      (sanitizeTracerouteHops ((routes.get? entry.1).getD []) none)

/-- The endpoints that hang on the root. -/
def Inventory.directRootEps (inventory : Inventory) (graph : Graph) : List EndpointId :=
  graph.edges.filterMap fun
    | (.root, .monitored epId) => if epId ∈ inventory.monitoredById.keys then some epId else none
    | _ => none

/-- Enter an endpoint under its subnet. -/
def Inventory.addDirect (inventory : Inventory) (directEpsBySubnet : Dict Address (List EndpointId))
    (epId : EndpointId) : Dict Address (List EndpointId) :=
  match (inventory.monitoredById.get? epId).bind MonitoredEndpoint.subnet with
  | none => directEpsBySubnet
  | some subnet =>
    directEpsBySubnet.set subnet ((directEpsBySubnet.get? subnet).getD [] ++ [epId])

/-- Move the endpoints of a subnet from the root to a hub. -/
def Graph.addSubnetHub (graph : Graph) (entry : Address × List EndpointId) : Graph :=
  let hubId := NodeId.subnetHub entry.1
  entry.2.foldl
    (fun graph epId ↦
      (graph.disconnect .root (.monitored epId)).connect hubId (.monitored epId))
    ((graph.addNode hubId ⟨.subnetHub, .subnetHub, "UP", none⟩).connect .root hubId)

/-- Cluster the endpoints that hang on the root by their subnets. -/
def Inventory.clusterSubnets (inventory : Inventory) (graph : Graph) : Graph :=
  let directEpsBySubnet := (inventory.directRootEps graph).foldl inventory.addDirect Dict.empty
  (directEpsBySubnet.entries.filter fun entry ↦ 2 ≤ entry.2.length).foldl Graph.addSubnetHub graph

/-- The graph of a rebuild. -/
def buildGraph (inventory : Inventory) (routes : Dict EndpointId (List Hop)) : Graph :=
  (inventory.clusterSubnets
    (inventory.monitoredById.entries.foldl (inventory.mergeEndpoint routes)
      inventory.startGraph)).propagateInferredDown

/-! ### The manager -/

/-- The manager. -/
structure Manager where
  graph : Graph
  inventory : Inventory
  baselineRoutes : Dict EndpointId (List Hop)
  deriving DecidableEq

namespace Manager

/-- The manager before the first rebuild. -/
def empty : Manager where
  graph := Graph.empty
  inventory := Inventory.empty
  baselineRoutes := Dict.empty

/-- `full_rebuild`. Nothing of the manager is left. -/
def fullRebuild (tables : Tables) : Manager where
  graph := buildGraph tables.inventory tables.routes
  inventory := tables.inventory
  baselineRoutes := tables.routes

/-- The endpoint of a node does without topology discovery. -/
def isDisabled (manager : Manager) : NodeId → Bool
  | .monitored epId => epId ∈ manager.inventory.disabledTopologyEpIds
  | _ => false

/-- `update_node_status`. -/
def updateNodeStatus (manager : Manager) (id : NodeId) (newState : String) : Manager :=
  if manager.isDisabled id then manager
  else if id ∈ manager.graph.nodes.keys then
    { manager with graph := (manager.graph.setStatus id newState).propagateInferredDown }
  else manager

/-- The hop nodes on a route. -/
def routeHops (manager : Manager) (entry : EndpointId × List Hop) : List NodeId :=
  (hopNodes manager.inventory.monitoredByIp entry.1 none
    (sanitizeTracerouteHops entry.2 none)).filter NodeId.isHop

/-- `active_transit_nodes`: the hop nodes on the stored routes. -/
def activeTransitNodes (manager : Manager) : List NodeId :=
  manager.baselineRoutes.entries.flatMap manager.routeHops

end Manager

namespace Graph

/-- Discard the edges into a node. -/
def pruneIncoming (graph : Graph) (target : NodeId) : Graph :=
  (graph.edges.filter (·.2 = target)).foldl (fun graph edge ↦ graph.disconnect edge.1 edge.2) graph

/-- Delete the transit nodes that are not active. -/
def deleteOrphans (graph : Graph) (activeTransitNodes : List NodeId) : Graph :=
  let orphanedIds := (graph.nodes.entries.filter fun entry ↦
    entry.2.nodeType = .transit ∧ entry.1 ∉ activeTransitNodes).map Prod.fst
  { graph with nodes := orphanedIds.foldl Dict.erase graph.nodes }

/-- Keep the edges between existing nodes, and make the children from them. -/
def restrictEdges (graph : Graph) : Graph :=
  (graph.edges.filter fun edge ↦ edge.1 ∈ graph.nodes.keys ∧ edge.2 ∈ graph.nodes.keys).foldl
    (fun graph edge ↦ graph.connect edge.1 edge.2)
    { graph with edges := [], nodup_edges := List.nodup_nil, transitChildren := Dict.empty }

end Graph

/-- Store the route of an endpoint. -/
def Manager.storeRoute (manager : Manager) (epId : EndpointId) (cleanHops : List Hop) : Manager :=
  { manager with baselineRoutes := manager.baselineRoutes.set epId cleanHops }

/-- `update_endpoint_path`. -/
def Manager.updateEndpointPath (manager : Manager) (epId : EndpointId) (newHops : List Hop) :
    Manager :=
  if epId ∈ manager.inventory.disabledTopologyEpIds then manager
  else
    let cleanHops := sanitizeTracerouteHops newHops none
    let stored := manager.storeRoute epId cleanHops
    let stitched := (manager.graph.pruneIncoming (.monitored epId)).stitch []
      manager.inventory.monitoredByIp epId cleanHops
    { stored with
      graph := ((stitched.deleteOrphans stored.activeTransitNodes).restrictEdges
        ).propagateInferredDown }

/-- A call of the manager. -/
inductive Call
  | fullRebuild (tables : Tables)
  | updateNodeStatus (id : NodeId) (newState : String)
  | updateEndpointPath (epId : EndpointId) (newHops : List Hop)

/-- The manager after a call. -/
def Manager.apply (manager : Manager) : Call → Manager
  | .fullRebuild tables => fullRebuild tables
  | .updateNodeStatus id newState => manager.updateNodeStatus id newState
  | .updateEndpointPath epId newHops => manager.updateEndpointPath epId newHops

/-- A history of the manager is a run of these steps. -/
def Manager.step (manager : Manager) (call : Call) : Option Manager := some (manager.apply call)

end Lnmp.Topology
