import Lnmp.Foundation.Runs
import Lnmp.Topology.Clusters

/-!
# Updates of the graph

What `updateEndpointPath` and `updateNodeStatus` make of the nodes and edges, and what holds of the
manager after any history of calls: `Manager.WellFormed`.
-/

set_option autoImplicit false
set_option relaxedAutoImplicit false

namespace Lnmp.Topology

open Lnmp.Foundation Lnmp.Foundation.Digraph Lnmp.Foundation.IpAddress Lnmp.Foundation.Runs
open Lnmp.Monitoring (EndpointId)

/-! ### Pruning -/

namespace Graph

variable {graph : Graph}

/-- Discarding the edges of a list. -/
theorem WellFormed.foldl_disconnect (pruned : List (NodeId × NodeId)) (hgraph : graph.WellFormed) :
    let rest := pruned.foldl (fun graph edge ↦ graph.disconnect edge.1 edge.2) graph
    rest.WellFormed ∧ rest.nodes = graph.nodes ∧
      ∀ edge, edge ∈ rest.edges ↔ edge ∈ graph.edges ∧ edge ∉ pruned := by
  induction pruned generalizing graph with
  | nil => exact ⟨hgraph, rfl, by simp⟩
  | cons first others ih =>
    obtain ⟨hwell, hnodes, hedges⟩ := ih (hgraph.disconnect first.1 first.2)
    refine ⟨hwell, hnodes, fun edge ↦ (hedges edge).trans ?_⟩
    rw [mem_edges_disconnect, List.mem_cons, not_or, and_assoc]

/-- No edge is left that leads into the node. -/
theorem WellFormed.pruneIncoming (hgraph : graph.WellFormed) (target : NodeId) :
    (graph.pruneIncoming target).WellFormed ∧ (graph.pruneIncoming target).nodes = graph.nodes ∧
      ∀ edge, edge ∈ (graph.pruneIncoming target).edges ↔
        edge ∈ graph.edges ∧ edge.2 ≠ target := by
  obtain ⟨hwell, hnodes, hedges⟩ :=
    hgraph.foldl_disconnect (graph.edges.filter (·.2 = target))
  refine ⟨hwell, hnodes, fun edge ↦ (hedges edge).trans (and_congr_right fun hmem ↦ ?_)⟩
  simp [List.mem_filter, hmem]

/-- The hop nodes that stay are the active ones. -/
theorem WellFormed.deleteOrphans (hgraph : graph.WellFormed) (activeTransitNodes : List NodeId) :
    (graph.deleteOrphans activeTransitNodes).WellFormed ∧
      (graph.deleteOrphans activeTransitNodes).edges = graph.edges ∧
      ∀ id, id ∈ (graph.deleteOrphans activeTransitNodes).nodes.keys ↔
        id ∈ graph.nodes.keys ∧ (id.isHop = true → id ∈ activeTransitNodes) := by
  have horphan : ∀ id node, graph.nodes.get? id = some node →
      (id ∈ (graph.nodes.entries.filter fun entry ↦
        entry.2.nodeType = .transit ∧ entry.1 ∉ activeTransitNodes).map Prod.fst ↔
          id.isHop = true ∧ id ∉ activeTransitNodes) := by
    intro id node hget
    simp only [List.mem_map, List.mem_filter, Prod.exists, exists_and_right, exists_eq_right,
      ← Dict.get?_eq_some_iff, hget, Option.some_inj, decide_eq_true_iff, exists_eq_left',
      hgraph.nodeType_eq id node hget, NodeId.isHop_iff]
  refine ⟨hgraph.setNodes fun id node hget ↦ ?_, rfl, fun id ↦ ?_⟩
  · rw [Dict.get?_foldl_erase] at hget
    split at hget
    · exact absurd hget.symm (Option.some_ne_none node)
    · exact hgraph.nodeType_eq id node hget
  · rw [Graph.deleteOrphans, Dict.mem_keys_iff_exists, Dict.mem_keys_iff_exists,
      Dict.get?_foldl_erase]
    cases hget : graph.nodes.get? id with
    | none => simp
    | some node =>
      rw [← not_iff_not]
      simp only [horphan id node hget]
      split <;> simp_all

/-- Connecting the edges of a list. -/
theorem foldl_connect_edges (links : List (NodeId × NodeId)) (graph : Graph) :
    let result := links.foldl (fun graph edge ↦ graph.connect edge.1 edge.2) graph
    (graph.WellFormed → result.WellFormed) ∧ result.nodes = graph.nodes ∧
      ∀ edge, edge ∈ result.edges ↔ edge ∈ graph.edges ∨ edge ∈ links := by
  induction links generalizing graph with
  | nil => exact ⟨fun hgraph ↦ hgraph, rfl, by simp⟩
  | cons first others ih =>
    obtain ⟨hwell, hnodes, hedges⟩ := ih (graph.connect first.1 first.2)
    refine ⟨fun hgraph ↦ hwell (hgraph.connect ..), hnodes, fun edge ↦ (hedges edge).trans ?_⟩
    rw [mem_edges_connect, List.mem_cons, or_left_comm, or_assoc]

/-- The edges that stay are those between existing nodes. -/
theorem WellFormed.restrictEdges (hgraph : graph.WellFormed) :
    graph.restrictEdges.WellFormed ∧ graph.restrictEdges.nodes = graph.nodes ∧
      ∀ edge, edge ∈ graph.restrictEdges.edges ↔
        edge ∈ graph.edges ∧ edge.1 ∈ graph.nodes.keys ∧ edge.2 ∈ graph.nodes.keys := by
  have hstart : ({ graph with
      edges := [], nodup_edges := List.nodup_nil, transitChildren := Dict.empty } :
        Graph).WellFormed := ⟨fun _ _ ↦ by simp [children], hgraph.nodeType_eq⟩
  obtain ⟨hwell, hnodes, hedges⟩ := foldl_connect_edges (graph.edges.filter fun edge ↦
    edge.1 ∈ graph.nodes.keys ∧ edge.2 ∈ graph.nodes.keys)
    { graph with edges := [], nodup_edges := List.nodup_nil, transitChildren := Dict.empty }
  refine ⟨hwell hstart, hnodes, fun edge ↦ (hedges edge).trans ?_⟩
  simp [List.mem_filter]

end Graph

/-! ### Inventories -/

/-- Addresses lead to monitored endpoints, and an endpoint without topology discovery is not
monitored. -/
structure Inventory.WellFormed (inventory : Inventory) : Prop where
  monitoredByIp_mem : ∀ ip epId, inventory.monitoredByIp.get? ip = some epId →
    epId ∈ inventory.monitoredById.keys
  disabled_not_mem : ∀ epId ∈ inventory.disabledTopologyEpIds,
    epId ∉ inventory.monitoredById.keys

namespace Inventory

variable {inventory : Inventory}

/-- Entering a row whose identifier is new. -/
theorem WellFormed.addRow (hinventory : inventory.WellFormed) {row : EndpointRow}
    (hmonitored : row.id ∉ inventory.monitoredById.keys)
    (hdisabled : row.id ∉ inventory.disabledTopologyEpIds) :
    (inventory.addRow row).WellFormed := by
  unfold Inventory.addRow
  split
  · refine ⟨fun ip epId hget ↦ ?_, fun epId hepId ↦ ?_⟩
    · rw [Dict.get?_set] at hget
      rw [Dict.mem_keys_set]
      by_cases hip : ip = row.ipAddress
      · rw [if_pos hip, Option.some_inj] at hget
        exact Or.inl hget.symm
      · rw [if_neg hip] at hget
        exact Or.inr (hinventory.monitoredByIp_mem ip epId hget)
    · rw [Dict.mem_keys_set, not_or]
      exact ⟨fun hsame ↦ hdisabled (hsame ▸ hepId), hinventory.disabled_not_mem epId hepId⟩
  · refine ⟨hinventory.monitoredByIp_mem, fun epId hepId ↦ ?_⟩
    rcases List.mem_insert_iff.mp hepId with rfl | hold
    · exact hmonitored
    · exact hinventory.disabled_not_mem epId hold

theorem mem_keys_addRow (inventory : Inventory) (row : EndpointRow) {epId : EndpointId}
    (hepId : epId ∈ (inventory.addRow row).monitoredById.keys ∨
      epId ∈ (inventory.addRow row).disabledTopologyEpIds) :
    epId = row.id ∨ epId ∈ inventory.monitoredById.keys ∨
      epId ∈ inventory.disabledTopologyEpIds := by
  unfold Inventory.addRow at hepId
  split at hepId
  · rw [Dict.mem_keys_set, or_assoc] at hepId
    exact hepId
  · rw [List.mem_insert_iff] at hepId
    exact or_left_comm.mp hepId

theorem WellFormed.foldl_addRow {rows : List EndpointRow}
    (hrows : (rows.map EndpointRow.id).Nodup) (hinventory : inventory.WellFormed)
    (hfresh : ∀ row ∈ rows, row.id ∉ inventory.monitoredById.keys ∧
      row.id ∉ inventory.disabledTopologyEpIds) :
    (rows.foldl Inventory.addRow inventory).WellFormed := by
  induction rows generalizing inventory with
  | nil => exact hinventory
  | cons row rest ih =>
    rw [List.map_cons, List.nodup_cons] at hrows
    obtain ⟨hmonitored, hdisabled⟩ := hfresh row (List.mem_cons_self ..)
    refine ih hrows.2 (hinventory.addRow hmonitored hdisabled) fun other hother ↦ ?_
    obtain ⟨hmonitored', hdisabled'⟩ := hfresh other (List.mem_cons_of_mem _ hother)
    rw [← not_or]
    intro hepId
    rcases mem_keys_addRow inventory row hepId with hsame | hold
    · exact hrows.1 (List.mem_map.mpr ⟨other, hother, hsame⟩)
    · exact hold.elim hmonitored' hdisabled'

end Inventory

theorem Tables.wellFormed_inventory (tables : Tables) : tables.inventory.WellFormed := by
  have hrows : (tables.epRows.map EndpointRow.id).Nodup :=
    tables.nodup_ids.sublist ((List.filter_sublist ..).map _)
  refine Inventory.WellFormed.foldl_addRow hrows ⟨fun ip epId hget ↦ ?_, fun epId hepId ↦ ?_⟩
    fun row _ ↦ ⟨List.not_mem_nil, List.not_mem_nil⟩
  · exact absurd hget.symm (Option.some_ne_none epId)
  · exact absurd hepId List.not_mem_nil

/-- What holds of the inventory, and not of one that no row was entered into, comes from a row. -/
theorem Tables.exists_origin (tables : Tables) (holds : Inventory → Prop)
    {origin : EndpointRow → Prop}
    (hempty : ∀ inventory : Inventory, inventory.monitoredById = Dict.empty →
      inventory.monitoredByIp = Dict.empty → ¬holds inventory)
    (hadd : ∀ inventory row, holds (inventory.addRow row) → holds inventory ∨ origin row)
    (hholds : holds tables.inventory) : ∃ row ∈ tables.epRows, origin row := by
  revert hholds
  refine List.foldlRecOn (motive := fun inventory ↦ holds inventory → _) tables.epRows _
    (fun hstart ↦ absurd hstart (hempty _ rfl rfl)) fun inventory ih row hrow hnext ↦ ?_
  rcases hadd inventory row hnext with hbefore | horigin
  · exact ih hbefore
  · exact ⟨row, hrow, horigin⟩

/-! ### Updates -/

/-- A hop node on a stored route. -/
def Inventory.IsActive (inventory : Inventory) (routes : Dict EndpointId (List Hop))
    (id : NodeId) : Prop :=
  ∃ epId hops, routes.get? epId = some hops ∧
    id ∈ hopNodes inventory.monitoredByIp epId none (sanitizeTracerouteHops hops none)

theorem Manager.mem_activeTransitNodes (manager : Manager) {id : NodeId} (hhop : id.isHop = true) :
    id ∈ manager.activeTransitNodes ↔
      manager.inventory.IsActive manager.baselineRoutes id := by
  simp only [Manager.activeTransitNodes, Manager.routeHops, List.mem_flatMap, List.mem_filter,
    Prod.exists, hhop, and_true, ← Dict.get?_eq_some_iff, Inventory.IsActive]

/-- The routes after an update. -/
def Manager.updatedRoutes (manager : Manager) (epId : EndpointId) (newHops : List Hop) :
    Dict EndpointId (List Hop) :=
  manager.baselineRoutes.set epId (sanitizeTracerouteHops newHops none)

/-- The nodes behind the root on the new path to an endpoint, which ends in front of an endpoint
that has no node. -/
def Manager.updatedPath (manager : Manager) (epId : EndpointId) (newHops : List Hop) :
    List NodeId :=
  hopNodes manager.inventory.monitoredByIp epId none (sanitizeTracerouteHops newHops none) ++
    if .monitored epId ∈ manager.graph.nodes.keys then [.monitored epId] else []

section Update

variable (manager : Manager) {epId : EndpointId} (newHops : List Hop)

theorem Manager.updateEndpointPath_of_mem
    (hdisabled : epId ∈ manager.inventory.disabledTopologyEpIds) :
    manager.updateEndpointPath epId newHops = manager := if_pos hdisabled

theorem Manager.inventory_updateEndpointPath :
    (manager.updateEndpointPath epId newHops).inventory = manager.inventory := by
  unfold Manager.updateEndpointPath
  split <;> rfl

theorem Manager.baselineRoutes_updateEndpointPath
    (hdisabled : epId ∉ manager.inventory.disabledTopologyEpIds) :
    (manager.updateEndpointPath epId newHops).baselineRoutes =
      manager.updatedRoutes epId newHops := by
  rw [Manager.updateEndpointPath, if_neg hdisabled]
  rfl

/-- The new hop nodes are on a stored route. -/
theorem Manager.isActive_updatedRoutes {id : NodeId}
    (hid : id ∈ hopNodes manager.inventory.monitoredByIp epId none
      (sanitizeTracerouteHops newHops none)) :
    manager.inventory.IsActive (manager.updatedRoutes epId newHops) id := by
  refine ⟨epId, sanitizeTracerouteHops newHops none, ?_, ?_⟩
  · rw [Manager.updatedRoutes, Dict.get?_set, if_pos rfl]
  · rwa [sanitizeTracerouteHops_idem]

/-- What an update makes of the graph. -/
theorem Manager.graph_updateEndpointPath (hgraph : manager.graph.WellFormed)
    (hdisabled : epId ∉ manager.inventory.disabledTopologyEpIds) :
    let next := manager.updateEndpointPath epId newHops
    next.graph.WellFormed ∧
      (∀ id, id ∈ next.graph.nodes.keys ↔
        (id ∈ manager.graph.nodes.keys ∨ id.isHop = true ∧
          id ∈ hopNodes manager.inventory.monitoredByIp epId none
            (sanitizeTracerouteHops newHops none)) ∧
        (id.isHop = true → manager.inventory.IsActive (manager.updatedRoutes epId newHops) id)) ∧
      ∀ edge, edge ∈ next.graph.edges ↔
        (edge ∈ manager.graph.edges ∧ edge.2 ≠ .monitored epId ∨
          edge ∈ steps .root (manager.updatedPath epId newHops)) ∧
        edge.1 ∈ next.graph.nodes.keys ∧ edge.2 ∈ next.graph.nodes.keys := by
  simp only [Manager.updateEndpointPath, if_neg hdisabled]
  obtain ⟨hwell, hnodes, hedges⟩ := hgraph.pruneIncoming (.monitored epId)
  have hstitched := hwell.stitch [] manager.inventory.monitoredByIp epId
    (sanitizeTracerouteHops newHops none)
  obtain ⟨hwell', hedges', hkeys'⟩ := hstitched.deleteOrphans
    (manager.storeRoute epId (sanitizeTracerouteHops newHops none)).activeTransitNodes
  obtain ⟨hwell'', hnodes'', hedges''⟩ := hwell'.restrictEdges
  refine ⟨hwell''.propagateInferredDown, fun id ↦ ?_, fun edge ↦ ?_⟩
  · rw [Graph.mem_keys_propagateInferredDown, hnodes'']
    refine (hkeys' id).trans ?_
    rw [mem_keys_stitch, hnodes]
    refine and_congr_right fun _ ↦ forall_congr' fun hhop ↦ ?_
    exact Manager.mem_activeTransitNodes _ hhop
  · simp only [Graph.mem_keys_propagateInferredDown, Graph.edges_propagateInferredDown, hnodes'']
    refine (hedges'' edge).trans (and_congr_left fun _ ↦ ?_)
    rw [hedges', mem_edges_stitch, hedges, hnodes]
    rfl

end Update

/-! ### Histories -/

/-- What holds of the manager after any history of calls. -/
structure Manager.WellFormed (manager : Manager) : Prop where
  graph : manager.graph.WellFormed
  inventory : manager.inventory.WellFormed
  hasNodes : ∀ epId, .monitored epId ∈ manager.graph.nodes.keys ↔
    epId ∈ manager.inventory.monitoredById.keys

namespace Manager

theorem wellFormed_empty : empty.WellFormed where
  graph := Graph.wellFormed_empty
  inventory := ⟨fun _ epId hget ↦ absurd hget.symm (Option.some_ne_none epId),
    fun _ hepId ↦ absurd hepId List.not_mem_nil⟩
  hasNodes _ := iff_of_false List.not_mem_nil List.not_mem_nil

theorem wellFormed_fullRebuild (tables : Tables) : (fullRebuild tables).WellFormed where
  graph := wellFormed_buildGraph ..
  inventory := tables.wellFormed_inventory
  hasNodes epId := by
    rw [fullRebuild, mem_keys_buildGraph]
    simp [NodeId.isHop]

variable {manager : Manager}

/-- An update of a status changes no node and no edge. -/
theorem updateNodeStatus_cases (manager : Manager) (id : NodeId) (newState : String) :
    manager.updateNodeStatus id newState = manager ∨
      id ∈ manager.graph.nodes.keys ∧ manager.isDisabled id = false ∧
        manager.updateNodeStatus id newState =
          { manager with
            graph := (manager.graph.setStatus id newState).propagateInferredDown } := by
  unfold updateNodeStatus
  split
  · exact Or.inl rfl
  · rename_i hdisabled
    split
    · rename_i hmem
      exact Or.inr ⟨hmem, Bool.eq_false_of_not_eq_true hdisabled, rfl⟩
    · exact Or.inl rfl

theorem edges_updateNodeStatus (manager : Manager) (id : NodeId) (newState : String) :
    (manager.updateNodeStatus id newState).graph.edges = manager.graph.edges := by
  rcases manager.updateNodeStatus_cases id newState with hsame | ⟨-, -, hnext⟩
  · rw [hsame]
  · rw [hnext, Graph.edges_propagateInferredDown, Graph.edges_setStatus]

theorem mem_keys_updateNodeStatus (manager : Manager) (id : NodeId) (newState : String)
    (other : NodeId) :
    other ∈ (manager.updateNodeStatus id newState).graph.nodes.keys ↔
      other ∈ manager.graph.nodes.keys := by
  rcases manager.updateNodeStatus_cases id newState with hsame | ⟨-, -, hnext⟩
  · rw [hsame]
  · rw [hnext, Graph.mem_keys_propagateInferredDown, Graph.mem_keys_setStatus]

theorem inventory_updateNodeStatus (manager : Manager) (id : NodeId) (newState : String) :
    (manager.updateNodeStatus id newState).inventory = manager.inventory ∧
      (manager.updateNodeStatus id newState).baselineRoutes = manager.baselineRoutes := by
  rcases manager.updateNodeStatus_cases id newState with hsame | ⟨-, -, hnext⟩
  · rw [hsame]
    exact ⟨rfl, rfl⟩
  · rw [hnext]
    exact ⟨rfl, rfl⟩

theorem WellFormed.updateNodeStatus (hmanager : manager.WellFormed) (id : NodeId)
    (newState : String) : (manager.updateNodeStatus id newState).WellFormed := by
  refine ⟨?_, ?_, fun epId ↦ ?_⟩
  · rcases manager.updateNodeStatus_cases id newState with hsame | ⟨-, -, hnext⟩
    · rw [hsame]
      exact hmanager.graph
    · rw [hnext]
      exact (hmanager.graph.setStatus ..).propagateInferredDown
  · rw [(inventory_updateNodeStatus ..).1]
    exact hmanager.inventory
  · rw [mem_keys_updateNodeStatus, (inventory_updateNodeStatus ..).1, hmanager.hasNodes]

theorem WellFormed.updateEndpointPath (hmanager : manager.WellFormed) (epId : EndpointId)
    (newHops : List Hop) : (manager.updateEndpointPath epId newHops).WellFormed := by
  by_cases hdisabled : epId ∈ manager.inventory.disabledTopologyEpIds
  · rw [updateEndpointPath_of_mem _ _ hdisabled]
    exact hmanager
  · obtain ⟨hwell, hkeys, -⟩ := manager.graph_updateEndpointPath newHops hmanager.graph hdisabled
    refine ⟨hwell, ?_, fun other ↦ ?_⟩
    · rw [inventory_updateEndpointPath]
      exact hmanager.inventory
    · rw [hkeys, inventory_updateEndpointPath, ← hmanager.hasNodes]
      simp [NodeId.isHop]

/-- Every call keeps the manager well-formed. -/
theorem WellFormed.apply (hmanager : manager.WellFormed) (call : Call) :
    (manager.apply call).WellFormed := by
  cases call with
  | fullRebuild tables => exact wellFormed_fullRebuild tables
  | updateNodeStatus id newState => exact hmanager.updateNodeStatus id newState
  | updateEndpointPath epId newHops => exact hmanager.updateEndpointPath epId newHops

end Manager

end Lnmp.Topology
