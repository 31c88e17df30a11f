import Lnmp.Topology.Manager

/-!
# The links of a graph

What the operations of the manager do to the nodes and edges. The graph of a rebuild is given by its
links, `Inventory.links`: an endpoint is linked to its manual parent when that is monitored, and
along the hops of its route otherwise. Clustering moves the endpoints that hang on the root and
share a subnet to a hub (`mem_edges_buildGraph`, `mem_keys_buildGraph`).
-/

set_option autoImplicit false
set_option relaxedAutoImplicit false

namespace Lnmp.Topology

open Lnmp.Foundation Lnmp.Foundation.Digraph Lnmp.Foundation.IpAddress Lnmp.Foundation.Search
open Lnmp.Monitoring (EndpointId)

/-! ### Single operations -/

namespace Graph

variable (graph : Graph) (source target id : NodeId) (edge : NodeId × NodeId)

@[simp] theorem nodes_connect : (graph.connect source target).nodes = graph.nodes := rfl

@[simp] theorem nodes_disconnect : (graph.disconnect source target).nodes = graph.nodes := rfl

@[simp] theorem mem_edges_connect :
    edge ∈ (graph.connect source target).edges ↔ edge = (source, target) ∨ edge ∈ graph.edges :=
  List.mem_insert_iff

@[simp] theorem mem_edges_disconnect :
    edge ∈ (graph.disconnect source target).edges ↔
      edge ∈ graph.edges ∧ edge ≠ (source, target) := by
  simp [disconnect]

theorem mem_children_connect (parent child : NodeId) :
    child ∈ (graph.connect source target).children parent ↔
      (parent, child) = (source, target) ∨ child ∈ graph.children parent := by
  rw [children, connect, Dict.get?_set]
  by_cases hparent : parent = source
  · subst hparent
    simp [List.mem_insert_iff]
  · rw [if_neg hparent]
    simp [children, hparent]

theorem mem_children_disconnect (parent child : NodeId) :
    child ∈ (graph.disconnect source target).children parent ↔
      child ∈ graph.children parent ∧ (parent, child) ≠ (source, target) := by
  cases hsource : graph.transitChildren.get? source with
  | none =>
    simp only [disconnect, children, hsource]
    by_cases hparent : parent = source
    · subst hparent
      simp [hsource]
    · simp [hparent]
  | some targets =>
    simp only [disconnect, children, hsource]
    rw [Dict.get?_set]
    by_cases hparent : parent = source
    · subst hparent
      simp [hsource]
    · simp [hparent]

@[simp] theorem edges_addNode (node : Node) : (graph.addNode id node).edges = graph.edges := by
  unfold addNode
  split <;> rfl

@[simp] theorem transitChildren_addNode (node : Node) :
    (graph.addNode id node).transitChildren = graph.transitChildren := by
  unfold addNode
  split <;> rfl

theorem mem_keys_addNode (node : Node) (other : NodeId) :
    other ∈ (graph.addNode id node).nodes.keys ↔ other = id ∨ other ∈ graph.nodes.keys := by
  unfold addNode
  split
  · rename_i hmem
    exact ⟨Or.inr, fun hor ↦ hor.elim (fun hsame ↦ hsame ▸ hmem) fun hother ↦ hother⟩
  · exact Dict.mem_keys_set ..

@[simp] theorem edges_setStatus (status : String) :
    (graph.setStatus id status).edges = graph.edges := by
  unfold setStatus
  split <;> rfl

@[simp] theorem transitChildren_setStatus (status : String) :
    (graph.setStatus id status).transitChildren = graph.transitChildren := by
  unfold setStatus
  split <;> rfl

/-- What a graph holds under a node after a status is set. -/
theorem get?_setStatus (status : String) (other : NodeId) :
    (graph.setStatus id status).nodes.get? other =
      if other = id then (graph.nodes.get? id).map ({ · with status := status })
      else graph.nodes.get? other := by
  unfold setStatus
  split
  · rename_i hnone
    by_cases hother : other = id
    · rw [if_pos hother, hother, hnone, Option.map_none]
    · rw [if_neg hother]
  · rename_i node hsome
    rw [Dict.get?_set]
    by_cases hother : other = id
    · rw [if_pos hother, if_pos hother, hsome, Option.map_some]
    · rw [if_neg hother, if_neg hother]

theorem mem_keys_setStatus (status : String) (other : NodeId) :
    other ∈ (graph.setStatus id status).nodes.keys ↔ other ∈ graph.nodes.keys := by
  rw [Dict.mem_keys_iff_exists, Dict.mem_keys_iff_exists, get?_setStatus]
  by_cases hother : other = id
  · subst hother
    simp
  · rw [if_neg hother]

@[simp] theorem edges_addHop (failedHopIps : List String) :
    (graph.addHop failedHopIps id).edges = graph.edges := by
  cases id with
  | transit hopIp =>
    simp only [addHop]
    split
    · split <;> simp
    · simp
  | anonymous previousHopIp epId => simp [addHop]
  | root => rfl
  | monitored epId => rfl
  | subnetHub subnet => rfl

@[simp] theorem transitChildren_addHop (failedHopIps : List String) :
    (graph.addHop failedHopIps id).transitChildren = graph.transitChildren := by
  cases id with
  | transit hopIp =>
    simp only [addHop]
    split
    · split <;> simp
    · simp
  | anonymous previousHopIp epId => simp [addHop]
  | root => rfl
  | monitored epId => rfl
  | subnetHub subnet => rfl

theorem mem_keys_addHop (failedHopIps : List String) (other : NodeId) :
    other ∈ (graph.addHop failedHopIps id).nodes.keys ↔
      other = id ∧ id.isHop = true ∨ other ∈ graph.nodes.keys := by
  cases id with
  | transit hopIp =>
    simp only [addHop, NodeId.isHop, and_true]
    split
    · rename_i hmem
      have hpresent : other ∈ graph.nodes.keys ↔
          other = .transit hopIp ∨ other ∈ graph.nodes.keys :=
        ⟨Or.inr, fun hor ↦ hor.elim (fun hsame ↦ hsame ▸ hmem) fun hother ↦ hother⟩
      split
      · rw [mem_keys_setStatus, ← hpresent]
      · exact hpresent
    · exact mem_keys_addNode ..
  | anonymous previousHopIp epId =>
    rw [addHop, mem_keys_addNode]
    simp [NodeId.isHop]
  | root => simp [addHop, NodeId.isHop]
  | monitored epId => simp [addHop, NodeId.isHop]
  | subnetHub subnet => simp [addHop, NodeId.isHop]

end Graph

/-! ### Well-formed graphs -/

/-- The type of the node with an identifier. -/
def NodeId.nodeType : NodeId → NodeType
  | .root => .root
  | .monitored _ => .monitored
  | .transit _ | .anonymous .. => .transit
  | .subnetHub _ => .subnetHub

theorem NodeId.isHop_iff (id : NodeId) : id.isHop = true ↔ id.nodeType = .transit := by
  cases id <;> simp [NodeId.isHop, NodeId.nodeType]

/-- The children are those of the edges, and a node has the type of its identifier. -/
structure Graph.WellFormed (graph : Graph) : Prop where
  mem_children : ∀ parent child, child ∈ graph.children parent ↔ (parent, child) ∈ graph.edges
  nodeType_eq : ∀ id node, graph.nodes.get? id = some node → node.nodeType = id.nodeType

namespace Graph

theorem wellFormed_empty : empty.WellFormed where
  mem_children _ _ := by simp [children, empty]
  nodeType_eq _ _ hget := absurd hget (by simp [empty])

variable {graph : Graph}

theorem WellFormed.connect (hgraph : graph.WellFormed) (source target : NodeId) :
    (graph.connect source target).WellFormed where
  mem_children parent child := by
    rw [mem_children_connect, mem_edges_connect, hgraph.mem_children]
  nodeType_eq := hgraph.nodeType_eq

theorem WellFormed.disconnect (hgraph : graph.WellFormed) (source target : NodeId) :
    (graph.disconnect source target).WellFormed where
  mem_children parent child := by
    rw [mem_children_disconnect, mem_edges_disconnect, hgraph.mem_children]
  nodeType_eq := hgraph.nodeType_eq

/-- Nodes of the right types may be written. -/
theorem WellFormed.setNodes (hgraph : graph.WellFormed) {nodes : Dict NodeId Node}
    (hnodes : ∀ id node, nodes.get? id = some node → node.nodeType = id.nodeType) :
    { graph with nodes := nodes }.WellFormed where
  mem_children := hgraph.mem_children
  nodeType_eq := hnodes

theorem WellFormed.setNode (hgraph : graph.WellFormed) {id : NodeId} {node : Node}
    (hnode : node.nodeType = id.nodeType) :
    { graph with nodes := graph.nodes.set id node }.WellFormed := by
  refine hgraph.setNodes fun other stored hget ↦ ?_
  rw [Dict.get?_set] at hget
  by_cases hother : other = id
  · rw [if_pos hother, Option.some_inj] at hget
    rw [← hget, hother, hnode]
  · rw [if_neg hother] at hget
    exact hgraph.nodeType_eq other stored hget

theorem WellFormed.addNode (hgraph : graph.WellFormed) {id : NodeId} {node : Node}
    (hnode : node.nodeType = id.nodeType) : (graph.addNode id node).WellFormed := by
  unfold Graph.addNode
  split
  · exact hgraph
  · exact hgraph.setNode hnode

theorem WellFormed.setStatus (hgraph : graph.WellFormed) (id : NodeId) (status : String) :
    (graph.setStatus id status).WellFormed := by
  unfold Graph.setStatus
  split
  · exact hgraph
  · rename_i node hget
    exact hgraph.setNode (hgraph.nodeType_eq id node hget)

theorem WellFormed.addHop (hgraph : graph.WellFormed) (failedHopIps : List String) (id : NodeId) :
    (graph.addHop failedHopIps id).WellFormed := by
  cases id with
  | transit hopIp =>
    simp only [Graph.addHop]
    split
    · split
      · exact hgraph.setStatus ..
      · exact hgraph
    · exact hgraph.addNode rfl
  | anonymous previousHopIp epId => exact hgraph.addNode rfl
  | root => exact hgraph
  | monitored epId => exact hgraph
  | subnetHub subnet => exact hgraph

end Graph

/-! ### Routes -/

section Walk

variable (failedHopIps : List String) (monitoredByIp : Dict String EndpointId) (epId : EndpointId)
  (walk : Walk) (hops : List Hop)

theorem previousNodeId_foldl_step :
    (hops.foldl (Walk.step failedHopIps monitoredByIp epId) walk).previousNodeId =
      pathEnd walk.previousNodeId (hopNodes monitoredByIp epId walk.previousHopIp hops) := by
  induction hops generalizing walk with
  | nil => rfl
  | cons hop rest ih => rw [List.foldl_cons, ih, hopNodes, pathEnd_cons, Walk.step]

theorem mem_edges_foldl_step (edge : NodeId × NodeId) :
    edge ∈ (hops.foldl (Walk.step failedHopIps monitoredByIp epId) walk).graph.edges ↔
      edge ∈ walk.graph.edges ∨
        edge ∈ steps walk.previousNodeId (hopNodes monitoredByIp epId walk.previousHopIp hops) := by
  induction hops generalizing walk with
  | nil => simp [hopNodes]
  | cons hop rest ih =>
    rw [List.foldl_cons, ih, hopNodes, mem_steps_cons]
    simp only [Walk.step]
    by_cases hsame : walk.previousNodeId = hopNode monitoredByIp epId walk.previousHopIp hop
    · simp [hsame]
    · simp only [ne_eq, hsame, not_false_eq_true, if_true, Graph.mem_edges_connect,
        Graph.edges_addHop, and_true]
      tauto

theorem mem_keys_foldl_step (id : NodeId) :
    id ∈ (hops.foldl (Walk.step failedHopIps monitoredByIp epId) walk).graph.nodes.keys ↔
      id ∈ walk.graph.nodes.keys ∨
        id.isHop = true ∧ id ∈ hopNodes monitoredByIp epId walk.previousHopIp hops := by
  induction hops generalizing walk with
  | nil => simp [hopNodes]
  | cons hop rest ih =>
    have hstep : id ∈ (walk.step failedHopIps monitoredByIp epId hop).graph.nodes.keys ↔
        id = hopNode monitoredByIp epId walk.previousHopIp hop ∧ id.isHop = true ∨
          id ∈ walk.graph.nodes.keys := by
      simp only [Walk.step]
      split <;> simp only [Graph.nodes_connect, Graph.mem_keys_addHop]
      all_goals
        refine or_congr_left (and_congr_right fun hsame ↦ ?_)
        rw [hsame]
    rw [List.foldl_cons, ih, hopNodes, hstep, List.mem_cons]
    simp only [Walk.step]
    tauto

theorem wellFormed_foldl_step (hwalk : walk.graph.WellFormed) :
    (hops.foldl (Walk.step failedHopIps monitoredByIp epId) walk).graph.WellFormed := by
  refine List.foldlRecOn (motive := fun walk : Walk ↦ walk.graph.WellFormed) hops _ hwalk
    fun walk hwalk hop _ ↦ ?_
  simp only [Walk.step]
  split
  · exact (hwalk.addHop ..).connect ..
  · exact hwalk.addHop ..

end Walk

/-- The nodes on the way to an endpoint, behind the root. -/
def routePath (monitoredByIp : Dict String EndpointId) (epId : EndpointId) (hops : List Hop) :
    List NodeId :=
  hopNodes monitoredByIp epId none hops ++ [.monitored epId]

section Stitch

variable (graph : Graph) (failedHopIps : List String) (monitoredByIp : Dict String EndpointId)
  (epId : EndpointId) (hops : List Hop)

theorem mem_keys_stitch (id : NodeId) :
    id ∈ (graph.stitch failedHopIps monitoredByIp epId hops).nodes.keys ↔
      id ∈ graph.nodes.keys ∨ id.isHop = true ∧ id ∈ hopNodes monitoredByIp epId none hops := by
  simp only [Graph.stitch]
  split <;> simp only [Graph.nodes_connect, mem_keys_foldl_step]

/-- A stitched route adds the links of its path, which leads to the endpoint if that has a node. -/
theorem mem_edges_stitch (edge : NodeId × NodeId) :
    edge ∈ (graph.stitch failedHopIps monitoredByIp epId hops).edges ↔
      edge ∈ graph.edges ∨
        edge ∈ steps .root (hopNodes monitoredByIp epId none hops ++
          if .monitored epId ∈ graph.nodes.keys then [.monitored epId] else []) := by
  have hpresent : .monitored epId ∈ (hops.foldl (Walk.step failedHopIps monitoredByIp epId)
      ⟨graph, .root, none⟩).graph.nodes.keys ↔ NodeId.monitored epId ∈ graph.nodes.keys := by
    rw [mem_keys_foldl_step]
    simp [NodeId.isHop]
  unfold Graph.stitch
  simp only [hpresent]
  rw [mem_steps_append]
  by_cases hnode : NodeId.monitored epId ∈ graph.nodes.keys
  · rw [if_pos hnode, mem_steps_cons]
    by_cases hend : pathEnd .root (hopNodes monitoredByIp epId none hops) = .monitored epId
    · rw [if_neg (by rw [previousNodeId_foldl_step]; exact fun hboth ↦ hboth.1 hend),
        mem_edges_foldl_step]
      simp [hend]
    · rw [if_pos ⟨by rw [previousNodeId_foldl_step]; exact hend, hnode⟩, Graph.mem_edges_connect,
        mem_edges_foldl_step, previousNodeId_foldl_step]
      simp only [ne_eq, hend, not_false_eq_true, and_true, steps_nil, List.not_mem_nil, or_false]
      tauto
  · rw [if_neg (fun hboth ↦ hnode hboth.2), if_neg hnode, mem_edges_foldl_step]
    simp

theorem Graph.WellFormed.stitch {graph : Graph} (hgraph : graph.WellFormed) :
    (graph.stitch failedHopIps monitoredByIp epId hops).WellFormed := by
  have hwalk := wellFormed_foldl_step failedHopIps monitoredByIp epId ⟨graph, .root, none⟩ hops
    hgraph
  simp only [Graph.stitch]
  split
  · exact hwalk.connect ..
  · exact hwalk

/-- The hop nodes of a route are those into which a link of its path leads. -/
theorem exists_mem_steps_iff {id : NodeId} (hhop : id.isHop = true) {path : List NodeId}
    (hpath : ∀ node ∈ path, node = .monitored epId) :
    (∃ source, (source, id) ∈ steps .root (hopNodes monitoredByIp epId none hops ++ path)) ↔
      id ∈ hopNodes monitoredByIp epId none hops := by
  constructor
  · rintro ⟨source, hlink⟩
    rcases List.mem_append.mp (of_mem_steps hlink).2.1 with hmem | hlast
    · exact hmem
    · rw [hpath id hlast] at hhop
      exact absurd hhop Bool.false_ne_true
  · intro hmem
    refine exists_mem_steps (List.mem_append_left _ hmem) ?_
    rintro rfl
    exact Bool.false_ne_true hhop

end Stitch

/-! ### Links -/

namespace Inventory

variable (inventory : Inventory) (routes : Dict EndpointId (List Hop))

/-- The manual parent of an endpoint, if it is monitored. -/
def usableParent (epData : MonitoredEndpoint) : Option EndpointId :=
  epData.manualParentId.filter (· ∈ inventory.monitoredById.keys)

/-- The hops of the route of an endpoint. -/
def cleanHops (epId : EndpointId) : List Hop :=
  sanitizeTracerouteHops ((routes.get? epId).getD []) none

/-- The links that lead to an endpoint: from its manual parent, or along its route. -/
def entryLinks (entry : EndpointId × MonitoredEndpoint) : List (NodeId × NodeId) :=
  match inventory.usableParent entry.2 with
  | some manualParent => [(.monitored manualParent, .monitored entry.1)]
  | none => steps .root (routePath inventory.monitoredByIp entry.1 (cleanHops routes entry.1))

/-- The links of all monitored endpoints. -/
def links : List (NodeId × NodeId) :=
  inventory.monitoredById.entries.flatMap (inventory.entryLinks routes)

/-- A link of an endpoint comes from its usable parent, or lies on its route. -/
theorem mem_entryLinks_iff (epId : EndpointId) (epData : MonitoredEndpoint)
    (link : NodeId × NodeId) :
    link ∈ inventory.entryLinks routes (epId, epData) ↔
      (∃ manualParent, inventory.usableParent epData = some manualParent ∧
        link = (.monitored manualParent, .monitored epId)) ∨
      inventory.usableParent epData = none ∧
        link ∈ steps .root (routePath inventory.monitoredByIp epId (cleanHops routes epId)) := by
  rw [entryLinks]
  cases inventory.usableParent epData with
  | some manualParent => simp
  | none => simp

theorem mem_links_iff (link : NodeId × NodeId) :
    link ∈ inventory.links routes ↔ ∃ epId epData,
      inventory.monitoredById.get? epId = some epData ∧
        link ∈ inventory.entryLinks routes (epId, epData) := by
  simp only [links, List.mem_flatMap, Prod.exists, ← Dict.get?_eq_some_iff]

/-- The links depend on the routes only through their hops. -/
theorem links_congr {routes routes' : Dict EndpointId (List Hop)}
    (hroutes : ∀ epId ∈ inventory.monitoredById.keys,
      cleanHops routes epId = cleanHops routes' epId) :
    inventory.links routes = inventory.links routes' := by
  refine List.flatMap_congr fun entry hentry ↦ ?_
  rw [entryLinks, entryLinks, hroutes entry.1 (List.mem_map_of_mem hentry)]

end Inventory

/-- A hop stands for a hop node, or for an endpoint at its address. -/
theorem hopNode_cases (monitoredByIp : Dict String EndpointId) (epId : EndpointId)
    (previousHopIp : Option String) (hop : Hop) :
    (hopNode monitoredByIp epId previousHopIp hop).isHop = true ∨
      ∃ hopIp hopEpId, monitoredByIp.get? hopIp = some hopEpId ∧
        hopNode monitoredByIp epId previousHopIp hop = .monitored hopEpId := by
  unfold hopNode
  split
  · exact Or.inl rfl
  · rename_i hopIp _
    split
    · rename_i hopEpId hget
      exact Or.inr ⟨hopIp, hopEpId, hget, rfl⟩
    · exact Or.inl rfl

theorem mem_hopNodes_cases {monitoredByIp : Dict String EndpointId} {epId : EndpointId}
    {previousHopIp : Option String} {hops : List Hop} {id : NodeId}
    (hid : id ∈ hopNodes monitoredByIp epId previousHopIp hops) :
    id.isHop = true ∨ ∃ hopIp hopEpId, monitoredByIp.get? hopIp = some hopEpId ∧
      id = .monitored hopEpId := by
  induction hops generalizing previousHopIp with
  | nil => exact absurd hid List.not_mem_nil
  | cons hop rest ih =>
    rcases List.mem_cons.mp hid with rfl | hlater
    · exact hopNode_cases ..
    · exact ih hlater

/-! ### Merged graphs -/

/-- A graph with the root, the monitored endpoints, the links of a list, and the hop nodes into
which they lead. -/
structure Inventory.Draws (inventory : Inventory) (links : List (NodeId × NodeId))
    (graph : Graph) : Prop where
  wellFormed : graph.WellFormed
  mem_edges : ∀ edge, edge ∈ graph.edges ↔ edge ∈ links
  mem_keys : ∀ id, id ∈ graph.nodes.keys ↔
    id = .root ∨ (∃ epId ∈ inventory.monitoredById.keys, id = .monitored epId) ∨
      id.isHop = true ∧ ∃ source, (source, id) ∈ links

section Merge

variable {inventory : Inventory} {links : List (NodeId × NodeId)} {graph : Graph}

theorem Inventory.Draws.monitored_mem_keys (hgraph : inventory.Draws links graph)
    (epId : EndpointId) :
    .monitored epId ∈ graph.nodes.keys ↔ epId ∈ inventory.monitoredById.keys := by
  rw [hgraph.mem_keys]
  simp [NodeId.isHop]

/-- The manual parent that a merge finds among the nodes is the usable one. -/
theorem Inventory.Draws.filter_eq (hgraph : inventory.Draws links graph)
    (epData : MonitoredEndpoint) :
    (epData.manualParentId.map NodeId.monitored).filter (· ∈ graph.nodes.keys) =
      (inventory.usableParent epData).map NodeId.monitored := by
  cases hparent : epData.manualParentId with
  | none => simp [Inventory.usableParent, hparent]
  | some manualParent =>
    have hmem := hgraph.monitored_mem_keys manualParent
    rw [Inventory.usableParent, hparent, Option.map_some, Option.filter_some, Option.filter_some]
    by_cases hmonitored : manualParent ∈ inventory.monitoredById.keys
    · rw [if_pos (decide_eq_true (hmem.mpr hmonitored)), if_pos (decide_eq_true hmonitored),
        Option.map_some]
    · rw [if_neg (by simpa using mt hmem.mp hmonitored), if_neg (by simpa using hmonitored),
        Option.map_none]

/-- A merge draws the links of the endpoint. -/
theorem Inventory.Draws.mergeEndpoint (hgraph : inventory.Draws links graph)
    (routes : Dict EndpointId (List Hop)) {entry : EndpointId × MonitoredEndpoint}
    (hentry : entry.1 ∈ inventory.monitoredById.keys) :
    inventory.Draws (links ++ inventory.entryLinks routes entry)
      (inventory.mergeEndpoint routes graph entry) := by
  rw [Inventory.mergeEndpoint, hgraph.filter_eq, Inventory.entryLinks]
  cases inventory.usableParent entry.2 with
  | some manualParent =>
    refine ⟨hgraph.wellFormed.connect .., fun edge ↦ ?_, fun id ↦ ?_⟩
    · simp only [Option.map_some, Graph.mem_edges_connect, hgraph.mem_edges, List.mem_append,
        List.mem_singleton]
      exact or_comm
    · -- The link leads to an endpoint, and not into a hop node.
      have hlast : id.isHop = true → ∀ source, (source, id) ∉
          [(NodeId.monitored manualParent, NodeId.monitored entry.1)] := by
        rintro hhop source hmem
        rw [(Prod.mk.inj (List.mem_singleton.mp hmem)).2] at hhop
        exact Bool.false_ne_true hhop
      simp only [Option.map_some, Graph.nodes_connect, hgraph.mem_keys, List.mem_append, exists_or]
      refine or_congr_right (or_congr_right (and_congr_right fun hhop ↦ ?_))
      exact (or_iff_left fun hnew ↦ hnew.elim (hlast hhop)).symm
  | none =>
    refine ⟨hgraph.wellFormed.stitch .., fun edge ↦ ?_, fun id ↦ ?_⟩
    · simp only [Option.map_none, mem_edges_stitch,
        if_pos ((hgraph.monitored_mem_keys entry.1).mpr hentry), hgraph.mem_edges, List.mem_append]
      rfl
    · simp only [Option.map_none, mem_keys_stitch, hgraph.mem_keys, List.mem_append, exists_or,
        or_assoc, and_or_left]
      refine or_congr_right (or_congr_right (or_congr_right (and_congr_right fun hhop ↦ ?_)))
      exact (exists_mem_steps_iff _ _ _ hhop fun node hnode ↦ List.mem_singleton.mp hnode).symm

theorem Inventory.Draws.foldl_mergeEndpoint (routes : Dict EndpointId (List Hop))
    {entries : List (EndpointId × MonitoredEndpoint)}
    (hentries : ∀ entry ∈ entries, entry.1 ∈ inventory.monitoredById.keys)
    (hgraph : inventory.Draws links graph) :
    inventory.Draws (links ++ entries.flatMap (inventory.entryLinks routes))
      (entries.foldl (inventory.mergeEndpoint routes) graph) := by
  induction entries generalizing links graph with
  | nil => rwa [List.flatMap_nil, List.append_nil]
  | cons entry rest ih =>
    rw [List.flatMap_cons, ← List.append_assoc]
    exact ih (fun other hother ↦ hentries other (List.mem_cons_of_mem _ hother))
      (hgraph.mergeEndpoint routes (hentries entry (List.mem_cons_self ..)))

/-- The nodes of the monitored endpoints. -/
theorem Inventory.foldl_addMonitored (entries : List (EndpointId × MonitoredEndpoint))
    (graph : Graph) (hgraph : graph.WellFormed) :
    (entries.foldl inventory.addMonitored graph).WellFormed ∧
      (entries.foldl inventory.addMonitored graph).edges = graph.edges ∧
      ∀ id, id ∈ (entries.foldl inventory.addMonitored graph).nodes.keys ↔
        id ∈ graph.nodes.keys ∨ ∃ epId ∈ entries.map Prod.fst, id = .monitored epId := by
  induction entries generalizing graph with
  | nil => exact ⟨hgraph, rfl, by simp⟩
  | cons entry rest ih =>
    obtain ⟨hwell, hedges, hkeys⟩ := ih (inventory.addMonitored graph entry) (hgraph.setNode rfl)
    refine ⟨hwell, hedges, fun id ↦ (hkeys id).trans ?_⟩
    rw [Inventory.addMonitored, Dict.mem_keys_set]
    simp only [List.map_cons, List.mem_cons, exists_eq_or_imp]
    tauto

theorem Inventory.draws_startGraph : inventory.Draws [] inventory.startGraph := by
  have hroot : ({ Graph.empty with
      nodes := Dict.empty.set .root ⟨.root, .monitoringEngine, "UP", none⟩ } : Graph).WellFormed :=
    Graph.wellFormed_empty.setNode rfl
  obtain ⟨hwell, hedges, hkeys⟩ :=
    inventory.foldl_addMonitored inventory.monitoredById.entries _ hroot
  refine ⟨hwell, fun edge ↦ ?_, fun id ↦ (hkeys id).trans ?_⟩
  · rw [Inventory.startGraph, hedges]
    exact Iff.rfl
  · rw [Dict.mem_keys_set]
    simp [Dict.keys, Dict.empty]

/-- The graph before clustering draws the links of all endpoints. -/
theorem Inventory.draws_links (routes : Dict EndpointId (List Hop)) :
    inventory.Draws (inventory.links routes)
      (inventory.monitoredById.entries.foldl (inventory.mergeEndpoint routes)
        inventory.startGraph) :=
  inventory.draws_startGraph.foldl_mergeEndpoint routes fun _ hentry ↦
    List.mem_map_of_mem hentry

end Merge

end Lnmp.Topology
