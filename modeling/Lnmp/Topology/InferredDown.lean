import Lnmp.Topology.Reachability

/-!
# Inferred outages

A propagation marks the transit routers below which all endpoints are down. It takes no mark away:
`Graph.isExact_propagateInferredDown_iff` says that it leaves the marks exact when no router was
marked before it without reason. After a rebuild the marks are exact, and
`isExact_iff_everyStep` says which updates keep them so: those that do not leave an endpoint up
below a marked router.
-/

set_option autoImplicit false
set_option relaxedAutoImplicit false

namespace Lnmp.Topology

open Relation
open Lnmp.Foundation Lnmp.Foundation.Digraph Lnmp.Foundation.IpAddress Lnmp.Foundation.Runs
open Lnmp.Foundation.Search
open Lnmp.Monitoring (EndpointId)

/-! ### Statements -/

/-- A transit router with an address. -/
def Node.isRouter (node : Node) : Bool :=
  node.nodeType = .transit && node.deviceType = .transitRouter

namespace Graph

/-- An endpoint that is reached from a node through nodes that are not monitored. -/
def IsBelow (graph : Graph) (start id : NodeId) : Prop :=
  graph.isMonitored id = true ∧
    ∃ last, ReflTransGen (fun source target ↦
      graph.Edge source target ∧ graph.isMonitored target = false) start last ∧ graph.Edge last id

/-- There are endpoints below a node, and all of them are down. -/
def AllBelowDown (graph : Graph) (start : NodeId) : Prop :=
  (∃ id, graph.IsBelow start id) ∧
    ∀ id node, graph.IsBelow start id → graph.nodes.get? id = some node →
      isDownState node.status = true

/-- A router that is no failure point is marked exactly when all endpoints below it are down. -/
def IsExact (graph : Graph) : Prop :=
  ∀ id node, graph.nodes.get? id = some node → node.isRouter = true →
    node.status ≠ "FAILURE_POINT" →
      (node.status = "INFERRED_DOWN" ↔ graph.AllBelowDown id)

end Graph

/-- The update is not applied, or every router that is marked after it has endpoints below it, all
of which are then down. -/
def Manager.StaysDown (manager : Manager) (id : NodeId) (newState : String) : Prop :=
  manager.isDisabled id = true ∨ id ∉ manager.graph.nodes.keys ∨
    ∀ router routerNode, manager.graph.nodes.get? router = some routerNode →
      routerNode.isRouter = true →
      (if router = id then newState else routerNode.status) = "INFERRED_DOWN" →
        (∃ below, manager.graph.IsBelow router below) ∧
          ∀ below node, manager.graph.IsBelow router below →
            manager.graph.nodes.get? below = some node →
              isDownState (if below = id then newState else node.status) = true

/-! ### The search -/

section Search

variable {graph : Graph} {start id : NodeId}

/-- The search finds the endpoints below a node. -/
theorem Graph.WellFormed.mem_downstreamMonitored_iff (hgraph : graph.WellFormed)
    (hstart : graph.isMonitored start = false) :
    id ∈ graph.downstreamMonitored start ↔ graph.IsBelow start id := by
  have hclosed : ∀ node ∈ (start :: graph.transitChildren.values.flatten).toFinset,
      ∀ child ∈ graph.children node, graph.isMonitored child = false →
        child ∈ (start :: graph.transitChildren.values.flatten).toFinset := by
    intro node _ child hchild _
    rw [List.mem_toFinset]
    refine List.mem_cons_of_mem _ ?_
    rw [Graph.children] at hchild
    cases hget : graph.transitChildren.get? node with
    | none =>
      rw [hget] at hchild
      exact absurd hchild List.not_mem_nil
    | some children =>
      rw [hget] at hchild
      exact List.mem_flatten.mpr ⟨children,
        List.mem_map.mpr ⟨_, (Dict.get?_eq_some_iff ..).mp hget, rfl⟩, hchild⟩
  have hinner : InnerStep graph.children graph.isMonitored =
      fun source target ↦ graph.Edge source target ∧ graph.isMonitored target = false := by
    funext source target
    rw [InnerStep, hgraph.mem_children, Graph.Edge]
  have hfuel : (start :: graph.transitChildren.values.flatten).toFinset.card ≤
      graph.transitChildren.values.flatten.length + 1 :=
    (List.toFinset_card_le _).trans_eq List.length_cons
  rw [Graph.downstreamMonitored, mem_collect_iff hclosed
    (List.mem_toFinset.mpr (List.mem_cons_self ..)) hstart hfuel, hinner, Graph.IsBelow]
  simp only [hgraph.mem_children, Graph.Edge]

/-- The marking condition of the code. -/
theorem Graph.WellFormed.infersDown_iff (hgraph : graph.WellFormed)
    (hstart : graph.isMonitored start = false) :
    graph.infersDown start = true ↔ graph.AllBelowDown start := by
  have hup : ∀ id, graph.isUp id = false ↔ ∀ node, graph.nodes.get? id = some node →
      isDownState node.status = true := by
    intro id
    unfold Graph.isUp
    cases graph.nodes.get? id with
    | none => simp
    | some node => simp
  rw [Graph.infersDown, Bool.and_eq_true, decide_eq_true_iff, List.all_eq_true, Graph.AllBelowDown]
  refine and_congr ?_ ?_
  · simp only [← hgraph.mem_downstreamMonitored_iff hstart]
    exact ⟨List.exists_mem_of_ne_nil _, fun hbelow ↦ hbelow.elim fun _ ↦ List.ne_nil_of_mem⟩
  · simp only [hgraph.mem_downstreamMonitored_iff hstart, Bool.not_eq_true', hup]
    exact forall_congr' fun id ↦ forall_comm

end Search

/-! ### Marking -/

/-- The same edges, and the same nodes of endpoints. -/
structure Graph.SameEndpoints (graph other : Graph) : Prop where
  edges_eq : other.edges = graph.edges
  isMonitored_eq : other.isMonitored = graph.isMonitored
  get?_eq : ∀ id, graph.isMonitored id = true → other.nodes.get? id = graph.nodes.get? id

section Marking

variable {graph other : Graph} {id : NodeId}

theorem Graph.SameEndpoints.isBelow_iff (hsame : graph.SameEndpoints other) (start : NodeId) :
    other.IsBelow start id ↔ graph.IsBelow start id := by
  simp only [Graph.IsBelow, Graph.Edge, hsame.edges_eq, hsame.isMonitored_eq]

theorem Graph.SameEndpoints.allBelowDown_iff (hsame : graph.SameEndpoints other)
    (start : NodeId) : other.AllBelowDown start ↔ graph.AllBelowDown start := by
  simp only [Graph.AllBelowDown, hsame.isBelow_iff]
  refine and_congr_right fun _ ↦ forall_congr' fun id ↦ forall_congr' fun node ↦
    forall_congr' fun hbelow ↦ ?_
  rw [hsame.get?_eq id hbelow.1]

/-- What a status does to the type of a node. -/
theorem Graph.isMonitored_setStatus (graph : Graph) (id : NodeId) (status : String) :
    (graph.setStatus id status).isMonitored = graph.isMonitored := by
  funext other
  rw [Graph.isMonitored, Graph.get?_setStatus, Graph.isMonitored]
  by_cases hother : other = id
  · subst hother
    rw [if_pos rfl]
    cases graph.nodes.get? other <;> rfl
  · rw [if_neg hother]

theorem Node.isMonitored_eq_false {node : Node} (hget : graph.nodes.get? id = some node)
    (hrouter : node.isRouter = true) : graph.isMonitored id = false := by
  rw [Node.isRouter, Bool.and_eq_true, decide_eq_true_iff] at hrouter
  rw [Graph.isMonitored, hget]
  simp [hrouter.1]

/-- A node after the propagation. -/
def Graph.mark (graph : Graph) (id : NodeId) (node : Node) : Node :=
  if node.isInferable && graph.infersDown id then { node with status := "INFERRED_DOWN" } else node

theorem Node.isInferable_iff (node : Node) :
    node.isInferable = true ↔ node.isRouter = true ∧ node.status ≠ "FAILURE_POINT" := by
  rw [Node.isInferable, Bool.and_eq_true, ← Node.isRouter, decide_eq_true_iff]

/-- A node is marked once. -/
theorem Graph.mark_mark (graph : Graph) (id : NodeId) (node : Node) :
    graph.mark id (graph.mark id node) = graph.mark id node := by
  by_cases hmark : (node.isInferable && graph.infersDown id) = true
  · rw [Graph.mark, Graph.mark, if_pos hmark]
    split <;> rfl
  · rw [Graph.mark, Graph.mark, if_neg hmark, if_neg hmark]

/-- The marking condition of a router depends on the endpoints only. -/
theorem Graph.SameEndpoints.infersDown_eq (hsame : graph.SameEndpoints other)
    (hgraph : graph.WellFormed) (hother : other.WellFormed) {node : Node}
    (hget : other.nodes.get? id = some node) (hrouter : node.isRouter = true) :
    other.infersDown id = graph.infersDown id := by
  have hfalse := Node.isMonitored_eq_false hget hrouter
  have hfalse' : graph.isMonitored id = false := by rw [← hsame.isMonitored_eq, hfalse]
  rw [Bool.eq_iff_iff, hother.infersDown_iff hfalse, hgraph.infersDown_iff hfalse',
    hsame.allBelowDown_iff]

/-- The status of a node that is no endpoint. -/
theorem Graph.SameEndpoints.setStatus (hsame : graph.SameEndpoints other)
    (hplain : graph.isMonitored id = false) (status : String) :
    graph.SameEndpoints (other.setStatus id status) where
  edges_eq := by rw [Graph.edges_setStatus, hsame.edges_eq]
  isMonitored_eq := by rw [Graph.isMonitored_setStatus, hsame.isMonitored_eq]
  get?_eq third hthird := by
    have hne : third ≠ id := by
      rintro rfl
      exact Bool.false_ne_true (hplain.symm.trans hthird)
    rw [Graph.get?_setStatus, if_neg hne, hsame.get?_eq third hthird]

/-- One node of the propagation, in a graph with the same endpoints. -/
theorem Graph.WellFormed.inferDown (hgraph : graph.WellFormed) (hother : other.WellFormed)
    (hsame : graph.SameEndpoints other) (id : NodeId) :
    (other.inferDown id).WellFormed ∧ graph.SameEndpoints (other.inferDown id) ∧
      ∀ third, (other.inferDown id).nodes.get? third =
        if third = id then (other.nodes.get? id).map (graph.mark id)
        else other.nodes.get? third := by
  have hunmarked : other.nodes.get? id = (other.nodes.get? id).map (graph.mark id) →
      ∀ third, other.nodes.get? third =
        if third = id then (other.nodes.get? id).map (graph.mark id)
        else other.nodes.get? third := by
    intro hmark third
    split
    · rename_i hthird
      rw [hthird, ← hmark]
    · rfl
  unfold Graph.inferDown
  split
  · rename_i hnone
    exact ⟨hother, hsame, hunmarked (by rw [hnone, Option.map_none])⟩
  · rename_i node hget
    have hcondition : (node.isInferable && other.infersDown id) =
        (node.isInferable && graph.infersDown id) := by
      cases hinferable : node.isInferable with
      | false => rfl
      | true =>
        have hrouter := ((Node.isInferable_iff node).mp hinferable).1
        rw [hsame.infersDown_eq hgraph hother hget hrouter]
    rw [hcondition]
    split
    · rename_i hmark
      have hrouter : node.isRouter = true := by
        rw [Bool.and_eq_true, Node.isInferable_iff] at hmark
        exact hmark.1.1
      have hplain : graph.isMonitored id = false := by
        rw [← hsame.isMonitored_eq, Node.isMonitored_eq_false hget hrouter]
      refine ⟨hother.setStatus .., hsame.setStatus hplain _, fun third ↦ ?_⟩
      rw [Graph.get?_setStatus, hget, Option.map_some, Option.map_some, Graph.mark, if_pos hmark]
    · rename_i hmark
      refine ⟨hother, hsame, hunmarked ?_⟩
      rw [hget, Option.map_some, Graph.mark, if_neg hmark]

/-- The propagation over a list of nodes. -/
theorem Graph.WellFormed.foldl_inferDown (hgraph : graph.WellFormed) (hother : other.WellFormed)
    (hsame : graph.SameEndpoints other) (ids : List NodeId) :
    graph.SameEndpoints (ids.foldl Graph.inferDown other) ∧
      ∀ third, (ids.foldl Graph.inferDown other).nodes.get? third =
        if third ∈ ids then (other.nodes.get? third).map (graph.mark third)
        else other.nodes.get? third := by
  induction ids generalizing other with
  | nil => exact ⟨hsame, fun _ ↦ by simp⟩
  | cons id rest ih =>
    obtain ⟨hnext, hsame', hget⟩ := hgraph.inferDown hother hsame id
    obtain ⟨hsame'', hget'⟩ := ih hnext hsame'
    refine ⟨hsame'', fun third ↦ (hget' third).trans ?_⟩
    rw [hget]
    by_cases hid : third = id
    · subst hid
      rw [if_pos rfl, if_pos (List.mem_cons_self ..), Option.map_map]
      split
      · refine congrArg (Option.map · _) (funext fun node ↦ graph.mark_mark third node)
      · rfl
    · rw [if_neg hid]
      simp [hid]

theorem Graph.sameEndpoints_refl (graph : Graph) : graph.SameEndpoints graph :=
  ⟨rfl, rfl, fun _ _ ↦ rfl⟩

/-- What the propagation makes of the nodes. -/
theorem Graph.WellFormed.get?_propagateInferredDown (hgraph : graph.WellFormed) (id : NodeId) :
    graph.propagateInferredDown.nodes.get? id =
      (graph.nodes.get? id).map (graph.mark id) := by
  obtain ⟨-, hget⟩ := hgraph.foldl_inferDown hgraph graph.sameEndpoints_refl graph.nodes.keys
  refine (hget id).trans ?_
  by_cases hid : id ∈ graph.nodes.keys
  · rw [if_pos hid]
  · rw [if_neg hid, (Dict.get?_eq_none_iff ..).mpr hid, Option.map_none]

theorem Graph.WellFormed.sameEndpoints_propagateInferredDown (hgraph : graph.WellFormed) :
    graph.SameEndpoints graph.propagateInferredDown :=
  (hgraph.foldl_inferDown hgraph graph.sameEndpoints_refl graph.nodes.keys).1

/-- The marks after a propagation are exact when those before it were right. -/
theorem Graph.WellFormed.isExact_propagateInferredDown_iff (hgraph : graph.WellFormed) :
    graph.propagateInferredDown.IsExact ↔
      ∀ id node, graph.nodes.get? id = some node → node.isRouter = true →
        node.status = "INFERRED_DOWN" → graph.AllBelowDown id := by
  have hsame := hgraph.sameEndpoints_propagateInferredDown
  have hmarked : ∀ id node, graph.nodes.get? id = some node → node.isRouter = true →
      (graph.infersDown id = true ↔ graph.AllBelowDown id) := fun id node hget hrouter ↦
    hgraph.infersDown_iff (Node.isMonitored_eq_false hget hrouter)
  constructor
  · intro hexact id node hget hrouter hstatus
    have hget' : graph.propagateInferredDown.nodes.get? id = some (graph.mark id node) := by
      rw [hgraph.get?_propagateInferredDown, hget, Option.map_some]
    have hmark : (graph.mark id node).isRouter = true ∧
        (graph.mark id node).status = "INFERRED_DOWN" := by
      unfold Graph.mark
      split
      · exact ⟨hrouter, rfl⟩
      · exact ⟨hrouter, hstatus⟩
    refine (hsame.allBelowDown_iff id).mp ((hexact id _ hget' hmark.1 ?_).mp hmark.2)
    rw [hmark.2]
    decide
  · intro hright id node hget hrouter hstatus
    rw [hgraph.get?_propagateInferredDown, Option.map_eq_some_iff] at hget
    obtain ⟨old, hold, rfl⟩ := hget
    rw [hsame.allBelowDown_iff]
    unfold Graph.mark at hrouter hstatus ⊢
    split at hrouter
    · rename_i hcondition
      rw [if_pos hcondition] at hstatus ⊢
      rw [Bool.and_eq_true] at hcondition
      exact iff_of_true rfl ((hmarked id old hold hrouter).mp hcondition.2)
    · rename_i hcondition
      rw [if_neg hcondition] at hstatus ⊢
      refine ⟨hright id old hold hrouter, fun hdown ↦ absurd ?_ hcondition⟩
      rw [Bool.and_eq_true, Node.isInferable_iff]
      exact ⟨⟨hrouter, hstatus⟩, (hmarked id old hold hrouter).mpr hdown⟩

end Marking

/-! ### Rebuilt graphs -/

/-- No router is marked. -/
def Graph.IsUnmarked (graph : Graph) : Prop :=
  ∀ id node, graph.nodes.get? id = some node → node.isRouter = true →
    node.status ≠ "INFERRED_DOWN"

section Unmarked

variable {graph : Graph}

theorem Graph.IsUnmarked.setNode (hgraph : graph.IsUnmarked) (id : NodeId) {node : Node}
    (hnode : node.isRouter = true → node.status ≠ "INFERRED_DOWN") :
    { graph with nodes := graph.nodes.set id node }.IsUnmarked := by
  intro other stored hget
  rw [Dict.get?_set] at hget
  split at hget
  · exact Option.some.inj hget ▸ hnode
  · exact hgraph other stored hget

theorem Graph.IsUnmarked.addNode (hgraph : graph.IsUnmarked) (id : NodeId) {node : Node}
    (hnode : node.isRouter = true → node.status ≠ "INFERRED_DOWN") :
    (graph.addNode id node).IsUnmarked := by
  unfold Graph.addNode
  split
  · exact hgraph
  · exact hgraph.setNode id hnode

/-- The node of a new hop is up, or a failure point. -/
theorem Graph.IsUnmarked.addHop (hgraph : graph.IsUnmarked) (failedHopIps : List String)
    (id : NodeId) : (graph.addHop failedHopIps id).IsUnmarked := by
  have hup : ("UP" : String) ≠ "INFERRED_DOWN" := by decide
  have hfailed : ("FAILURE_POINT" : String) ≠ "INFERRED_DOWN" := by decide
  cases id with
  | transit hopIp =>
    simp only [Graph.addHop]
    split
    · split
      · unfold Graph.setStatus
        split
        · exact hgraph
        · exact hgraph.setNode _ fun _ ↦ hfailed
      · exact hgraph
    · refine hgraph.addNode _ fun _ ↦ ?_
      dsimp only
      split
      · exact hfailed
      · exact hup
  | anonymous previousHopIp epId => exact hgraph.addNode _ fun _ ↦ hup
  | root => exact hgraph
  | monitored epId => exact hgraph
  | subnetHub subnet => exact hgraph

theorem Graph.IsUnmarked.stitch (hgraph : graph.IsUnmarked) (failedHopIps : List String)
    (monitoredByIp : Dict String EndpointId) (epId : EndpointId) (hops : List Hop) :
    (graph.stitch failedHopIps monitoredByIp epId hops).IsUnmarked := by
  have hend := List.foldlRecOn (motive := fun walk : Walk ↦ walk.graph.IsUnmarked) hops
    (Walk.step failedHopIps monitoredByIp epId) (b := ⟨graph, .root, none⟩) hgraph
    fun walk hwalk hop _ ↦ by
      simp only [Walk.step]
      split <;> exact hwalk.addHop failedHopIps _
  simp only [Graph.stitch]
  split <;> exact hend

theorem Graph.IsUnmarked.mergeEndpoint (hgraph : graph.IsUnmarked) (inventory : Inventory)
    (routes : Dict EndpointId (List Hop)) (entry : EndpointId × MonitoredEndpoint) :
    (inventory.mergeEndpoint routes graph entry).IsUnmarked := by
  unfold Inventory.mergeEndpoint
  split
  · exact hgraph
  · exact hgraph.stitch _ _ _ _

theorem Graph.IsUnmarked.addSubnetHub (hgraph : graph.IsUnmarked)
    (entry : Address × List EndpointId) : (graph.addSubnetHub entry).IsUnmarked := by
  have hhub : ((graph.addNode (.subnetHub entry.1) ⟨.subnetHub, .subnetHub, "UP", none⟩).connect
      .root (.subnetHub entry.1)).IsUnmarked := hgraph.addNode _ fun _ ↦ by decide
  exact List.foldlRecOn entry.2 _ hhub fun _ hmoved _ _ ↦ hmoved

/-- The graph of a rebuild before the propagation. -/
def Inventory.clusteredGraph (inventory : Inventory) (routes : Dict EndpointId (List Hop)) :
    Graph :=
  inventory.clusterSubnets
    (inventory.monitoredById.entries.foldl (inventory.mergeEndpoint routes) inventory.startGraph)

theorem Inventory.isUnmarked_clusteredGraph (inventory : Inventory)
    (routes : Dict EndpointId (List Hop)) : (inventory.clusteredGraph routes).IsUnmarked := by
  have hrouter : ∀ node : Node, node.nodeType ≠ .transit →
      node.isRouter = true → node.status ≠ "INFERRED_DOWN" := by
    intro node htype hrouter
    rw [Node.isRouter, Bool.and_eq_true, decide_eq_true_iff] at hrouter
    exact absurd hrouter.1 htype
  have hempty : Graph.empty.IsUnmarked := fun _ node hget ↦
    absurd hget.symm (Option.some_ne_none node)
  have hroot : ({ Graph.empty with
      nodes := Dict.empty.set .root ⟨.root, .monitoringEngine, "UP", none⟩ } : Graph).IsUnmarked :=
    hempty.setNode _ (hrouter _ NodeType.noConfusion)
  have hstart : inventory.startGraph.IsUnmarked :=
    List.foldlRecOn _ _ hroot fun _ hgraph entry _ ↦
      hgraph.setNode _ (hrouter _ NodeType.noConfusion)
  have hmerged := List.foldlRecOn inventory.monitoredById.entries
    (inventory.mergeEndpoint routes) hstart fun _ hgraph entry _ ↦
      hgraph.mergeEndpoint inventory routes entry
  exact List.foldlRecOn _ _ hmerged fun _ hgraph entry _ ↦ hgraph.addSubnetHub entry

/-- After a rebuild the marks are exact. -/
theorem isExact_buildGraph (inventory : Inventory) (routes : Dict EndpointId (List Hop)) :
    (buildGraph inventory routes).IsExact := by
  have hwell : (inventory.clusteredGraph routes).WellFormed :=
    ((inventory.draws_links routes).wellFormed.foldl_addSubnetHub _).1
  refine hwell.isExact_propagateInferredDown_iff.mpr fun id node hget hrouter hstatus ↦ ?_
  exact absurd hstatus (inventory.isUnmarked_clusteredGraph routes id node hget hrouter)

end Unmarked

/-! ### Updates -/

section Updates

variable {manager : Manager}

/-- What is below a node does not depend on statuses. -/
theorem Graph.isBelow_setStatus (graph : Graph) (id : NodeId) (status : String)
    (start below : NodeId) :
    (graph.setStatus id status).IsBelow start below ↔ graph.IsBelow start below := by
  simp only [Graph.IsBelow, Graph.Edge, Graph.edges_setStatus, Graph.isMonitored_setStatus]

/-- A node after a status is set. -/
theorem Graph.forall_get?_setStatus (graph : Graph) (id : NodeId) (newState : String)
    (holds : NodeId → Bool → String → Prop) :
    (∀ other node, (graph.setStatus id newState).nodes.get? other = some node →
      holds other node.isRouter node.status) ↔
    ∀ other node, graph.nodes.get? other = some node →
      holds other node.isRouter (if other = id then newState else node.status) := by
  constructor
  · intro hall other node hget
    by_cases hother : other = id
    · subst hother
      rw [if_pos rfl]
      exact hall other { node with status := newState }
        (by rw [Graph.get?_setStatus, if_pos rfl, hget, Option.map_some])
    · rw [if_neg hother]
      exact hall other node (by rw [Graph.get?_setStatus, if_neg hother, hget])
  · intro hall other node hget
    rw [Graph.get?_setStatus] at hget
    by_cases hother : other = id
    · subst hother
      rw [if_pos rfl, Option.map_eq_some_iff] at hget
      obtain ⟨old, hold, rfl⟩ := hget
      have hholds := hall other old hold
      rwa [if_pos rfl] at hholds
    · rw [if_neg hother] at hget
      have hholds := hall other node hget
      rwa [if_neg hother] at hholds

/-- An update leaves the marks exact when no endpoint below a marked router is up after it. -/
theorem Manager.WellFormed.isExact_updateNodeStatus_iff (hmanager : manager.WellFormed)
    (hexact : manager.graph.IsExact) (id : NodeId) (newState : String) :
    (manager.updateNodeStatus id newState).graph.IsExact ↔ manager.StaysDown id newState := by
  by_cases happlied : manager.isDisabled id = false ∧ id ∈ manager.graph.nodes.keys
  · have hnext : (manager.updateNodeStatus id newState).graph =
        (manager.graph.setStatus id newState).propagateInferredDown := by
      rw [Manager.updateNodeStatus, if_neg (by rw [happlied.1]; exact Bool.false_ne_true),
        if_pos happlied.2]
    rw [hnext, (hmanager.graph.setStatus id newState).isExact_propagateInferredDown_iff,
      Manager.StaysDown, or_iff_right (by rw [happlied.1]; exact Bool.false_ne_true),
      or_iff_right (not_not_intro happlied.2)]
    rw [manager.graph.forall_get?_setStatus id newState fun router isRouter status ↦
      isRouter = true → status = "INFERRED_DOWN" →
        (manager.graph.setStatus id newState).AllBelowDown router]
    refine forall_congr' fun router ↦ forall_congr' fun routerNode ↦ forall_congr' fun _ ↦
      forall_congr' fun _ ↦ forall_congr' fun _ ↦ ?_
    simp only [Graph.AllBelowDown, Graph.isBelow_setStatus]
    refine and_congr_right fun _ ↦ ?_
    have hforall := manager.graph.forall_get?_setStatus id newState fun below _ status ↦
      manager.graph.IsBelow router below → isDownState status = true
    constructor
    · exact fun hall below node hbelow hget ↦ hforall.mp (fun other stored hget' hbelow' ↦
        hall other stored hbelow' hget') below node hget hbelow
    · exact fun hall below node hbelow hget ↦ hforall.mpr (fun other stored hget' hbelow' ↦
        hall other stored hbelow' hget') below node hget hbelow
  · have hsame : manager.updateNodeStatus id newState = manager :=
      (manager.updateNodeStatus_cases id newState).resolve_right fun hcase ↦
        happlied ⟨hcase.2.1, hcase.1⟩
    rw [hsame]
    refine iff_of_true hexact ?_
    rcases not_and_or.mp happlied with henabled | hmissing
    · exact Or.inl (Bool.eq_true_of_not_eq_false henabled)
    · exact Or.inr (Or.inl hmissing)

/-- After a rebuild and any updates of statuses the marks are exact all the time exactly when no
update leaves an endpoint up below a marked router. -/
theorem isExact_iff_everyStep (tables : Tables) (updates : List (NodeId × String)) :
    EveryState (fun manager update ↦ some (manager.updateNodeStatus update.1 update.2))
        (Manager.fullRebuild tables) updates (fun manager ↦ manager.graph.IsExact) ↔
      EveryStep (fun manager update ↦ some (manager.updateNodeStatus update.1 update.2))
        (Manager.fullRebuild tables) updates fun manager update ↦
          manager.StaysDown update.1 update.2 := by
  refine everyState_iff_everyStep Manager.WellFormed _ ?_ ?_
    (Manager.wellFormed_fullRebuild tables) (isExact_buildGraph _ _) (run_some ..)
  · rintro manager update next hmanager hnext
    obtain rfl := Option.some.inj hnext
    exact hmanager.updateNodeStatus ..
  · rintro manager update next hmanager hexact hnext
    obtain rfl := Option.some.inj hnext
    exact hmanager.isExact_updateNodeStatus_iff hexact ..

end Updates

/-! ### A recovery -/

theorem nodup_ids_outageTables : ([1] : List EndpointId).Nodup := by decide

/-- An endpoint that is down behind a router. -/
def outageTables : Tables where
  endpoints := [{ endpointRow 1 "192.0.2.1" none with detailedState := some "DOWN" }]
  baselineRoutes := [⟨1, some [⟨some 1, some "10.0.0.1", none⟩]⟩]
  diagnosticTraces := []
  rcaIncidents := []
  nodup_ids := nodup_ids_outageTables

/-- The router stays marked when the endpoint recovers. -/
theorem not_isExact_outageTables :
    ¬EveryState (fun manager update ↦ some (manager.updateNodeStatus update.1 update.2))
      (Manager.fullRebuild outageTables) [(.monitored 1, "UP")]
      fun manager ↦ manager.graph.IsExact := by
  intro hexact
  have hrecovered := hexact [(.monitored 1, "UP")] [] _ rfl rfl
  have hrouter := hrecovered (.transit "10.0.0.1")
    ⟨.transit, .transitRouter, "INFERRED_DOWN", some "10.0.0.1"⟩ (by decide) rfl
    (by decide)
  have hbelow : ((Manager.fullRebuild outageTables).updateNodeStatus (.monitored 1)
      "UP").graph.IsBelow (.transit "10.0.0.1") (.monitored 1) :=
    ⟨by decide, _, ReflTransGen.refl, by unfold Graph.Edge; decide⟩
  have hdown := (hrouter.mp rfl).2 (.monitored 1)
    ⟨.monitored, .endpoint "ENDPOINT", "UP", some "192.0.2.1"⟩ hbelow (by decide)
  exact absurd hdown (by decide)

end Lnmp.Topology
