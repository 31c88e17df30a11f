import Lnmp.Topology.Links

/-!
# Clustered graphs

A subnet has a hub when at least two of its endpoints hang on the root. The endpoints then hang on
the hub, and the hub on the root. `mem_edges_buildGraph` and `mem_keys_buildGraph` give the graph of
a rebuild by the links of its endpoints.
-/

set_option autoImplicit false
set_option relaxedAutoImplicit false

namespace Lnmp.Topology

open Lnmp.Foundation Lnmp.Foundation.Digraph Lnmp.Foundation.IpAddress
open Lnmp.Monitoring (EndpointId)

/-! ### Hubs -/

namespace Inventory

variable (inventory : Inventory) (links : List (NodeId × NodeId))

/-- The subnet of a monitored endpoint. -/
def subnetOf (epId : EndpointId) : Option Address :=
  (inventory.monitoredById.get? epId).bind MonitoredEndpoint.subnet

/-- The endpoint is of the subnet and hangs on the root. -/
def IsDirect (epId : EndpointId) (subnet : Address) : Prop :=
  (.root, .monitored epId) ∈ links ∧ inventory.subnetOf epId = some subnet

/-- Two endpoints of the subnet hang on the root. -/
def IsHub (subnet : Address) : Prop :=
  ∃ first second, first ≠ second ∧ inventory.IsDirect links first subnet ∧
    inventory.IsDirect links second subnet

/-- The link leads from the root to an endpoint whose subnet has a hub. -/
def IsMoved (link : NodeId × NodeId) : Prop :=
  ∃ epId subnet, link = (.root, .monitored epId) ∧ inventory.subnetOf epId = some subnet ∧
    inventory.IsHub links subnet

/-- The edges of a hub. -/
def IsHubEdge (edge : NodeId × NodeId) : Prop :=
  ∃ subnet, inventory.IsHub links subnet ∧
    (edge = (.root, .subnetHub subnet) ∨
      ∃ epId, inventory.IsDirect links epId subnet ∧ edge = (.subnetHub subnet, .monitored epId))

/-- The edges of a clustered graph: the links that are not moved, and the edges of the hubs. -/
def Clustered (edge : NodeId × NodeId) : Prop :=
  edge ∈ links ∧ ¬inventory.IsMoved links edge ∨ inventory.IsHubEdge links edge

end Inventory

/-! ### Grouping -/

section Grouping

variable {inventory : Inventory} {links : List (NodeId × NodeId)} {graph : Graph}

theorem Inventory.mem_directRootEps (epId : EndpointId) :
    epId ∈ inventory.directRootEps graph ↔
      (.root, .monitored epId) ∈ graph.edges ∧ epId ∈ inventory.monitoredById.keys := by
  simp only [Inventory.directRootEps, List.mem_filterMap]
  constructor
  · rintro ⟨⟨source, target⟩, hmem, hsome⟩
    cases source <;> cases target <;> simp only [Option.ite_none_right_eq_some, reduceCtorEq,
      Option.some_inj] at hsome
    obtain ⟨hmonitored, rfl⟩ := hsome
    exact ⟨hmem, hmonitored⟩
  · rintro ⟨hmem, hmonitored⟩
    exact ⟨_, hmem, if_pos hmonitored⟩

theorem Inventory.nodup_directRootEps : (inventory.directRootEps graph).Nodup := by
  refine List.Nodup.filterMap ?_ graph.nodup_edges
  rintro ⟨source, target⟩ ⟨source', target'⟩ epId hfirst hsecond
  cases source <;> cases target <;> simp at hfirst
  cases source' <;> cases target' <;> simp at hsecond
  obtain ⟨-, rfl⟩ := hfirst
  obtain ⟨-, rfl⟩ := hsecond
  rfl

/-- The direct endpoints of a subnet, in the order in which they are entered. -/
theorem Inventory.getD_foldl_addDirect (epIds : List EndpointId)
    (groups : Dict Address (List EndpointId)) (subnet : Address) :
    ((epIds.foldl inventory.addDirect groups).get? subnet).getD [] =
      (groups.get? subnet).getD [] ++ epIds.filter (inventory.subnetOf · = some subnet) := by
  induction epIds generalizing groups with
  | nil => simp
  | cons epId rest ih =>
    rw [List.foldl_cons, ih, Inventory.addDirect, ← Inventory.subnetOf]
    cases hsubnet : inventory.subnetOf epId with
    | none => simp [hsubnet]
    | some other =>
      rw [Dict.get?_set]
      by_cases hsame : other = subnet
      · subst hsame
        simp [hsubnet]
      · simp [hsubnet, hsame, Ne.symm hsame]

/-- The groups that get a hub. -/
def Inventory.hubGroups (inventory : Inventory) (graph : Graph) :
    List (Address × List EndpointId) :=
  ((inventory.directRootEps graph).foldl inventory.addDirect Dict.empty).entries.filter
    fun entry ↦ 2 ≤ entry.2.length

/-- A group that gets a hub has all direct endpoints of its subnet, and these are at least two. -/
theorem Inventory.mem_hubGroups (subnet : Address) (epIds : List EndpointId) :
    (subnet, epIds) ∈ inventory.hubGroups graph ↔
      epIds = (inventory.directRootEps graph).filter (inventory.subnetOf · = some subnet) ∧
        2 ≤ epIds.length := by
  have hgroup := inventory.getD_foldl_addDirect (inventory.directRootEps graph) Dict.empty subnet
  rw [Dict.get?_empty, Option.getD_none, List.nil_append] at hgroup
  rw [Inventory.hubGroups, List.mem_filter, ← Dict.get?_eq_some_iff, decide_eq_true_iff, ← hgroup]
  refine and_congr_left fun hlength ↦ ?_
  cases hget :
      ((inventory.directRootEps graph).foldl inventory.addDirect Dict.empty).get? subnet with
  | some stored => rw [Option.getD_some, Option.some_inj, eq_comm]
  | none =>
    simp only [Option.getD_none, reduceCtorEq, false_iff]
    rintro rfl
    exact absurd hlength (by simp)

/-- The direct endpoints of a subnet are those linked to the root. -/
theorem Inventory.Draws.mem_direct_iff (hgraph : inventory.Draws links graph) (subnet : Address)
    (epId : EndpointId) :
    epId ∈ (inventory.directRootEps graph).filter (inventory.subnetOf · = some subnet) ↔
      inventory.IsDirect links epId subnet := by
  rw [List.mem_filter, mem_directRootEps, decide_eq_true_iff, hgraph.mem_edges,
    Inventory.IsDirect, and_right_comm]
  refine and_iff_left_of_imp fun hboth ↦ ?_
  obtain ⟨epData, hget, -⟩ := Option.bind_eq_some_iff.mp hboth.2
  exact Dict.mem_keys_of_get? hget

/-- A subnet has a hub exactly when it has a group of at least two. -/
theorem Inventory.Draws.exists_mem_hubGroups_iff (hgraph : inventory.Draws links graph)
    (subnet : Address) :
    (∃ epIds, (subnet, epIds) ∈ inventory.hubGroups graph) ↔ inventory.IsHub links subnet := by
  have hnodup : ((inventory.directRootEps graph).filter
      (inventory.subnetOf · = some subnet)).Nodup := inventory.nodup_directRootEps.filter _
  simp only [mem_hubGroups, exists_eq_left]
  rw [← List.toFinset_card_of_nodup hnodup, ← Nat.lt_iff_add_one_le, Finset.one_lt_card]
  simp only [List.mem_toFinset, hgraph.mem_direct_iff, Inventory.IsHub]
  constructor
  · rintro ⟨first, hfirst, second, hsecond, hne⟩
    exact ⟨first, second, hne, hfirst, hsecond⟩
  · rintro ⟨first, second, hne, hfirst, hsecond⟩
    exact ⟨first, hfirst, second, hsecond, hne⟩

end Grouping

/-! ### Moving to hubs -/

namespace Graph

variable {graph : Graph}

/-- The endpoints of a group are moved from the root to the hub. -/
theorem foldl_moveToHub (hubId : NodeId) (hhub : hubId ≠ .root) (epIds : List EndpointId)
    (hgraph : graph.WellFormed) :
    let moved := epIds.foldl (fun graph epId ↦
      (graph.disconnect .root (.monitored epId)).connect hubId (.monitored epId)) graph
    moved.WellFormed ∧ moved.nodes = graph.nodes ∧ ∀ edge, edge ∈ moved.edges ↔
      edge ∈ graph.edges ∧ (∀ epId ∈ epIds, edge ≠ (.root, .monitored epId)) ∨
        ∃ epId ∈ epIds, edge = (hubId, .monitored epId) := by
  induction epIds generalizing graph with
  | nil => exact ⟨hgraph, rfl, by simp⟩
  | cons epId rest ih =>
    obtain ⟨hwell, hnodes, hedges⟩ := ih ((hgraph.disconnect .root (.monitored epId)).connect hubId
      (.monitored epId))
    refine ⟨hwell, hnodes, fun edge ↦ (hedges edge).trans ?_⟩
    simp only [mem_edges_connect, mem_edges_disconnect, List.forall_mem_cons,
      List.exists_mem_cons_iff]
    constructor
    · rintro (⟨rfl | ⟨hmem, hne⟩, hrest⟩ | hlater)
      · exact Or.inr (Or.inl rfl)
      · exact Or.inl ⟨hmem, hne, hrest⟩
      · exact Or.inr (Or.inr hlater)
    · rintro (⟨hmem, hne, hrest⟩ | rfl | hlater)
      · exact Or.inl ⟨Or.inr ⟨hmem, hne⟩, hrest⟩
      · exact Or.inl ⟨Or.inl rfl, fun other _ hsame ↦ hhub (Prod.mk.inj hsame).1⟩
      · exact Or.inr hlater

/-- What a hub makes of a graph. -/
theorem WellFormed.addSubnetHub (hgraph : graph.WellFormed) (entry : Address × List EndpointId) :
    (graph.addSubnetHub entry).WellFormed ∧
      (∀ id, id ∈ (graph.addSubnetHub entry).nodes.keys ↔
        id = .subnetHub entry.1 ∨ id ∈ graph.nodes.keys) ∧
      ∀ edge, edge ∈ (graph.addSubnetHub entry).edges ↔
        edge ∈ graph.edges ∧ (∀ epId ∈ entry.2, edge ≠ (.root, .monitored epId)) ∨
          edge = (.root, .subnetHub entry.1) ∨
            ∃ epId ∈ entry.2, edge = (.subnetHub entry.1, .monitored epId) := by
  have hadded : (graph.addNode (.subnetHub entry.1)
      ⟨.subnetHub, .subnetHub, "UP", none⟩).WellFormed := hgraph.addNode rfl
  obtain ⟨hwell, hnodes, hedges⟩ := foldl_moveToHub (.subnetHub entry.1) NodeId.noConfusion entry.2
    (hadded.connect .root (.subnetHub entry.1))
  refine ⟨hwell, fun id ↦ ?_, fun edge ↦ (hedges edge).trans ?_⟩
  · rw [Graph.addSubnetHub, hnodes, nodes_connect, mem_keys_addNode]
  · simp only [mem_edges_connect, edges_addNode]
    constructor
    · rintro (⟨rfl | hmem, hrest⟩ | hmoved)
      · exact Or.inr (Or.inl rfl)
      · exact Or.inl ⟨hmem, hrest⟩
      · exact Or.inr (Or.inr hmoved)
    · rintro (⟨hmem, hrest⟩ | rfl | hmoved)
      · exact Or.inl ⟨Or.inr hmem, hrest⟩
      · exact Or.inl ⟨Or.inl rfl, fun epId _ hsame ↦ NodeId.noConfusion (Prod.mk.inj hsame).2⟩
      · exact Or.inr hmoved

theorem WellFormed.foldl_addSubnetHub (entries : List (Address × List EndpointId))
    (hgraph : graph.WellFormed) :
    (entries.foldl Graph.addSubnetHub graph).WellFormed ∧
      (∀ id, id ∈ (entries.foldl Graph.addSubnetHub graph).nodes.keys ↔
        id ∈ graph.nodes.keys ∨ ∃ entry ∈ entries, id = .subnetHub entry.1) ∧
      ∀ edge, edge ∈ (entries.foldl Graph.addSubnetHub graph).edges ↔
        edge ∈ graph.edges ∧
            (∀ entry ∈ entries, ∀ epId ∈ entry.2, edge ≠ (.root, .monitored epId)) ∨
          ∃ entry ∈ entries, edge = (.root, .subnetHub entry.1) ∨
            ∃ epId ∈ entry.2, edge = (.subnetHub entry.1, .monitored epId) := by
  induction entries generalizing graph with
  | nil => exact ⟨hgraph, by simp, by simp⟩
  | cons entry rest ih =>
    obtain ⟨hwell, hkeys, hedges⟩ := hgraph.addSubnetHub entry
    obtain ⟨hwell', hkeys', hedges'⟩ := ih hwell
    refine ⟨hwell', fun id ↦ ?_, fun edge ↦ ?_⟩
    · rw [List.foldl_cons, hkeys', hkeys, List.exists_mem_cons_iff]
      tauto
    · rw [List.foldl_cons, hedges', hedges, List.exists_mem_cons_iff, List.forall_mem_cons]
      constructor
      · rintro (⟨⟨hmem, hfirst⟩ | hhub, hrest⟩ | hlater)
        · exact Or.inl ⟨hmem, hfirst, hrest⟩
        · exact Or.inr (Or.inl hhub)
        · exact Or.inr (Or.inr hlater)
      · rintro (⟨hmem, hfirst, hrest⟩ | hhub | hlater)
        · exact Or.inl ⟨Or.inl ⟨hmem, hfirst⟩, hrest⟩
        · refine Or.inl ⟨Or.inr hhub, fun other _ epId _ hsame ↦ ?_⟩
          -- No edge of a hub leads from the root to an endpoint.
          rcases hhub with rfl | ⟨_, -, rfl⟩
          · exact NodeId.noConfusion (Prod.mk.inj hsame).2
          · exact NodeId.noConfusion (Prod.mk.inj hsame).1
        · exact Or.inr hlater

end Graph

/-! ### Marking -/

/-- What setting a status preserves is preserved by the propagation. -/
theorem Graph.propagateInferredDown_induction (property : Graph → Prop) {graph : Graph}
    (hstatus : ∀ graph id, property graph → property (graph.setStatus id "INFERRED_DOWN"))
    (hgraph : property graph) : property graph.propagateInferredDown := by
  rw [Graph.propagateInferredDown]
  induction graph.nodes.keys generalizing graph with
  | nil => exact hgraph
  | cons id rest ih =>
    refine ih ?_
    unfold Graph.inferDown
    split
    · exact hgraph
    · split
      · exact hstatus _ _ hgraph
      · exact hgraph

namespace Graph

variable (graph : Graph)

@[simp] theorem edges_propagateInferredDown : graph.propagateInferredDown.edges = graph.edges :=
  propagateInferredDown_induction (fun other ↦ other.edges = graph.edges)
    (fun other id hother ↦ (edges_setStatus other id _).trans hother) rfl

theorem mem_keys_propagateInferredDown (id : NodeId) :
    id ∈ graph.propagateInferredDown.nodes.keys ↔ id ∈ graph.nodes.keys :=
  propagateInferredDown_induction
    (fun other ↦ id ∈ other.nodes.keys ↔ id ∈ graph.nodes.keys)
    (fun other node hother ↦ (mem_keys_setStatus other node _ id).trans hother) Iff.rfl

theorem WellFormed.propagateInferredDown {graph : Graph} (hgraph : graph.WellFormed) :
    graph.propagateInferredDown.WellFormed :=
  propagateInferredDown_induction Graph.WellFormed (fun _ id hother ↦ hother.setStatus id _) hgraph

end Graph

/-! ### Rebuilt graphs -/

section Rebuilt

variable {inventory : Inventory} {links : List (NodeId × NodeId)} {graph : Graph}

/-- The links that stay in a graph are those that are not moved. -/
theorem Inventory.Draws.forall_hubGroups_iff (hgraph : inventory.Draws links graph)
    {edge : NodeId × NodeId} (hlink : edge ∈ links) :
    (∀ entry ∈ inventory.hubGroups graph, ∀ epId ∈ entry.2, edge ≠ (.root, .monitored epId)) ↔
      ¬inventory.IsMoved links edge := by
  constructor
  · rintro hstays ⟨epId, subnet, rfl, hsubnet, hhub⟩
    obtain ⟨epIds, hgroup⟩ := (hgraph.exists_mem_hubGroups_iff subnet).mpr hhub
    refine hstays _ hgroup epId ?_ rfl
    rw [(mem_hubGroups subnet epIds).mp hgroup |>.1, hgraph.mem_direct_iff]
    exact ⟨hlink, hsubnet⟩
  · rintro hstays ⟨subnet, epIds⟩ hgroup epId hepId rfl
    have hhub := (hgraph.exists_mem_hubGroups_iff subnet).mp ⟨epIds, hgroup⟩
    rw [(mem_hubGroups subnet epIds).mp hgroup |>.1, hgraph.mem_direct_iff] at hepId
    exact hstays ⟨epId, subnet, rfl, hepId.2, hhub⟩

/-- The edges that a graph gains are those of the hubs. -/
theorem Inventory.Draws.exists_hubGroups_iff (hgraph : inventory.Draws links graph)
    (edge : NodeId × NodeId) :
    (∃ entry ∈ inventory.hubGroups graph, edge = (.root, .subnetHub entry.1) ∨
      ∃ epId ∈ entry.2, edge = (.subnetHub entry.1, .monitored epId)) ↔
        inventory.IsHubEdge links edge := by
  constructor
  · rintro ⟨⟨subnet, epIds⟩, hgroup, hedge⟩
    refine ⟨subnet, (hgraph.exists_mem_hubGroups_iff subnet).mp ⟨epIds, hgroup⟩,
      hedge.imp_right ?_⟩
    rintro ⟨epId, hepId, hsame⟩
    rw [(mem_hubGroups subnet epIds).mp hgroup |>.1, hgraph.mem_direct_iff] at hepId
    exact ⟨epId, hepId, hsame⟩
  · rintro ⟨subnet, hhub, hedge⟩
    obtain ⟨epIds, hgroup⟩ := (hgraph.exists_mem_hubGroups_iff subnet).mpr hhub
    refine ⟨(subnet, epIds), hgroup, hedge.imp_right ?_⟩
    rintro ⟨epId, hdirect, hsame⟩
    refine ⟨epId, ?_, hsame⟩
    rw [(mem_hubGroups subnet epIds).mp hgroup |>.1, hgraph.mem_direct_iff]
    exact hdirect

variable (inventory) (routes : Dict EndpointId (List Hop))

theorem wellFormed_buildGraph : (buildGraph inventory routes).WellFormed :=
  ((inventory.draws_links routes).wellFormed.foldl_addSubnetHub _).1.propagateInferredDown

/-- The edges of a rebuilt graph. -/
theorem mem_edges_buildGraph (edge : NodeId × NodeId) :
    edge ∈ (buildGraph inventory routes).edges ↔
      inventory.Clustered (inventory.links routes) edge := by
  have hmerged := inventory.draws_links routes
  obtain ⟨-, -, hedges⟩ := hmerged.wellFormed.foldl_addSubnetHub (inventory.hubGroups _)
  rw [buildGraph, Graph.edges_propagateInferredDown]
  refine (hedges edge).trans (or_congr ?_ (hmerged.exists_hubGroups_iff edge))
  rw [hmerged.mem_edges]
  exact and_congr_right hmerged.forall_hubGroups_iff

/-- The nodes of a rebuilt graph. -/
theorem mem_keys_buildGraph (id : NodeId) :
    id ∈ (buildGraph inventory routes).nodes.keys ↔
      id = .root ∨ (∃ epId ∈ inventory.monitoredById.keys, id = .monitored epId) ∨
        (id.isHop = true ∧ ∃ source, (source, id) ∈ inventory.links routes) ∨
          ∃ subnet, inventory.IsHub (inventory.links routes) subnet ∧ id = .subnetHub subnet := by
  have hmerged := inventory.draws_links routes
  obtain ⟨-, hkeys, -⟩ := hmerged.wellFormed.foldl_addSubnetHub (inventory.hubGroups _)
  rw [buildGraph, Graph.mem_keys_propagateInferredDown]
  refine (hkeys id).trans ?_
  rw [hmerged.mem_keys]
  simp only [or_assoc]
  refine or_congr_right (or_congr_right (or_congr_right ?_))
  constructor
  · rintro ⟨⟨subnet, epIds⟩, hgroup, rfl⟩
    exact ⟨subnet, (hmerged.exists_mem_hubGroups_iff subnet).mp ⟨epIds, hgroup⟩, rfl⟩
  · rintro ⟨subnet, hhub, rfl⟩
    obtain ⟨epIds, hgroup⟩ := (hmerged.exists_mem_hubGroups_iff subnet).mpr hhub
    exact ⟨_, hgroup, rfl⟩

end Rebuilt

end Lnmp.Topology
