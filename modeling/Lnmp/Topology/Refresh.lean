import Lnmp.Topology.Updates

/-!
# Updates and rebuilds

An update of one route against the rebuild from the same endpoints and incidents with that route
replaced. The update draws the hops of the route whatever the manual parent of the endpoint is,
does not cluster, removes every edge into the endpoint and no other edge that the old route alone
had used.

`refreshesWell_iff_everyStep` says when the updates of a history do what rebuilds would do:
when each meets `Manager.Refreshable`, a condition on the links of the old and the new routes.
-/

set_option autoImplicit false
set_option relaxedAutoImplicit false

namespace Lnmp.Topology

open Lnmp.Foundation Lnmp.Foundation.Digraph Lnmp.Foundation.IpAddress Lnmp.Foundation.Runs
open Lnmp.Monitoring (EndpointId)

/-! ### Agreement -/

/-- The same nodes, of the same types, and the same edges. -/
structure Graph.Agrees (graph other : Graph) : Prop where
  nodeType_eq : ∀ id,
    (graph.nodes.get? id).map Node.nodeType = (other.nodes.get? id).map Node.nodeType
  mem_edges_iff : ∀ edge, edge ∈ graph.edges ↔ edge ∈ other.edges

theorem Graph.Agrees.mem_keys_iff {graph other : Graph} (hagrees : graph.Agrees other)
    (id : NodeId) : id ∈ graph.nodes.keys ↔ id ∈ other.nodes.keys := by
  have htype := congrArg Option.isSome (hagrees.nodeType_eq id)
  rw [Option.isSome_map, Option.isSome_map] at htype
  rw [Dict.mem_keys_iff_exists, Dict.mem_keys_iff_exists, ← Option.isSome_iff_exists,
    ← Option.isSome_iff_exists, htype]

/-- The types of nodes follow from their identifiers. -/
theorem Graph.WellFormed.agrees {graph other : Graph} (hgraph : graph.WellFormed)
    (hother : other.WellFormed)
    (hkeys : ∀ id, id ∈ graph.nodes.keys ↔ id ∈ other.nodes.keys)
    (hedges : ∀ edge, edge ∈ graph.edges ↔ edge ∈ other.edges) : graph.Agrees other := by
  refine ⟨fun id ↦ ?_, hedges⟩
  have htype : ∀ graph : Graph, graph.WellFormed → (graph.nodes.get? id).map Node.nodeType =
      if id ∈ graph.nodes.keys then some id.nodeType else none := by
    intro graph hgraph
    cases hget : graph.nodes.get? id with
    | none => rw [if_neg ((Dict.get?_eq_none_iff _ _).mp hget), Option.map_none]
    | some node =>
      rw [if_pos (Dict.mem_keys_of_get? hget), Option.map_some, hgraph.nodeType_eq id node hget]
  rw [htype graph hgraph, htype other hother]
  simp only [hkeys]

/-- The graph of a rebuild from what the manager has, with the route of an endpoint replaced. -/
def Manager.rebuiltWith (manager : Manager) (epId : EndpointId) (hops : List Hop) : Graph :=
  buildGraph manager.inventory (manager.baselineRoutes.set epId hops)

/-- An update does what a rebuild would do. -/
def Manager.RefreshesWell (manager : Manager) : Call → Prop
  | .updateEndpointPath epId newHops =>
    (manager.updateEndpointPath epId newHops).graph.Agrees (manager.rebuiltWith epId newHops)
  | .fullRebuild _ | .updateNodeStatus .. => True

/-! ### The condition -/

/-- A node that is not deleted: a hop node has to be on a stored route. -/
def Inventory.IsKept (inventory : Inventory) (routes : Dict EndpointId (List Hop))
    (id : NodeId) : Prop :=
  id.isHop = true → inventory.IsActive routes id

namespace Manager

variable (manager : Manager) (epId : EndpointId) (newHops : List Hop)

/-- The links of the routes before an update. -/
def oldLinks : List (NodeId × NodeId) := manager.inventory.links manager.baselineRoutes

/-- The links of the routes after an update. -/
def newLinks : List (NodeId × NodeId) :=
  manager.inventory.links (manager.updatedRoutes epId newHops)

/-- The links along the new path. -/
def drawnLinks : List (NodeId × NodeId) := steps .root (manager.updatedPath epId newHops)

/-- When an update does what a rebuild would do. -/
structure Refreshable : Prop where
  /-- The graph was rebuilt before. -/
  rebuilt : .root ∈ manager.graph.nodes.keys
  /-- The new path is made of links of the routes: it is not that of an endpoint with a usable
  manual parent, or of one that is not monitored, unless other routes have the links. -/
  drawn : ∀ link ∈ manager.drawnLinks epId newHops, link ∈ manager.newLinks epId newHops
  /-- The new path has all links into the endpoint. -/
  into : ∀ source, (source, .monitored epId) ∈ manager.newLinks epId newHops →
    (source, .monitored epId) ∈ manager.drawnLinks epId newHops
  /-- A link that no route has any more has an end that is deleted, or leads to the endpoint. -/
  dropped : ∀ source target, (source, target) ∈ manager.oldLinks →
    (source, target) ∉ manager.newLinks epId newHops → target ≠ .monitored epId →
      ¬(manager.inventory.IsKept (manager.updatedRoutes epId newHops) source ∧
        manager.inventory.IsKept (manager.updatedRoutes epId newHops) target)
  /-- A hop node that is linked no more is on no stored route. -/
  ghosts : ∀ id, id.isHop = true → (∃ source, (source, id) ∈ manager.oldLinks) →
    (¬∃ source, (source, id) ∈ manager.newLinks epId newHops) →
      ¬manager.inventory.IsActive (manager.updatedRoutes epId newHops) id
  /-- The hubs are the same. -/
  hubs : ∀ subnet, manager.inventory.IsHub manager.oldLinks subnet ↔
    manager.inventory.IsHub (manager.newLinks epId newHops) subnet
  /-- The new path does not start with an endpoint of a hub. -/
  direct : ∀ link ∈ manager.drawnLinks epId newHops,
    ¬manager.inventory.IsMoved (manager.newLinks epId newHops) link

end Manager

/-! ### Ends of links -/

/-- The root, a monitored endpoint, or a hop node into which a link leads. -/
def Inventory.IsPlaced (inventory : Inventory) (links : List (NodeId × NodeId))
    (id : NodeId) : Prop :=
  id = .root ∨ (∃ epId ∈ inventory.monitoredById.keys, id = .monitored epId) ∨
    id.isHop = true ∧ ∃ source, (source, id) ∈ links

section Ends

variable {inventory : Inventory} {routes : Dict EndpointId (List Hop)}
  {links : List (NodeId × NodeId)} {id : NodeId}

theorem Inventory.IsPlaced.ne_subnetHub (hplaced : inventory.IsPlaced links id)
    (subnet : Address) : id ≠ .subnetHub subnet := by
  rintro rfl
  rcases hplaced with hroot | ⟨_, -, hsame⟩ | ⟨hhop, -⟩
  · exact NodeId.noConfusion hroot
  · exact NodeId.noConfusion hsame
  · exact Bool.false_ne_true hhop

/-- The nodes on the way to a monitored endpoint. -/
theorem Inventory.WellFormed.of_mem_routePath (hinventory : inventory.WellFormed)
    {epId : EndpointId} (hepId : epId ∈ inventory.monitoredById.keys)
    (hid : id ∈ routePath inventory.monitoredByIp epId (Inventory.cleanHops routes epId)) :
    (∃ other ∈ inventory.monitoredById.keys, id = .monitored other) ∨
      id.isHop = true ∧ id ∈ hopNodes inventory.monitoredByIp epId none
        (Inventory.cleanHops routes epId) := by
  rcases List.mem_append.mp hid with hmem | hlast
  · rcases mem_hopNodes_cases hmem with hhop | ⟨hopIp, hopEpId, hget, rfl⟩
    · exact Or.inr ⟨hhop, hmem⟩
    · exact Or.inl ⟨hopEpId, hinventory.monitoredByIp_mem hopIp hopEpId hget, rfl⟩
  · exact Or.inl ⟨epId, hepId, List.mem_singleton.mp hlast⟩

/-- The hop nodes of the route of an endpoint are on a stored route. -/
theorem Inventory.isActive_of_mem_hopNodes {epId : EndpointId}
    (hid : id ∈ hopNodes inventory.monitoredByIp epId none (Inventory.cleanHops routes epId)) :
    inventory.IsActive routes id := by
  rw [Inventory.cleanHops] at hid
  cases hget : routes.get? epId with
  | none =>
    rw [hget] at hid
    exact absurd hid List.not_mem_nil
  | some hops =>
    rw [hget] at hid
    exact ⟨epId, hops, hget, hid⟩

/-- Both ends of a link are placed, and they are on stored routes where they are hop nodes. -/
theorem Inventory.WellFormed.ends_of_mem_links (hinventory : inventory.WellFormed)
    {source target : NodeId} (hlink : (source, target) ∈ inventory.links routes) :
    (inventory.IsPlaced (inventory.links routes) source ∧ inventory.IsKept routes source) ∧
      inventory.IsPlaced (inventory.links routes) target ∧ inventory.IsKept routes target := by
  obtain ⟨epId, epData, hget, hentry⟩ := (Inventory.mem_links_iff ..).mp hlink
  have hepId := Dict.mem_keys_of_get? hget
  have hmonitored : ∀ other ∈ inventory.monitoredById.keys,
      inventory.IsPlaced (inventory.links routes) (.monitored other) ∧
        inventory.IsKept routes (.monitored other) := fun other hother ↦
    ⟨Or.inr (Or.inl ⟨other, hother, rfl⟩), fun hhop ↦ absurd hhop Bool.false_ne_true⟩
  rcases (Inventory.mem_entryLinks_iff ..).mp hentry with ⟨manualParent, hparent, hsame⟩ |
    ⟨hnone, hstep⟩
  · obtain ⟨rfl, rfl⟩ := Prod.mk.inj hsame
    have husable := (Option.filter_eq_some_iff.mp hparent).2
    exact ⟨hmonitored manualParent (of_decide_eq_true husable), hmonitored epId hepId⟩
  · have hnode : ∀ id ∈ routePath inventory.monitoredByIp epId (Inventory.cleanHops routes epId),
        inventory.IsPlaced (inventory.links routes) id ∧ inventory.IsKept routes id := by
      intro id hid
      rcases hinventory.of_mem_routePath hepId hid with ⟨other, hother, rfl⟩ | ⟨hhop, hmem⟩
      · exact hmonitored other hother
      · have hne : id ≠ .root := by
          rintro rfl
          exact Bool.false_ne_true hhop
        obtain ⟨previous, hprevious⟩ := exists_mem_steps hid hne
        refine ⟨Or.inr (Or.inr ⟨hhop, previous, ?_⟩), fun _ ↦ isActive_of_mem_hopNodes hmem⟩
        exact (Inventory.mem_links_iff ..).mpr ⟨epId, epData, hget,
          (Inventory.mem_entryLinks_iff ..).mpr (Or.inr ⟨hnone, hprevious⟩)⟩
    obtain ⟨hsource, htarget, -⟩ := of_mem_steps hstep
    refine ⟨hsource.elim (fun hroot ↦ ?_) (hnode source), hnode target htarget⟩
    subst hroot
    exact ⟨Or.inl rfl, fun hhop ↦ absurd hhop Bool.false_ne_true⟩

/-- An edge of a hub starts or ends there. -/
theorem Inventory.IsHubEdge.exists_eq {edge : NodeId × NodeId}
    (hedge : inventory.IsHubEdge links edge) :
    ∃ subnet, edge.1 = .subnetHub subnet ∨ edge.2 = .subnetHub subnet := by
  obtain ⟨subnet, -, rfl | ⟨epId, -, rfl⟩⟩ := hedge
  · exact ⟨subnet, Or.inr rfl⟩
  · exact ⟨subnet, Or.inl rfl⟩

/-- A link from the root to an endpoint of a subnet is moved when the subnet has a hub. -/
theorem Inventory.isMoved_iff {epId : EndpointId} {subnet : Address}
    (hsubnet : inventory.subnetOf epId = some subnet) :
    inventory.IsMoved links (.root, .monitored epId) ↔ inventory.IsHub links subnet := by
  constructor
  · rintro ⟨other, otherSubnet, hsame, hother, hhub⟩
    obtain rfl := NodeId.monitored.inj (Prod.mk.inj hsame).2
    obtain rfl := Option.some.inj (hsubnet.symm.trans hother)
    exact hhub
  · exact fun hhub ↦ ⟨epId, subnet, rfl, hsubnet, hhub⟩

/-- Whether a link is moved depends on the hubs. -/
theorem Inventory.isMoved_congr {links' : List (NodeId × NodeId)}
    (hhubs : ∀ subnet, inventory.IsHub links subnet ↔ inventory.IsHub links' subnet)
    (link : NodeId × NodeId) :
    inventory.IsMoved links link ↔ inventory.IsMoved links' link := by
  simp only [Inventory.IsMoved, hhubs]

end Ends

/-! ### Links of an update -/

section UpdatedLinks

variable (manager : Manager) (epId : EndpointId) (newHops : List Hop)

theorem Manager.cleanHops_updatedRoutes (other : EndpointId) :
    Inventory.cleanHops (manager.updatedRoutes epId newHops) other =
      if other = epId then sanitizeTracerouteHops newHops none
      else Inventory.cleanHops manager.baselineRoutes other := by
  rw [Inventory.cleanHops, Manager.updatedRoutes, Dict.get?_set]
  by_cases hother : other = epId
  · rw [if_pos hother, if_pos hother, Option.getD_some, sanitizeTracerouteHops_idem]
  · rw [if_neg hother, if_neg hother, Inventory.cleanHops]

/-- Storing the hops of a route sanitized makes no difference to the links. -/
theorem Manager.newLinks_eq : manager.newLinks epId newHops =
    manager.inventory.links (manager.baselineRoutes.set epId newHops) := by
  refine Inventory.links_congr _ fun other _ ↦ ?_
  rw [cleanHops_updatedRoutes, Inventory.cleanHops, Inventory.cleanHops, Dict.get?_set]
  by_cases hother : other = epId
  · rw [if_pos hother, if_pos hother, Option.getD_some]
  · rw [if_neg hother, if_neg hother]

/-- The route of an endpoint that is not monitored has no links. -/
theorem Manager.newLinks_of_not_mem (hepId : epId ∉ manager.inventory.monitoredById.keys) :
    manager.newLinks epId newHops = manager.oldLinks := by
  refine Inventory.links_congr _ fun other hother ↦ ?_
  have hne : other ≠ epId := fun hsame ↦ hepId (hsame ▸ hother)
  rw [cleanHops_updatedRoutes, if_neg hne]

variable {manager epId newHops} {link : NodeId × NodeId}

/-- A new link is an old one, or lies on the new path. -/
theorem Manager.WellFormed.of_mem_newLinks (hmanager : manager.WellFormed)
    (hlink : link ∈ manager.newLinks epId newHops) :
    link ∈ manager.oldLinks ∨ link ∈ manager.drawnLinks epId newHops := by
  obtain ⟨other, epData, hget, hentry⟩ := (Inventory.mem_links_iff ..).mp hlink
  rcases (Inventory.mem_entryLinks_iff ..).mp hentry with hparent | ⟨hnone, hstep⟩
  · exact Or.inl ((Inventory.mem_links_iff ..).mpr ⟨other, epData, hget,
      (Inventory.mem_entryLinks_iff ..).mpr (Or.inl hparent)⟩)
  · rw [cleanHops_updatedRoutes] at hstep
    by_cases hother : other = epId
    · subst hother
      rw [if_pos rfl] at hstep
      refine Or.inr ?_
      rw [drawnLinks, updatedPath, if_pos ((hmanager.hasNodes other).mpr
        (Dict.mem_keys_of_get? hget))]
      exact hstep
    · rw [if_neg hother] at hstep
      exact Or.inl ((Inventory.mem_links_iff ..).mpr ⟨other, epData, hget,
        (Inventory.mem_entryLinks_iff ..).mpr (Or.inr ⟨hnone, hstep⟩)⟩)

/-- An end of a link of the new path. -/
theorem Manager.WellFormed.ends_of_mem_drawnLinks (hmanager : manager.WellFormed)
    (hlink : link ∈ manager.drawnLinks epId newHops) {id : NodeId}
    (hid : id = link.1 ∨ id = link.2) :
    id = .root ∨ (∃ other ∈ manager.inventory.monitoredById.keys, id = .monitored other) ∨
      id.isHop = true ∧ id ∈ hopNodes manager.inventory.monitoredByIp epId none
        (sanitizeTracerouteHops newHops none) := by
  obtain ⟨source, target⟩ := link
  have hends : id = .root ∨ id ∈ manager.updatedPath epId newHops := by
    obtain ⟨hsource, htarget, -⟩ := of_mem_steps hlink
    rcases hid with rfl | rfl
    · exact hsource
    · exact Or.inr htarget
  refine hends.imp_right fun hmem ↦ ?_
  rcases List.mem_append.mp hmem with hhop | hlast
  · rcases mem_hopNodes_cases hhop with hishop | ⟨hopIp, hopEpId, hget, rfl⟩
    · exact Or.inr ⟨hishop, hhop⟩
    · exact Or.inl ⟨hopEpId, hmanager.inventory.monitoredByIp_mem hopIp hopEpId hget, rfl⟩
  · split at hlast
    · rename_i hnode
      exact Or.inl ⟨epId, (hmanager.hasNodes epId).mp hnode, List.mem_singleton.mp hlast⟩
    · exact absurd hlast List.not_mem_nil

end UpdatedLinks

/-! ### One update -/

/-- The graph is that of a rebuild. -/
def Manager.InSync (manager : Manager) : Prop :=
  manager.graph.Agrees (buildGraph manager.inventory manager.baselineRoutes)

section Agreement

variable {manager : Manager} {epId : EndpointId} {newHops : List Hop}

theorem Manager.InSync.mem_edges (hsync : manager.InSync) (edge : NodeId × NodeId) :
    edge ∈ manager.graph.edges ↔ manager.inventory.Clustered manager.oldLinks edge :=
  (hsync.mem_edges_iff edge).trans (mem_edges_buildGraph ..)

theorem Manager.InSync.mem_keys (hsync : manager.InSync) (id : NodeId) :
    id ∈ manager.graph.nodes.keys ↔ manager.inventory.IsPlaced manager.oldLinks id ∨
      ∃ subnet, manager.inventory.IsHub manager.oldLinks subnet ∧ id = .subnetHub subnet := by
  refine (hsync.mem_keys_iff id).trans ((mem_keys_buildGraph ..).trans ?_)
  rw [Inventory.IsPlaced, or_assoc, or_assoc]
  rfl

theorem Manager.mem_edges_rebuiltWith (manager : Manager) (epId : EndpointId)
    (newHops : List Hop) (edge : NodeId × NodeId) :
    edge ∈ (manager.rebuiltWith epId newHops).edges ↔
      manager.inventory.Clustered (manager.newLinks epId newHops) edge := by
  rw [newLinks_eq]
  exact mem_edges_buildGraph ..

theorem Manager.mem_keys_rebuiltWith (manager : Manager) (epId : EndpointId)
    (newHops : List Hop) (id : NodeId) :
    id ∈ (manager.rebuiltWith epId newHops).nodes.keys ↔
      manager.inventory.IsPlaced (manager.newLinks epId newHops) id ∨
        ∃ subnet, manager.inventory.IsHub (manager.newLinks epId newHops) subnet ∧
          id = .subnetHub subnet := by
  rw [newLinks_eq]
  refine (mem_keys_buildGraph ..).trans ?_
  rw [Inventory.IsPlaced, or_assoc, or_assoc]

/-- A clustered edge that no hub has is a link. -/
theorem Inventory.Clustered.mem_links {inventory : Inventory} {links : List (NodeId × NodeId)}
    {edge : NodeId × NodeId} (hedge : inventory.Clustered links edge)
    (hends : ∀ subnet, edge.1 ≠ .subnetHub subnet ∧ edge.2 ≠ .subnetHub subnet) :
    edge ∈ links ∧ ¬inventory.IsMoved links edge := by
  refine hedge.resolve_right fun hhub ↦ ?_
  obtain ⟨subnet, hsame | hsame⟩ := hhub.exists_eq
  · exact (hends subnet).1 hsame
  · exact (hends subnet).2 hsame

/-- The links of the new path are in the graph after the update. -/
theorem Manager.WellFormed.mem_edges_of_drawn (hmanager : manager.WellFormed)
    (hdisabled : epId ∉ manager.inventory.disabledTopologyEpIds)
    (hroot : .root ∈ manager.graph.nodes.keys) {link : NodeId × NodeId}
    (hlink : link ∈ manager.drawnLinks epId newHops) :
    link ∈ (manager.updateEndpointPath epId newHops).graph.edges := by
  obtain ⟨-, hkeys, hedges⟩ := manager.graph_updateEndpointPath newHops hmanager.graph hdisabled
  have hend : ∀ id, id = link.1 ∨ id = link.2 →
      id ∈ (manager.updateEndpointPath epId newHops).graph.nodes.keys := by
    intro id hid
    rw [hkeys]
    rcases hmanager.ends_of_mem_drawnLinks hlink hid with rfl | ⟨other, hother, rfl⟩ | ⟨hhop, hmem⟩
    · exact ⟨Or.inl hroot, fun hhop ↦ absurd hhop Bool.false_ne_true⟩
    · exact ⟨Or.inl ((hmanager.hasNodes other).mpr hother),
        fun hhop ↦ absurd hhop Bool.false_ne_true⟩
    · exact ⟨Or.inr ⟨hhop, hmem⟩, fun _ ↦ manager.isActive_updatedRoutes newHops hmem⟩
  exact (hedges link).mpr ⟨Or.inr hlink, hend _ (Or.inl rfl), hend _ (Or.inr rfl)⟩

/-- The ends of a link of the new path are no hubs. -/
theorem Manager.WellFormed.drawn_ne_subnetHub (hmanager : manager.WellFormed)
    {link : NodeId × NodeId} (hlink : link ∈ manager.drawnLinks epId newHops) (subnet : Address) :
    link.1 ≠ .subnetHub subnet ∧ link.2 ≠ .subnetHub subnet := by
  have hend : ∀ id, id = link.1 ∨ id = link.2 → id ≠ .subnetHub subnet := by
    rintro id hid rfl
    rcases hmanager.ends_of_mem_drawnLinks hlink hid with hroot | ⟨_, -, hsame⟩ | ⟨hhop, -⟩
    · exact NodeId.noConfusion hroot
    · exact NodeId.noConfusion hsame
    · exact Bool.false_ne_true hhop
  exact ⟨hend _ (Or.inl rfl), hend _ (Or.inr rfl)⟩

/-- The edges of a graph in sync join nodes. -/
theorem Manager.InSync.ends_mem_keys (hsync : manager.InSync) (hmanager : manager.WellFormed)
    {edge : NodeId × NodeId} (hedge : edge ∈ manager.graph.edges) :
    edge.1 ∈ manager.graph.nodes.keys ∧ edge.2 ∈ manager.graph.nodes.keys := by
  rw [hsync.mem_keys, hsync.mem_keys]
  rcases (hsync.mem_edges edge).mp hedge with ⟨hlink, -⟩ | ⟨subnet, hhub, hsame⟩
  · obtain ⟨⟨hsource, -⟩, htarget, -⟩ := hmanager.inventory.ends_of_mem_links hlink
    exact ⟨Or.inl hsource, Or.inl htarget⟩
  · have hsubnet : manager.inventory.IsPlaced manager.oldLinks (.subnetHub subnet) ∨
        ∃ other, manager.inventory.IsHub manager.oldLinks other ∧
          NodeId.subnetHub subnet = .subnetHub other := Or.inr ⟨subnet, hhub, rfl⟩
    rcases hsame with rfl | ⟨direct, hdirect, rfl⟩
    · exact ⟨Or.inl (Or.inl rfl), hsubnet⟩
    · obtain ⟨epData, hget, -⟩ := Option.bind_eq_some_iff.mp hdirect.2
      exact ⟨hsubnet, Or.inl (Or.inr (Or.inl ⟨direct, Dict.mem_keys_of_get? hget, rfl⟩))⟩

/-- An edge with kept ends that does not lead into the endpoint outlives the update. -/
theorem Manager.InSync.mem_edges_of_kept (hsync : manager.InSync) (hmanager : manager.WellFormed)
    (hdisabled : epId ∉ manager.inventory.disabledTopologyEpIds) {edge : NodeId × NodeId}
    (hedge : edge ∈ manager.graph.edges) (hne : edge.2 ≠ .monitored epId)
    (hsource : manager.inventory.IsKept (manager.updatedRoutes epId newHops) edge.1)
    (htarget : manager.inventory.IsKept (manager.updatedRoutes epId newHops) edge.2) :
    edge ∈ (manager.updateEndpointPath epId newHops).graph.edges := by
  obtain ⟨-, hkeys, hedges⟩ := manager.graph_updateEndpointPath newHops hmanager.graph hdisabled
  obtain ⟨hsource', htarget'⟩ := hsync.ends_mem_keys hmanager hedge
  exact (hedges edge).mpr ⟨Or.inl ⟨hedge, hne⟩, (hkeys _).mpr ⟨Or.inl hsource', hsource⟩,
    (hkeys _).mpr ⟨Or.inl htarget', htarget⟩⟩

/-- A clustered edge from a hub to an endpoint stands for a link from the root. -/
theorem Inventory.Clustered.of_subnetHub {inventory : Inventory}
    {routes : Dict EndpointId (List Hop)} (hinventory : inventory.WellFormed)
    {subnet : Address} {direct : EndpointId}
    (hedge : inventory.Clustered (inventory.links routes)
      (.subnetHub subnet, .monitored direct)) :
    inventory.IsHub (inventory.links routes) subnet ∧
      inventory.IsDirect (inventory.links routes) direct subnet := by
  rcases hedge with ⟨hlink, -⟩ | ⟨other, hhub, hsame | ⟨epId, hdirect, hsame⟩⟩
  · exact absurd rfl ((hinventory.ends_of_mem_links hlink).1.1.ne_subnetHub subnet)
  · exact NodeId.noConfusion (Prod.mk.inj hsame).2
  · obtain ⟨hsubnet, hepId⟩ := Prod.mk.inj hsame
    obtain rfl := NodeId.subnetHub.inj hsubnet
    obtain rfl := NodeId.monitored.inj hepId
    exact ⟨hhub, hdirect⟩

end Agreement

/-! ### The condition is necessary -/

section Necessary

variable {manager : Manager} {epId : EndpointId} {newHops : List Hop}
  (hsync : manager.InSync) (hmanager : manager.WellFormed)
  (hdisabled : epId ∉ manager.inventory.disabledTopologyEpIds)
  (hagrees : (manager.updateEndpointPath epId newHops).graph.Agrees
    (manager.rebuiltWith epId newHops))

include hagrees in
theorem Manager.mem_edges_of_agrees (edge : NodeId × NodeId) :
    edge ∈ (manager.updateEndpointPath epId newHops).graph.edges ↔
      manager.inventory.Clustered (manager.newLinks epId newHops) edge :=
  (hagrees.mem_edges_iff edge).trans (manager.mem_edges_rebuiltWith epId newHops edge)

theorem Manager.InSync.root_mem_keys (hsync : manager.InSync) :
    .root ∈ manager.graph.nodes.keys := (hsync.mem_keys .root).mpr (Or.inl (Or.inl rfl))

include hsync hmanager hdisabled hagrees

/-- A link of the new path is an edge of the rebuilt graph, and of none of its hubs. -/
theorem Manager.InSync.mem_newLinks_of_drawn {link : NodeId × NodeId}
    (hlink : link ∈ manager.drawnLinks epId newHops) :
    link ∈ manager.newLinks epId newHops ∧
      ¬manager.inventory.IsMoved (manager.newLinks epId newHops) link :=
  ((mem_edges_of_agrees hagrees link).mp
    (hmanager.mem_edges_of_drawn hdisabled hsync.root_mem_keys hlink)).mem_links
      (hmanager.drawn_ne_subnetHub hlink)

omit hsync in
/-- A link into the endpoint is on the new path. -/
theorem Manager.WellFormed.drawn_of_mem_newLinks {source : NodeId}
    (hlink : (source, .monitored epId) ∈ manager.newLinks epId newHops) :
    (source, .monitored epId) ∈ manager.drawnLinks epId newHops := by
  obtain ⟨-, -, hedges⟩ := manager.graph_updateEndpointPath newHops hmanager.graph hdisabled
  by_cases hmoved : manager.inventory.IsMoved (manager.newLinks epId newHops)
      (source, .monitored epId)
  · -- The rebuilt graph would have the endpoint at a hub, and no new path starts at a hub.
    obtain ⟨other, subnet, hsame, hsubnet, hhub⟩ := hmoved
    obtain ⟨rfl, hother⟩ := Prod.mk.inj hsame
    obtain rfl := NodeId.monitored.inj hother
    have hedge := (mem_edges_of_agrees hagrees (.subnetHub subnet, .monitored epId)).mpr
      (Or.inr ⟨subnet, hhub, Or.inr ⟨epId, ⟨hlink, hsubnet⟩, rfl⟩⟩)
    rcases ((hedges _).mp hedge).1 with ⟨-, hne⟩ | hdrawn
    · exact absurd rfl hne
    · exact absurd rfl (hmanager.drawn_ne_subnetHub hdrawn subnet).1
  · have hedge := (mem_edges_of_agrees hagrees (source, .monitored epId)).mpr
      (Or.inl ⟨hlink, hmoved⟩)
    exact ((hedges _).mp hedge).1.resolve_left fun hold ↦ hold.2 rfl

/-- A link between kept nodes that does not lead to the endpoint is still asked for. -/
theorem Manager.InSync.mem_newLinks_of_kept {source target : NodeId}
    (hold : (source, target) ∈ manager.oldLinks) (hne : target ≠ .monitored epId)
    (hsource : manager.inventory.IsKept (manager.updatedRoutes epId newHops) source)
    (htarget : manager.inventory.IsKept (manager.updatedRoutes epId newHops) target) :
    (source, target) ∈ manager.newLinks epId newHops := by
  by_cases hmoved : manager.inventory.IsMoved manager.oldLinks (source, target)
  · -- The endpoint hangs on a hub, and stays there.
    obtain ⟨direct, subnet, hsame, hsubnet, hhub⟩ := hmoved
    obtain ⟨rfl, rfl⟩ := Prod.mk.inj hsame
    have hedge : (.subnetHub subnet, .monitored direct) ∈ manager.graph.edges :=
      (hsync.mem_edges _).mpr (Or.inr ⟨subnet, hhub, Or.inr ⟨direct, ⟨hold, hsubnet⟩, rfl⟩⟩)
    have hstays := hsync.mem_edges_of_kept hmanager hdisabled hedge hne
      (fun hhop ↦ absurd hhop Bool.false_ne_true) htarget
    exact (Inventory.Clustered.of_subnetHub hmanager.inventory
      ((mem_edges_of_agrees hagrees _).mp hstays)).2.1
  · have hedge := (hsync.mem_edges (source, target)).mpr (Or.inl ⟨hold, hmoved⟩)
    have hstays := hsync.mem_edges_of_kept hmanager hdisabled hedge hne hsource htarget
    obtain ⟨⟨hsource', -⟩, htarget', -⟩ := hmanager.inventory.ends_of_mem_links hold
    exact (((mem_edges_of_agrees hagrees _).mp hstays).mem_links fun subnet ↦
      ⟨hsource'.ne_subnetHub subnet, htarget'.ne_subnetHub subnet⟩).1

/-- The nodes that the update leaves are those of the rebuilt graph. -/
theorem Manager.InSync.isPlaced_iff (id : NodeId) :
    ((manager.inventory.IsPlaced manager.oldLinks id ∨
        ∃ subnet, manager.inventory.IsHub manager.oldLinks subnet ∧ id = .subnetHub subnet) ∨
      id.isHop = true ∧ id ∈ hopNodes manager.inventory.monitoredByIp epId none
        (sanitizeTracerouteHops newHops none)) ∧
      manager.inventory.IsKept (manager.updatedRoutes epId newHops) id ↔
    manager.inventory.IsPlaced (manager.newLinks epId newHops) id ∨
      ∃ subnet, manager.inventory.IsHub (manager.newLinks epId newHops) subnet ∧
        id = .subnetHub subnet := by
  obtain ⟨-, hkeys, -⟩ := manager.graph_updateEndpointPath newHops hmanager.graph hdisabled
  rw [← hsync.mem_keys, ← mem_keys_rebuiltWith, ← hagrees.mem_keys_iff, hkeys]
  rfl

/-- A linked hop node that is linked no more is on no stored route. -/
theorem Manager.InSync.not_isActive_of_unlinked {id : NodeId} (hhop : id.isHop = true)
    (hlinked : ∃ source, (source, id) ∈ manager.oldLinks)
    (hunlinked : ¬∃ source, (source, id) ∈ manager.newLinks epId newHops) :
    ¬manager.inventory.IsActive (manager.updatedRoutes epId newHops) id := by
  intro hactive
  rcases (hsync.isPlaced_iff hmanager hdisabled hagrees id).mp
      ⟨Or.inl (Or.inl (Or.inr (Or.inr ⟨hhop, hlinked⟩))), fun _ ↦ hactive⟩ with
    (rfl | ⟨_, -, rfl⟩ | ⟨-, hplaced⟩) | ⟨_, -, rfl⟩
  · exact Bool.false_ne_true hhop
  · exact Bool.false_ne_true hhop
  · exact hunlinked hplaced
  · exact Bool.false_ne_true hhop

/-- The hubs are the same. -/
theorem Manager.InSync.isHub_iff (subnet : Address) :
    manager.inventory.IsHub manager.oldLinks subnet ↔
      manager.inventory.IsHub (manager.newLinks epId newHops) subnet := by
  have hhub : ∀ links, (manager.inventory.IsPlaced links (.subnetHub subnet) ∨
      ∃ other, manager.inventory.IsHub links other ∧
        NodeId.subnetHub subnet = .subnetHub other) ↔ manager.inventory.IsHub links subnet := by
    intro links
    rw [or_iff_right fun hplaced ↦ hplaced.ne_subnetHub subnet rfl]
    simp
  have hnode := hsync.isPlaced_iff hmanager hdisabled hagrees (.subnetHub subnet)
  rw [hhub, hhub] at hnode
  have hplain : (NodeId.subnetHub subnet).isHop ≠ true := Bool.false_ne_true
  have hkept : manager.inventory.IsKept (manager.updatedRoutes epId newHops)
      (.subnetHub subnet) := fun hhop ↦ absurd hhop hplain
  rwa [or_iff_left fun hhop ↦ hplain hhop.1, and_iff_left hkept] at hnode

/-- An update that does what a rebuild would do meets the condition. -/
theorem Manager.InSync.refreshable : manager.Refreshable epId newHops where
  rebuilt := hsync.root_mem_keys
  drawn _ hlink := (hsync.mem_newLinks_of_drawn hmanager hdisabled hagrees hlink).1
  into _ := hmanager.drawn_of_mem_newLinks hdisabled hagrees
  dropped _ _ hold hnew hne hkept :=
    hnew (hsync.mem_newLinks_of_kept hmanager hdisabled hagrees hold hne hkept.1 hkept.2)
  ghosts _ := hsync.not_isActive_of_unlinked hmanager hdisabled hagrees
  hubs := hsync.isHub_iff hmanager hdisabled hagrees
  direct _ hlink := (hsync.mem_newLinks_of_drawn hmanager hdisabled hagrees hlink).2

end Necessary

/-! ### The condition is sufficient -/

section Sufficient

variable {manager : Manager} {epId : EndpointId} {newHops : List Hop}

/-- The hop nodes on the new path. -/
theorem Manager.exists_mem_drawnLinks_iff (manager : Manager) {id : NodeId}
    (hhop : id.isHop = true) :
    (∃ source, (source, id) ∈ manager.drawnLinks epId newHops) ↔
      id ∈ hopNodes manager.inventory.monitoredByIp epId none
        (sanitizeTracerouteHops newHops none) := by
  refine exists_mem_steps_iff _ _ _ hhop fun node hnode ↦ ?_
  split at hnode
  · exact List.mem_singleton.mp hnode
  · exact absurd hnode List.not_mem_nil

/-- Under the condition the update has the nodes of the rebuild. -/
theorem Manager.Refreshable.mem_keys_iff (hrefresh : manager.Refreshable epId newHops)
    (hsync : manager.InSync) (hmanager : manager.WellFormed)
    (hdisabled : epId ∉ manager.inventory.disabledTopologyEpIds) (id : NodeId) :
    id ∈ (manager.updateEndpointPath epId newHops).graph.nodes.keys ↔
      id ∈ (manager.rebuiltWith epId newHops).nodes.keys := by
  obtain ⟨-, hkeys, -⟩ := manager.graph_updateEndpointPath newHops hmanager.graph hdisabled
  rw [hkeys, mem_keys_rebuiltWith]
  constructor
  · rintro ⟨hold | ⟨hhop, hmem⟩, hkept⟩
    · rcases (hsync.mem_keys id).mp hold with
        (rfl | hmonitored | ⟨hhop, hlinked⟩) | ⟨subnet, hhub, rfl⟩
      · exact Or.inl (Or.inl rfl)
      · exact Or.inl (Or.inr (Or.inl hmonitored))
      · refine Or.inl (Or.inr (Or.inr ⟨hhop, ?_⟩))
        by_contra hunlinked
        exact hrefresh.ghosts id hhop hlinked hunlinked (hkept hhop)
      · exact Or.inr ⟨subnet, (hrefresh.hubs subnet).mp hhub, rfl⟩
    · obtain ⟨source, hlink⟩ := (manager.exists_mem_drawnLinks_iff hhop).mpr hmem
      exact Or.inl (Or.inr (Or.inr ⟨hhop, source, hrefresh.drawn _ hlink⟩))
  · rintro ((rfl | ⟨other, hother, rfl⟩ | ⟨hhop, source, hlink⟩) | ⟨subnet, hhub, rfl⟩)
    · exact ⟨Or.inl hrefresh.rebuilt, fun hhop ↦ absurd hhop Bool.false_ne_true⟩
    · exact ⟨Or.inl ((hmanager.hasNodes other).mpr hother),
        fun hhop ↦ absurd hhop Bool.false_ne_true⟩
    · refine ⟨?_, (hmanager.inventory.ends_of_mem_links hlink).2.2⟩
      rcases hmanager.of_mem_newLinks hlink with hold | hdrawn
      · exact Or.inl ((hsync.mem_keys id).mpr (Or.inl (Or.inr (Or.inr ⟨hhop, source, hold⟩))))
      · exact Or.inr ⟨hhop, (manager.exists_mem_drawnLinks_iff hhop).mp ⟨source, hdrawn⟩⟩
    · exact ⟨Or.inl ((hsync.mem_keys _).mpr
        (Or.inr ⟨subnet, (hrefresh.hubs subnet).mpr hhub, rfl⟩)),
        fun hhop ↦ absurd hhop Bool.false_ne_true⟩

/-- Under the condition the edges that the update leaves are edges of the rebuild. -/
theorem Manager.Refreshable.clustered_newLinks (hrefresh : manager.Refreshable epId newHops)
    {edge : NodeId × NodeId} (hedge : manager.inventory.Clustered manager.oldLinks edge)
    (hne : edge.2 ≠ .monitored epId)
    (hsource : manager.inventory.IsKept (manager.updatedRoutes epId newHops) edge.1)
    (htarget : manager.inventory.IsKept (manager.updatedRoutes epId newHops) edge.2) :
    manager.inventory.Clustered (manager.newLinks epId newHops) edge := by
  have hstays : ∀ source target, (source, target) ∈ manager.oldLinks →
      target ≠ .monitored epId →
      manager.inventory.IsKept (manager.updatedRoutes epId newHops) source →
      manager.inventory.IsKept (manager.updatedRoutes epId newHops) target →
        (source, target) ∈ manager.newLinks epId newHops := by
    intro source target hold hne hsource htarget
    by_contra hnew
    exact hrefresh.dropped source target hold hnew hne ⟨hsource, htarget⟩
  rcases hedge with ⟨hold, hmoved⟩ | ⟨subnet, hhub, rfl | ⟨direct, hdirect, rfl⟩⟩
  · refine Or.inl ⟨hstays _ _ hold hne hsource htarget, ?_⟩
    rwa [← Inventory.isMoved_congr hrefresh.hubs]
  · exact Or.inr ⟨subnet, (hrefresh.hubs subnet).mp hhub, Or.inl rfl⟩
  · have hlink := hstays _ _ hdirect.1 hne (fun hhop ↦ absurd hhop Bool.false_ne_true) htarget
    exact Or.inr ⟨subnet, (hrefresh.hubs subnet).mp hhub, Or.inr ⟨direct, ⟨hlink, hdirect.2⟩, rfl⟩⟩

/-- Under the condition the edges of the rebuild are edges after the update. -/
theorem Manager.Refreshable.mem_edges_of_clustered (hrefresh : manager.Refreshable epId newHops)
    (hsync : manager.InSync) (hmanager : manager.WellFormed)
    (hdisabled : epId ∉ manager.inventory.disabledTopologyEpIds) {edge : NodeId × NodeId}
    (hedge : manager.inventory.Clustered (manager.newLinks epId newHops) edge) :
    edge ∈ (manager.updateEndpointPath epId newHops).graph.edges := by
  have hplain : ∀ {id : NodeId}, id.isHop = false →
      manager.inventory.IsKept (manager.updatedRoutes epId newHops) id := fun hhop hhop' ↦
    absurd (hhop.symm.trans hhop') Bool.false_ne_true
  rcases hedge with ⟨hnew, hmoved⟩ | ⟨subnet, hhub, rfl | ⟨direct, hdirect, rfl⟩⟩
  · by_cases htarget : edge.2 = .monitored epId
    · refine hmanager.mem_edges_of_drawn hdisabled hrefresh.rebuilt ?_
      obtain ⟨source, target⟩ := edge
      obtain rfl := htarget
      exact hrefresh.into source hnew
    · rcases hmanager.of_mem_newLinks hnew with hold | hdrawn
      · rw [← Inventory.isMoved_congr hrefresh.hubs] at hmoved
        obtain ⟨⟨-, hkept⟩, -, hkept'⟩ := hmanager.inventory.ends_of_mem_links hnew
        exact hsync.mem_edges_of_kept hmanager hdisabled
          ((hsync.mem_edges edge).mpr (Or.inl ⟨hold, hmoved⟩)) htarget hkept hkept'
      · exact hmanager.mem_edges_of_drawn hdisabled hrefresh.rebuilt hdrawn
  · refine hsync.mem_edges_of_kept hmanager hdisabled ((hsync.mem_edges _).mpr (Or.inr
      ⟨subnet, (hrefresh.hubs subnet).mpr hhub, Or.inl rfl⟩)) NodeId.noConfusion
      (hplain rfl) (hplain rfl)
  · -- The endpoint hung on the root before, since a new path does not start with it.
    have hfresh : (.root, .monitored direct) ∉ manager.drawnLinks epId newHops := fun hdrawn ↦
      hrefresh.direct _ hdrawn ((Inventory.isMoved_iff hdirect.2).mpr hhub)
    have hold := (hmanager.of_mem_newLinks hdirect.1).resolve_right hfresh
    have hne : NodeId.monitored direct ≠ .monitored epId := by
      intro hsame
      rw [hsame] at hfresh
      exact hfresh (hrefresh.into .root (hsame ▸ hdirect.1))
    exact hsync.mem_edges_of_kept hmanager hdisabled ((hsync.mem_edges _).mpr (Or.inr
      ⟨subnet, (hrefresh.hubs subnet).mpr hhub, Or.inr ⟨direct, ⟨hold, hdirect.2⟩, rfl⟩⟩)) hne
      (hplain rfl) (hplain rfl)

/-- An update does what a rebuild would do exactly under the condition. -/
theorem Manager.InSync.agrees_rebuiltWith_iff (hsync : manager.InSync)
    (hmanager : manager.WellFormed)
    (hdisabled : epId ∉ manager.inventory.disabledTopologyEpIds) :
    (manager.updateEndpointPath epId newHops).graph.Agrees (manager.rebuiltWith epId newHops) ↔
      manager.Refreshable epId newHops := by
  refine ⟨hsync.refreshable hmanager hdisabled, fun hrefresh ↦ ?_⟩
  obtain ⟨hwell, hkeys, hedges⟩ :=
    manager.graph_updateEndpointPath newHops hmanager.graph hdisabled
  refine hwell.agrees (wellFormed_buildGraph ..)
    (hrefresh.mem_keys_iff hsync hmanager hdisabled) fun edge ↦ ?_
  rw [mem_edges_rebuiltWith]
  refine ⟨fun hedge ↦ ?_, hrefresh.mem_edges_of_clustered hsync hmanager hdisabled⟩
  obtain ⟨hcase, hsource, htarget⟩ := (hedges edge).mp hedge
  rcases hcase with ⟨hold, hne⟩ | hdrawn
  · exact hrefresh.clustered_newLinks ((hsync.mem_edges edge).mp hold) hne
      ((hkeys _).mp hsource).2 ((hkeys _).mp htarget).2
  · exact Or.inl ⟨hrefresh.drawn edge hdrawn, hrefresh.direct edge hdrawn⟩

end Sufficient

/-! ### Histories of updates -/

/-- The condition on a call. An update of an endpoint without topology discovery is ignored, and
does what a rebuild would do. -/
def Manager.RefreshCondition (manager : Manager) : Call → Prop
  | .updateEndpointPath epId newHops =>
    epId ∈ manager.inventory.disabledTopologyEpIds ∨ manager.Refreshable epId newHops
  | .fullRebuild _ | .updateNodeStatus .. => True

section Histories

variable {manager : Manager}

/-- Rebuilt graphs with the same links agree. -/
theorem agrees_buildGraph (inventory : Inventory) {routes routes' : Dict EndpointId (List Hop)}
    (hlinks : inventory.links routes = inventory.links routes') :
    (buildGraph inventory routes).Agrees (buildGraph inventory routes') := by
  refine (wellFormed_buildGraph ..).agrees (wellFormed_buildGraph ..) (fun id ↦ ?_) fun edge ↦ ?_
  · rw [mem_keys_buildGraph, mem_keys_buildGraph, hlinks]
  · rw [mem_edges_buildGraph, mem_edges_buildGraph, hlinks]

theorem Graph.Agrees.trans {graph other third : Graph} (hfirst : graph.Agrees other)
    (hsecond : other.Agrees third) : graph.Agrees third where
  nodeType_eq id := (hfirst.nodeType_eq id).trans (hsecond.nodeType_eq id)
  mem_edges_iff edge := (hfirst.mem_edges_iff edge).trans (hsecond.mem_edges_iff edge)

theorem Manager.InSync.updateNodeStatus (hsync : manager.InSync) (hmanager : manager.WellFormed)
    (id : NodeId) (newState : String) : (manager.updateNodeStatus id newState).InSync := by
  obtain ⟨hinventory, hroutes⟩ := manager.inventory_updateNodeStatus id newState
  rw [Manager.InSync, hinventory, hroutes]
  refine Graph.Agrees.trans ?_ hsync
  refine (hmanager.updateNodeStatus id newState).graph.agrees hmanager.graph (fun other ↦ ?_)
    fun edge ↦ ?_
  · exact mem_keys_updateNodeStatus ..
  · rw [edges_updateNodeStatus]

/-- An update that does what a rebuild would do leaves a graph in sync. -/
theorem Manager.InSync.updateEndpointPath (hsync : manager.InSync) {epId : EndpointId}
    {newHops : List Hop} (hwell : manager.RefreshesWell (.updateEndpointPath epId newHops)) :
    (manager.updateEndpointPath epId newHops).InSync := by
  by_cases hdisabled : epId ∈ manager.inventory.disabledTopologyEpIds
  · rw [updateEndpointPath_of_mem _ _ hdisabled]
    exact hsync
  · rw [Manager.InSync, inventory_updateEndpointPath,
      baselineRoutes_updateEndpointPath _ _ hdisabled]
    exact Graph.Agrees.trans hwell
      (agrees_buildGraph _ (manager.newLinks_eq epId newHops).symm)

/-- An update of an endpoint without topology discovery does what a rebuild would do. -/
theorem Manager.InSync.refreshesWell_of_disabled (hsync : manager.InSync)
    (hmanager : manager.WellFormed) {epId : EndpointId} (newHops : List Hop)
    (hdisabled : epId ∈ manager.inventory.disabledTopologyEpIds) :
    manager.RefreshesWell (.updateEndpointPath epId newHops) := by
  rw [Manager.RefreshesWell, updateEndpointPath_of_mem _ _ hdisabled]
  refine Graph.Agrees.trans hsync (agrees_buildGraph _ ?_)
  rw [← newLinks_eq]
  exact (manager.newLinks_of_not_mem epId newHops
    (hmanager.inventory.disabled_not_mem epId hdisabled)).symm

/-- Before the first rebuild there is no root, and a rebuild would make one. -/
theorem Manager.not_refreshesWell_empty (epId : EndpointId) (newHops : List Hop) :
    ¬empty.RefreshesWell (.updateEndpointPath epId newHops) := by
  intro hwell
  have hroot := (Graph.Agrees.mem_keys_iff hwell .root).mpr
    ((mem_keys_buildGraph ..).mpr (Or.inl rfl))
  obtain ⟨-, hkeys, -⟩ := empty.graph_updateEndpointPath newHops Graph.wellFormed_empty
    (List.not_mem_nil (a := epId))
  rcases ((hkeys .root).mp hroot).1 with hold | ⟨hhop, -⟩
  · exact List.not_mem_nil hold
  · exact Bool.false_ne_true hhop

/-- Every update of a history does what a rebuild would do exactly when every update meets the
condition. -/
theorem refreshesWell_iff_everyStep (calls : List Call) :
    EveryStep Manager.step Manager.empty calls Manager.RefreshesWell ↔
      EveryStep Manager.step Manager.empty calls Manager.RefreshCondition := by
  refine everyStep_congr
    (fun manager ↦ manager = Manager.empty ∨ manager.WellFormed ∧ manager.InSync) ?_ ?_ (Or.inl rfl)
  · rintro manager call next hphase hwell hnext
    obtain rfl := Option.some.inj hnext
    cases call with
    | fullRebuild tables =>
      exact Or.inr ⟨Manager.wellFormed_fullRebuild tables, agrees_buildGraph _ rfl⟩
    | updateNodeStatus id newState =>
      rcases hphase with rfl | ⟨hmanager, hsync⟩
      · refine Or.inl ((Manager.empty.updateNodeStatus_cases id newState).resolve_right ?_)
        exact fun hcase ↦ List.not_mem_nil hcase.1
      · exact Or.inr ⟨hmanager.updateNodeStatus .., hsync.updateNodeStatus hmanager ..⟩
    | updateEndpointPath epId newHops =>
      rcases hphase with rfl | ⟨hmanager, hsync⟩
      · exact absurd hwell (Manager.not_refreshesWell_empty epId newHops)
      · exact Or.inr ⟨hmanager.updateEndpointPath .., hsync.updateEndpointPath hwell⟩
  · intro manager call hphase
    cases call with
    | fullRebuild tables => exact Iff.rfl
    | updateNodeStatus id newState => exact Iff.rfl
    | updateEndpointPath epId newHops =>
      rcases hphase with rfl | ⟨hmanager, hsync⟩
      · refine iff_of_false (Manager.not_refreshesWell_empty epId newHops) ?_
        rintro (hdisabled | hrefresh)
        · exact List.not_mem_nil hdisabled
        · exact List.not_mem_nil hrefresh.rebuilt
      · by_cases hdisabled : epId ∈ manager.inventory.disabledTopologyEpIds
        · exact iff_of_true (hsync.refreshesWell_of_disabled hmanager newHops hdisabled)
            (Or.inl hdisabled)
        · exact (hsync.agrees_rebuiltWith_iff hmanager hdisabled).trans
            (or_iff_right hdisabled).symm

end Histories

/-! ### A manual parent -/

/-- An endpoint. -/
def endpointRow (id : EndpointId) (ipAddress : String) (manualParentId : Option EndpointId) :
    EndpointRow where
  id := id
  ipAddress := ipAddress
  deviceType := none
  endpointStatus := "ACTIVE"
  allowTopologyDiscovery := true
  manualParentId := manualParentId
  operationalState := none
  detailedState := none

theorem nodup_switchTables : ([1, 2] : List EndpointId).Nodup := by decide

/-- A switch, and an endpoint with the switch as its manual parent. -/
def switchTables : Tables where
  endpoints := [endpointRow 1 "192.0.2.1" none, endpointRow 2 "198.51.100.2" (some 1)]
  baselineRoutes := []
  diagnosticTraces := []
  rcaIncidents := []
  nodup_ids := nodup_switchTables

/-- The rebuild, and an update with a route that has only the endpoint itself. -/
def switchCalls : List Call :=
  [.fullRebuild switchTables, .updateEndpointPath 2 [⟨some 1, some "198.51.100.2", none⟩]]

/-- The update moves the endpoint from the switch to the root. -/
theorem not_refreshesWell_switchCalls :
    ¬EveryStep Manager.step Manager.empty switchCalls Manager.RefreshesWell := by
  intro hsteps
  have hagrees := hsteps [.fullRebuild switchTables] _ [] (Manager.fullRebuild switchTables) rfl rfl
  have hedge := (Graph.Agrees.mem_edges_iff hagrees (.root, .monitored 2)).mp (by decide)
  exact absurd hedge (by decide)

end Lnmp.Topology
