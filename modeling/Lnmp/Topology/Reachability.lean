import Lnmp.Topology.Refresh

/-!
# Reachability

Every monitored endpoint can be reached from the root, after every history of calls. A rebuild
anchors each endpoint at the root or at its manual parent, by a path whose hop nodes are on its own
stored route. An update of another endpoint cuts such a path only where it enters that endpoint,
which is anchored at the root from then on. `Manager.IsAnchored` ranks the endpoints so that each is
anchored at the root or at one of smaller rank.
-/

set_option autoImplicit false
set_option relaxedAutoImplicit false

namespace Lnmp.Topology

open Relation
open Lnmp.Foundation Lnmp.Foundation.Digraph Lnmp.Foundation.IpAddress Lnmp.Foundation.Runs
open Lnmp.Monitoring (EndpointId)

/-! ### Statements -/

/-- The manual parents of the endpoints that are not deleted. -/
def Tables.manualParents (tables : Tables) : List (EndpointId × EndpointId) :=
  tables.epRows.filterMap fun row ↦ row.manualParentId.map (·, row.id)

/-- The edges of the graph. -/
def Graph.Edge (graph : Graph) (source target : NodeId) : Prop := (source, target) ∈ graph.edges

/-- Every monitored node can be reached from the root, and every edge joins existing nodes. -/
structure Manager.IsConnected (manager : Manager) : Prop where
  reachable : ∀ id node, manager.graph.nodes.get? id = some node → node.nodeType = .monitored →
    ReflTransGen manager.graph.Edge .root id
  edges_mem : ∀ source target, manager.graph.Edge source target →
    source ∈ manager.graph.nodes.keys ∧ target ∈ manager.graph.nodes.keys

/-! ### Anchors -/

/-- A node that is no hop, or a hop of the route of an endpoint. -/
def Manager.IsOwn (manager : Manager) (epId : EndpointId) (id : NodeId) : Prop :=
  id.isHop = true → id ∈ hopNodes manager.inventory.monitoredByIp epId none
    (Inventory.cleanHops manager.baselineRoutes epId)

/-- An edge between own nodes of an endpoint. -/
def Manager.OwnEdge (manager : Manager) (epId : EndpointId) (source target : NodeId) : Prop :=
  manager.graph.Edge source target ∧ manager.IsOwn epId source ∧ manager.IsOwn epId target

/-- A node at which an endpoint may be anchored: the root, or an endpoint of smaller rank. -/
def Manager.IsAnchor (manager : Manager) (rank : EndpointId → ℕ) (epId : EndpointId)
    (id : NodeId) : Prop :=
  id = .root ∨ ∃ other ∈ manager.inventory.monitoredById.keys, id = .monitored other ∧
    rank other < rank epId

/-- The endpoints are anchored, the edges join nodes, and there is a root where it is needed. -/
structure Manager.IsAnchored (manager : Manager) (rank : EndpointId → ℕ) : Prop where
  wellFormed : manager.WellFormed
  root_mem : ∀ epId ∈ manager.inventory.monitoredById.keys, .root ∈ manager.graph.nodes.keys
  edges_mem : ∀ source target, manager.graph.Edge source target →
    source ∈ manager.graph.nodes.keys ∧ target ∈ manager.graph.nodes.keys
  exists_anchor : ∀ epId ∈ manager.inventory.monitoredById.keys,
    ∃ anchor, manager.IsAnchor rank epId anchor ∧
      ReflTransGen (manager.OwnEdge epId) anchor (.monitored epId)

section Anchors

variable {manager : Manager} {rank : EndpointId → ℕ} {epId : EndpointId}

theorem Manager.isOwn_of_isHop_eq_false (manager : Manager) (epId : EndpointId) {id : NodeId}
    (hhop : id.isHop = false) : manager.IsOwn epId id :=
  fun hishop ↦ absurd (hhop.symm.trans hishop) Bool.false_ne_true

/-- Endpoints that are anchored can be reached, by induction on their rank. -/
theorem Manager.IsAnchored.isConnected (hanchored : manager.IsAnchored rank) :
    manager.IsConnected := by
  have hreach : ∀ (bound : ℕ) (epId : EndpointId), rank epId < bound →
      epId ∈ manager.inventory.monitoredById.keys →
        ReflTransGen manager.graph.Edge .root (.monitored epId) := by
    intro bound
    induction bound with
    | zero => exact fun _ hrank ↦ absurd hrank (Nat.not_lt_zero _)
    | succ bound ih =>
      intro epId hrank hepId
      obtain ⟨anchor, hanchor, hpath⟩ := hanchored.exists_anchor epId hepId
      have hpath' := ReflTransGen.mono (fun _ _ hedge ↦ hedge.1) _ _ hpath
      rcases hanchor with rfl | ⟨other, hother, rfl, hless⟩
      · exact hpath'
      · exact (ih other (hless.trans_le (Nat.lt_succ_iff.mp hrank)) hother).trans hpath'
  refine ⟨fun id node hget htype ↦ ?_, hanchored.edges_mem⟩
  rw [hanchored.wellFormed.graph.nodeType_eq id node hget] at htype
  cases id with
  | monitored epId =>
    exact hreach (rank epId + 1) epId (Nat.lt_succ_self _)
      ((hanchored.wellFormed.hasNodes epId).mp (Dict.mem_keys_of_get? hget))
  | root => exact NodeType.noConfusion htype
  | transit hopIp => exact NodeType.noConfusion htype
  | anonymous previousHopIp shortId => exact NodeType.noConfusion htype
  | subnetHub subnet => exact NodeType.noConfusion htype

/-! ### Rebuilds -/

/-- What the manager has of an endpoint comes from a row that is not deleted. -/
theorem Tables.exists_row (tables : Tables) {epData : MonitoredEndpoint}
    (hget : tables.inventory.monitoredById.get? epId = some epData) :
    ∃ row ∈ tables.epRows, row.id = epId ∧ row.monitored = epData := by
  refine tables.exists_origin (fun inventory ↦ inventory.monitoredById.get? epId = some epData)
    (fun inventory hids _ hstart ↦ ?_) (fun inventory row hadded ↦ ?_) hget
  · rw [hids] at hstart
    exact absurd hstart.symm (Option.some_ne_none epData)
  · unfold Inventory.addRow at hadded
    split at hadded
    · rw [Dict.get?_set] at hadded
      split at hadded
      · rename_i hsame
        exact Or.inr ⟨hsame.symm, Option.some.inj hadded⟩
      · exact Or.inl hadded
    · exact Or.inl hadded

/-- A usable parent is a manual parent. -/
theorem Tables.mem_manualParents (tables : Tables) {epData : MonitoredEndpoint}
    (hget : tables.inventory.monitoredById.get? epId = some epData) {manualParent : EndpointId}
    (hparent : tables.inventory.usableParent epData = some manualParent) :
    (manualParent, epId) ∈ tables.manualParents := by
  obtain ⟨row, hrow, rfl, rfl⟩ := tables.exists_row hget
  refine List.mem_filterMap.mpr ⟨row, hrow, ?_⟩
  have hmanual : row.manualParentId = some manualParent :=
    (Option.filter_eq_some_iff.mp hparent).1
  rw [hmanual, Option.map_some]

/-- A link is an edge of the rebuilt graph, or leads through a hub. -/
theorem reflTransGen_of_mem_links {tables : Tables} {source target : NodeId}
    (hlink : (source, target) ∈ tables.inventory.links tables.routes)
    (hsource : (Manager.fullRebuild tables).IsOwn epId source)
    (htarget : (Manager.fullRebuild tables).IsOwn epId target) :
    ReflTransGen ((Manager.fullRebuild tables).OwnEdge epId) source target := by
  by_cases hmoved : tables.inventory.IsMoved (tables.inventory.links tables.routes) (source, target)
  · obtain ⟨direct, subnet, hsame, hsubnet, hhub⟩ := hmoved
    obtain ⟨rfl, rfl⟩ := Prod.mk.inj hsame
    have hfirst : (Manager.fullRebuild tables).graph.Edge .root (.subnetHub subnet) :=
      (mem_edges_buildGraph ..).mpr (Or.inr ⟨subnet, hhub, Or.inl rfl⟩)
    have hsecond : (Manager.fullRebuild tables).graph.Edge (.subnetHub subnet)
        (.monitored direct) := (mem_edges_buildGraph ..).mpr
      (Or.inr ⟨subnet, hhub, Or.inr ⟨direct, ⟨hlink, hsubnet⟩, rfl⟩⟩)
    have hown : (Manager.fullRebuild tables).IsOwn epId (.subnetHub subnet) :=
      Manager.isOwn_of_isHop_eq_false _ _ rfl
    exact (ReflTransGen.single ⟨hfirst, hsource, hown⟩).tail ⟨hsecond, hown, htarget⟩
  · exact ReflTransGen.single
      ⟨(mem_edges_buildGraph ..).mpr (Or.inl ⟨hlink, hmoved⟩), hsource, htarget⟩

/-- The nodes on the way to an endpoint are its own. -/
theorem Manager.WellFormed.isOwn_of_mem_routePath (hmanager : manager.WellFormed)
    (hepId : epId ∈ manager.inventory.monitoredById.keys) {id : NodeId}
    (hid : id ∈ routePath manager.inventory.monitoredByIp epId
      (Inventory.cleanHops manager.baselineRoutes epId)) : manager.IsOwn epId id := by
  rcases hmanager.inventory.of_mem_routePath hepId hid with ⟨_, -, rfl⟩ | ⟨-, hmem⟩
  · exact Manager.isOwn_of_isHop_eq_false _ _ rfl
  · exact fun _ ↦ hmem

/-- A rebuild anchors the endpoints when no endpoint is its own manual ancestor. -/
theorem Manager.isAnchored_fullRebuild {tables : Tables}
    (hrank : ∀ parent child, (parent, child) ∈ tables.manualParents → rank parent < rank child) :
    (fullRebuild tables).IsAnchored rank := by
  have hmanager := wellFormed_fullRebuild tables
  have hsync : (fullRebuild tables).InSync := agrees_buildGraph _ rfl
  refine ⟨hmanager, fun _ _ ↦ (mem_keys_buildGraph ..).mpr (Or.inl rfl),
    fun source target hedge ↦ hsync.ends_mem_keys hmanager hedge, fun epId hepId ↦ ?_⟩
  obtain ⟨epData, hget⟩ := (Dict.mem_keys_iff_exists _ _).mp hepId
  have hlinks : ∀ {link}, link ∈ tables.inventory.entryLinks tables.routes (epId, epData) →
      link ∈ tables.inventory.links tables.routes := fun hentry ↦
    (Inventory.mem_links_iff ..).mpr ⟨epId, epData, hget, hentry⟩
  cases hparent : tables.inventory.usableParent epData with
  | some manualParent =>
    have hmonitored : manualParent ∈ tables.inventory.monitoredById.keys :=
      of_decide_eq_true (Option.filter_eq_some_iff.mp hparent).2
    refine ⟨.monitored manualParent, Or.inr ⟨manualParent, hmonitored, rfl,
      hrank _ _ (tables.mem_manualParents hget hparent)⟩, ?_⟩
    exact reflTransGen_of_mem_links (hlinks ((Inventory.mem_entryLinks_iff ..).mpr
      (Or.inl ⟨manualParent, hparent, rfl⟩))) (isOwn_of_isHop_eq_false _ _ rfl)
      (isOwn_of_isHop_eq_false _ _ rfl)
  | none =>
    refine ⟨.root, Or.inl rfl, ?_⟩
    have hpath : NodeId.monitored epId ∈ routePath tables.inventory.monitoredByIp epId
        (Inventory.cleanHops tables.routes epId) :=
      List.mem_append_right _ (List.mem_singleton.mpr rfl)
    -- Each link of the path is an edge, or leads through a hub.
    have hstep : ∀ source target, (source, target) ∈ steps .root
        (routePath tables.inventory.monitoredByIp epId (Inventory.cleanHops tables.routes epId)) →
          ReflTransGen ((fullRebuild tables).OwnEdge epId) source target := by
      intro source target hlink
      obtain ⟨hsource, htarget, -⟩ := of_mem_steps hlink
      refine reflTransGen_of_mem_links (hlinks ((Inventory.mem_entryLinks_iff ..).mpr
        (Or.inr ⟨hparent, hlink⟩))) ?_ (hmanager.isOwn_of_mem_routePath hepId htarget)
      rcases hsource with rfl | hsource
      · exact isOwn_of_isHop_eq_false _ _ rfl
      · exact hmanager.isOwn_of_mem_routePath hepId hsource
    exact reflTransGen_closed hstep _ _ (reflTransGen_steps hpath)

/-! ### Updates -/

/-- The ranks after an update: the endpoint is anchored at the root. -/
def rankAfter (rank : EndpointId → ℕ) (epId other : EndpointId) : ℕ :=
  if other = epId then 0 else rank other + 1

/-- An own edge of another endpoint that does not enter the updated one stays. -/
theorem Manager.IsAnchored.ownEdge_updateEndpointPath (hanchored : manager.IsAnchored rank)
    (hdisabled : epId ∉ manager.inventory.disabledTopologyEpIds) (newHops : List Hop)
    {other : EndpointId} (hother : other ≠ epId) {source target : NodeId}
    (hedge : manager.OwnEdge other source target ∧ target ≠ .monitored epId) :
    (manager.updateEndpointPath epId newHops).OwnEdge other source target := by
  obtain ⟨⟨hstored, hsource, htarget⟩, hne⟩ := hedge
  obtain ⟨-, hkeys, hedges⟩ :=
    manager.graph_updateEndpointPath newHops hanchored.wellFormed.graph hdisabled
  obtain ⟨hsource', htarget'⟩ := hanchored.edges_mem source target hstored
  have hclean : Inventory.cleanHops (manager.updatedRoutes epId newHops) other =
      Inventory.cleanHops manager.baselineRoutes other := by
    rw [cleanHops_updatedRoutes, if_neg hother]
  have hown : ∀ {id}, manager.IsOwn other id →
      (manager.updateEndpointPath epId newHops).IsOwn other id := by
    intro id hid
    rw [IsOwn, inventory_updateEndpointPath, baselineRoutes_updateEndpointPath _ _ hdisabled,
      hclean]
    exact hid
  have hkept : ∀ {id}, manager.IsOwn other id →
      manager.inventory.IsKept (manager.updatedRoutes epId newHops) id := by
    intro id hid hhop
    have hmem := hid hhop
    rw [← hclean] at hmem
    exact Inventory.isActive_of_mem_hopNodes hmem
  exact ⟨(hedges _).mpr ⟨Or.inl ⟨hstored, hne⟩, (hkeys _).mpr ⟨Or.inl hsource', hkept hsource⟩,
    (hkeys _).mpr ⟨Or.inl htarget', hkept htarget⟩⟩, hown hsource, hown htarget⟩

/-- The updated endpoint is anchored at the root. -/
theorem Manager.IsAnchored.reflTransGen_updated (hanchored : manager.IsAnchored rank)
    (hdisabled : epId ∉ manager.inventory.disabledTopologyEpIds) (newHops : List Hop)
    (hepId : epId ∈ manager.inventory.monitoredById.keys) :
    ReflTransGen ((manager.updateEndpointPath epId newHops).OwnEdge epId) .root
      (.monitored epId) := by
  have hmanager := hanchored.wellFormed
  have hpath : manager.updatedPath epId newHops = routePath manager.inventory.monitoredByIp epId
      (sanitizeTracerouteHops newHops none) := by
    rw [updatedPath, if_pos ((hmanager.hasNodes epId).mpr hepId), routePath]
  have hown : ∀ id, id = .root ∨ id ∈ manager.updatedPath epId newHops →
      (manager.updateEndpointPath epId newHops).IsOwn epId id := by
    rintro id (rfl | hid)
    · exact isOwn_of_isHop_eq_false _ _ rfl
    · refine (hmanager.updateEndpointPath epId newHops).isOwn_of_mem_routePath ?_ ?_
      · rw [inventory_updateEndpointPath]
        exact hepId
      · rw [inventory_updateEndpointPath, baselineRoutes_updateEndpointPath _ _ hdisabled,
          cleanHops_updatedRoutes, if_pos rfl, ← hpath]
        exact hid
  have hlast : NodeId.monitored epId ∈ manager.updatedPath epId newHops := by
    rw [hpath]
    exact List.mem_append_right _ (List.mem_singleton.mpr rfl)
  refine ReflTransGen.mono (fun source target hlink ↦ ?_) _ _ (reflTransGen_steps hlast)
  obtain ⟨hsource, htarget, -⟩ := of_mem_steps hlink
  exact ⟨hmanager.mem_edges_of_drawn hdisabled (hanchored.root_mem epId hepId) hlink,
    hown source hsource, hown target (Or.inr htarget)⟩

/-- An update keeps the endpoints anchored. -/
theorem Manager.IsAnchored.updateEndpointPath (hanchored : manager.IsAnchored rank)
    (hdisabled : epId ∉ manager.inventory.disabledTopologyEpIds) (newHops : List Hop) :
    (manager.updateEndpointPath epId newHops).IsAnchored (rankAfter rank epId) := by
  have hmanager := hanchored.wellFormed
  obtain ⟨-, hkeys, hedges⟩ := manager.graph_updateEndpointPath newHops hmanager.graph hdisabled
  refine ⟨hmanager.updateEndpointPath epId newHops, fun other hother ↦ ?_,
    fun source target hedge ↦ ((hedges _).mp hedge).2, fun other hother ↦ ?_⟩
  · rw [inventory_updateEndpointPath] at hother
    exact (hkeys _).mpr ⟨Or.inl (hanchored.root_mem other hother),
      fun hhop ↦ absurd hhop Bool.false_ne_true⟩
  · rw [inventory_updateEndpointPath] at hother
    by_cases hsame : other = epId
    · subst hsame
      exact ⟨.root, Or.inl rfl, hanchored.reflTransGen_updated hdisabled newHops hother⟩
    · obtain ⟨anchor, hanchor, hpath⟩ := hanchored.exists_anchor other hother
      have hrank : rankAfter rank epId other = rank other + 1 := if_neg hsame
      have hstays : ∀ source target, manager.OwnEdge other source target ∧
          target ≠ .monitored epId →
            (manager.updateEndpointPath epId newHops).OwnEdge other source target :=
        fun _ _ ↦ hanchored.ownEdge_updateEndpointPath hdisabled newHops hsame
      rcases reflTransGen_cut (.monitored epId) hpath with hwhole | hrest
      · refine ⟨anchor, hanchor.imp_right ?_, ReflTransGen.mono hstays _ _ hwhole⟩
        rintro ⟨third, hthird, hanchor', hless⟩
        refine ⟨third, ?_, hanchor', ?_⟩
        · rwa [inventory_updateEndpointPath]
        · rw [hrank, rankAfter]
          split <;> omega
      · -- The path is cut where it enters the updated endpoint, which is the new anchor.
        refine ⟨.monitored epId, Or.inr ⟨epId, ?_, rfl, ?_⟩, ReflTransGen.mono hstays _ _ hrest⟩
        · rw [inventory_updateEndpointPath, ← hmanager.hasNodes]
          rcases hrest.cases_head with hend | ⟨next, hfirst, -⟩
          · exact absurd (NodeId.monitored.inj hend).symm hsame
          · exact (hanchored.edges_mem _ _ hfirst.1.1).1
        · rw [hrank, rankAfter, if_pos rfl]
          exact Nat.succ_pos _

/-- An update of a status keeps the endpoints anchored. -/
theorem Manager.IsAnchored.updateNodeStatus (hanchored : manager.IsAnchored rank) (id : NodeId)
    (newState : String) : (manager.updateNodeStatus id newState).IsAnchored rank := by
  obtain ⟨hinventory, hroutes⟩ := manager.inventory_updateNodeStatus id newState
  have hedge : (manager.updateNodeStatus id newState).graph.Edge = manager.graph.Edge := by
    funext source target
    rw [Graph.Edge, edges_updateNodeStatus, Graph.Edge]
  have hown : ∀ epId, (manager.updateNodeStatus id newState).OwnEdge epId =
      manager.OwnEdge epId := by
    intro epId
    funext source target
    rw [OwnEdge, OwnEdge, hedge, IsOwn, IsOwn, IsOwn, IsOwn, hinventory, hroutes]
  refine ⟨hanchored.wellFormed.updateNodeStatus id newState, ?_, ?_, ?_⟩
  · rw [hinventory]
    intro epId hepId
    rw [mem_keys_updateNodeStatus]
    exact hanchored.root_mem epId hepId
  · rw [hedge]
    intro source target hsource
    rw [mem_keys_updateNodeStatus, mem_keys_updateNodeStatus]
    exact hanchored.edges_mem source target hsource
  · rw [hinventory]
    intro epId hepId
    simp only [hown, IsAnchor, hinventory]
    exact hanchored.exists_anchor epId hepId

end Anchors

/-! ### Histories -/

/-- After every history of calls every monitored endpoint can be reached from the root, when the
manual parents of each rebuild have no cycle. -/
theorem isConnected_of_acyclic (calls : List Call)
    (hacyclic : ∀ tables, Call.fullRebuild tables ∈ calls →
      Acyclic fun parent child ↦ (parent, child) ∈ tables.manualParents) :
    EveryState Manager.step Manager.empty calls Manager.IsConnected := by
  suffices hanchored : EveryState Manager.step Manager.empty calls
      fun manager ↦ ∃ rank, manager.IsAnchored rank by
    rintro before after manager hsplit hrun
    obtain ⟨rank, hrank⟩ := hanchored before after manager hsplit hrun
    exact hrank.isConnected
  have hsteps : EveryStep Manager.step Manager.empty calls fun _ call ↦
      ∀ tables, call = .fullRebuild tables →
        Acyclic fun parent child ↦ (parent, child) ∈ tables.manualParents :=
    everyStep_of_forall_mem fun call hcall tables hsame ↦ hacyclic tables (hsame ▸ hcall)
  refine everyState_of_everyStep _ ?_ ?_ hsteps
  · rintro manager call next ⟨rank, hanchored⟩ hcall hnext
    obtain rfl := Option.some.inj hnext
    cases call with
    | fullRebuild tables =>
      obtain ⟨rank', hrank⟩ := (acyclic_iff_exists_rank _).mp (hcall tables rfl)
      exact ⟨rank', Manager.isAnchored_fullRebuild hrank⟩
    | updateNodeStatus id newState => exact ⟨rank, hanchored.updateNodeStatus id newState⟩
    | updateEndpointPath epId newHops =>
      by_cases hdisabled : epId ∈ manager.inventory.disabledTopologyEpIds
      · refine ⟨rank, ?_⟩
        rw [Manager.apply, Manager.updateEndpointPath_of_mem _ _ hdisabled]
        exact hanchored
      · exact ⟨_, hanchored.updateEndpointPath hdisabled newHops⟩
  · refine ⟨fun _ ↦ 0, Manager.wellFormed_empty, fun _ hepId ↦ absurd hepId List.not_mem_nil,
      fun _ _ hedge ↦ absurd hedge List.not_mem_nil, fun _ hepId ↦ absurd hepId List.not_mem_nil⟩

/-- The update of the endpoint with a manual parent. -/
theorem isConnected_switchCalls :
    EveryState Manager.step Manager.empty switchCalls Manager.IsConnected := by
  refine isConnected_of_acyclic switchCalls fun tables hmem ↦ ?_
  obtain rfl : tables = switchTables := by
    rcases List.mem_cons.mp hmem with hsame | hlater
    · exact Call.fullRebuild.inj hsame
    · exact absurd (List.mem_singleton.mp hlater) Call.noConfusion
  refine (acyclic_iff_exists_rank _).mpr ⟨BitVec.toNat, fun parent child hparent ↦ ?_⟩
  have hpair : (parent, child) = (1, 2) := List.mem_singleton.mp hparent
  obtain ⟨rfl, rfl⟩ := Prod.mk.inj hpair
  decide

end Lnmp.Topology
