import Lnmp.Topology.Reachability

/-!
# Cycles

The edges of a rebuilt graph have no cycle exactly when the hop addresses and the endpoints can be
ordered so that every route that is drawn and every manual parent runs along the order
(`acyclic_fullRebuild_iff`). Two routes through the same two hops in opposite directions make a
cycle, though neither of them repeats a hop.
-/

set_option autoImplicit false
set_option relaxedAutoImplicit false

namespace Lnmp.Topology

open Relation
open Lnmp.Foundation Lnmp.Foundation.Digraph Lnmp.Foundation.IpAddress
open Lnmp.Monitoring (EndpointId)

/-! ### Orders of routes -/

/-- The node of a hop address. -/
def addressNode (monitoredByIp : Dict String EndpointId) (hopIp : String) : NodeId :=
  match monitoredByIp.get? hopIp with
  | some hopEpId => .monitored hopEpId
  | none => .transit hopIp

/-- The hop addresses of a route and the endpoint that it leads to, as nodes. -/
def stations (monitoredByIp : Dict String EndpointId) (epId : EndpointId)
    (hopIps : List String) : List NodeId :=
  hopIps.map (addressNode monitoredByIp) ++ [.monitored epId]

/-- The addresses on the route of an endpoint. -/
def routeIps (routes : Dict EndpointId (List Hop)) (epId : EndpointId) : List String :=
  ((routes.get? epId).getD []).filterMap Hop.ip

/-- An endpoint comes behind its manual parent, or its route runs along the order. -/
def Inventory.Follows (inventory : Inventory) (routes : Dict EndpointId (List Hop))
    (order : NodeId → ℕ) (epId : EndpointId) (epData : MonitoredEndpoint) : Prop :=
  match inventory.usableParent epData with
  | some manualParent => order (.monitored manualParent) < order (.monitored epId)
  | none =>
    (stations inventory.monitoredByIp epId (routeIps routes epId)).IsChain
      fun first second ↦ first ≠ second → order first < order second

/-- There is an order along which all routes and manual parents run. -/
def Tables.IsOrdered (tables : Tables) : Prop :=
  ∃ order : NodeId → ℕ, ∀ epId epData, tables.inventory.monitoredById.get? epId = some epData →
    tables.inventory.Follows tables.routes order epId epData

/-- No route repeats a hop address. -/
def Tables.RoutesSimple (tables : Tables) : Prop := ∀ epId, (routeIps tables.routes epId).Nodup

/-! ### Clean hops -/

/-- No two consecutive hops are anonymous, and the last one is not, behind a hop that was anonymous
or not. -/
def IsClean : Bool → List Hop → Prop
  | prevWasNull, [] => prevWasNull = false
  | prevWasNull, h :: rest => (h.isNull = true → prevWasNull = false) ∧ IsClean h.isNull rest

theorem isClean_collapseHops {prevWasNull : Bool} {hops : List Hop}
    (hnil : hops = [] → prevWasNull = false)
    (hlast : ∀ h, hops.getLast? = some h → h.isNull = false) :
    IsClean prevWasNull (collapseHops prevWasNull hops) := by
  induction hops generalizing prevWasNull with
  | nil => exact hnil rfl
  | cons h rest ih =>
    have hrest : rest ≠ [] → ∀ last, rest.getLast? = some last → last.isNull = false := by
      intro hne last hget
      refine hlast last ?_
      rw [List.getLast?_cons_of_ne_nil hne]
      exact hget
    have hrest' : ∀ last, rest.getLast? = some last → last.isNull = false := by
      intro last hget
      refine hrest ?_ last hget
      rintro rfl
      exact absurd hget.symm (Option.some_ne_none last)
    cases hnull : h.isNull with
    | true =>
      have hne : rest ≠ [] := by
        rintro rfl
        exact Bool.false_ne_true ((hlast h rfl).symm.trans hnull)
      cases prevWasNull with
      | true =>
        rw [collapseHops, if_pos hnull, if_pos rfl]
        exact ih (fun hempty ↦ absurd hempty hne) hrest'
      | false =>
        rw [collapseHops, if_pos hnull, if_neg Bool.false_ne_true]
        exact ⟨fun _ ↦ rfl, ih (fun hempty ↦ absurd hempty hne) hrest'⟩
    | false =>
      rw [collapseHops, if_neg (by rw [hnull]; exact Bool.false_ne_true)]
      refine ⟨fun htrue ↦ absurd (hnull.symm.trans htrue) Bool.false_ne_true, ?_⟩
      rw [hnull]
      exact ih (fun _ ↦ rfl) hrest'

theorem isClean_sanitizeTracerouteHops (hops : List Hop) :
    IsClean false (sanitizeTracerouteHops hops none) := by
  rw [sanitizeTracerouteHops_none]
  refine isClean_collapseHops (fun _ ↦ rfl) fun h hget ↦ ?_
  have hne : hops.rdropWhile Hop.isNull ≠ [] := by
    intro hempty
    rw [hempty] at hget
    exact absurd hget.symm (Option.some_ne_none h)
  have hlast := List.rdropWhile_last_not Hop.isNull hops hne
  rw [List.getLast?_eq_some_getLast hne, Option.some_inj] at hget
  rw [← hget]
  exact Bool.eq_false_of_not_eq_true hlast

/-! ### Walking along the order -/

section Walk

variable {monitoredByIp : Dict String EndpointId} {epId : EndpointId}

/-- The node at which a walk stands behind a hop address, on an anonymous hop or not. -/
def standingNode (monitoredByIp : Dict String EndpointId) (epId : EndpointId) :
    Bool → Option String → NodeId
  | true, previousHopIp => .anonymous previousHopIp (shortId epId)
  | false, some hopIp => addressNode monitoredByIp hopIp
  | false, none => .root

theorem addressNode_cases (monitoredByIp : Dict String EndpointId) (hopIp : String) :
    (∃ hopEpId, monitoredByIp.get? hopIp = some hopEpId ∧
      addressNode monitoredByIp hopIp = .monitored hopEpId) ∨
    monitoredByIp.get? hopIp = none ∧ addressNode monitoredByIp hopIp = .transit hopIp := by
  unfold addressNode
  cases monitoredByIp.get? hopIp with
  | some hopEpId => exact Or.inl ⟨hopEpId, rfl, rfl⟩
  | none => exact Or.inr ⟨rfl, rfl⟩

theorem addressNode_ne_root (monitoredByIp : Dict String EndpointId) (hopIp : String) :
    addressNode monitoredByIp hopIp ≠ .root := by
  intro hsame
  rcases addressNode_cases monitoredByIp hopIp with ⟨_, -, hnode⟩ | ⟨-, hnode⟩ <;>
    exact NodeId.noConfusion (hnode.symm.trans hsame)

theorem addressNode_ne_anonymous (monitoredByIp : Dict String EndpointId) (hopIp : String)
    (previousHopIp : Option String) (shortId : BitVec 32) :
    addressNode monitoredByIp hopIp ≠ .anonymous previousHopIp shortId := by
  intro hsame
  rcases addressNode_cases monitoredByIp hopIp with ⟨_, -, hnode⟩ | ⟨-, hnode⟩ <;>
    exact NodeId.noConfusion (hnode.symm.trans hsame)

/-- Behind a hop address no walk stands on the root. -/
theorem standingNode_ne_root (monitoredByIp : Dict String EndpointId) (epId : EndpointId)
    (prevWasNull : Bool) (hopIp : String) :
    standingNode monitoredByIp epId prevWasNull (some hopIp) ≠ .root := by
  cases prevWasNull with
  | true => exact NodeId.noConfusion
  | false => exact addressNode_ne_root monitoredByIp hopIp

/-- A null hop leads to the anonymous node behind the last address. -/
theorem hopNodes_cons_of_isNull {previousHopIp : Option String} {h : Hop} {rest : List Hop}
    (hnull : h.ip = none) :
    hopNodes monitoredByIp epId previousHopIp (h :: rest) =
      standingNode monitoredByIp epId true previousHopIp ::
        hopNodes monitoredByIp epId previousHopIp rest := by
  rw [hopNodes, hopNode, hnull]
  rfl

/-- A hop with an address leads to the node of the address. -/
theorem hopNodes_cons_of_ip {previousHopIp : Option String} {h : Hop} {rest : List Hop}
    {hopIp : String} (hip : h.ip = some hopIp) :
    hopNodes monitoredByIp epId previousHopIp (h :: rest) =
      standingNode monitoredByIp epId false (some hopIp) ::
        hopNodes monitoredByIp epId (some hopIp) rest := by
  rw [hopNodes, hopNode, hip]
  rfl

/-- The rank of the last address: twice its place in the order, above the root and the hubs. -/
def tagRank (monitoredByIp : Dict String EndpointId) (order : NodeId → ℕ) : Option String → ℕ
  | none => 0
  | some hopIp => 2 * order (addressNode monitoredByIp hopIp) + 2

/-- The rank of a node. An anonymous node comes right behind the last address. -/
def nodeRank (monitoredByIp : Dict String EndpointId) (order : NodeId → ℕ) : NodeId → ℕ
  | .root => 0
  | .subnetHub _ => 1
  | .anonymous previousHopIp _ => tagRank monitoredByIp order previousHopIp + 1
  | .monitored id => 2 * order (.monitored id) + 2
  | .transit hopIp => 2 * order (.transit hopIp) + 2

theorem nodeRank_addressNode (monitoredByIp : Dict String EndpointId) (order : NodeId → ℕ)
    (hopIp : String) :
    nodeRank monitoredByIp order (addressNode monitoredByIp hopIp) =
      2 * order (addressNode monitoredByIp hopIp) + 2 := by
  rcases addressNode_cases monitoredByIp hopIp with ⟨_, -, hnode⟩ | ⟨-, hnode⟩ <;>
    rw [hnode, nodeRank]

theorem nodeRank_standingNode (monitoredByIp : Dict String EndpointId) (epId : EndpointId)
    (order : NodeId → ℕ) (prevWasNull : Bool) (previousHopIp : Option String) :
    nodeRank monitoredByIp order (standingNode monitoredByIp epId prevWasNull previousHopIp) =
      tagRank monitoredByIp order previousHopIp + prevWasNull.toNat := by
  cases prevWasNull with
  | true => rfl
  | false =>
    cases previousHopIp with
    | none => rfl
    | some hopIp => exact nodeRank_addressNode ..

/-- The rank rises from the last address to the endpoint at the end of its route. -/
theorem nodeRank_lt_monitored {order : NodeId → ℕ} {previousHopIp : Option String}
    (hchain : (stations monitoredByIp epId previousHopIp.toList).IsChain
      fun first second ↦ first ≠ second → order first < order second)
    (hne : standingNode monitoredByIp epId false previousHopIp ≠ .monitored epId) :
    nodeRank monitoredByIp order (standingNode monitoredByIp epId false previousHopIp) <
      nodeRank monitoredByIp order (.monitored epId) := by
  rw [nodeRank_standingNode, nodeRank]
  cases previousHopIp with
  | none => simp [tagRank]
  | some hopIp =>
    have hless := (List.isChain_cons_cons.mp hchain).1 hne
    simp only [tagRank, Bool.toNat_false]
    omega

/-- The rank rises from the last address to the next one: the addresses differ, and so do their
nodes. -/
theorem nodeRank_lt_addressNode {order : NodeId → ℕ}
    (hinjective : Function.Injective (addressNode monitoredByIp)) {previousHopIp : Option String}
    {hopIp : String} {hopIps : List String}
    (hnodup : (previousHopIp.toList ++ hopIp :: hopIps).Nodup)
    (hchain : (stations monitoredByIp epId (previousHopIp.toList ++ hopIp :: hopIps)).IsChain
      fun first second ↦ first ≠ second → order first < order second) (prevWasNull : Bool) :
    nodeRank monitoredByIp order (standingNode monitoredByIp epId prevWasNull previousHopIp) <
      nodeRank monitoredByIp order (standingNode monitoredByIp epId false (some hopIp)) := by
  rw [nodeRank_standingNode, nodeRank_standingNode]
  have hflag := Bool.toNat_le prevWasNull
  cases previousHopIp with
  | none =>
    simp only [tagRank]
    omega
  | some previous =>
    have hne : addressNode monitoredByIp previous ≠ addressNode monitoredByIp hopIp := fun hsame ↦
      (List.nodup_cons.mp hnodup).1 (hinjective hsame ▸ List.mem_cons_self ..)
    have hless := (List.isChain_cons_cons.mp hchain).1 hne
    simp only [tagRank]
    omega

/-- The stations behind the last address. -/
theorem isChain_stations_of_append {relation : NodeId → NodeId → Prop}
    {previousHopIp : Option String} {hopIp : String} {hopIps : List String}
    (hchain : (stations monitoredByIp epId (previousHopIp.toList ++ hopIp :: hopIps)).IsChain
      relation) : (stations monitoredByIp epId (hopIp :: hopIps)).IsChain relation := by
  cases previousHopIp with
  | none => exact hchain
  | some previous => exact (List.isChain_cons_cons.mp hchain).2

/-- Along a route that runs along the order the rank rises. -/
theorem nodeRank_lt_of_mem_steps {order : NodeId → ℕ}
    (hinjective : Function.Injective (addressNode monitoredByIp)) {hops : List Hop}
    {prevWasNull : Bool} {previousHopIp : Option String} (hclean : IsClean prevWasNull hops)
    (hnodup : (previousHopIp.toList ++ hops.filterMap Hop.ip).Nodup)
    (hchain : (stations monitoredByIp epId
      (previousHopIp.toList ++ hops.filterMap Hop.ip)).IsChain
        fun first second ↦ first ≠ second → order first < order second)
    {source target : NodeId}
    (hlink : (source, target) ∈ steps (standingNode monitoredByIp epId prevWasNull previousHopIp)
      (hopNodes monitoredByIp epId previousHopIp hops ++ [.monitored epId])) :
    nodeRank monitoredByIp order source < nodeRank monitoredByIp order target := by
  induction hops generalizing prevWasNull previousHopIp with
  | nil =>
    obtain rfl : prevWasNull = false := hclean
    rcases mem_steps_cons.mp hlink with ⟨hsame, hne⟩ | hnil
    · obtain ⟨rfl, rfl⟩ := Prod.mk.inj hsame
      rw [List.filterMap_nil, List.append_nil] at hchain
      exact nodeRank_lt_monitored hchain hne
    · exact absurd hnil List.not_mem_nil
  | cons h rest ih =>
    obtain ⟨halternate, hrest⟩ := hclean
    cases hip : h.ip with
    | none =>
      have hnull : h.isNull = true := by rw [Hop.isNull, hip, Option.isNone_none]
      obtain rfl := halternate hnull
      rw [List.filterMap_cons_none hip] at hnodup hchain
      rw [hopNodes_cons_of_isNull hip, List.cons_append] at hlink
      rw [hnull] at hrest
      rcases mem_steps_cons.mp hlink with ⟨hsame, -⟩ | hlater
      · obtain ⟨rfl, rfl⟩ := Prod.mk.inj hsame
        rw [nodeRank_standingNode, nodeRank_standingNode]
        exact Nat.lt_succ_self _
      · exact ih hrest hnodup hchain hlater
    | some hopIp =>
      have hnull : h.isNull = false := by rw [Hop.isNull, hip, Option.isNone_some]
      rw [List.filterMap_cons_some hip] at hnodup hchain
      rw [hopNodes_cons_of_ip hip, List.cons_append] at hlink
      rw [hnull] at hrest
      rcases mem_steps_cons.mp hlink with ⟨hsame, -⟩ | hlater
      · obtain ⟨rfl, rfl⟩ := Prod.mk.inj hsame
        exact nodeRank_lt_addressNode hinjective hnodup hchain prevWasNull
      · refine ih hrest ?_ ?_ hlater
        · exact hnodup.sublist (List.sublist_append_right ..)
        · exact isChain_stations_of_append hchain

/-- A walk that stands behind an address comes to the next one. -/
theorem transGen_addressNode {edge : NodeId → NodeId → Prop} {prevWasNull : Bool}
    {previous hopIp : String}
    (hreach : ReflTransGen edge (addressNode monitoredByIp previous)
      (standingNode monitoredByIp epId prevWasNull (some previous)))
    (hedge : standingNode monitoredByIp epId prevWasNull (some previous) ≠
        addressNode monitoredByIp hopIp →
      edge (standingNode monitoredByIp epId prevWasNull (some previous))
        (addressNode monitoredByIp hopIp))
    (hne : addressNode monitoredByIp previous ≠ addressNode monitoredByIp hopIp) :
    TransGen edge (addressNode monitoredByIp previous) (addressNode monitoredByIp hopIp) := by
  by_cases hsame : standingNode monitoredByIp epId prevWasNull (some previous) =
      addressNode monitoredByIp hopIp
  · rw [hsame] at hreach
    exact (reflTransGen_iff_eq_or_transGen.mp hreach).resolve_left (Ne.symm hne)
  · exact TransGen.tail' hreach (hedge hsame)

/-- The stations of a route are joined by its links. -/
theorem isChain_stations {edge : NodeId → NodeId → Prop} {hops : List Hop} {prevWasNull : Bool}
    {previousHopIp : Option String} (hclean : IsClean prevWasNull hops)
    (hedge : ∀ source target, (source, target) ∈
      steps (standingNode monitoredByIp epId prevWasNull previousHopIp)
        (hopNodes monitoredByIp epId previousHopIp hops ++ [.monitored epId]) →
          source ≠ .root → edge source target)
    (hbefore : ∀ hopIp, previousHopIp = some hopIp →
      ReflTransGen edge (addressNode monitoredByIp hopIp)
        (standingNode monitoredByIp epId prevWasNull previousHopIp)) :
    (stations monitoredByIp epId (previousHopIp.toList ++ hops.filterMap Hop.ip)).IsChain
      fun first second ↦ first ≠ second → TransGen edge first second := by
  induction hops generalizing prevWasNull previousHopIp with
  | nil =>
    obtain rfl : prevWasNull = false := hclean
    cases previousHopIp with
    | none => exact List.IsChain.singleton _
    | some hopIp =>
      refine List.isChain_cons_cons.mpr ⟨fun hne ↦ TransGen.single ?_, List.IsChain.singleton _⟩
      exact hedge _ _ (mem_steps_cons.mpr (Or.inl ⟨rfl, hne⟩)) (addressNode_ne_root _ _)
  | cons h rest ih =>
    obtain ⟨halternate, hrest⟩ := hclean
    cases hip : h.ip with
    | none =>
      have hnull : h.isNull = true := by rw [Hop.isNull, hip, Option.isNone_none]
      obtain rfl := halternate hnull
      rw [List.filterMap_cons_none hip]
      rw [hopNodes_cons_of_isNull hip, List.cons_append] at hedge
      rw [hnull] at hrest
      refine ih hrest (fun source target hlink ↦ hedge source target
        (mem_steps_cons.mpr (Or.inr hlink))) ?_
      rintro hopIp rfl
      exact ReflTransGen.single (hedge _ _ (mem_steps_cons.mpr
        (Or.inl ⟨rfl, addressNode_ne_anonymous _ _ _ _⟩)) (addressNode_ne_root _ _))
    | some hopIp =>
      have hnull : h.isNull = false := by rw [Hop.isNull, hip, Option.isNone_some]
      rw [List.filterMap_cons_some hip]
      rw [hopNodes_cons_of_ip hip, List.cons_append] at hedge
      rw [hnull] at hrest
      have hlater : (stations monitoredByIp epId (hopIp :: rest.filterMap Hop.ip)).IsChain
          fun first second ↦ first ≠ second → TransGen edge first second := by
        refine ih hrest (fun source target hlink ↦ hedge source target
          (mem_steps_cons.mpr (Or.inr hlink))) ?_
        rintro _ ⟨⟩
        exact ReflTransGen.refl
      cases previousHopIp with
      | none => exact hlater
      | some previous =>
        refine List.isChain_cons_cons.mpr ⟨?_, hlater⟩
        exact transGen_addressNode (hbefore previous rfl) fun hne ↦
          hedge _ _ (mem_steps_cons.mpr (Or.inl ⟨rfl, hne⟩)) (standingNode_ne_root _ _ _ _)

/-- The rank rises along the path of a route. -/
theorem nodeRank_lt_of_mem_routePath {order : NodeId → ℕ}
    (hinjective : Function.Injective (addressNode monitoredByIp)) {hops : List Hop}
    (hclean : IsClean false hops) (hnodup : (hops.filterMap Hop.ip).Nodup)
    (hchain : (stations monitoredByIp epId (hops.filterMap Hop.ip)).IsChain
      fun first second ↦ first ≠ second → order first < order second) {source target : NodeId}
    (hlink : (source, target) ∈ steps .root (routePath monitoredByIp epId hops)) :
    nodeRank monitoredByIp order source < nodeRank monitoredByIp order target :=
  @nodeRank_lt_of_mem_steps monitoredByIp epId order hinjective hops false none hclean hnodup hchain
    source target hlink

/-- The stations of a route are joined by the links of its path. -/
theorem isChain_stations_routePath {edge : NodeId → NodeId → Prop} {hops : List Hop}
    (hclean : IsClean false hops)
    (hedge : ∀ source target, (source, target) ∈ steps .root (routePath monitoredByIp epId hops) →
      source ≠ .root → edge source target) :
    (stations monitoredByIp epId (hops.filterMap Hop.ip)).IsChain
      fun first second ↦ first ≠ second → TransGen edge first second :=
  @isChain_stations monitoredByIp epId edge hops false none hclean hedge
    fun _ hsame ↦ absurd hsame.symm (Option.some_ne_none _)

end Walk

/-! ### Rebuilt graphs -/

section Rebuilt

variable {tables : Tables}

/-- An address leads to the endpoint whose address it is. -/
theorem Tables.exists_row_of_ip (tables : Tables) {ip : String} {epId : EndpointId}
    (hget : tables.inventory.monitoredByIp.get? ip = some epId) :
    ∃ row ∈ tables.epRows, row.id = epId ∧ row.ipAddress = ip := by
  refine tables.exists_origin (fun inventory ↦ inventory.monitoredByIp.get? ip = some epId)
    (fun inventory _ hips hstart ↦ ?_) (fun inventory row hadded ↦ ?_) hget
  · rw [hips] at hstart
    exact absurd hstart.symm (Option.some_ne_none epId)
  · unfold Inventory.addRow at hadded
    split at hadded
    · rw [Dict.get?_set] at hadded
      split at hadded
      · rename_i hsame
        exact Or.inr ⟨Option.some.inj hadded, hsame.symm⟩
      · exact Or.inl hadded
    · exact Or.inl hadded

/-- Different addresses have different nodes. -/
theorem Tables.injective_addressNode (tables : Tables) :
    Function.Injective (addressNode tables.inventory.monitoredByIp) := by
  intro first second hsame
  rcases addressNode_cases tables.inventory.monitoredByIp first with
    ⟨epId, hget, hnode⟩ | ⟨-, hnode⟩ <;>
  rcases addressNode_cases tables.inventory.monitoredByIp second with
    ⟨epId', hget', hnode'⟩ | ⟨-, hnode'⟩ <;>
  rw [hnode, hnode'] at hsame
  · obtain rfl := NodeId.monitored.inj hsame
    obtain ⟨row, hrow, hid, rfl⟩ := tables.exists_row_of_ip hget
    obtain ⟨row', hrow', hid', rfl⟩ := tables.exists_row_of_ip hget'
    rw [List.inj_on_of_nodup_map tables.nodup_ids (List.mem_of_mem_filter hrow)
      (List.mem_of_mem_filter hrow') (hid.trans hid'.symm)]
  · exact NodeId.noConfusion hsame
  · exact NodeId.noConfusion hsame
  · exact NodeId.transit.inj hsame

/-- In an ordered graph every edge rises. -/
theorem Tables.nodeRank_lt_of_edge (hsimple : tables.RoutesSimple) {order : NodeId → ℕ}
    (horder : ∀ epId epData, tables.inventory.monitoredById.get? epId = some epData →
      tables.inventory.Follows tables.routes order epId epData) {source target : NodeId}
    (hedge : (Manager.fullRebuild tables).graph.Edge source target) :
    nodeRank tables.inventory.monitoredByIp order source <
      nodeRank tables.inventory.monitoredByIp order target := by
  rcases (mem_edges_buildGraph ..).mp hedge with ⟨hlink, -⟩ | ⟨subnet, -, hsame | ⟨_, -, hsame⟩⟩
  · obtain ⟨epId, epData, hget, hentry⟩ := (Inventory.mem_links_iff ..).mp hlink
    have hfollows := horder epId epData hget
    rcases (Inventory.mem_entryLinks_iff ..).mp hentry with ⟨manualParent, hparent, hsame⟩ |
      ⟨hnone, hstep⟩
    · rw [Inventory.Follows, hparent] at hfollows
      obtain ⟨rfl, rfl⟩ := Prod.mk.inj hsame
      simp only [nodeRank]
      omega
    · rw [Inventory.Follows, hnone] at hfollows
      refine nodeRank_lt_of_mem_routePath tables.injective_addressNode
        (isClean_sanitizeTracerouteHops _) ?_ ?_ hstep
      · rw [filterMap_ip_sanitizeTracerouteHops]
        exact hsimple epId
      · rw [filterMap_ip_sanitizeTracerouteHops]
        exact hfollows
  · obtain ⟨rfl, rfl⟩ := Prod.mk.inj hsame
    exact Nat.zero_lt_one
  · obtain ⟨rfl, rfl⟩ := Prod.mk.inj hsame
    simp only [nodeRank]
    omega

/-- A link that does not start at the root is an edge of the rebuilt graph. -/
theorem Manager.edge_of_mem_entryLinks {epId : EndpointId} {epData : MonitoredEndpoint}
    (hget : tables.inventory.monitoredById.get? epId = some epData) {source target : NodeId}
    (hentry : (source, target) ∈ tables.inventory.entryLinks tables.routes (epId, epData))
    (hroot : source ≠ .root) : (fullRebuild tables).graph.Edge source target := by
  refine (mem_edges_buildGraph ..).mpr (Or.inl ⟨(Inventory.mem_links_iff ..).mpr
    ⟨epId, epData, hget, hentry⟩, ?_⟩)
  rintro ⟨_, _, hsame, -⟩
  exact hroot (Prod.mk.inj hsame).1

/-- The depths in a graph without cycles order its routes. -/
theorem Tables.follows_depth (hacyclic : Acyclic (Manager.fullRebuild tables).graph.Edge)
    {epId : EndpointId} {epData : MonitoredEndpoint}
    (hget : tables.inventory.monitoredById.get? epId = some epData) :
    tables.inventory.Follows tables.routes (depth (Manager.fullRebuild tables).graph.edges) epId
      epData := by
  have hdepth : ∀ source target, (Manager.fullRebuild tables).graph.Edge source target →
      depth (Manager.fullRebuild tables).graph.edges source <
        depth (Manager.fullRebuild tables).graph.edges target := fun _ _ hedge ↦
    depth_lt_depth hacyclic hedge
  rw [Inventory.Follows]
  cases hparent : tables.inventory.usableParent epData with
  | some manualParent =>
    exact hdepth _ _ (Manager.edge_of_mem_entryLinks hget ((Inventory.mem_entryLinks_iff ..).mpr
      (Or.inl ⟨manualParent, hparent, rfl⟩)) NodeId.noConfusion)
  | none =>
    have hchain := isChain_stations_routePath
      (isClean_sanitizeTracerouteHops ((tables.routes.get? epId).getD []))
      fun source target hlink hroot ↦ Manager.edge_of_mem_entryLinks hget
        ((Inventory.mem_entryLinks_iff ..).mpr (Or.inr ⟨hparent, hlink⟩)) hroot
    rw [filterMap_ip_sanitizeTracerouteHops] at hchain
    exact hchain.imp fun _ _ hreach hne ↦ rank_lt_of_transGen hdepth (hreach hne)

/-- The edges of a rebuilt graph have no cycle exactly when the routes and manual parents run along
one order of the addresses and endpoints. -/
theorem acyclic_fullRebuild_iff (tables : Tables) (hsimple : tables.RoutesSimple) :
    Acyclic (Manager.fullRebuild tables).graph.Edge ↔ tables.IsOrdered := by
  constructor
  · exact fun hacyclic ↦ ⟨_, fun _ _ hget ↦ tables.follows_depth hacyclic hget⟩
  · rintro ⟨order, horder⟩ node hcycle
    exact absurd (rank_lt_of_transGen (fun _ _ hedge ↦ Tables.nodeRank_lt_of_edge hsimple horder
      hedge) hcycle) (lt_irrefl _)

end Rebuilt

/-! ### Opposite routes -/

/-- A hop with an address. -/
def hopAt (number : ℤ) (ip : String) : Hop := ⟨some number, some ip, none⟩

theorem nodup_ids_oppositeTables : ([1, 2] : List EndpointId).Nodup := by decide

/-- Two endpoints, with routes through the same two hops in opposite directions. -/
def oppositeTables : Tables where
  endpoints := [endpointRow 1 "192.0.2.1" none, endpointRow 2 "198.51.100.2" none]
  baselineRoutes := [⟨1, some [hopAt 1 "10.0.0.1", hopAt 2 "10.0.0.2"]⟩,
    ⟨2, some [hopAt 1 "10.0.0.2", hopAt 2 "10.0.0.1"]⟩]
  diagnosticTraces := []
  rcaIncidents := []
  nodup_ids := nodup_ids_oppositeTables

/-- Routes are simple when every stored one is. -/
theorem Tables.routesSimple_of_entries {tables : Tables}
    (hentries : ∀ entry ∈ tables.routes.entries, (entry.2.filterMap Hop.ip).Nodup) :
    tables.RoutesSimple := by
  intro epId
  rw [routeIps]
  cases hget : tables.routes.get? epId with
  | none => exact List.nodup_nil
  | some hops => exact hentries (epId, hops) ((Dict.get?_eq_some_iff ..).mp hget)

theorem routesSimple_oppositeTables : oppositeTables.RoutesSimple :=
  Tables.routesSimple_of_entries (by decide)

/-- The two hops make a cycle. -/
theorem not_acyclic_oppositeTables :
    (Acyclic fun parent child ↦ (parent, child) ∈ oppositeTables.manualParents) ∧
      oppositeTables.RoutesSimple ∧ ¬Acyclic (Manager.fullRebuild oppositeTables).graph.Edge := by
  refine ⟨(acyclic_iff_exists_rank _).mpr ⟨fun _ ↦ 0, fun _ _ hparent ↦ ?_⟩,
    routesSimple_oppositeTables, fun hacyclic ↦ ?_⟩
  · exact absurd hparent List.not_mem_nil
  · have hforth : (Manager.fullRebuild oppositeTables).graph.Edge
        (.transit "10.0.0.1") (.transit "10.0.0.2") := by
      show (_, _) ∈ (Manager.fullRebuild oppositeTables).graph.edges
      decide
    have hback : (Manager.fullRebuild oppositeTables).graph.Edge
        (.transit "10.0.0.2") (.transit "10.0.0.1") := by
      show (_, _) ∈ (Manager.fullRebuild oppositeTables).graph.edges
      decide
    exact hacyclic _ ((TransGen.single hforth).tail hback)

theorem acyclic_oppositeTables_iff :
    Acyclic (Manager.fullRebuild oppositeTables).graph.Edge ↔ oppositeTables.IsOrdered :=
  acyclic_fullRebuild_iff oppositeTables routesSimple_oppositeTables

end Lnmp.Topology
