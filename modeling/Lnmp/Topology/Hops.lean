import Mathlib.Data.List.DropRight
import Mathlib.Data.Rat.Defs
import Lnmp.Foundation.Dict
import Lnmp.Foundation.Digraph
import Lnmp.Foundation.IpAddress
import Lnmp.Foundation.Uuid
import Lnmp.Monitoring.StateMachine

/-!
# Traceroute hops and the nodes they stand for

`sanitize_traceroute_hops` (`services/diagnostics.py`) and the part of `services/topology.py` that
names the nodes of a route. A hop with an address is the monitored endpoint at that address, or a
transit router named by the address. A hop that did not answer is named by the last address in
front of it and by the first eight hexadecimal digits of the endpoint that the route leads to.

The addresses of hops are written with digits and dots only, so that the underscores that the source
writes for the dots keep different addresses apart. `NodeId` has the addresses themselves.
-/

set_option autoImplicit false
set_option relaxedAutoImplicit false

namespace Lnmp.Topology

open Lnmp.Foundation Lnmp.Foundation.Digraph Lnmp.Foundation.IpAddress
open Lnmp.Monitoring (EndpointId isTruthy)

/-! ### Sanitized hops -/

/-- A hop of a traceroute. The address of a hop that did not reply is `none`. -/
structure Hop where
  hop : Option ℤ
  ip : Option String
  rttMs : Option ℚ
  deriving DecidableEq

/-- The hop did not reply. -/
def Hop.isNull (h : Hop) : Bool := h.ip.isNone

@[simp] theorem isNull_mk_none (hop : Option ℤ) (rttMs : Option ℚ) :
    (Hop.mk hop none rttMs).isNull = true := rfl

/-- The hops with one anonymous hop in place of several consecutive ones, behind a hop that was
anonymous or not. -/
def collapseHops : Bool → List Hop → List Hop
  | _, [] => []
  | prevWasNull, h :: rest =>
    if h.isNull then
      if prevWasNull then collapseHops true rest else ⟨h.hop, none, none⟩ :: collapseHops true rest
    else h :: collapseHops false rest

/-- The number of a hop behind the last one. A hop number zero counts as missing. -/
def nextHopNum (collapsedHops : List Hop) (lastHop : Hop) : ℤ :=
  ((lastHop.hop.filter (· ≠ 0)).getD collapsedHops.length) + 1

/-- `sanitize_traceroute_hops`. -/
def sanitizeTracerouteHops (hops : List Hop) (targetIp : Option String) : List Hop :=
  if isTruthy targetIp then
    let collapsedHops := collapseHops false hops
    match collapsedHops.getLast? with
    | none => [⟨some 1, targetIp, none⟩]
    | some lastHop =>
      if lastHop.ip = targetIp then collapsedHops
      else collapsedHops ++ [⟨some (nextHopNum collapsedHops lastHop), targetIp, none⟩]
  else collapseHops false (hops.rdropWhile Hop.isNull)

/-- Collapsed hops stay as they are. -/
theorem collapseHops_collapseHops (prevWasNull : Bool) (hops : List Hop) :
    collapseHops prevWasNull (collapseHops prevWasNull hops) = collapseHops prevWasNull hops := by
  induction hops generalizing prevWasNull with
  | nil => rfl
  | cons h rest ih =>
    by_cases hnull : h.isNull = true
    · cases prevWasNull with
      | true => simp [collapseHops, hnull, ih]
      | false => simp [collapseHops, hnull, ih]
    · simp [collapseHops, hnull, ih]

/-- A hop with an address at the end stays there. -/
theorem collapseHops_concat (prevWasNull : Bool) (hops : List Hop) {h : Hop}
    (haddress : h.isNull = false) :
    collapseHops prevWasNull (hops ++ [h]) = collapseHops prevWasNull hops ++ [h] := by
  induction hops generalizing prevWasNull with
  | nil => simp [collapseHops, haddress]
  | cons first rest ih =>
    by_cases hnull : first.isNull = true
    · cases prevWasNull with
      | true => simp [collapseHops, hnull, ih]
      | false => simp [collapseHops, hnull, ih]
    · simp [collapseHops, hnull, ih]

/-- Sanitizing drops no address. -/
theorem filterMap_ip_collapseHops (prevWasNull : Bool) (hops : List Hop) :
    (collapseHops prevWasNull hops).filterMap Hop.ip = hops.filterMap Hop.ip := by
  induction hops generalizing prevWasNull with
  | nil => rfl
  | cons h rest ih =>
    cases hip : h.ip with
    | none => cases prevWasNull <;> simp [collapseHops, Hop.isNull, hip, ih]
    | some ip => simp [collapseHops, Hop.isNull, hip, ih]

section NoTarget

variable (hops : List Hop)

/-- The hops of a route without a target. -/
theorem sanitizeTracerouteHops_none :
    sanitizeTracerouteHops hops none =
      collapseHops false (hops.rdropWhile Hop.isNull) := rfl

theorem filterMap_ip_sanitizeTracerouteHops :
    (sanitizeTracerouteHops hops none).filterMap Hop.ip = hops.filterMap Hop.ip := by
  rw [sanitizeTracerouteHops_none, filterMap_ip_collapseHops]
  induction hops using List.reverseRecOn with
  | nil => rfl
  | append_singleton init last ih =>
    by_cases hnull : last.isNull = true
    · rw [List.rdropWhile_concat_pos _ _ _ hnull, ih, List.filterMap_append,
        List.filterMap_cons_none (Option.isNone_iff_eq_none.mp hnull), List.filterMap_nil,
        List.append_nil]
    · rw [List.rdropWhile_concat_neg _ _ _ hnull]

/-- Sanitized hops stay as they are. -/
theorem sanitizeTracerouteHops_idem :
    sanitizeTracerouteHops (sanitizeTracerouteHops hops none) none =
      sanitizeTracerouteHops hops none := by
  simp only [sanitizeTracerouteHops_none]
  induction hops using List.reverseRecOn with
  | nil => rfl
  | append_singleton init last ih =>
    by_cases hnull : last.isNull = true
    · rw [List.rdropWhile_concat_pos _ _ _ hnull, ih]
    · have haddress := Bool.eq_false_of_not_eq_true hnull
      rw [List.rdropWhile_concat_neg _ _ _ hnull, collapseHops_concat _ _ haddress,
        List.rdropWhile_concat_neg _ _ _ hnull, collapseHops_concat _ _ haddress,
        collapseHops_collapseHops]

end NoTarget

/-! ### Nodes -/

/-- The identifier of a node. A hub has the address of its subnet. -/
inductive NodeId
  | root
  | monitored (id : EndpointId)
  | transit (ip : String)
  | anonymous (previousHopIp : Option String) (epId : BitVec 32)
  | subnetHub (subnet : Address)
  deriving DecidableEq

/-- The node stands for a hop that is not a monitored endpoint. -/
def NodeId.isHop : NodeId → Bool
  | .transit _ | .anonymous .. => true
  | .root | .monitored _ | .subnetHub _ => false

/-- `ep_id[:8]`. -/
def shortId (epId : EndpointId) : BitVec 32 := epId.extractLsb' 96 32

/-- The node of a hop behind a hop address. -/
def hopNode (monitoredByIp : Dict String EndpointId) (epId : EndpointId)
    (previousHopIp : Option String) (hop : Hop) : NodeId :=
  match hop.ip with
  | none => .anonymous previousHopIp (shortId epId)
  | some hopIp =>
    match monitoredByIp.get? hopIp with
    | some hopEpId => .monitored hopEpId
    | none => .transit hopIp

/-- The nodes of hops behind a hop address. -/
def hopNodes (monitoredByIp : Dict String EndpointId) (epId : EndpointId) :
    Option String → List Hop → List NodeId
  | _, [] => []
  | previousHopIp, hop :: rest =>
    hopNode monitoredByIp epId previousHopIp hop ::
      hopNodes monitoredByIp epId (hop.ip.or previousHopIp) rest

/-- `get_subnet_group`: the address of the network with a prefix of 24 bits. -/
def getSubnetGroup (ip : String) : Option Address :=
  (ipAddress ip).map fun
    | .v4 value => .v4 (value / 2 ^ 8 * 2 ^ 8)
    | .v6 value => .v6 (value / 2 ^ 104 * 2 ^ 104)

end Lnmp.Topology
