import Lnmp.Topology.Hops

/-!
# Refreshing a baseline route

`refresh_baseline_route` (`services/baseline_route.py`) traces an endpoint and stores the hops. It
keeps the stored hops instead when no new hop has an address and a stored one has.

The trace comes from `run_traceroute` (`services/diagnostics.py`), which sanitizes its hops with the
target. The target is at the end of them whether it replied or not, so that there always is a hop
with an address (`any_ip_runTraceroute`) and the stored hops are always replaced.
`keepsRoute_iff` says what is stored after a trace in which no hop replied.

The hops that `_parse_trace_output` reads from the tools are the input here, and the layer of the
target is left out.
-/

set_option autoImplicit false
set_option relaxedAutoImplicit false

namespace Lnmp.Topology

open Lnmp.Foundation
open Lnmp.Monitoring (EndpointId isTruthy)

/-! ### Traces -/

/-- The hops of `run_traceroute`. A target on a local subnet is not traced. -/
def runTraceroute (isLocalSubnetDestination : Bool) (targetIp : String) (parsed : List Hop) :
    List Hop :=
  if isLocalSubnetDestination then [⟨some 1, some targetIp, some (1 / 2)⟩]
  else sanitizeTracerouteHops parsed (some targetIp)

/-- A row of `endpoint_baseline_routes`. -/
structure BaselineRow where
  totalHops : ℕ
  hops : List Hop
  deriving DecidableEq

/-- Some hop has an address. -/
def hasAddress (hops : List Hop) : Bool := hops.any fun h ↦ h.ip.isSome

/-- What `_execute_queries` writes: the stored hops when only they have an address. -/
def finalHops (stored : Option BaselineRow) (formattedHops : List Hop) : List Hop :=
  if hasAddress formattedHops then formattedHops
  else
    match stored with
    | some row => if hasAddress row.hops then row.hops else formattedHops
    | none => formattedHops

/-- The rows after `refresh_baseline_route`. -/
def refreshBaselineRoute (routes : Dict EndpointId BaselineRow) (endpointId : EndpointId)
    (isLocalSubnetDestination : Bool) (targetIp : String) (parsed : List Hop) :
    Dict EndpointId BaselineRow :=
  let final := finalHops (routes.get? endpointId)
    (runTraceroute isLocalSubnetDestination targetIp parsed)
  routes.set endpointId ⟨final.length, final⟩

/-- The hops of an endpoint are as they were. -/
def KeepsRoute (routes after : Dict EndpointId BaselineRow) (endpointId : EndpointId) : Prop :=
  (after.get? endpointId).map (·.hops) = (routes.get? endpointId).map (·.hops)

/-- The hops that are written when no hop replied: one silent hop with the number of the first, if
there is one, and the target behind it. -/
def unansweredRoute (targetIp : String) : List Hop → List Hop
  | [] => [⟨some 1, some targetIp, none⟩]
  | h :: _ => [⟨h.hop, none, none⟩,
      ⟨some ((h.hop.filter (· ≠ 0)).getD 1 + 1), some targetIp, none⟩]

/-! ### Sanitized hops with a target -/

variable {targetIp : String} {parsed : List Hop}

/-- Silent hops behind a silent hop are dropped. -/
theorem collapseHops_true_of_isNull (hsilent : ∀ h ∈ parsed, h.isNull = true) :
    collapseHops true parsed = [] := by
  induction parsed with
  | nil => rfl
  | cons h rest ih =>
    rw [collapseHops, if_pos (hsilent h (List.mem_cons_self ..)), if_pos rfl]
    exact ih fun other hother ↦ hsilent other (List.mem_cons_of_mem _ hother)

/-- The target is behind the only silent hop. -/
theorem sanitizeTracerouteHops_of_isNull (htarget : targetIp ≠ "")
    (hsilent : ∀ h ∈ parsed, h.isNull = true) :
    sanitizeTracerouteHops parsed (some targetIp) = unansweredRoute targetIp parsed := by
  have htruthy : isTruthy (some targetIp) = true := by simpa [isTruthy] using htarget
  rw [sanitizeTracerouteHops, if_pos htruthy]
  cases parsed with
  | nil => rfl
  | cons h rest =>
    have hrest := collapseHops_true_of_isNull fun other hother ↦
      hsilent other (List.mem_cons_of_mem _ hother)
    have hcollapsed : collapseHops false (h :: rest) = [⟨h.hop, none, none⟩] := by
      rw [collapseHops, if_pos (hsilent h (List.mem_cons_self ..)), if_neg Bool.false_ne_true,
        hrest]
    rw [hcollapsed]
    rfl

/-- Whether or not a hop replied, the trace has one with an address. -/
theorem any_ip_runTraceroute (htarget : targetIp ≠ "") (isLocalSubnetDestination : Bool)
    (parsed : List Hop) :
    hasAddress (runTraceroute isLocalSubnetDestination targetIp parsed) = true := by
  rw [hasAddress, List.any_eq_true]
  suffices hmem : ∃ h ∈ runTraceroute isLocalSubnetDestination targetIp parsed,
      h.ip = some targetIp by
    obtain ⟨h, hmem, hip⟩ := hmem
    exact ⟨h, hmem, hip ▸ rfl⟩
  rw [runTraceroute]
  split
  · exact ⟨_, List.mem_singleton_self _, rfl⟩
  · have htruthy : isTruthy (some targetIp) = true := by simpa [isTruthy] using htarget
    rw [sanitizeTracerouteHops, if_pos htruthy]
    dsimp only
    split
    · exact ⟨_, List.mem_singleton_self _, rfl⟩
    · rename_i lastHop hlast
      split
      · rename_i hip
        exact ⟨lastHop, List.mem_of_getLast? hlast, hip⟩
      · exact ⟨_, List.mem_append_right _ (List.mem_singleton_self _), rfl⟩

/-- The stored hops are replaced by those of the trace. -/
theorem hops_refreshBaselineRoute (htarget : targetIp ≠ "")
    (routes : Dict EndpointId BaselineRow) (endpointId : EndpointId)
    (isLocalSubnetDestination : Bool) :
    ((refreshBaselineRoute routes endpointId isLocalSubnetDestination targetIp parsed).get?
      endpointId).map (·.hops) =
        some (runTraceroute isLocalSubnetDestination targetIp parsed) := by
  have hfinal : finalHops (routes.get? endpointId)
      (runTraceroute isLocalSubnetDestination targetIp parsed) =
        runTraceroute isLocalSubnetDestination targetIp parsed :=
    if_pos (any_ip_runTraceroute htarget isLocalSubnetDestination parsed)
  rw [refreshBaselineRoute, hfinal, Dict.get?_set, if_pos rfl, Option.map_some]

/-- After a trace in which no hop replied, a stored route is as it was exactly when it already was
what such a trace leaves. -/
theorem keepsRoute_iff {routes : Dict EndpointId BaselineRow} {endpointId : EndpointId}
    {row : BaselineRow} (htarget : targetIp ≠ "") (hrow : routes.get? endpointId = some row)
    (hsilent : ∀ h ∈ parsed, h.isNull = true) :
    KeepsRoute routes (refreshBaselineRoute routes endpointId false targetIp parsed) endpointId ↔
      row.hops = unansweredRoute targetIp parsed := by
  rw [KeepsRoute, hops_refreshBaselineRoute htarget, hrow, Option.map_some, Option.some.injEq,
    runTraceroute, if_neg Bool.false_ne_true, sanitizeTracerouteHops_of_isNull htarget hsilent,
    eq_comm]

/-- A stored row of two hops that replied. -/
def goodRow : BaselineRow where
  totalHops := 2
  hops := [⟨some 1, some "10.0.0.1", some (6 / 5)⟩, ⟨some 2, some "198.51.100.55", some 15⟩]

/-- The stored row of an endpoint. -/
def goodRoutes : Dict EndpointId BaselineRow := Dict.empty.set 1 goodRow

theorem keepsRoute_goodRoutes_iff :
    KeepsRoute goodRoutes (refreshBaselineRoute goodRoutes 1 false "198.51.100.55"
        [⟨some 1, none, none⟩, ⟨some 2, none, none⟩]) 1 ↔
      goodRow.hops =
        unansweredRoute "198.51.100.55" [⟨some 1, none, none⟩, ⟨some 2, none, none⟩] :=
  keepsRoute_iff (by decide) rfl (by decide)

/-- Two hops that do not reply replace the stored route, and so does the empty output of all
tools. -/
theorem not_keepsRoute_goodRoutes :
    goodRoutes.get? 1 = some goodRow ∧ hasAddress goodRow.hops = true ∧
      ¬ KeepsRoute goodRoutes (refreshBaselineRoute goodRoutes 1 false "198.51.100.55"
        [⟨some 1, none, none⟩, ⟨some 2, none, none⟩]) 1 ∧
      ¬ KeepsRoute goodRoutes (refreshBaselineRoute goodRoutes 1 false "198.51.100.55" []) 1 := by
  refine ⟨rfl, rfl, ?_, ?_⟩
  · unfold KeepsRoute
    decide
  · unfold KeepsRoute
    decide

end Lnmp.Topology
