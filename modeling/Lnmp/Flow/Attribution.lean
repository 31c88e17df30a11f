import Lnmp.Flow.Conservation
import Mathlib.Algebra.BigOperators.Ring.Finset

/-!
# The flows of an interface

`accumulate_interface_flow` credits the interface a flow enters by and the interface it leaves by.

`interfacesExact_accumulateAll` says what an interface has after any calls of `accumulate_flow`: the
bytes and packets that enter there, those that leave there, and every flow that does either once.
There are no other entries, and a flow adds its bytes to one interface in each direction at most.
The calls may each see other maps of the correlator, which is refreshed between them.
-/

set_option autoImplicit false
set_option relaxedAutoImplicit false

namespace Lnmp.Flow

open Lnmp.Foundation

/-- Calls of `accumulate_flow` one after the other, from the start of the aggregator on. -/
def accumulateAll (calls : List (FlowCorrelator × FlowArguments)) : Accumulators :=
  calls.foldl (fun accumulators call ↦
    (accumulateFlow call.1 accumulators call.2).getD accumulators) .empty

/-- The flows of the calls that are not rejected. -/
def resolvedFlows (calls : List (FlowCorrelator × FlowArguments)) : List ResolvedFlow :=
  calls.filterMap fun call ↦ resolveFlow call.1 call.2

/-- The flows of an exporter in a minute. -/
def flowsAt (flows : List ResolvedFlow) (bucket : ℤ) (exporterId : UUID) : List ResolvedFlow :=
  flows.filter fun flow ↦ flow.key.bucket = bucket ∧ flow.key.exporterId = exporterId

/-- The sum of an amount over the flows that a condition selects. -/
def sumWhere (flows : List ResolvedFlow) (selects : ResolvedFlow → Bool)
    (amount : ResolvedFlow → ℤ) : ℤ :=
  ((flows.filter selects).map amount).sum

/-- The counters of an interface, zero without an entry. -/
def interfaceCounters (entries : Dict InterfaceKey InterfaceCounters) (bucket : ℤ)
    (exporterId : UUID) (index : ℤ) : InterfaceCounters :=
  (entries.get? ⟨bucket, exporterId, index⟩).getD 0

/-- The interfaces have the traffic of the flows that enter and leave there, and no other. -/
structure InterfacesExact (flows : List ResolvedFlow)
    (entries : Dict InterfaceKey InterfaceCounters) : Prop where
  counters : ∀ bucket exporterId index, exporterId ≠ sentinelUuid → 1 ≤ index →
    index ≤ 2147483647 → interfaceCounters entries bucket exporterId index =
      { inBytes := sumWhere (flowsAt flows bucket exporterId) (·.inIf = index) (·.flowBytes)
        outBytes := sumWhere (flowsAt flows bucket exporterId) (·.outIf = index) (·.flowBytes)
        inPackets := sumWhere (flowsAt flows bucket exporterId) (·.inIf = index) (·.flowPackets)
        outPackets := sumWhere (flowsAt flows bucket exporterId) (·.outIf = index) (·.flowPackets)
        flowCount := ((flowsAt flows bucket exporterId).countP fun flow ↦
          flow.inIf = index ∨ flow.outIf = index : ℕ) }
  entry_iff : ∀ bucket exporterId index, (entries.get? ⟨bucket, exporterId, index⟩).isSome ↔
    exporterId ≠ sentinelUuid ∧ 1 ≤ index ∧ index ≤ 2147483647 ∧
      ∃ flow ∈ flowsAt flows bucket exporterId, flow.inIf = index ∨ flow.outIf = index
  ingressOnce : ∀ bucket exporterId, exporterId ≠ sentinelUuid → ∀ indexes : Finset ℤ,
    ∑ index ∈ indexes, (interfaceCounters entries bucket exporterId index).inBytes =
      sumWhere (flowsAt flows bucket exporterId)
        (fun flow ↦ validInterface flow.inIf ∧ flow.inIf ∈ indexes) (·.flowBytes)
  egressOnce : ∀ bucket exporterId, exporterId ≠ sentinelUuid → ∀ indexes : Finset ℤ,
    ∑ index ∈ indexes, (interfaceCounters entries bucket exporterId index).outBytes =
      sumWhere (flowsAt flows bucket exporterId)
        (fun flow ↦ validInterface flow.outIf ∧ flow.outIf ∈ indexes) (·.flowBytes)

/-! ### What the accumulators hold -/

section Calls

variable {calls : List (FlowCorrelator × FlowArguments)}

/-- After any calls the accumulators hold the flows that were not rejected. -/
theorem hold_accumulateAll (calls : List (FlowCorrelator × FlowArguments)) :
    (accumulateAll calls).Hold ((resolvedFlows calls).map (Record.mk none)) := by
  induction calls using List.reverseRecOn with
  | nil => exact hold_empty
  | append_singleton calls call ih =>
    have hcall := ih.accumulateFlow call.1 call.2 none
    have hlast : [call].filterMap (fun call ↦ resolveFlow call.1 call.2) =
        (resolveFlow call.1 call.2).toList := by
      cases hresolve : resolveFlow call.1 call.2 <;> simp [hresolve]
    rw [accumulateAll, List.foldl_concat, resolvedFlows, List.filterMap_append, hlast,
      List.map_append, ← Option.toList_map]
    exact ih.accumulateFlow call.1 call.2 none

theorem holds_accumulateAll (calls : List (FlowCorrelator × FlowArguments)) :
    Ledger.Holds (accumulateAll calls).interfaceAccumulator
      ((resolvedFlows calls).flatMap ResolvedFlow.interfacePostings) := by
  have hinterfaces := (hold_accumulateAll calls).interfaces
  rw [flowsOf, List.map_map, show Record.flow ∘ Record.mk none = id from rfl,
    List.map_id] at hinterfaces
  exact hinterfaces

/-- An interface has what the flows contribute to it. -/
theorem interfaceCounters_accumulateAll (bucket : ℤ) (exporterId : UUID) (index : ℤ) :
    interfaceCounters (accumulateAll calls).interfaceAccumulator bucket exporterId index =
      interfaceTotal (resolvedFlows calls) ⟨bucket, exporterId, index⟩ := by
  rw [interfaceCounters, ← sumBy_interfaceWeight_eq_get?,
    sumBy_interfaceWeight (holds_accumulateAll calls)]

/-- An interface has an entry exactly when a flow touches it. -/
theorem isSome_get?_accumulateAll_iff {key : InterfaceKey} :
    ((accumulateAll calls).interfaceAccumulator.get? key).isSome ↔
      ∃ flow ∈ resolvedFlows calls, key ∈ flow.interfaceKeys := by
  have hmem : key ∈ ((resolvedFlows calls).flatMap ResolvedFlow.interfacePostings).map Prod.fst ↔
      ∃ flow ∈ resolvedFlows calls, key ∈ flow.interfaceKeys := by
    simp [ResolvedFlow.interfacePostings]
  rw [holds_accumulateAll calls key, ← hmem, Option.isSome_iff_ne_none]
  constructor
  · intro hsome
    by_contra hnone
    exact hsome (Ledger.get?_post_of_notMem hnone)
  · exact Ledger.get?_post_ne_none

/-- The interfaces of a flow belong to its exporter, unless that is the sentinel. -/
theorem interfaceExporter_eq_iff {flow : ResolvedFlow} (hflow : flow ∈ resolvedFlows calls)
    {exporterId : UUID} :
    flow.interfaceExporter = some exporterId ↔
      flow.key.exporterId = exporterId ∧ exporterId ≠ sentinelUuid := by
  have howner : ∀ owner : Option UUID,
      (if owner = some sentinelUuid then none else owner) = some exporterId ↔
        owner.getD sentinelUuid = exporterId ∧ exporterId ≠ sentinelUuid := by
    intro owner
    cases owner with
    | none => simpa using fun h : sentinelUuid = exporterId ↦ h.symm
    | some owner =>
      simp only [Option.some_inj, Option.getD_some]
      by_cases hsentinel : owner = sentinelUuid
      · rw [if_pos hsentinel]
        exact ⟨fun h ↦ absurd h.symm (Option.some_ne_none _),
          fun h ↦ absurd (h.1.symm.trans hsentinel) h.2⟩
      · rw [if_neg hsentinel, Option.some_inj]
        exact ⟨fun h ↦ ⟨h, h ▸ hsentinel⟩, And.left⟩
  obtain ⟨call, -, hresolve⟩ := List.mem_filterMap.mp hflow
  unfold resolveFlow at hresolve
  split at hresolve
  · obtain ⟨datetime, -, rfl⟩ := Option.map_eq_some_iff.mp hresolve
    exact howner _
  · cases hresolve

end Calls

/-! ### Totals of an interface -/

section Totals

variable {flows : List ResolvedFlow} {flow : ResolvedFlow} {bucket : ℤ} {exporterId : UUID}
  {index : ℤ}

theorem sumWhere_cons (selects : ResolvedFlow → Bool) (amount : ResolvedFlow → ℤ) :
    sumWhere (flow :: flows) selects amount =
      (if selects flow then amount flow else 0) + sumWhere flows selects amount := by
  rw [sumWhere, sumWhere, List.filter_cons]
  cases selects flow with
  | true => rw [if_pos rfl, if_pos rfl, List.map_cons, List.sum_cons]
  | false => rw [if_neg Bool.false_ne_true, if_neg Bool.false_ne_true, zero_add]

theorem flowsAt_cons_of_pos
    (hflow : flow.key.bucket = bucket ∧ flow.key.exporterId = exporterId) :
    flowsAt (flow :: flows) bucket exporterId = flow :: flowsAt flows bucket exporterId :=
  List.filter_cons_of_pos (decide_eq_true hflow)

theorem flowsAt_cons_of_neg
    (hflow : ¬ (flow.key.bucket = bucket ∧ flow.key.exporterId = exporterId)) :
    flowsAt (flow :: flows) bucket exporterId = flowsAt flows bucket exporterId :=
  List.filter_cons_of_neg (by simpa using hflow)

/-- The total of an interface, counter by counter. -/
theorem interfaceTotal_eq (howner : ∀ flow ∈ flows,
      flow.interfaceExporter = some exporterId ↔ flow.key.exporterId = exporterId)
    (hvalid : validInterface index) :
    interfaceTotal flows ⟨bucket, exporterId, index⟩ =
      { inBytes := sumWhere (flowsAt flows bucket exporterId) (·.inIf = index) (·.flowBytes)
        outBytes := sumWhere (flowsAt flows bucket exporterId) (·.outIf = index) (·.flowBytes)
        inPackets := sumWhere (flowsAt flows bucket exporterId) (·.inIf = index) (·.flowPackets)
        outPackets := sumWhere (flowsAt flows bucket exporterId) (·.outIf = index) (·.flowPackets)
        flowCount := ((flowsAt flows bucket exporterId).countP fun flow ↦
          flow.inIf = index ∨ flow.outIf = index : ℕ) } := by
  induction flows with
  | nil => rfl
  | cons flow flows ih =>
    have hrest := ih fun other hother ↦ howner other (List.mem_cons_of_mem flow hother)
    have hflow := howner flow List.mem_cons_self
    rw [interfaceTotal, List.map_cons, List.sum_cons, ← interfaceTotal, hrest,
      ResolvedFlow.interfaceShare]
    by_cases hat : flow.key.bucket = bucket ∧ flow.key.exporterId = exporterId
    · rw [if_pos ⟨hflow.mpr hat.2, hat.1, hvalid⟩, flowsAt_cons_of_pos hat,
        InterfaceCounters.mk_add_mk]
      simp only [sumWhere_cons, List.countP_cons, decide_eq_true_eq, InterfaceCounters.mk.injEq,
        true_and]
      split_ifs <;> omega
    · rw [if_neg fun h ↦ hat ⟨h.2.1, hflow.mp h.1⟩, zero_add, flowsAt_cons_of_neg hat]

/-- Interfaces that are not accumulated have nothing. -/
theorem interfaceTotal_eq_zero (hvalid : ¬ validInterface index) :
    interfaceTotal flows ⟨bucket, exporterId, index⟩ = 0 := by
  refine List.sum_eq_zero fun share hshare ↦ ?_
  obtain ⟨flow, -, rfl⟩ := List.mem_map.mp hshare
  rw [ResolvedFlow.interfaceShare, if_neg fun h ↦ hvalid h.2.2]

/-- Every flow is at one interface. -/
theorem sum_sumWhere (interface : ResolvedFlow → ℤ) (indexes : Finset ℤ) :
    ∑ index ∈ indexes, (if validInterface index then
        sumWhere flows (interface · = index) (·.flowBytes) else 0) =
      sumWhere flows (fun flow ↦ validInterface (interface flow) ∧ interface flow ∈ indexes)
        (·.flowBytes) := by
  induction flows with
  | nil => simp [sumWhere]
  | cons flow flows ih =>
    rw [sumWhere_cons, ← ih]
    have hflow : ∑ index ∈ indexes, (if interface flow = index then
        if validInterface index then flow.flowBytes else 0 else 0) =
          if validInterface (interface flow) ∧ interface flow ∈ indexes then flow.flowBytes
          else 0 := by
      rw [Finset.sum_ite_eq]
      split_ifs <;> simp_all
    simp only [decide_eq_true_eq]
    rw [← hflow, ← Finset.sum_add_distrib]
    refine Finset.sum_congr rfl fun index _ ↦ ?_
    rw [sumWhere_cons]
    simp only [decide_eq_true_eq]
    split_ifs <;> omega

end Totals

theorem validInterface_iff {index : ℤ} :
    validInterface index = true ↔ 1 ≤ index ∧ index ≤ 2147483647 := by
  rw [validInterface, decide_eq_true_eq]
  rfl

/-- The counters of an interface of a known exporter, also of one that is not accumulated. -/
theorem interfaceCounters_eq (calls : List (FlowCorrelator × FlowArguments)) (bucket : ℤ)
    {exporterId : UUID} (index : ℤ) (hsentinel : exporterId ≠ sentinelUuid) :
    interfaceCounters (accumulateAll calls).interfaceAccumulator bucket exporterId index =
      if validInterface index then
        { inBytes := sumWhere (flowsAt (resolvedFlows calls) bucket exporterId)
            (·.inIf = index) (·.flowBytes)
          outBytes := sumWhere (flowsAt (resolvedFlows calls) bucket exporterId)
            (·.outIf = index) (·.flowBytes)
          inPackets := sumWhere (flowsAt (resolvedFlows calls) bucket exporterId)
            (·.inIf = index) (·.flowPackets)
          outPackets := sumWhere (flowsAt (resolvedFlows calls) bucket exporterId)
            (·.outIf = index) (·.flowPackets)
          flowCount := ((flowsAt (resolvedFlows calls) bucket exporterId).countP fun flow ↦
            flow.inIf = index ∨ flow.outIf = index : ℕ) }
      else 0 := by
  rw [interfaceCounters_accumulateAll]
  by_cases hvalid : validInterface index
  · rw [if_pos hvalid]
    refine interfaceTotal_eq (fun flow hflow ↦ ?_) hvalid
    rw [interfaceExporter_eq_iff hflow]
    exact and_iff_left hsentinel
  · rw [if_neg hvalid]
    exact interfaceTotal_eq_zero hvalid

/-- The interfaces that have counters. -/
theorem isSome_get?_iff (calls : List (FlowCorrelator × FlowArguments)) (bucket : ℤ)
    (exporterId : UUID) (index : ℤ) :
    ((accumulateAll calls).interfaceAccumulator.get? ⟨bucket, exporterId, index⟩).isSome ↔
      exporterId ≠ sentinelUuid ∧ 1 ≤ index ∧ index ≤ 2147483647 ∧
        ∃ flow ∈ flowsAt (resolvedFlows calls) bucket exporterId,
          flow.inIf = index ∨ flow.outIf = index := by
  rw [isSome_get?_accumulateAll_iff]
  simp only [ResolvedFlow.mem_interfaceKeys, validInterface_iff, flowsAt, List.mem_filter,
    decide_eq_true_eq]
  constructor
  · rintro ⟨flow, hflow, hexporter, hbucket, hvalid, htouches⟩
    rw [interfaceExporter_eq_iff hflow] at hexporter
    exact ⟨hexporter.2, hvalid.1, hvalid.2, flow, ⟨hflow, hbucket, hexporter.1⟩, htouches⟩
  · rintro ⟨hsentinel, hlower, hupper, flow, ⟨hflow, hbucket, hexporter⟩, htouches⟩
    refine ⟨flow, hflow, ?_, hbucket, ⟨hlower, hupper⟩, htouches⟩
    rw [interfaceExporter_eq_iff hflow]
    exact ⟨hexporter, hsentinel⟩

/-- After any calls the interfaces have the traffic of the flows that enter and leave there. -/
theorem interfacesExact_accumulateAll (calls : List (FlowCorrelator × FlowArguments)) :
    InterfacesExact (resolvedFlows calls) (accumulateAll calls).interfaceAccumulator := by
  refine ⟨fun bucket exporterId index hsentinel hlower hupper ↦ ?_,
    isSome_get?_iff calls, fun bucket exporterId hsentinel indexes ↦ ?_,
    fun bucket exporterId hsentinel indexes ↦ ?_⟩
  · rw [interfaceCounters_eq calls bucket index hsentinel, if_pos]
    rw [validInterface_iff]
    exact ⟨hlower, hupper⟩
  · rw [← sum_sumWhere]
    refine Finset.sum_congr rfl fun index _ ↦ ?_
    rw [interfaceCounters_eq calls bucket index hsentinel]
    split_ifs <;> rfl
  · rw [← sum_sumWhere]
    refine Finset.sum_congr rfl fun index _ ↦ ?_
    rw [interfaceCounters_eq calls bucket index hsentinel]
    split_ifs <;> rfl

end Lnmp.Flow
