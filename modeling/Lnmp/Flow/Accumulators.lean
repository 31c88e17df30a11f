import Lnmp.Foundation.Ledger
import Lnmp.Foundation.IpAddress
import Mathlib.Algebra.Group.Prod
import Mathlib.Algebra.Group.TransferInstance
import Mathlib.Data.Finset.Insert

/-!
# Accumulating flows by minute

`monitoring/flow/aggregator.py`, the in-memory half. `accumulateFlow` credits one flow to the flow
accumulator, keyed by minute, exporter, endpoints, addresses, protocol and service port, and hands
flows of identified exporters on to `accumulateInterfaceFlow`, which credits the ingress and the
egress interface. Exporters and endpoints are resolved by the maps of the correlator
(`monitoring/flow/correlator.py`).

A time is a rational number of seconds and a datetime an integer number of microseconds since the
epoch in UTC. Counters are integers of any size, as in the source.

`accumulateFlow_of_resolveFlow` is the specification used by the rest of the development: a flow
that is not rejected is resolved to a `ResolvedFlow`, and posted once to the flow ledger and once to
every interface ledger it touches. A flow that enters and leaves by one interface is one interface
posting although the source updates the entry twice.

The log of unmatched exporters that `correlate` keeps for the user interface is left out: nothing
below reads it.
-/

set_option autoImplicit false
set_option relaxedAutoImplicit false

namespace Lnmp.Flow

open Lnmp.Foundation Lnmp.Foundation.PythonText Lnmp.Foundation.IpAddress

/-- A UUID. -/
abbrev UUID := BitVec 128

/-- The exporter of flows whose exporter is not an endpoint. -/
def sentinelUuid : UUID := 0

/-! ### Counters -/

/-- The counters of a flow rollup: bytes, packets and flows. -/
@[ext]
structure FlowCounters where
  bytes : ℤ
  packets : ℤ
  flowCount : ℤ
  deriving DecidableEq

namespace FlowCounters

/-- Flow counters as a triple. -/
def equivTriple : FlowCounters ≃ ℤ × ℤ × ℤ where
  toFun counters := (counters.bytes, counters.packets, counters.flowCount)
  invFun triple := ⟨triple.1, triple.2.1, triple.2.2⟩
  left_inv _ := rfl
  right_inv _ := rfl

instance : AddCommGroup FlowCounters := equivTriple.addCommGroup

@[simp] theorem bytes_add (first second : FlowCounters) :
    (first + second).bytes = first.bytes + second.bytes := rfl

@[simp] theorem packets_add (first second : FlowCounters) :
    (first + second).packets = first.packets + second.packets := rfl

@[simp] theorem flowCount_add (first second : FlowCounters) :
    (first + second).flowCount = first.flowCount + second.flowCount := rfl

@[simp] theorem bytes_zero : (0 : FlowCounters).bytes = 0 := rfl
@[simp] theorem packets_zero : (0 : FlowCounters).packets = 0 := rfl
@[simp] theorem flowCount_zero : (0 : FlowCounters).flowCount = 0 := rfl

/-- The count of flows as an additive map. -/
def count : FlowCounters →+ ℤ where
  toFun := flowCount
  map_zero' := rfl
  map_add' _ _ := rfl

end FlowCounters

/-- The counters of an interface rollup. -/
@[ext]
structure InterfaceCounters where
  inBytes : ℤ
  outBytes : ℤ
  inPackets : ℤ
  outPackets : ℤ
  flowCount : ℤ
  deriving DecidableEq

namespace InterfaceCounters

/-- Interface counters as a quintuple. -/
def equivTuple : InterfaceCounters ≃ ℤ × ℤ × ℤ × ℤ × ℤ where
  toFun counters := (counters.inBytes, counters.outBytes, counters.inPackets, counters.outPackets,
    counters.flowCount)
  invFun tuple := ⟨tuple.1, tuple.2.1, tuple.2.2.1, tuple.2.2.2.1, tuple.2.2.2.2⟩
  left_inv _ := rfl
  right_inv _ := rfl

instance : AddCommGroup InterfaceCounters := equivTuple.addCommGroup

theorem mk_add_mk (inBytes outBytes inPackets outPackets flowCount inBytes' outBytes' inPackets'
    outPackets' flowCount' : ℤ) :
    (⟨inBytes, outBytes, inPackets, outPackets, flowCount⟩ : InterfaceCounters) +
      ⟨inBytes', outBytes', inPackets', outPackets', flowCount'⟩ =
      ⟨inBytes + inBytes', outBytes + outBytes', inPackets + inPackets', outPackets + outPackets',
        flowCount + flowCount'⟩ := rfl

/-- The count of flows as an additive map. -/
def count : InterfaceCounters →+ ℤ where
  toFun := flowCount
  map_zero' := rfl
  map_add' _ _ := rfl

end InterfaceCounters

/-! ### Keys -/

/-- The key of the flow accumulator. -/
structure FlowKey where
  bucket : ℤ
  exporterId : UUID
  srcEndpointId : Option UUID
  dstEndpointId : Option UUID
  srcIp : String
  dstIp : String
  protocol : ℤ
  dstPort : ℤ
  deriving DecidableEq

/-- The key of the interface accumulator. -/
structure InterfaceKey where
  bucket : ℤ
  exporterId : UUID
  interfaceIdx : ℤ
  deriving DecidableEq

/-- Normalizes service ports to protect index cardinality from ephemeral client ports. -/
def normalizeServicePort (srcPort dstPort : ℤ) : ℤ :=
  if srcPort < 1024 ∧ 1024 ≤ dstPort then srcPort
  else if srcPort ∈ [8080, 8443, 3306, 5432, 6379, 9200] ∧ 10000 < dstPort then srcPort
  else dstPort

/-- The microseconds of a datetime at the start of its minute. -/
def truncateToMinute (datetime : ℤ) : ℤ := datetime - datetime % 60000000

/-- `datetime.fromtimestamp(time, tz=utc)` in microseconds: rounded half to even, and an error
outside the years 1 to 9999 and for a time that is not finite. -/
def fromTimestamp : PyFloat → Option ℤ
  | .nonFinite => none
  | .finite time =>
    let micros := roundHalfEven (time * 1000000)
    if -62135596800000000 ≤ micros ∧ micros < 253402300800000000 then some micros else none

/-! ### The correlator -/

/-- The maps of the correlator: addresses of exporters and of traffic participants. -/
structure FlowCorrelator where
  exporterMap : Dict String UUID
  participantMap : Dict String UUID

/-- The address part of a text, without prefix length and white space. -/
def cleanIp (text : String) : String := strip (splitHead '/' text)

/-- The exporter, source and destination endpoints of a flow. -/
def FlowCorrelator.correlate (correlator : FlowCorrelator) (exporterIp srcIp dstIp : String) :
    Option UUID × Option UUID × Option UUID :=
  (correlator.exporterMap.get? (cleanIp exporterIp), correlator.participantMap.get? (cleanIp srcIp),
    correlator.participantMap.get? (cleanIp dstIp))

/-! ### Accumulation -/

/-- The arguments of `accumulate_flow`. -/
structure FlowArguments where
  exporterIp : String
  srcIp : String
  dstIp : String
  srcPort : ℤ
  dstPort : ℤ
  protocol : ℤ
  flowBytes : ℤ
  flowPackets : ℤ
  startTimeUnix : PyFloat
  inIf : ℤ
  outIf : ℤ
  deriving DecidableEq

/-- The accumulators of the aggregator, and the interfaces seen since they were last recorded. -/
structure Accumulators where
  accumulator : Dict FlowKey FlowCounters
  interfaceAccumulator : Dict InterfaceKey InterfaceCounters
  activeInterfacesSet : Finset (UUID × ℤ)

/-- Accumulators that have seen no flow. -/
def Accumulators.empty : Accumulators where
  accumulator := Dict.empty
  interfaceAccumulator := Dict.empty
  activeInterfacesSet := ∅

/-- The interface indexes that are accumulated. -/
def validInterface (index : ℤ) : Bool := 0 < index ∧ index ≤ 2147483647

/-- Ingress attribution: bytes and packets of a flow to the interface it enters by. -/
def accumulateIngress (accumulators : Accumulators) (bucket : ℤ) (exporterId : UUID)
    (inIf flowBytes flowPackets : ℤ) : Accumulators :=
  if validInterface inIf then
    { accumulators with
      interfaceAccumulator := Ledger.credit accumulators.interfaceAccumulator
        ⟨bucket, exporterId, inIf⟩ ⟨flowBytes, 0, flowPackets, 0, 1⟩
      activeInterfacesSet := insert (exporterId, inIf) accumulators.activeInterfacesSet }
  else accumulators

/-- Egress attribution: bytes and packets of a flow to the interface it leaves by. The flow is
counted when that is not the interface it entered by. -/
def accumulateEgress (accumulators : Accumulators) (bucket : ℤ) (exporterId : UUID)
    (inIf outIf flowBytes flowPackets : ℤ) : Accumulators :=
  if validInterface outIf then
    { accumulators with
      interfaceAccumulator := Ledger.credit accumulators.interfaceAccumulator
        ⟨bucket, exporterId, outIf⟩ ⟨0, flowBytes, 0, flowPackets, if outIf ≠ inIf then 1 else 0⟩
      activeInterfacesSet := insert (exporterId, outIf) accumulators.activeInterfacesSet }
  else accumulators

/-- `accumulate_interface_flow`. -/
def accumulateInterfaceFlow (accumulators : Accumulators) (bucket : ℤ)
    (exporterId : Option UUID) (inIf outIf flowBytes flowPackets : ℤ) : Accumulators :=
  match exporterId with
  | none => accumulators
  | some exporter =>
    if exporter = sentinelUuid then accumulators
    else
      accumulateEgress (accumulateIngress accumulators bucket exporter inIf flowBytes flowPackets)
        bucket exporter inIf outIf flowBytes flowPackets

/-- The addresses of a flow are present and parse. -/
def validAddresses (srcIp dstIp : String) : Bool :=
  srcIp ≠ "" ∧ dstIp ≠ "" ∧ (ipAddress (strip srcIp)).isSome ∧ (ipAddress (strip dstIp)).isSome

/-- `accumulate_flow`: `none` when the conversion of the start time raises. -/
def accumulateFlow (correlator : FlowCorrelator) (accumulators : Accumulators)
    (flow : FlowArguments) : Option Accumulators :=
  if ¬ validAddresses flow.srcIp flow.dstIp then some accumulators
  else
    let (exporterId, srcEpId, dstEpId) :=
      correlator.correlate flow.exporterIp flow.srcIp flow.dstIp
    let resolvedExporter := exporterId.getD sentinelUuid
    (fromTimestamp flow.startTimeUnix).map fun datetime ↦
      let bucket := truncateToMinute datetime
      let normalizedPort := normalizeServicePort flow.srcPort flow.dstPort
      let key : FlowKey := ⟨bucket, resolvedExporter, srcEpId, dstEpId, flow.srcIp, flow.dstIp,
        flow.protocol, normalizedPort⟩
      let credited := { accumulators with
        accumulator := Ledger.credit accumulators.accumulator key
          ⟨flow.flowBytes, flow.flowPackets, 1⟩ }
      if exporterId ≠ none ∧ exporterId ≠ some sentinelUuid then
        accumulateInterfaceFlow credited bucket exporterId flow.inIf flow.outIf flow.flowBytes
          flow.flowPackets
      else credited

/-! ### What one flow contributes -/

/-- A flow that is accumulated: its key, its counters, and the exporter whose interfaces it is
attributed to. -/
structure ResolvedFlow where
  key : FlowKey
  flowBytes : ℤ
  flowPackets : ℤ
  interfaceExporter : Option UUID
  inIf : ℤ
  outIf : ℤ
  deriving DecidableEq

/-- The flow that the arguments are accumulated as, `none` when they are rejected. -/
def resolveFlow (correlator : FlowCorrelator) (flow : FlowArguments) : Option ResolvedFlow :=
  if validAddresses flow.srcIp flow.dstIp then
    let (exporterId, srcEpId, dstEpId) :=
      correlator.correlate flow.exporterIp flow.srcIp flow.dstIp
    (fromTimestamp flow.startTimeUnix).map fun datetime ↦
      { key := ⟨truncateToMinute datetime, exporterId.getD sentinelUuid, srcEpId, dstEpId,
          flow.srcIp, flow.dstIp, flow.protocol, normalizeServicePort flow.srcPort flow.dstPort⟩
        flowBytes := flow.flowBytes
        flowPackets := flow.flowPackets
        interfaceExporter := if exporterId = some sentinelUuid then none else exporterId
        inIf := flow.inIf
        outIf := flow.outIf }
  else none

namespace ResolvedFlow

/-- The counters of one flow. -/
def counters (flow : ResolvedFlow) : FlowCounters := ⟨flow.flowBytes, flow.flowPackets, 1⟩

/-- The posting of a flow to the flow ledger. -/
def posting (flow : ResolvedFlow) : FlowKey × FlowCounters := (flow.key, flow.counters)

/-- The key of an interface of the exporter in the minute of the flow. -/
def interfaceKey (flow : ResolvedFlow) (exporter : UUID) (index : ℤ) : InterfaceKey :=
  ⟨flow.key.bucket, exporter, index⟩

/-- What a flow contributes to an interface: its traffic in each direction, and one flow when it
enters or leaves there. -/
def interfaceShare (flow : ResolvedFlow) (key : InterfaceKey) : InterfaceCounters :=
  if flow.interfaceExporter = some key.exporterId ∧ flow.key.bucket = key.bucket ∧
      validInterface key.interfaceIdx then
    { inBytes := if flow.inIf = key.interfaceIdx then flow.flowBytes else 0
      outBytes := if flow.outIf = key.interfaceIdx then flow.flowBytes else 0
      inPackets := if flow.inIf = key.interfaceIdx then flow.flowPackets else 0
      outPackets := if flow.outIf = key.interfaceIdx then flow.flowPackets else 0
      flowCount := if flow.inIf = key.interfaceIdx ∨ flow.outIf = key.interfaceIdx then 1 else 0 }
  else 0

/-- The interface keys that a flow touches, each once. -/
def interfaceKeys (flow : ResolvedFlow) : List InterfaceKey :=
  match flow.interfaceExporter with
  | none => []
  | some exporter =>
    (([flow.inIf, flow.outIf].filter validInterface).dedup).map (flow.interfaceKey exporter)

/-- The postings of a flow to the interface ledger, one for each interface it touches. -/
def interfacePostings (flow : ResolvedFlow) : List (InterfaceKey × InterfaceCounters) :=
  flow.interfaceKeys.map fun key ↦ (key, flow.interfaceShare key)

theorem count_posting (flow : ResolvedFlow) : 0 < FlowCounters.count flow.posting.2 :=
  Int.one_pos

theorem mem_interfaceKeys (flow : ResolvedFlow) (key : InterfaceKey) :
    key ∈ flow.interfaceKeys ↔
      flow.interfaceExporter = some key.exporterId ∧ flow.key.bucket = key.bucket ∧
        validInterface key.interfaceIdx ∧
          (flow.inIf = key.interfaceIdx ∨ flow.outIf = key.interfaceIdx) := by
  obtain ⟨bucket, exporter, index⟩ := key
  unfold interfaceKeys
  cases hexporter : flow.interfaceExporter with
  | none => simp
  | some owner =>
    simp only [List.mem_map, List.mem_dedup, List.mem_filter, List.mem_cons, List.not_mem_nil,
      or_false, interfaceKey, InterfaceKey.mk.injEq, Option.some_inj]
    constructor
    · rintro ⟨_, ⟨hindex, hvalid⟩, rfl, rfl, rfl⟩
      exact ⟨rfl, rfl, hvalid, hindex.imp Eq.symm Eq.symm⟩
    · rintro ⟨rfl, rfl, hvalid, hindex⟩
      exact ⟨index, ⟨hindex.imp Eq.symm Eq.symm, hvalid⟩, rfl, rfl, rfl⟩

/-- Every interface posting counts one flow. -/
theorem count_interfacePostings (flow : ResolvedFlow) :
    ∀ posting ∈ flow.interfacePostings, 0 < InterfaceCounters.count posting.2 := by
  intro posting hposting
  obtain ⟨key, hkey, rfl⟩ := List.mem_map.mp hposting
  obtain ⟨hexporter, hbucket, hvalid, hindex⟩ := (flow.mem_interfaceKeys key).mp hkey
  show 0 < (flow.interfaceShare key).flowCount
  rw [interfaceShare, if_pos ⟨hexporter, hbucket, hvalid⟩]
  simp [hindex]

/-- A flow contributes nothing to an interface it does not touch. -/
theorem interfaceShare_eq_zero (flow : ResolvedFlow) {key : InterfaceKey}
    (hkey : key ∉ flow.interfaceKeys) : flow.interfaceShare key = 0 := by
  unfold interfaceShare
  by_cases hcond : flow.interfaceExporter = some key.exporterId ∧ flow.key.bucket = key.bucket ∧
      validInterface key.interfaceIdx
  · rw [if_pos hcond]
    have hindex : ¬ (flow.inIf = key.interfaceIdx ∨ flow.outIf = key.interfaceIdx) := fun h ↦
      hkey ((flow.mem_interfaceKeys key).mpr ⟨hcond.1, hcond.2.1, hcond.2.2, h⟩)
    rw [not_or] at hindex
    simp only [hindex.1, hindex.2, or_self, ↓reduceIte]
    rfl
  · rw [if_neg hcond]

end ResolvedFlow

/-- The interface accumulator after ingress attribution. -/
theorem interfaceAccumulator_accumulateIngress (accumulators : Accumulators) (bucket : ℤ)
    (exporterId : UUID) (inIf flowBytes flowPackets : ℤ) :
    (accumulateIngress accumulators bucket exporterId inIf flowBytes
        flowPackets).interfaceAccumulator =
      if validInterface inIf then Ledger.credit accumulators.interfaceAccumulator
        ⟨bucket, exporterId, inIf⟩ ⟨flowBytes, 0, flowPackets, 0, 1⟩
      else accumulators.interfaceAccumulator := by
  unfold accumulateIngress
  split <;> rfl

/-- The interface accumulator after egress attribution. -/
theorem interfaceAccumulator_accumulateEgress (accumulators : Accumulators) (bucket : ℤ)
    (exporterId : UUID) (inIf outIf flowBytes flowPackets : ℤ) :
    (accumulateEgress accumulators bucket exporterId inIf outIf flowBytes
        flowPackets).interfaceAccumulator =
      if validInterface outIf then Ledger.credit accumulators.interfaceAccumulator
        ⟨bucket, exporterId, outIf⟩ ⟨0, flowBytes, 0, flowPackets, if outIf ≠ inIf then 1 else 0⟩
      else accumulators.interfaceAccumulator := by
  unfold accumulateEgress
  split <;> rfl

/-- `accumulate_interface_flow` posts to the interface ledger what the flow contributes there.
Assumes: the exporter is not the sentinel. -/
theorem get?_accumulateInterfaceFlow (accumulators : Accumulators) (flow : ResolvedFlow)
    (hsentinel : flow.interfaceExporter ≠ some sentinelUuid) (key : InterfaceKey) :
    (accumulateInterfaceFlow accumulators flow.key.bucket flow.interfaceExporter flow.inIf
        flow.outIf flow.flowBytes flow.flowPackets).interfaceAccumulator.get? key =
      (Ledger.post accumulators.interfaceAccumulator flow.interfacePostings).get? key := by
  cases hexporter : flow.interfaceExporter with
  | none =>
    simp [accumulateInterfaceFlow, ResolvedFlow.interfacePostings, ResolvedFlow.interfaceKeys,
      hexporter, Ledger.post]
  | some exporter =>
    have hne : exporter ≠ sentinelUuid := fun h ↦ hsentinel (by rw [hexporter, h])
    simp only [accumulateInterfaceFlow, if_neg hne, interfaceAccumulator_accumulateEgress,
      interfaceAccumulator_accumulateIngress]
    have hpostings : ∀ indexes : List ℤ,
        ([flow.inIf, flow.outIf].filter validInterface).dedup = indexes →
        flow.interfacePostings = indexes.map fun index ↦
          (flow.interfaceKey exporter index, flow.interfaceShare (flow.interfaceKey exporter index))
        := by
      rintro _ rfl
      simp [ResolvedFlow.interfacePostings, ResolvedFlow.interfaceKeys, hexporter]
    by_cases hin : validInterface flow.inIf <;> by_cases hout : validInterface flow.outIf
    · by_cases hsame : flow.outIf = flow.inIf
      · -- One interface: two updates of one entry are one posting.
        rw [hpostings [flow.inIf] (by simp [hin, hsame])]
        rw [if_pos hin, if_pos hout, hsame]
        simp only [ne_eq, not_true_eq_false, ↓reduceIte]
        rw [Ledger.get?_credit_credit, InterfaceCounters.mk_add_mk]
        simp [Ledger.post, ResolvedFlow.interfaceShare, ResolvedFlow.interfaceKey, hexporter, hin,
          hsame]
      · rw [hpostings [flow.inIf, flow.outIf] (by simp [hin, hout, Ne.symm hsame])]
        simp [Ledger.post, ResolvedFlow.interfaceShare, ResolvedFlow.interfaceKey, hexporter, hin,
          hout, hsame, Ne.symm hsame]
    · have hsame : flow.outIf ≠ flow.inIf := fun h ↦ hout (h ▸ hin)
      rw [hpostings [flow.inIf] (by simp [hin, hout])]
      simp [Ledger.post, ResolvedFlow.interfaceShare, ResolvedFlow.interfaceKey, hexporter, hin,
        hout, hsame]
    · have hsame : flow.outIf ≠ flow.inIf := fun h ↦ hin (h ▸ hout)
      rw [hpostings [flow.outIf] (by simp [hin, hout])]
      simp [Ledger.post, ResolvedFlow.interfaceShare, ResolvedFlow.interfaceKey, hexporter, hin,
        hout, hsame, Ne.symm hsame]
    · rw [hpostings [] (by simp [hin, hout])]
      simp [Ledger.post, hin, hout]

theorem accumulator_accumulateInterfaceFlow (accumulators : Accumulators) (bucket : ℤ)
    (exporterId : Option UUID) (inIf outIf flowBytes flowPackets : ℤ) :
    (accumulateInterfaceFlow accumulators bucket exporterId inIf outIf flowBytes
      flowPackets).accumulator = accumulators.accumulator := by
  unfold accumulateInterfaceFlow accumulateEgress accumulateIngress
  split
  · rfl
  · split
    · rfl
    · split <;> split <;> rfl

/-- The exporter whose interfaces a flow is attributed to is never the sentinel. -/
theorem interfaceExporter_resolveFlow {correlator : FlowCorrelator} {flow : FlowArguments}
    {resolved : ResolvedFlow} (hresolve : resolveFlow correlator flow = some resolved) :
    resolved.interfaceExporter ≠ some sentinelUuid := by
  unfold resolveFlow at hresolve
  split at hresolve
  · obtain ⟨datetime, -, rfl⟩ := Option.map_eq_some_iff.mp hresolve
    dsimp only
    split
    · exact Option.some_ne_none _ |>.symm
    · assumption
  · exact absurd hresolve.symm (Option.some_ne_none _)

/-- The check for the sentinel in `accumulate_flow` repeats the one in
`accumulate_interface_flow`. -/
theorem interfaceAccumulator_guarded (first second : Accumulators)
    (hsame : first.interfaceAccumulator = second.interfaceAccumulator) (bucket : ℤ)
    (exporterId : Option UUID) (inIf outIf flowBytes flowPackets : ℤ) :
    (if exporterId ≠ none ∧ exporterId ≠ some sentinelUuid then
        accumulateInterfaceFlow first bucket exporterId inIf outIf flowBytes flowPackets
      else first).interfaceAccumulator =
      (accumulateInterfaceFlow second bucket
        (if exporterId = some sentinelUuid then none else exporterId) inIf outIf flowBytes
        flowPackets).interfaceAccumulator := by
  cases exporterId with
  | none => simpa [accumulateInterfaceFlow] using hsame
  | some exporter =>
    by_cases hsentinel : exporter = sentinelUuid
    · simpa [accumulateInterfaceFlow, hsentinel] using hsame
    · simp [accumulateInterfaceFlow, hsentinel, interfaceAccumulator_accumulateEgress,
        interfaceAccumulator_accumulateIngress, hsame]

/-- Rejected flows leave the accumulators as they are. -/
theorem accumulateFlow_of_resolveFlow_eq_none {correlator : FlowCorrelator} {flow : FlowArguments}
    (accumulators : Accumulators) (hresolve : resolveFlow correlator flow = none) :
    (accumulateFlow correlator accumulators flow).getD accumulators = accumulators := by
  unfold accumulateFlow
  unfold resolveFlow at hresolve
  by_cases hvalid : validAddresses flow.srcIp flow.dstIp
  · rw [if_pos hvalid, Option.map_eq_none_iff] at hresolve
    simp [hvalid, hresolve]
  · simp [hvalid]

/-- A flow that is not rejected is posted once to the flow ledger, and once to the ledger of every
interface it touches. -/
theorem accumulateFlow_of_resolveFlow {correlator : FlowCorrelator} {flow : FlowArguments}
    {resolved : ResolvedFlow} (accumulators : Accumulators)
    (hresolve : resolveFlow correlator flow = some resolved) :
    ∃ next, accumulateFlow correlator accumulators flow = some next ∧
      next.accumulator = Ledger.credit accumulators.accumulator resolved.key resolved.counters ∧
      ∀ key, next.interfaceAccumulator.get? key =
        (Ledger.post accumulators.interfaceAccumulator resolved.interfacePostings).get? key := by
  have hsentinel := interfaceExporter_resolveFlow hresolve
  unfold resolveFlow at hresolve
  by_cases hvalid : validAddresses flow.srcIp flow.dstIp
  · rw [if_pos hvalid] at hresolve
    obtain ⟨datetime, hdatetime, rfl⟩ := Option.map_eq_some_iff.mp hresolve
    refine ⟨_, by simp only [accumulateFlow, hvalid, not_true_eq_false, ↓reduceIte, hdatetime,
      Option.map_some]; rfl, ?_, ?_⟩
    · split
      · rw [accumulator_accumulateInterfaceFlow]
        rfl
      · rfl
    · intro key
      rw [← get?_accumulateInterfaceFlow accumulators _ hsentinel key]
      refine congrArg (·.get? key) (interfaceAccumulator_guarded _ accumulators ?_ _ _ _ _ _ _)
      rfl
  · rw [if_neg hvalid] at hresolve
    exact absurd hresolve.symm (Option.some_ne_none _)

end Lnmp.Flow
