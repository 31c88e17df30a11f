import Lnmp.Flow.Collector

/-!
# What datagrams can do to the tables

The way of a number from the wire to a column of the rollup tables: out of the record, through the
text of the stream entry, and through the consumer. A pipeline is unpoisoned when every queued flow
can be encoded, and every flow that the consumer makes of an entry fits the columns.

Nothing on the way bounds the numbers of a v9 or IPFIX record: their lengths come from the template.
`unpoisoned_iff` says which datagrams are harmless: those whose records are in bounds on the wire.
Records of v5, the interface indexes and the addresses are in bounds by themselves.
-/

set_option autoImplicit false
set_option relaxedAutoImplicit false

namespace Lnmp.Flow

open Lnmp.Foundation Lnmp.Foundation.PythonText Lnmp.Foundation.IpAddress Lnmp.Foundation.Runs

/-! ### Columns -/

/-- A flow fits the columns of the rollup tables: its own row does, and every interface entry that
it creates has an index that does. -/
structure FlowArguments.Fits (flow : FlowArguments) : Prop where
  protocol : fitsSigned 16 flow.protocol = true
  dstPort : fitsSigned 32 (normalizeServicePort flow.srcPort flow.dstPort) = true
  bytes : 0 ≤ flow.flowBytes ∧ fitsSigned 64 flow.flowBytes = true
  packets : 0 ≤ flow.flowPackets ∧ fitsSigned 64 flow.flowPackets = true
  interfaces : ∀ correlator accumulators next key,
    accumulateFlow correlator accumulators flow = some next →
      accumulators.interfaceAccumulator.get? key = none →
        next.interfaceAccumulator.get? key ≠ none → fitsSigned 32 key.interfaceIdx = true

/-- Every interface entry that a flow creates has an index that fits its column. -/
theorem fitsSigned_interfaceIdx {correlator : FlowCorrelator} {accumulators next : Accumulators}
    {flow : FlowArguments} {key : InterfaceKey}
    (hnext : accumulateFlow correlator accumulators flow = some next)
    (hbefore : accumulators.interfaceAccumulator.get? key = none)
    (hafter : next.interfaceAccumulator.get? key ≠ none) :
    fitsSigned 32 key.interfaceIdx = true := by
  cases hresolve : resolveFlow correlator flow with
  | none =>
    have hsame := accumulateFlow_of_resolveFlow_eq_none accumulators hresolve
    rw [hnext, Option.getD_some] at hsame
    exact absurd hbefore (hsame ▸ hafter)
  | some resolved =>
    obtain ⟨other, hother, -, hposted⟩ := accumulateFlow_of_resolveFlow accumulators hresolve
    obtain rfl := Option.some.inj (hnext.symm.trans hother)
    have hkey : key ∈ resolved.interfacePostings.map Prod.fst := by
      by_contra hno
      rw [hposted key, Ledger.get?_post_of_notMem hno] at hafter
      exact hafter hbefore
    obtain ⟨_, hposting, rfl⟩ := List.mem_map.mp hkey
    obtain ⟨touched, htouched, rfl⟩ := List.mem_map.mp hposting
    obtain ⟨-, -, hvalid, -⟩ := (resolved.mem_interfaceKeys touched).mp htouched
    simp only [validInterface, decide_eq_true_eq] at hvalid
    simp only [fitsSigned, decide_eq_true_eq]
    omega

/-- A natural number fits a signed column exactly when it is below the bound of the column. -/
theorem fitsSigned_natCast (bits number : ℕ) :
    fitsSigned bits (number : ℤ) = true ↔ number < 2 ^ (bits - 1) := by
  have hpos : (0 : ℤ) < 2 ^ (bits - 1) := by positivity
  have hcast : ((2 ^ (bits - 1) : ℕ) : ℤ) = 2 ^ (bits - 1) := by push_cast; rfl
  rw [fitsSigned, decide_eq_true_eq, ← hcast]
  omega

/-- The row of a flow fits its table exactly when the numbers of the flow fit their columns.
Assumes: the database takes its addresses. -/
theorem fits_ofEntry_iff {Inet : Type*} [DecidableEq Inet] (castInet : String → Option Inet)
    {correlator : FlowCorrelator} {flow : FlowArguments} {resolved : ResolvedFlow}
    (hresolve : resolveFlow correlator flow = some resolved)
    (hcast : (resolved.key.primaryKey.cast castInet).isSome = true) :
    (RollupRow.ofEntry resolved.key resolved.counters).fits castInet = true ↔
      fitsSigned 16 flow.protocol = true ∧
        fitsSigned 32 (normalizeServicePort flow.srcPort flow.dstPort) = true ∧
          fitsSigned 64 flow.flowBytes = true ∧ fitsSigned 64 flow.flowPackets = true := by
  unfold resolveFlow at hresolve
  split at hresolve
  · obtain ⟨datetime, -, rfl⟩ := Option.map_eq_some_iff.mp hresolve
    have hcount : fitsSigned 32 1 = true := by decide
    simp only [RollupRow.fits, RollupRow.key_ofEntry, hcast, true_and, decide_eq_true_eq]
    simp [RollupRow.ofEntry, FlowKey.primaryKey, ResolvedFlow.counters, hcount]
  · exact absurd hresolve.symm (Option.some_ne_none _)

/-! ### Bounds on the wire -/

/-- The numbers of a record, by their elements, are in bounds. A destination port out of bounds is
replaced when the source port is a service port. -/
structure NumbersInBounds (number : ℕ → ℕ) : Prop where
  protocol : number 4 < 2 ^ 15
  octets : number 1 < 2 ^ 63
  packets : number 2 < 2 ^ 63
  ports : number 11 < 2 ^ 31 ∨ number 7 < 1024 ∨
    number 7 ∈ [8080, 8443, 3306, 5432, 6379, 9200]
  digits : ∀ ieId ∈ numberElements, number ieId < 10 ^ maxStrDigits

/-- Only the elements that hold numbers matter. -/
theorem NumbersInBounds.congr {first second : ℕ → ℕ} (hfirst : NumbersInBounds first)
    (hsame : ∀ ieId ∈ numberElements, first ieId = second ieId) : NumbersInBounds second where
  protocol := hsame 4 (by decide) ▸ hfirst.protocol
  octets := hsame 1 (by decide) ▸ hfirst.octets
  packets := hsame 2 (by decide) ▸ hfirst.packets
  ports := hsame 11 (by decide) ▸ hsame 7 (by decide) ▸ hfirst.ports
  digits := fun ieId hieId ↦ hsame ieId hieId ▸ hfirst.digits ieId hieId

/-- A record is in bounds. -/
def WireRecord.InBounds : WireRecord → Prop
  | .v5 _ => True
  | .v9 record => NumbersInBounds record.number
  | .ipfix record => NumbersInBounds record.number

/-- The port of a rollup fits its column exactly when the destination port is in bounds or is
replaced. -/
theorem fitsSigned_normalizeServicePort (srcPort dstPort : ℕ) :
    fitsSigned 32 (normalizeServicePort srcPort dstPort) = true ↔
      dstPort < 2 ^ 31 ∨ srcPort < 1024 ∨ srcPort ∈ [8080, 8443, 3306, 5432, 6379, 9200] := by
  unfold normalizeServicePort
  split_ifs with hlow hlisted
  all_goals
    rw [fitsSigned_natCast]
    simp only [List.mem_cons, List.not_mem_nil, or_false] at *
    omega

/-! ### Flows -/

/-- An entry is harmless when the flow that the consumer makes of it fits the columns. -/
def HarmlessEntry (entry : Fields) : Prop :=
  ∀ now flow, decodeMessage now entry = some flow → flow.Fits

/-- A flow is harmless when it can be encoded and its entry is harmless. -/
def Harmless (flow : FlowDict) : Prop :=
  ∃ entry, streamEntry flow = some entry ∧ HarmlessEntry entry

theorem FlowDict.fits_arguments_iff (flow : FlowDict) :
    flow.arguments.Fits ↔ flow.number 4 < 2 ^ 15 ∧ flow.number 1 < 2 ^ 63 ∧
      flow.number 2 < 2 ^ 63 ∧ (flow.number 11 < 2 ^ 31 ∨ flow.number 7 < 1024 ∨
        flow.number 7 ∈ [8080, 8443, 3306, 5432, 6379, 9200]) := by
  constructor
  · intro hfits
    exact ⟨(fitsSigned_natCast 16 _).mp hfits.protocol, (fitsSigned_natCast 64 _).mp hfits.bytes.2,
      (fitsSigned_natCast 64 _).mp hfits.packets.2,
      (fitsSigned_normalizeServicePort _ _).mp hfits.dstPort⟩
  · rintro ⟨hprotocol, hoctets, hpackets, hports⟩
    exact
      { protocol := (fitsSigned_natCast 16 _).mpr hprotocol
        dstPort := (fitsSigned_normalizeServicePort _ _).mpr hports
        bytes := ⟨Int.natCast_nonneg _, (fitsSigned_natCast 64 _).mpr hoctets⟩
        packets := ⟨Int.natCast_nonneg _, (fitsSigned_natCast 64 _).mpr hpackets⟩
        interfaces := fun _ _ _ _ ↦ fitsSigned_interfaceIdx }

/-- A flow with proper addresses is harmless exactly when its numbers are in bounds. -/
theorem FlowDict.harmless_iff {flow : FlowDict} (hsrc : IsAddressText flow.srcIp)
    (hdst : IsAddressText flow.dstIp) (hversion : flow.version < 10 ^ maxStrDigits) :
    Harmless flow ↔ NumbersInBounds flow.number := by
  constructor
  · rintro ⟨entry, hentry, hharmless⟩
    have hdecoded := decodeMessage_streamEntry .nonFinite hsrc hdst hentry
    obtain ⟨hprotocol, hoctets, hpackets, hports⟩ :=
      flow.fits_arguments_iff.mp (hharmless _ _ hdecoded)
    exact ⟨hprotocol, hoctets, hpackets, hports,
      ((isSome_streamEntry_iff flow).mp (Option.isSome_iff_exists.mpr ⟨entry, hentry⟩)).2⟩
  · intro hbounds
    obtain ⟨entry, hentry⟩ := Option.isSome_iff_exists.mp
      ((isSome_streamEntry_iff flow).mpr ⟨hversion, hbounds.digits⟩)
    refine ⟨entry, hentry, fun now decoded hdecoded ↦ ?_⟩
    rw [decodeMessage_streamEntry now hsrc hdst hentry] at hdecoded
    obtain rfl := Option.some.inj hdecoded
    exact flow.fits_arguments_iff.mpr
      ⟨hbounds.protocol, hbounds.octets, hbounds.packets, hbounds.ports⟩

/-- The multiplier of a v5 packet has 14 bits. -/
theorem V5Record.multiplier_lt (record : V5Record) : record.multiplier < 2 ^ 14 := by
  unfold V5Record.multiplier
  dsimp only
  split <;> omega

/-- A counter of a v5 record, times the multiplier, is far below the bounds. -/
theorem V5Record.mul_multiplier_lt (record : V5Record) (offset : ℕ) :
    unsignedAt record.record offset 4 * record.multiplier < 2 ^ 46 :=
  (Nat.mul_lt_mul'' (unsignedAt_lt record.record offset 4) record.multiplier_lt).trans_le
    (by norm_num)

/-- The numbers of a v5 record are in bounds. -/
theorem V5Record.numbersInBounds (record : V5Record) : NumbersInBounds record.flow.number := by
  have hsrcPort := unsignedAt_lt record.record 32 2
  have hdstPort := unsignedAt_lt record.record 34 2
  have hprotocol := unsignedAt_lt record.record 38 1
  have hoctets := record.mul_multiplier_lt 20
  have hpackets := record.mul_multiplier_lt 16
  have hflags := unsignedAt_lt record.record 37 1
  have hinput := unsignedAt_lt record.record 12 2
  have houtput := unsignedAt_lt record.record 14 2
  have hnumbers : ∀ ieId ∈ numberElements, record.flow.number ieId < 2 ^ 46 := by
    simp only [numberElements, List.forall_mem_cons, List.not_mem_nil, false_implies, implies_true,
      and_true, FlowDict.number, V5Record.flow]
    omega
  have hfour : record.flow.number 4 < 2 ^ 15 := by
    simp only [FlowDict.number, V5Record.flow]
    omega
  have heleven : record.flow.number 11 < 2 ^ 31 := by
    simp only [FlowDict.number, V5Record.flow]
    omega
  exact
    { protocol := hfour
      octets := (hnumbers 1 (by decide)).trans (by norm_num)
      packets := (hnumbers 2 (by decide)).trans (by norm_num)
      ports := Or.inl heleven
      digits := fun ieId hieId ↦ lt_maxStrDigits ((hnumbers ieId hieId).trans (by norm_num)) }

/-- A flow that a template record gave is harmless exactly when the record is in bounds. -/
theorem TemplateFlow.harmless_iff {Context Time : Type} {dialect : Dialect Context Time}
    (hversion : dialect.version < 10 ^ maxStrDigits) (decoded : TemplateFlow dialect) :
    Harmless decoded.flow ↔ NumbersInBounds decoded.record.number := by
  obtain ⟨hsrc, hdst⟩ := decoded.isAddressText_flow
  obtain ⟨_, -, -, -, -, hsame⟩ := TemplateRecord.exists_vars decoded.read
  rw [FlowDict.harmless_iff hsrc hdst (hsame ▸ hversion)]
  constructor
  · exact fun hbounds ↦ hbounds.congr fun _ ↦ decoded.number_flow
  · exact fun hbounds ↦ hbounds.congr fun _ hieId ↦ (decoded.number_flow hieId).symm

/-- A flow is harmless exactly when its record is in bounds. -/
theorem DecodedFlow.harmless_iff (decoded : DecodedFlow) :
    Harmless decoded.flow ↔ decoded.record.InBounds := by
  obtain ⟨record, flow, hread⟩ := decoded
  cases record with
  | v5 record =>
    obtain rfl := Option.some.inj (Option.some.inj hread)
    refine iff_of_true ?_ trivial
    exact (FlowDict.harmless_iff record.isAddressText_flow.1 record.isAddressText_flow.2
      (lt_maxStrDigits (by decide : 5 < 2 ^ 64))).mpr record.numbersInBounds
  | v9 record =>
    exact TemplateFlow.harmless_iff (lt_maxStrDigits (by decide : 9 < 2 ^ 64)) ⟨record, flow, hread⟩
  | ipfix record =>
    exact TemplateFlow.harmless_iff (lt_maxStrDigits (by decide : 10 < 2 ^ 64))
      ⟨record, flow, hread⟩

/-! ### Runs -/

/-- Every queued flow is harmless, and so is every entry that was handed over. -/
structure Pipeline.Unpoisoned (pipeline : Pipeline) : Prop where
  queue : ∀ flow ∈ pipeline.collector.queue, Harmless flow
  pushed : ∀ entry ∈ pipeline.pushed, HarmlessEntry entry

/-- Every record of a datagram whose flow comes into the queue is in bounds. -/
def Pipeline.InBounds (pipeline : Pipeline) : PipelineEvent → Prop
  | .datagram datagram =>
    ∀ decoded ∈ (pipeline.collector.handlePacket datagram).2, decoded.record.InBounds
  | .flush => True

/-- A flush of an unpoisoned pipeline encodes the whole queue. -/
theorem Pipeline.Unpoisoned.isSome_mapM {pipeline : Pipeline} (hpipeline : pipeline.Unpoisoned) :
    (pipeline.collector.queue.mapM streamEntry).isSome = true := by
  refine isSome_mapM_iff.mpr fun flow hflow ↦ ?_
  obtain ⟨entry, hentry, -⟩ := hpipeline.queue flow hflow
  exact Option.isSome_iff_exists.mpr ⟨entry, hentry⟩

/-- The entries of a batch are those of its flows. -/
theorem exists_of_mem_mapM {flows : List FlowDict} {entries : List Fields}
    (hentries : flows.mapM streamEntry = some entries) :
    ∀ entry ∈ entries, ∃ flow ∈ flows, streamEntry flow = some entry := by
  intro entry hentry
  obtain ⟨hlength, hencoded⟩ := List.forall₂_iff_get.mp (forall₂_of_mapM hentries)
  obtain ⟨index, rfl⟩ := List.get_of_mem hentry
  have hindex : index.val < flows.length := index.isLt.trans_eq hlength.symm
  exact ⟨_, List.get_mem flows ⟨index.val, hindex⟩, hencoded index.val hindex index.isLt⟩

/-- A flush poisons nothing. -/
theorem Pipeline.unpoisoned_flush {pipeline : Pipeline} (hpipeline : pipeline.Unpoisoned) :
    pipeline.flush.Unpoisoned := by
  refine ⟨fun _ hmem ↦ absurd hmem List.not_mem_nil, fun entry hentry ↦ ?_⟩
  rcases List.mem_append.mp hentry with hold | hnew
  · exact hpipeline.pushed entry hold
  · obtain ⟨entries, hentries⟩ := Option.isSome_iff_exists.mp hpipeline.isSome_mapM
    rw [hentries, Option.getD_some] at hnew
    obtain ⟨flow, hflow, hencoded⟩ := exists_of_mem_mapM hentries entry hnew
    obtain ⟨other, hother, hharmless⟩ := hpipeline.queue flow hflow
    exact Option.some.inj (hencoded.symm.trans hother) ▸ hharmless

/-- A step keeps a pipeline unpoisoned exactly when its records are in bounds. -/
theorem Pipeline.unpoisoned_next_iff {pipeline : Pipeline} (hpipeline : pipeline.Unpoisoned)
    (event : PipelineEvent) : (pipeline.next event).Unpoisoned ↔ pipeline.InBounds event := by
  cases event with
  | datagram datagram =>
    have hqueue := pipeline.collector.queue_handlePacket datagram
    constructor
    · intro hnext decoded hdecoded
      refine decoded.harmless_iff.mp (hnext.queue decoded.flow ?_)
      show decoded.flow ∈ (pipeline.collector.handlePacket datagram).1.queue
      rw [hqueue]
      exact List.mem_append_right _ (List.mem_map_of_mem hdecoded)
    · intro hbounds
      refine ⟨fun flow hflow ↦ ?_, hpipeline.pushed⟩
      change flow ∈ (pipeline.collector.handlePacket datagram).1.queue at hflow
      rw [hqueue, List.mem_append] at hflow
      rcases hflow with hold | hnew
      · exact hpipeline.queue flow hold
      · obtain ⟨decoded, hdecoded, rfl⟩ := List.mem_map.mp hnew
        exact decoded.harmless_iff.mpr (hbounds decoded hdecoded)
  | flush => exact iff_of_true (Pipeline.unpoisoned_flush hpipeline) trivial

theorem Pipeline.unpoisoned_initial : Pipeline.initial.Unpoisoned :=
  ⟨fun _ hmem ↦ absurd hmem List.not_mem_nil, fun _ hmem ↦ absurd hmem List.not_mem_nil⟩

/-- Whatever datagrams arrive and whenever the queue is flushed: the pipeline stays unpoisoned
exactly as long as every record that comes into the queue is in bounds on the wire. -/
theorem unpoisoned_iff (events : List PipelineEvent) :
    EveryState Pipeline.step Pipeline.initial events Pipeline.Unpoisoned ↔
      EveryStep Pipeline.step Pipeline.initial events Pipeline.InBounds := by
  refine everyState_iff_everyStep (fun _ ↦ True) Pipeline.Unpoisoned (fun _ _ _ _ _ ↦ trivial) ?_
    trivial Pipeline.unpoisoned_initial (run_some Pipeline.next Pipeline.initial events)
  intro pipeline event next _ hpipeline hnext
  obtain rfl := Option.some.inj hnext
  exact Pipeline.unpoisoned_next_iff hpipeline event

/-- A v9 packet with a template of two addresses and a protocol of four bytes, and one record of
it, whose protocol is 65536. -/
def wideProtocol : Datagram where
  data := [0, 9, 0, 2, 0, 0, 0, 0, 0x65, 0, 0, 0, 0, 0, 0, 1, 0, 0, 0, 0] ++
    [0, 0, 0, 20, 1, 0, 0, 3, 0, 8, 0, 4, 0, 12, 0, 4, 0, 4, 0, 4] ++
    [1, 0, 0, 16, 198, 51, 100, 1, 198, 51, 100, 2, 0, 1, 0, 0]
  exporterIp := "192.0.2.1"
  now := 0x65000000

/-- The flow of that record. -/
def wideProtocolFlow : FlowDict where
  version := 9
  exporterIp := "192.0.2.1"
  srcIp := "198.51.100.1"
  dstIp := "198.51.100.2"
  srcPort := 0
  dstPort := 0
  protocol := 65536
  bytes := 0
  packets := 0
  tcpFlags := 0
  inputIf := 0
  outputIf := 0
  startTime := 0x65000000
  endTime := 0x65000000

/-- That one packet poisons the pipeline: the consumer makes a flow of it whose protocol does not
fit its column. -/
theorem poisoned_by_wideProtocol :
    ¬ EveryState Pipeline.step Pipeline.initial [.datagram wideProtocol] Pipeline.Unpoisoned := by
  intro hstates
  have hqueue : (Pipeline.initial.next (.datagram wideProtocol)).collector.queue =
      [wideProtocolFlow] := by decide
  have hsrc : IsAddressText wideProtocolFlow.srcIp := ⟨by decide, by decide⟩
  have hdst : IsAddressText wideProtocolFlow.dstIp := ⟨by decide, by decide⟩
  have hafter := hstates [.datagram wideProtocol] [] _ rfl rfl
  obtain ⟨entry, hentry, hharmless⟩ :=
    hafter.queue wideProtocolFlow (hqueue ▸ List.mem_singleton_self _)
  have hfits := hharmless .nonFinite _ (decodeMessage_streamEntry .nonFinite hsrc hdst hentry)
  exact absurd hfits.protocol (by decide)

end Lnmp.Flow
