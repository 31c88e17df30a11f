import Lnmp.Flow.Aggregator
import Lnmp.Flow.Elements

/-!
# The flow collector

`monitoring/flow/collector.py`: datagrams are decoded by their version into flows, which wait in a
queue until a flush encodes them as stream entries. A flow that is put into the queue is kept
together with the record that it was decoded from (`DecodedFlow`).

`Pipeline` is the collector with the entries that its flushes have handed to Redis so far. A flush
hands over either an entry for every flow of the queue or, when one of them cannot be encoded,
nothing; the queue is empty afterwards in either case. What Redis keeps of it is the consumer's
business.

`decodeMessage_streamEntry` is the round trip through the stream: the consumer reads the flow that
was encoded, with its start time rounded to thousandths and its interface indexes bounded.
-/

set_option autoImplicit false
set_option relaxedAutoImplicit false

namespace Lnmp.Flow

open Lnmp.Foundation Lnmp.Foundation.PythonText Lnmp.Foundation.IpAddress

/-! ### Records -/

/-- A data record as it was sent. -/
inductive WireRecord
  | v5 (record : V5Record)
  | v9 (record : TemplateRecord V9Context)
  | ipfix (record : TemplateRecord ℕ)

/-- Read a record: its flow, or nothing when it has none; `none` when it raises. -/
def WireRecord.read : WireRecord → Option (Option FlowDict)
  | .v5 record => some (some record.flow)
  | .v9 record => record.read v9Dialect
  | .ipfix record => record.read ipfixDialect

/-- A flow, and the record that it was decoded from. -/
structure DecodedFlow where
  record : WireRecord
  flow : FlowDict
  read : record.read = some (some flow)

/-- The flow of a v5 record. -/
def DecodedFlow.ofV5 (record : V5Record) : DecodedFlow := ⟨.v5 record, record.flow, rfl⟩

/-- A flow that the v9 parser read. -/
def DecodedFlow.ofV9 (decoded : TemplateFlow v9Dialect) : DecodedFlow :=
  ⟨.v9 decoded.record, decoded.flow, decoded.read⟩

/-- A flow that the IPFIX parser read. -/
def DecodedFlow.ofIpfix (decoded : TemplateFlow ipfixDialect) : DecodedFlow :=
  ⟨.ipfix decoded.record, decoded.flow, decoded.read⟩

/-- The addresses of a v5 flow are addresses. -/
theorem V5Record.isAddressText_flow (record : V5Record) :
    IsAddressText record.flow.srcIp ∧ IsAddressText record.flow.dstIp := by
  have hlength : ∀ start, start + 4 ≤ 48 → (slice record.record start 4).length = 4 :=
    fun start hstart ↦ length_slice (record.record_length ▸ hstart)
  exact ⟨isAddressText_inetNtopV4_octets (hlength 0 (by decide)),
    isAddressText_inetNtopV4_octets (hlength 4 (by decide))⟩

/-- The addresses of a flow are addresses, and its version is one of the three. -/
theorem DecodedFlow.isAddressText_flow (decoded : DecodedFlow) :
    IsAddressText decoded.flow.srcIp ∧ IsAddressText decoded.flow.dstIp ∧
      decoded.flow.version ∈ [5, 9, 10] := by
  obtain ⟨record, flow, hread⟩ := decoded
  cases record with
  | v5 record =>
    obtain rfl := Option.some.inj (Option.some.inj hread)
    exact ⟨record.isAddressText_flow.1, record.isAddressText_flow.2, List.mem_cons_self ..⟩
  | v9 record =>
    obtain ⟨hsrc, hdst⟩ := TemplateFlow.isAddressText_flow ⟨record, flow, hread⟩
    obtain ⟨_, -, -, -, -, hversion⟩ := TemplateRecord.exists_vars hread
    exact ⟨hsrc, hdst, hversion ▸ by decide⟩
  | ipfix record =>
    obtain ⟨hsrc, hdst⟩ := TemplateFlow.isAddressText_flow ⟨record, flow, hread⟩
    obtain ⟨_, -, -, -, -, hversion⟩ := TemplateRecord.exists_vars hread
    exact ⟨hsrc, hdst, hversion ▸ by decide⟩

/-! ### Receiving -/

/-- A datagram, its sender, and when it arrives. -/
structure Datagram where
  data : List UInt8
  exporterIp : String
  now : ℚ

/-- The state of a `FlowCollector`. -/
structure Collector where
  v9Parser : TemplateParser V9Context
  ipfixParser : TemplateParser ℕ
  queue : List FlowDict

/-- A collector that has received nothing. -/
def Collector.initial : Collector where
  v9Parser := TemplateParser.initial V9Context
  ipfixParser := TemplateParser.initial ℕ
  queue := []

/-- The bound of the queue. -/
def maxQueueSize : ℕ := 50000

/-- Whether datagrams of a sender are looked at. -/
def acceptsExporter (exporterIp : String) : Bool :=
  match ipAddress exporterIp with
  | none => false
  | some address =>
    ¬ (address.isMulticast ∨ (address.isLoopback ∧ address ≠ .v4 0x7f000001) ∨
      address.isUnspecified ∨ address.isReserved)

/-- Decode a packet by its version: the parsers behind it, and its flows, `none` when decoding
raises. -/
def Collector.decode (collector : Collector) (datagram : Datagram) :
    Collector × Option (List DecodedFlow) :=
  match unsignedAt datagram.data 0 2 with
  | 5 =>
    (collector, some ((parseV5Packet datagram.data datagram.exporterIp).map DecodedFlow.ofV5))
  | 9 =>
    let (parser, flows) :=
      parseV9Packet datagram.now datagram.data datagram.exporterIp collector.v9Parser
    ({ collector with v9Parser := parser }, flows.map (·.map DecodedFlow.ofV9))
  | 10 =>
    let (parser, flows) :=
      parseIpfixPacket datagram.now datagram.data datagram.exporterIp collector.ipfixParser
    ({ collector with ipfixParser := parser }, flows.map (·.map DecodedFlow.ofIpfix))
  | _ => (collector, some [])

/-- The flows that still fit the queue. -/
def Collector.takeIn (collector : Collector) (flows : List DecodedFlow) : List DecodedFlow :=
  if maxQueueSize ≤ collector.queue.length then []
  else flows.take (maxQueueSize - collector.queue.length)

/-- `handle_packet`, with the flows that it puts into the queue. -/
def Collector.handlePacket (collector : Collector) (datagram : Datagram) :
    Collector × List DecodedFlow :=
  if ¬ acceptsExporter datagram.exporterIp ∨ datagram.data.length < 2 then (collector, [])
  else
    match collector.decode datagram with
    | (decoded, none) => (decoded, [])
    | (decoded, some flows) =>
      ({ decoded with
        queue := decoded.queue ++ (decoded.takeIn flows).map DecodedFlow.flow },
        decoded.takeIn flows)

/-! ### Flushing -/

/-- The stream entry of a flow, `none` when one of its numbers has too many digits. -/
def streamEntry (flow : FlowDict) : Option Fields := do
  let version ← formatInt flow.version
  let srcPort ← formatInt flow.srcPort
  let dstPort ← formatInt flow.dstPort
  let protocol ← formatInt flow.protocol
  let bytes ← formatInt flow.bytes
  let packets ← formatInt flow.packets
  let tcpFlags ← formatInt flow.tcpFlags
  let inputIf ← formatInt flow.inputIf
  let outputIf ← formatInt flow.outputIf
  some
    { entries := [("v", version), ("exp", flow.exporterIp), ("src", flow.srcIp),
        ("dst", flow.dstIp), ("sport", srcPort), ("dport", dstPort), ("proto", protocol),
        ("b", bytes), ("p", packets), ("flags", tcpFlags), ("in_if", inputIf),
        ("out_if", outputIf), ("ts_start", formatMilli flow.startTime),
        ("ts_end", formatMilli flow.endTime)]
      nodup_keys := by simp }

/-- The entries of a batch are those of its flows, in order. -/
theorem forall₂_of_mapM {flows : List FlowDict} {entries : List Fields}
    (hentries : flows.mapM streamEntry = some entries) :
    List.Forall₂ (fun flow entry ↦ streamEntry flow = some entry) flows entries := by
  induction flows generalizing entries with
  | nil =>
    obtain rfl := Option.some.inj hentries
    exact .nil
  | cons flow flows ih =>
    rw [List.mapM_cons] at hentries
    obtain ⟨first, hfirst, hentries⟩ := Option.bind_eq_some_iff.mp hentries
    obtain ⟨rest, hrest, hentries⟩ := Option.bind_eq_some_iff.mp hentries
    obtain rfl := Option.some.inj hentries
    exact .cons hfirst (ih hrest)

/-- The collector, and the entries that were handed to Redis. -/
structure Pipeline where
  collector : Collector
  pushed : List Fields

/-- A pipeline that has received nothing. -/
def Pipeline.initial : Pipeline := ⟨Collector.initial, []⟩

/-- A datagram arrives, or the queue is flushed. -/
inductive PipelineEvent
  | datagram (datagram : Datagram)
  | flush

/-- `flush`: the batch is lost when one of its flows cannot be encoded. -/
def Pipeline.flush (pipeline : Pipeline) : Pipeline where
  collector := { pipeline.collector with queue := [] }
  pushed := pipeline.pushed ++ (pipeline.collector.queue.mapM streamEntry).getD []

/-- One step of the pipeline. -/
def Pipeline.next (pipeline : Pipeline) : PipelineEvent → Pipeline
  | .datagram datagram =>
    { pipeline with collector := (pipeline.collector.handlePacket datagram).1 }
  | .flush => pipeline.flush

/-- The pipeline as a transition system, in which every event can happen. -/
def Pipeline.step (pipeline : Pipeline) (event : PipelineEvent) : Option Pipeline :=
  some (pipeline.next event)

/-- Decoding leaves the queue as it is. -/
theorem Collector.queue_decode (collector : Collector) (datagram : Datagram) :
    (collector.decode datagram).1.queue = collector.queue := by
  unfold Collector.decode
  split <;> rfl

/-- A datagram puts the flows into the queue that `handle_packet` accepts. -/
theorem Collector.queue_handlePacket (collector : Collector) (datagram : Datagram) :
    (collector.handlePacket datagram).1.queue =
      collector.queue ++ (collector.handlePacket datagram).2.map DecodedFlow.flow := by
  have hqueue := collector.queue_decode datagram
  unfold Collector.handlePacket
  split_ifs with hignored
  · rw [List.map_nil, List.append_nil]
  · split
    · rename_i decoded hdecode
      rw [List.map_nil, List.append_nil, ← hqueue, hdecode]
    · rename_i decoded flows hdecode
      rw [hdecode] at hqueue
      rw [← hqueue]

/-- The queue stays within its bound. -/
theorem Collector.length_queue_handlePacket (collector : Collector) (datagram : Datagram)
    (hbound : collector.queue.length ≤ maxQueueSize) :
    (collector.handlePacket datagram).1.queue.length ≤ maxQueueSize := by
  have hqueue := collector.queue_decode datagram
  unfold Collector.handlePacket
  split_ifs
  · exact hbound
  · split
    · rename_i decoded hdecode
      rw [hdecode] at hqueue
      exact (congrArg List.length hqueue).trans_le hbound
    · rename_i decoded flows hdecode
      rw [hdecode] at hqueue
      have hdecoded : decoded.queue.length ≤ maxQueueSize :=
        (congrArg List.length hqueue).trans_le hbound
      simp only [List.length_append, List.length_map, Collector.takeIn]
      split_ifs
      · exact hdecoded
      · rw [List.length_take]
        omega

/-! ### Through the stream -/

/-- A time as it comes out of the stream. -/
def arrivedTime (time : ℚ) : PyFloat :=
  if time < 0 then (toPyFloat ((milli time : ℚ) / 1000)).neg
  else toPyFloat ((milli time : ℚ) / 1000)

/-- The call of `accumulate_flow` for a flow that went through the stream. -/
def FlowDict.arguments (flow : FlowDict) : FlowArguments where
  exporterIp := flow.exporterIp
  srcIp := flow.srcIp
  dstIp := flow.dstIp
  srcPort := flow.srcPort
  dstPort := flow.dstPort
  protocol := flow.protocol
  flowBytes := flow.bytes
  flowPackets := flow.packets
  startTimeUnix := arrivedTime flow.startTime
  inIf := boundedInterface flow.inputIf
  outIf := boundedInterface flow.outputIf

/-- A flow can be encoded exactly when none of its numbers has too many digits. -/
theorem isSome_streamEntry_iff (flow : FlowDict) :
    (streamEntry flow).isSome = true ↔
      flow.version < 10 ^ maxStrDigits ∧
        ∀ ieId ∈ numberElements, flow.number ieId < 10 ^ maxStrDigits := by
  have hformat : ∀ number : ℕ, (∃ text, formatInt number = some text) ↔
      number < 10 ^ maxStrDigits := fun number ↦ by
    rw [← Option.isSome_iff_exists, formatInt_isSome_iff, Int.natAbs_natCast]
  simp only [numberElements, List.forall_mem_cons, List.not_mem_nil, false_implies, implies_true,
    and_true, FlowDict.number, ← hformat]
  unfold streamEntry
  simp only [Option.isSome_iff_exists, Option.bind_eq_bind, Option.bind_eq_some_iff]
  constructor
  · rintro ⟨entry, version, hversion, srcPort, hsrcPort, dstPort, hdstPort, protocol, hprotocol,
      bytes, hbytes, packets, hpackets, tcpFlags, htcpFlags, inputIf, hinputIf, outputIf,
      houtputIf, -⟩
    exact ⟨⟨_, hversion⟩, ⟨_, hsrcPort⟩, ⟨_, hdstPort⟩, ⟨_, hprotocol⟩, ⟨_, hbytes⟩,
      ⟨_, hpackets⟩, ⟨_, htcpFlags⟩, ⟨_, hinputIf⟩, ⟨_, houtputIf⟩⟩
  · rintro ⟨⟨version, hversion⟩, ⟨srcPort, hsrcPort⟩, ⟨dstPort, hdstPort⟩,
      ⟨protocol, hprotocol⟩, ⟨bytes, hbytes⟩, ⟨packets, hpackets⟩, ⟨tcpFlags, htcpFlags⟩,
      ⟨inputIf, hinputIf⟩, ⟨outputIf, houtputIf⟩⟩
    exact ⟨_, version, hversion, srcPort, hsrcPort, dstPort, hdstPort, protocol, hprotocol, bytes,
      hbytes, packets, hpackets, tcpFlags, htcpFlags, inputIf, hinputIf, outputIf, houtputIf, rfl⟩

theorem lt_maxStrDigits {number : ℕ} (hnumber : number < 2 ^ 64) : number < 10 ^ maxStrDigits :=
  hnumber.trans_le ((by norm_num : (2 : ℕ) ^ 64 ≤ 10 ^ 20).trans
    (Nat.pow_le_pow_right (by decide) (by decide)))

/-- The consumer reads the flow that was encoded. Assumes: its addresses are addresses. -/
theorem decodeMessage_streamEntry (now : PyFloat) {flow : FlowDict} {entry : Fields}
    (hsrc : IsAddressText flow.srcIp) (hdst : IsAddressText flow.dstIp)
    (hentry : streamEntry flow = some entry) : decodeMessage now entry = some flow.arguments := by
  unfold streamEntry at hentry
  simp only [Option.bind_eq_bind, Option.bind_eq_some_iff] at hentry
  obtain ⟨version, -, srcPort, hsrcPort, dstPort, hdstPort, protocol, hprotocol, bytes, hbytes,
    packets, hpackets, tcpFlags, -, inputIf, hinputIf, outputIf, houtputIf, hdict⟩ := hentry
  obtain rfl := Option.some.inj hdict
  have hvalid : validAddresses flow.srcIp flow.dstIp = true := by
    simp [validAddresses, hsrc.1, hsrc.2, hdst.1, hdst.2]
  simp [decodeMessage, intField, floatField, Dict.get?, hvalid, parseInt_formatInt hsrcPort,
    parseInt_formatInt hdstPort, parseInt_formatInt hprotocol, parseInt_formatInt hbytes,
    parseInt_formatInt hpackets, parseInt_formatInt hinputIf, parseInt_formatInt houtputIf,
    parseFloat_formatMilli, FlowDict.arguments, arrivedTime, guard]

end Lnmp.Flow
