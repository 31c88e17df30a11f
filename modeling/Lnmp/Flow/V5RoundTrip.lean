import Lnmp.Flow.Wire

/-!
# NetFlow v5 packets as they are sent

The encoder's side of NetFlow v5: the header of a packet, whose count is the number of its records,
and the twenty fields of a record. `parseV5Packet_encode` says that the parser reads back one flow
for every record, and that a packet that is cut off behind its header still gives the flows of the
records that are whole.
-/

set_option autoImplicit false
set_option relaxedAutoImplicit false

namespace Lnmp.Flow

open Lnmp.Foundation Lnmp.Foundation.IpAddress

/-! ### Encoding -/

/-- The header of a v5 packet, without version and count. -/
structure V5Header where
  sysUptime : ℕ
  unixSecs : ℕ
  unixNsecs : ℕ
  flowSeq : ℕ
  engineType : ℕ
  engineId : ℕ
  rawSampling : ℕ
  sysUptime_lt : sysUptime < 256 ^ 4
  unixSecs_lt : unixSecs < 256 ^ 4
  unixNsecs_lt : unixNsecs < 256 ^ 4
  flowSeq_lt : flowSeq < 256 ^ 4
  engineType_lt : engineType < 256 ^ 1
  engineId_lt : engineId < 256 ^ 1
  rawSampling_lt : rawSampling < 256 ^ 2

/-- A header as it is sent in front of some number of records. -/
def V5Header.encode (head : V5Header) (count : ℕ) : List UInt8 :=
  toBytes 2 5 ++ (toBytes 2 count ++ (toBytes 4 head.sysUptime ++ (toBytes 4 head.unixSecs ++
    (toBytes 4 head.unixNsecs ++ (toBytes 4 head.flowSeq ++ (toBytes 1 head.engineType ++
      (toBytes 1 head.engineId ++ toBytes 2 head.rawSampling)))))))

/-- A record of a v5 packet, with its padding. -/
structure V5Export where
  srcIp : ℕ
  dstIp : ℕ
  nexthop : ℕ
  inputIf : ℕ
  outputIf : ℕ
  dPkts : ℕ
  dOctets : ℕ
  firstMs : ℕ
  lastMs : ℕ
  srcPort : ℕ
  dstPort : ℕ
  pad1 : ℕ
  tcpFlags : ℕ
  protocol : ℕ
  tos : ℕ
  srcAs : ℕ
  dstAs : ℕ
  srcMask : ℕ
  dstMask : ℕ
  pad2 : ℕ
  srcIp_lt : srcIp < 256 ^ 4
  dstIp_lt : dstIp < 256 ^ 4
  nexthop_lt : nexthop < 256 ^ 4
  inputIf_lt : inputIf < 256 ^ 2
  outputIf_lt : outputIf < 256 ^ 2
  dPkts_lt : dPkts < 256 ^ 4
  dOctets_lt : dOctets < 256 ^ 4
  firstMs_lt : firstMs < 256 ^ 4
  lastMs_lt : lastMs < 256 ^ 4
  srcPort_lt : srcPort < 256 ^ 2
  dstPort_lt : dstPort < 256 ^ 2
  pad1_lt : pad1 < 256 ^ 1
  tcpFlags_lt : tcpFlags < 256 ^ 1
  protocol_lt : protocol < 256 ^ 1
  tos_lt : tos < 256 ^ 1
  srcAs_lt : srcAs < 256 ^ 2
  dstAs_lt : dstAs < 256 ^ 2
  srcMask_lt : srcMask < 256 ^ 1
  dstMask_lt : dstMask < 256 ^ 1
  pad2_lt : pad2 < 256 ^ 2

/-- A record as it is sent. -/
def V5Export.encode (sent : V5Export) : List UInt8 :=
  toBytes 4 sent.srcIp ++ (toBytes 4 sent.dstIp ++ (toBytes 4 sent.nexthop ++
    (toBytes 2 sent.inputIf ++ (toBytes 2 sent.outputIf ++ (toBytes 4 sent.dPkts ++
      (toBytes 4 sent.dOctets ++ (toBytes 4 sent.firstMs ++ (toBytes 4 sent.lastMs ++
        (toBytes 2 sent.srcPort ++ (toBytes 2 sent.dstPort ++ (toBytes 1 sent.pad1 ++
          (toBytes 1 sent.tcpFlags ++ (toBytes 1 sent.protocol ++ (toBytes 1 sent.tos ++
            (toBytes 2 sent.srcAs ++ (toBytes 2 sent.dstAs ++ (toBytes 1 sent.srcMask ++
              (toBytes 1 sent.dstMask ++ toBytes 2 sent.pad2))))))))))))))))))

/-- A packet as it is sent. -/
def encodeV5 (head : V5Header) (sent : List V5Export) : List UInt8 :=
  head.encode sent.length ++ sent.flatMap V5Export.encode

/-! ### What is meant -/

/-- The sampling interval, one when there is none. -/
def V5Header.samplingInterval (head : V5Header) : ℕ :=
  if head.rawSampling % 2 ^ 14 = 0 then 1 else head.rawSampling % 2 ^ 14

/-- The octets of an address, the most significant first. -/
def addressOctets (address : ℕ) : List ℕ :=
  [address / 2 ^ 24 % 256, address / 2 ^ 16 % 256, address / 2 ^ 8 % 256, address % 256]

/-- The flow that a record stands for. -/
def V5Export.flow (head : V5Header) (exporterIp : String) (sent : V5Export) : FlowDict where
  version := 5
  exporterIp := exporterIp
  srcIp := inetNtopV4 (addressOctets sent.srcIp)
  dstIp := inetNtopV4 (addressOctets sent.dstIp)
  srcPort := sent.srcPort
  dstPort := sent.dstPort
  protocol := sent.protocol
  bytes := sent.dOctets * head.samplingInterval
  packets := sent.dPkts * head.samplingInterval
  tcpFlags := sent.tcpFlags
  inputIf := sent.inputIf
  outputIf := sent.outputIf
  startTime := calcFlowTime head.sysUptime head.unixSecs sent.firstMs
  endTime := calcFlowTime head.sysUptime head.unixSecs sent.lastMs

/-- The flows that the parser returns. -/
def v5Flows (data : List UInt8) (exporterIp : String) : List FlowDict :=
  (parseV5Packet data exporterIp).map V5Record.flow

/-! ### Fields -/

section Fields

/-- A number is read past. -/
theorem unsignedAt_skip {size offset : ℕ} (hsize : size ≤ offset) (value length : ℕ)
    (rest : List UInt8) :
    unsignedAt (toBytes size value ++ rest) offset length =
      unsignedAt rest (offset - size) length := by
  have hbehind := unsignedAt_behind size value (offset - size) length rest
  rwa [Nat.add_sub_cancel' hsize] at hbehind

theorem slice_skip {size offset : ℕ} (hsize : size ≤ offset) (value length : ℕ)
    (rest : List UInt8) :
    slice (toBytes size value ++ rest) offset length = slice rest (offset - size) length := by
  have happend := slice_append (toBytes size value) rest (offset - size) length
  rwa [length_toBytes, Nat.add_sub_cancel' hsize] at happend

theorem slice_toBytes (size value : ℕ) (rest : List UInt8) :
    slice (toBytes size value ++ rest) 0 size = toBytes size value := by
  have hfront := slice_zero_append (toBytes size value) rest
  rwa [length_toBytes] at hfront

theorem octets_toBytes (address : ℕ) : octets (toBytes 4 address) = addressOctets address := by
  simp only [toBytes, octets, List.nil_append, List.cons_append, List.map_cons, List.map_nil,
    UInt8.toNat_ofNat', Nat.div_div_eq_div_mul]
  rfl

theorem length_encode_header (head : V5Header) (count : ℕ) : (head.encode count).length = 24 := by
  simp only [V5Header.encode, List.length_append, length_toBytes]

theorem length_encode_export (sent : V5Export) : sent.encode.length = 48 := by
  simp only [V5Export.encode, List.length_append, length_toBytes]

/-- The flow of the bytes of a header and a record. -/
theorem flow_eq {record : V5Record} {head : V5Header} {sent : V5Export} {count : ℕ}
    (hheader : record.header = head.encode count) (hrecord : record.record = sent.encode) :
    record.flow = sent.flow head record.exporterIp := by
  have hsampling : record.multiplier = head.samplingInterval := by
    have hraw : unsignedAt record.header 22 2 = head.rawSampling := by
      rw [hheader, V5Header.encode]
      simp (disch := decide) only [unsignedAt_skip, Nat.reduceSub]
      have hlast := unsignedAt_toBytes head.rawSampling_lt []
      rwa [List.append_nil] at hlast
    rw [V5Record.multiplier, V5Header.samplingInterval, hraw]
    split_ifs <;> omega
  have hsys : unsignedAt record.header 4 4 = head.sysUptime := by
    rw [hheader, V5Header.encode]
    simp (disch := decide) only [unsignedAt_skip, Nat.reduceSub,
      unsignedAt_toBytes head.sysUptime_lt]
  have hunix : unsignedAt record.header 8 4 = head.unixSecs := by
    rw [hheader, V5Header.encode]
    simp (disch := decide) only [unsignedAt_skip, Nat.reduceSub,
      unsignedAt_toBytes head.unixSecs_lt]
  simp (disch := decide) only [V5Record.flow, V5Export.flow, hsampling, hsys, hunix, hrecord,
    V5Export.encode, slice_skip, unsignedAt_skip, Nat.reduceSub, slice_toBytes, octets_toBytes,
    unsignedAt_toBytes sent.inputIf_lt, unsignedAt_toBytes sent.outputIf_lt,
    unsignedAt_toBytes sent.dPkts_lt, unsignedAt_toBytes sent.dOctets_lt,
    unsignedAt_toBytes sent.firstMs_lt, unsignedAt_toBytes sent.lastMs_lt,
    unsignedAt_toBytes sent.srcPort_lt, unsignedAt_toBytes sent.dstPort_lt,
    unsignedAt_toBytes sent.tcpFlags_lt, unsignedAt_toBytes sent.protocol_lt]

end Fields

/-! ### Packets -/

section Packets

variable {head : V5Header} {sent : List V5Export} {exporterIp : String} {length : ℕ}

theorem length_encodeV5 : (encodeV5 head sent).length = 24 + sent.length * 48 := by
  have hrecords : (sent.flatMap V5Export.encode).length = sent.length * 48 := by
    induction sent with
    | nil => rfl
    | cons first sent ih =>
      rw [List.flatMap_cons, List.length_append, length_encode_export, ih, List.length_cons]
      omega
  rw [encodeV5, List.length_append, length_encode_header, hrecords]

/-- What is read in front of a cut is not touched by it. -/
theorem slice_take {data : List UInt8} {start size : ℕ} (hwhole : start + size ≤ length) :
    slice (data.take length) start size = slice data start size := by
  rw [slice, slice, List.drop_take, List.take_take]
  congr 1
  omega

theorem unsignedAt_take {data : List UInt8} {start size : ℕ} (hwhole : start + size ≤ length) :
    unsignedAt (data.take length) start size = unsignedAt data start size := by
  rw [unsignedAt, slice_take hwhole, unsignedAt]

/-- A record stands behind the header and the records before it. -/
theorem slice_encodeV5 {index : ℕ} (hindex : index < sent.length) :
    slice (encodeV5 head sent) (24 + index * 48) 48 = sent[index].encode := by
  have hbehind := slice_append (head.encode sent.length) (sent.flatMap V5Export.encode)
    (index * 48) 48
  rw [length_encode_header] at hbehind
  rw [encodeV5, hbehind]
  clear hbehind
  induction sent generalizing index with
  | nil => exact absurd hindex (Nat.not_lt_zero _)
  | cons first sent ih =>
    rw [List.flatMap_cons]
    cases index with
    | zero =>
      have hfront := slice_zero_append first.encode (sent.flatMap V5Export.encode)
      rwa [length_encode_export] at hfront
    | succ index =>
      have hbehind := slice_append first.encode (sent.flatMap V5Export.encode) (index * 48) 48
      rw [length_encode_export, Nat.add_comm, ← Nat.succ_mul] at hbehind
      rw [hbehind, List.getElem_cons_succ]
      exact ih (Nat.lt_of_succ_lt_succ hindex)

/-- The parser sees the records that are whole, as far as the header counts. -/
theorem v5RecordCount_take (hcount : 0 < sent.length) (hfits : sent.length < 256 ^ 2)
    (hheader : 24 ≤ length) (hlength : length ≤ (encodeV5 head sent).length) :
    v5RecordCount ((encodeV5 head sent).take length) = min sent.length ((length - 24) / 48) := by
  have hversion : unsignedAt ((encodeV5 head sent).take length) 0 2 = 5 := by
    rw [unsignedAt_take (by omega), encodeV5, V5Header.encode, List.append_assoc]
    exact unsignedAt_toBytes (by decide) _
  have hrecords : unsignedAt ((encodeV5 head sent).take length) 2 2 = sent.length := by
    rw [unsignedAt_take (by omega), encodeV5, V5Header.encode, List.append_assoc,
      unsignedAt_skip le_rfl, List.append_assoc]
    exact unsignedAt_toBytes hfits _
  rw [v5RecordCount, hversion, hrecords, List.length_take, Nat.min_eq_left hlength,
    if_neg (by omega)]

/-- A packet that is cut off behind its header gives the flows of the records that are whole. -/
theorem v5Flows_take (hcount : 0 < sent.length) (hfits : sent.length < 256 ^ 2)
    (hheader : 24 ≤ length) (hlength : length ≤ (encodeV5 head sent).length) :
    v5Flows ((encodeV5 head sent).take length) exporterIp =
      (sent.map (V5Export.flow head exporterIp)).take ((length - 24) / 48) := by
  have hseen := v5RecordCount_take hcount hfits hheader hlength
  refine List.ext_getElem ?_ fun index hleft hright ↦ ?_
  · rw [v5Flows, List.length_map, parseV5Packet, List.length_ofFn, hseen, List.length_take,
      List.length_map, Nat.min_comm]
  · rw [List.length_take, List.length_map, lt_min_iff] at hright
    simp only [v5Flows, parseV5Packet, List.getElem_map, List.getElem_ofFn, List.getElem_take]
    have hhead : slice ((encodeV5 head sent).take length) 0 24 = head.encode sent.length := by
      have hfront := slice_zero_append (head.encode sent.length) (sent.flatMap V5Export.encode)
      rw [length_encode_header] at hfront
      rw [slice_take hheader, encodeV5, hfront]
    have hrecord : slice ((encodeV5 head sent).take length) (24 + index * 48) 48 =
        sent[index].encode := by
      rw [slice_take (by omega), slice_encodeV5 hright.2]
    exact flow_eq hhead hrecord

end Packets

/-- The parser returns the flow of every record in order, and for a packet that is cut off behind
its header a prefix of these flows with every record that is whole. -/
theorem parseV5Packet_encode (head : V5Header) (sent : List V5Export) (exporterIp : String)
    (hcount : 0 < sent.length) (hfits : sent.length < 256 ^ 2) :
    v5Flows (encodeV5 head sent) exporterIp = sent.map (V5Export.flow head exporterIp) ∧
      ∀ length, 24 ≤ length → length ≤ (encodeV5 head sent).length →
        v5Flows ((encodeV5 head sent).take length) exporterIp <+:
            v5Flows (encodeV5 head sent) exporterIp ∧
          ∀ index (hindex : index < sent.length), 24 + (index + 1) * 48 ≤ length →
            (v5Flows ((encodeV5 head sent).take length) exporterIp)[index]? =
              some (sent[index].flow head exporterIp) := by
  have hwhole : v5Flows (encodeV5 head sent) exporterIp =
      sent.map (V5Export.flow head exporterIp) := by
    have hcut : v5Flows ((encodeV5 head sent).take (encodeV5 head sent).length) exporterIp =
        (sent.map (V5Export.flow head exporterIp)).take
          (((encodeV5 head sent).length - 24) / 48) :=
      v5Flows_take hcount hfits (Nat.le.intro length_encodeV5.symm) le_rfl
    rw [List.take_length] at hcut
    rw [hcut, length_encodeV5, Nat.add_sub_cancel_left, Nat.mul_div_cancel _ (by decide),
      ← List.length_map (f := V5Export.flow head exporterIp), List.take_length]
  refine ⟨hwhole, fun length hheader hlength ↦ ?_⟩
  rw [hwhole, v5Flows_take hcount hfits hheader hlength]
  refine ⟨List.take_prefix _ _, fun index hindex hinside ↦ ?_⟩
  rw [List.getElem?_take_of_lt (by omega), List.getElem?_map, List.getElem?_eq_getElem hindex,
    Option.map_some]

/-- The sampling word for one packet of a hundred. -/
def sampledEveryHundred : ℕ := 16484

/-- The octets of a packet. -/
def octetsOfPacket : ℕ := 1500

theorem sampledEveryHundred_lt : sampledEveryHundred < 256 ^ 2 := by decide

theorem octetsOfPacket_lt : octetsOfPacket < 256 ^ 4 := by decide

/-- The header of a packet that samples one of a hundred. -/
def sampledV5Header : V5Header where
  sysUptime := 0
  unixSecs := 0
  unixNsecs := 0
  flowSeq := 0
  engineType := 0
  engineId := 0
  rawSampling := sampledEveryHundred
  sysUptime_lt := zero_lt_bytes 4
  unixSecs_lt := zero_lt_bytes 4
  unixNsecs_lt := zero_lt_bytes 4
  flowSeq_lt := zero_lt_bytes 4
  engineType_lt := zero_lt_bytes 1
  engineId_lt := zero_lt_bytes 1
  rawSampling_lt := sampledEveryHundred_lt

/-- A record of 1500 octets. -/
def octetsV5Export : V5Export where
  srcIp := 0
  dstIp := 0
  nexthop := 0
  inputIf := 0
  outputIf := 0
  dPkts := 0
  dOctets := octetsOfPacket
  firstMs := 0
  lastMs := 0
  srcPort := 0
  dstPort := 0
  pad1 := 0
  tcpFlags := 0
  protocol := 0
  tos := 0
  srcAs := 0
  dstAs := 0
  srcMask := 0
  dstMask := 0
  pad2 := 0
  srcIp_lt := zero_lt_bytes 4
  dstIp_lt := zero_lt_bytes 4
  nexthop_lt := zero_lt_bytes 4
  inputIf_lt := zero_lt_bytes 2
  outputIf_lt := zero_lt_bytes 2
  dPkts_lt := zero_lt_bytes 4
  dOctets_lt := octetsOfPacket_lt
  firstMs_lt := zero_lt_bytes 4
  lastMs_lt := zero_lt_bytes 4
  srcPort_lt := zero_lt_bytes 2
  dstPort_lt := zero_lt_bytes 2
  pad1_lt := zero_lt_bytes 1
  tcpFlags_lt := zero_lt_bytes 1
  protocol_lt := zero_lt_bytes 1
  tos_lt := zero_lt_bytes 1
  srcAs_lt := zero_lt_bytes 2
  dstAs_lt := zero_lt_bytes 2
  srcMask_lt := zero_lt_bytes 1
  dstMask_lt := zero_lt_bytes 1
  pad2_lt := zero_lt_bytes 2

theorem parseV5Packet_encode_sampled :
    v5Flows (encodeV5 sampledV5Header [octetsV5Export]) "192.0.2.1" =
        [octetsV5Export.flow sampledV5Header "192.0.2.1"] ∧
      (v5Flows ((encodeV5 sampledV5Header [octetsV5Export, octetsV5Export]).take 100)
        "192.0.2.1")[0]? = some (octetsV5Export.flow sampledV5Header "192.0.2.1") := by
  obtain ⟨hone, -⟩ := parseV5Packet_encode sampledV5Header [octetsV5Export] "192.0.2.1"
    (by decide) (by decide)
  obtain ⟨-, hcut⟩ := parseV5Packet_encode sampledV5Header [octetsV5Export, octetsV5Export]
    "192.0.2.1" (by decide) (by decide)
  have hlength : (encodeV5 sampledV5Header [octetsV5Export, octetsV5Export]).length = 120 :=
    length_encodeV5
  exact ⟨hone, (hcut 100 (by decide) (by rw [hlength]; decide)).2 0 (by decide) (by decide)⟩

end Lnmp.Flow
