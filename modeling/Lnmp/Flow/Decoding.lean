import Lnmp.Flow.Collector
import Lnmp.Flow.Records
import Lnmp.Flow.Wire

/-!
# Decoding data sets

The records of a data set are its bytes cut into pieces of the length of the template (`chunks`),
and its flows are the flows of these records (`dictsOf_readRecords_v9`,
`dictsOf_readRecords_ipfix`). `decodePackets` runs a parser over a list of datagrams.
-/

set_option autoImplicit false
set_option relaxedAutoImplicit false

namespace Lnmp.Flow

open Lnmp.Foundation

/-! ### Records of a data set -/

/-- The pieces of a given length of some bytes, without what is left over. -/
def chunks (size : ℕ) (payload : List UInt8) : List (List UInt8) :=
  (List.range (payload.length / size)).map fun index ↦ slice payload (index * size) size

theorem chunks_append {size : ℕ} (hsize : 0 < size) {first : List UInt8}
    (hfirst : first.length = size) (rest : List UInt8) :
    chunks size (first ++ rest) = first :: chunks size rest := by
  have hcount : (first ++ rest).length / size = rest.length / size + 1 := by
    rw [List.length_append, hfirst, Nat.add_div_left _ hsize]
  rw [chunks, hcount, List.range_succ_eq_map, List.map_cons, List.map_map, chunks]
  congr 1
  · rw [Nat.zero_mul, ← hfirst]
    exact slice_zero_append first rest
  · refine List.map_congr_left fun index _ ↦ ?_
    have hstart : (index + 1) * size = first.length + index * size := by
      rw [hfirst, Nat.succ_mul, Nat.add_comm]
    rw [Function.comp_apply, Nat.succ_eq_add_one, hstart, slice_append]

/-- The pieces of records and padding are the records, and those of the padding. -/
theorem chunks_flatten {size : ℕ} (hsize : 0 < size) {records : List (List UInt8)}
    (hrecords : ∀ record ∈ records, record.length = size) (padding : List UInt8) :
    chunks size (records.flatten ++ padding) = records ++ chunks size padding := by
  induction records with
  | nil => rfl
  | cons record records ih =>
    rw [List.forall_mem_cons] at hrecords
    rw [List.flatten_cons, List.append_assoc, chunks_append hsize hrecords.1, ih hrecords.2]
    rfl

/-- Padding that is shorter than a record has no pieces. -/
theorem chunks_of_lt {size : ℕ} {padding : List UInt8} (hshort : padding.length < size) :
    chunks size padding = [] := by
  rw [chunks, Nat.div_eq_of_lt hshort]
  rfl

theorem length_of_mem_chunks {size : ℕ} {payload piece : List UInt8}
    (hmem : piece ∈ chunks size payload) : piece.length = size := by
  obtain ⟨index, hindex, rfl⟩ := List.mem_map.mp hmem
  refine length_slice ?_
  have hfits := Nat.mul_le_of_le_div _ _ _ (Nat.succ_le_of_lt (List.mem_range.mp hindex))
  rwa [Nat.succ_mul] at hfits

variable {Context Time : Type} {dialect : Dialect Context Time}

theorem map_data_splitRecords (exporterIp : String) (context : Context) (fields : List FieldSpec)
    (payload : List UInt8) :
    (splitRecords exporterIp context fields payload).map TemplateRecord.data =
      chunks (totalLength fields) payload := by
  rw [splitRecords, List.map_ofFn, chunks, List.ofFn_eq_map, ← List.map_coe_finRange_eq_range,
    List.map_map]
  rfl

/-- What the records of a data set have in common. -/
theorem eq_of_mem_splitRecords {exporterIp : String} {context : Context} {fields : List FieldSpec}
    {payload : List UInt8} {record : TemplateRecord Context}
    (hmem : record ∈ splitRecords exporterIp context fields payload) :
    record.exporterIp = exporterIp ∧ record.context = context ∧ record.fields = fields := by
  obtain ⟨index, rfl⟩ := (List.mem_ofFn' ..).mp hmem
  exact ⟨rfl, rfl, rfl⟩

/-- The dictionaries of the flows that were parsed. -/
def dictsOf (parsed : Option (List (TemplateFlow dialect))) : Option (List FlowDict) :=
  parsed.map fun flows ↦ flows.map TemplateFlow.flow

/-- Records that are each read as a flow or as nothing. -/
theorem dictsOf_readRecords {flowOf : TemplateRecord Context → Option FlowDict}
    {records : List (TemplateRecord Context)}
    (hread : ∀ record ∈ records, record.read dialect = some (flowOf record)) :
    dictsOf (readRecords dialect records) = some (records.filterMap flowOf) := by
  induction records with
  | nil => rfl
  | cons record records ih =>
    rw [List.forall_mem_cons] at hread
    have hrest := ih hread.2
    unfold readRecords
    split
    · rename_i hraised
      exact absurd (hread.1.symm.trans hraised) (Option.some_ne_none _)
    · rename_i hnothing
      rw [List.filterMap_cons_none (Option.some.inj (hread.1.symm.trans hnothing)), hrest]
    · rename_i flow hflow
      obtain ⟨flows, hflows, hmap⟩ := Option.map_eq_some_iff.mp hrest
      rw [List.filterMap_cons_some (Option.some.inj (hread.1.symm.trans hflow)), hflows, ← hmap]
      rfl

/-- Reading raises when reading one of the records does. -/
theorem readRecords_eq_none_iff {records : List (TemplateRecord Context)} :
    readRecords dialect records = none ↔ ∃ record ∈ records, record.read dialect = none := by
  induction records with
  | nil =>
    exact iff_of_false (Option.some_ne_none _) fun ⟨_, hmem, _⟩ ↦ absurd hmem List.not_mem_nil
  | cons record records ih =>
    rw [List.exists_mem_cons_iff, ← ih]
    conv_lhs => unfold readRecords
    split <;> simp_all

/-- The flows of a NetFlow v9 data set. -/
def v9Flows (exporterIp : String) (context : V9Context) (fields : List FieldSpec)
    (payload : List UInt8) : List FlowDict :=
  (chunks (totalLength fields) payload).filterMap fun data ↦
    v9Flow exporterIp context (elements fields data)

/-- The flows of an IPFIX data set. -/
def ipfixFlows (exporterIp : String) (exportTime : ℕ) (fields : List FieldSpec)
    (payload : List UInt8) : List FlowDict :=
  (chunks (totalLength fields) payload).filterMap fun data ↦
    ipfixFlow exporterIp exportTime (elements fields data)

/-- One of the times of an IPFIX data set is too large for a float. -/
def overflowsTimes (fields : List FieldSpec) (payload : List UInt8) : Bool :=
  (chunks (totalLength fields) payload).any fun data ↦ (elements fields data).any overflowsTime

theorem dictsOf_readRecords_v9 {exporterIp : String} {context : V9Context}
    {fields : List FieldSpec} (hsys : context.sysUptime < 256 ^ 4) (hshort : ShortUptimes fields)
    (payload : List UInt8) :
    dictsOf (readRecords v9Dialect (splitRecords exporterIp context fields payload)) =
      some (v9Flows exporterIp context fields payload) := by
  have hread : ∀ record ∈ splitRecords exporterIp context fields payload,
      record.read v9Dialect = some (v9Flow exporterIp context (elements fields record.data)) := by
    intro record hmem
    obtain ⟨rfl, rfl, rfl⟩ := eq_of_mem_splitRecords hmem
    exact read_v9 hsys hshort
  rw [dictsOf_readRecords hread, v9Flows, ← map_data_splitRecords exporterIp context,
    List.filterMap_map]
  rfl

theorem dictsOf_readRecords_ipfix (exporterIp : String) (exportTime : ℕ) (fields : List FieldSpec)
    (payload : List UInt8) :
    dictsOf (readRecords ipfixDialect (splitRecords exporterIp exportTime fields payload)) =
      if overflowsTimes fields payload then none
      else some (ipfixFlows exporterIp exportTime fields payload) := by
  have hread : ∀ record ∈ splitRecords exporterIp exportTime fields payload,
      record.read ipfixDialect = if (elements fields record.data).any overflowsTime then none
        else some (ipfixFlow exporterIp exportTime (elements fields record.data)) := by
    intro record hmem
    obtain ⟨rfl, rfl, rfl⟩ := eq_of_mem_splitRecords hmem
    exact read_ipfix record
  have hany : overflowsTimes fields payload = true ↔
      ∃ record ∈ splitRecords exporterIp exportTime fields payload,
        (elements fields record.data).any overflowsTime = true := by
    rw [overflowsTimes, ← map_data_splitRecords exporterIp exportTime, List.any_map,
      List.any_eq_true]
    rfl
  split_ifs with hoverflow
  · obtain ⟨record, hmem, hrecord⟩ := hany.mp hoverflow
    rw [readRecords_eq_none_iff.mpr ⟨record, hmem, by rw [hread record hmem, if_pos hrecord]⟩]
    rfl
  · have hsome : ∀ record ∈ splitRecords exporterIp exportTime fields payload,
        record.read ipfixDialect =
          some (ipfixFlow exporterIp exportTime (elements fields record.data)) := by
      intro record hmem
      rw [hread record hmem, if_neg fun hrecord ↦ hoverflow (hany.mpr ⟨record, hmem, hrecord⟩)]
    rw [dictsOf_readRecords hsome, ipfixFlows, ← map_data_splitRecords exporterIp exportTime,
      List.filterMap_map]
    rfl

/-! ### Packets -/

/-- The header of a packet: the source id, the times, and the bytes behind the header. -/
structure PacketHead (Context : Type) where
  sourceId : ℕ
  context : Context
  body : List UInt8

/-- The header of a v9 packet, nothing when the parser ignores the packet. -/
def readV9Head (data : List UInt8) : Option (PacketHead V9Context) :=
  if data.length < 20 ∨ unsignedAt data 0 2 ≠ 9 ∨ unsignedAt data 2 2 = 0 then none
  else
    some ⟨unsignedAt data 16 4, ⟨unsignedAt data 4 4, unsignedAt data 8 4⟩, data.drop 20⟩

/-- The header of an IPFIX message, nothing when the parser ignores the message. -/
def readIpfixHead (data : List UInt8) : Option (PacketHead ℕ) :=
  if data.length < 16 ∨ unsignedAt data 0 2 ≠ 10 ∨ data.length < unsignedAt data 2 2 then none
  else
    some ⟨unsignedAt data 12 4, unsignedAt data 4 4, (data.take (unsignedAt data 2 2)).drop 16⟩

/-- A v9 header. -/
structure V9Header where
  count : ℕ
  sysUptime : ℕ
  unixSecs : ℕ
  sequence : ℕ
  sourceId : ℕ
  count_pos : 0 < count
  count_lt : count < 256 ^ 2
  sysUptime_lt : sysUptime < 256 ^ 4
  unixSecs_lt : unixSecs < 256 ^ 4
  sequence_lt : sequence < 256 ^ 4
  sourceId_lt : sourceId < 256 ^ 4

/-- A v9 header as it is sent. -/
def V9Header.encode (head : V9Header) : List UInt8 :=
  toBytes 2 9 ++ (toBytes 2 head.count ++ (toBytes 4 head.sysUptime ++ (toBytes 4 head.unixSecs ++
    (toBytes 4 head.sequence ++ toBytes 4 head.sourceId))))

/-- The times of a v9 header. -/
def V9Header.context (head : V9Header) : V9Context := ⟨head.sysUptime, head.unixSecs⟩

theorem V9Header.length_encode (head : V9Header) : head.encode.length = 20 := by
  simp only [encode, List.length_append, length_toBytes]

/-- A v9 header is read back. -/
theorem readV9Head_encode (head : V9Header) (body : List UInt8) :
    readV9Head (head.encode ++ body) = some ⟨head.sourceId, head.context, body⟩ := by
  have hlength : ¬ (head.encode ++ body).length < 20 := by
    rw [List.length_append, head.length_encode]
    omega
  have hversion : unsignedAt (head.encode ++ body) 0 2 = 9 := by
    simp only [V9Header.encode, List.append_assoc]
    rw [unsignedAt_toBytes (by decide)]
  have hcount : unsignedAt (head.encode ++ body) 2 2 = head.count := by
    simp only [V9Header.encode, List.append_assoc]
    rw [unsignedAt_behind 2 9 0, unsignedAt_toBytes head.count_lt]
  have hsys : unsignedAt (head.encode ++ body) 4 4 = head.sysUptime := by
    simp only [V9Header.encode, List.append_assoc]
    rw [unsignedAt_behind 2 9 2, unsignedAt_behind 2 _ 0, unsignedAt_toBytes head.sysUptime_lt]
  have hunix : unsignedAt (head.encode ++ body) 8 4 = head.unixSecs := by
    simp only [V9Header.encode, List.append_assoc]
    rw [unsignedAt_behind 2 9 6, unsignedAt_behind 2 _ 4, unsignedAt_behind 4 _ 0,
      unsignedAt_toBytes head.unixSecs_lt]
  have hsource : unsignedAt (head.encode ++ body) 16 4 = head.sourceId := by
    simp only [V9Header.encode, List.append_assoc]
    rw [unsignedAt_behind 2 9 14, unsignedAt_behind 2 _ 12, unsignedAt_behind 4 _ 8,
      unsignedAt_behind 4 _ 4, unsignedAt_behind 4 _ 0, unsignedAt_toBytes head.sourceId_lt]
  have hbody : (head.encode ++ body).drop 20 = body := List.drop_left' head.length_encode
  rw [readV9Head, hversion, hcount, hsys, hunix, hsource, hbody,
    if_neg (by simp only [hlength, ne_eq, not_true_eq_false, false_or]; exact head.count_pos.ne')]
  rfl

/-- An IPFIX header. -/
structure IpfixHeader where
  exportTime : ℕ
  sequence : ℕ
  domainId : ℕ
  exportTime_lt : exportTime < 256 ^ 4
  sequence_lt : sequence < 256 ^ 4
  domainId_lt : domainId < 256 ^ 4

/-- An IPFIX header in front of a body of a given length, as it is sent. -/
def IpfixHeader.encode (head : IpfixHeader) (length : ℕ) : List UInt8 :=
  toBytes 2 10 ++ (toBytes 2 (16 + length) ++ (toBytes 4 head.exportTime ++
    (toBytes 4 head.sequence ++ toBytes 4 head.domainId)))

theorem IpfixHeader.length_encode (head : IpfixHeader) (length : ℕ) :
    (head.encode length).length = 16 := by
  simp only [encode, List.length_append, length_toBytes]

/-- An IPFIX header is read back. Assumes: its length fits the header. -/
theorem readIpfixHead_encode (head : IpfixHeader) {body : List UInt8}
    (hfits : 16 + body.length < 256 ^ 2) :
    readIpfixHead (head.encode body.length ++ body) =
      some ⟨head.domainId, head.exportTime, body⟩ := by
  have hlength : (head.encode body.length ++ body).length = 16 + body.length := by
    rw [List.length_append, head.length_encode]
  have hversion : unsignedAt (head.encode body.length ++ body) 0 2 = 10 := by
    simp only [IpfixHeader.encode, List.append_assoc]
    rw [unsignedAt_toBytes (by decide)]
  have htotal : unsignedAt (head.encode body.length ++ body) 2 2 = 16 + body.length := by
    simp only [IpfixHeader.encode, List.append_assoc]
    rw [unsignedAt_behind 2 10 0, unsignedAt_toBytes hfits]
  have htime : unsignedAt (head.encode body.length ++ body) 4 4 = head.exportTime := by
    simp only [IpfixHeader.encode, List.append_assoc]
    rw [unsignedAt_behind 2 10 2, unsignedAt_behind 2 _ 0, unsignedAt_toBytes head.exportTime_lt]
  have hdomain : unsignedAt (head.encode body.length ++ body) 12 4 = head.domainId := by
    simp only [IpfixHeader.encode, List.append_assoc]
    rw [unsignedAt_behind 2 10 10, unsignedAt_behind 2 _ 8, unsignedAt_behind 4 _ 4,
      unsignedAt_behind 4 _ 0, unsignedAt_toBytes head.domainId_lt]
  have hbody : ((head.encode body.length ++ body).take (16 + body.length)).drop 16 = body := by
    rw [← hlength, List.take_length]
    exact List.drop_left' (head.length_encode _)
  rw [readIpfixHead, hversion, htotal, htime, hdomain, hbody, hlength,
    if_neg (by simp)]

/-- `parse_packet` behind the header. -/
def Dialect.parsePacket (dialect : Dialect Context Time)
    (readHead : List UInt8 → Option (PacketHead Context)) (parser : TemplateParser Context)
    (datagram : Datagram) : TemplateParser Context × Option (List (TemplateFlow dialect)) :=
  match readHead datagram.data with
  | none => (parser, some [])
  | some head =>
    parseSets dialect datagram.now datagram.exporterIp head.sourceId head.context head.body parser

theorem parsePacket_v9 (parser : TemplateParser V9Context) (datagram : Datagram) :
    v9Dialect.parsePacket readV9Head parser datagram =
      parseV9Packet datagram.now datagram.data datagram.exporterIp parser := by
  rw [Dialect.parsePacket, readV9Head, parseV9Packet]
  split_ifs <;> rfl

theorem parsePacket_ipfix (parser : TemplateParser ℕ) (datagram : Datagram) :
    ipfixDialect.parsePacket readIpfixHead parser datagram =
      parseIpfixPacket datagram.now datagram.data datagram.exporterIp parser := by
  rw [Dialect.parsePacket, readIpfixHead, parseIpfixPacket]
  split_ifs <;> rfl

/-- A parser over a list of datagrams, with what it returns for each of them. -/
def decodePackets {Parser Packet Output : Type} (parse : Parser → Packet → Parser × Output) :
    Parser → List Packet → Parser × List Output
  | parser, [] => (parser, [])
  | parser, packet :: rest =>
    let (next, output) := parse parser packet
    let (finish, outputs) := decodePackets parse next rest
    (finish, output :: outputs)

/-- `V9Parser.parse_packet` for a datagram. -/
def decodeV9 (parser : TemplateParser V9Context) (datagram : Datagram) :
    TemplateParser V9Context × Option (List (TemplateFlow v9Dialect)) :=
  parseV9Packet datagram.now datagram.data datagram.exporterIp parser

/-- `IPFIXParser.parse_packet` for a datagram. -/
def decodeIpfix (parser : TemplateParser ℕ) (datagram : Datagram) :
    TemplateParser ℕ × Option (List (TemplateFlow ipfixDialect)) :=
  parseIpfixPacket datagram.now datagram.data datagram.exporterIp parser

end Lnmp.Flow
