import Lnmp.Flow.Sets

/-!
# Decoding what was encoded

An exporter announces a template and sends records for it, in data sets and packets of its choice.
`decodeV9_encode` says that the v9 parser returns the flows of these records, and nothing else,
whatever the template is.
-/

set_option autoImplicit false
set_option relaxedAutoImplicit false

namespace Lnmp.Flow

open Lnmp.Foundation

/-! ### Records -/

/-- The values of the fields of a record. -/
structure RecordValues (fields : List FieldSpec) where
  values : List (List UInt8)
  lengths : values.map List.length = fields.map FieldSpec.length

/-- The fields of a record with their values. -/
def RecordValues.elements {fields : List FieldSpec} (record : RecordValues fields) :
    List (FieldSpec × List UInt8) := fields.zip record.values

/-- A record as it is sent. -/
def RecordValues.encode {fields : List FieldSpec} (record : RecordValues fields) : List UInt8 :=
  record.values.flatten

variable {fields : List FieldSpec}

theorem RecordValues.length_encode (record : RecordValues fields) :
    record.encode.length = totalLength fields := by
  rw [encode, List.length_flatten, record.lengths, totalLength]

theorem elements_flatten {values : List (List UInt8)}
    (hlengths : values.map List.length = fields.map FieldSpec.length) :
    elements fields values.flatten = fields.zip values := by
  induction fields generalizing values with
  | nil => rfl
  | cons field fields ih =>
    cases values with
    | nil => simp at hlengths
    | cons value values =>
      obtain ⟨hvalue, hvalues⟩ := List.cons.inj hlengths
      rw [List.flatten_cons, elements, List.zip_cons_cons, ← hvalue, List.take_left, List.drop_left,
        ih hvalues]

/-- The parser sees the fields of a record with their values. -/
theorem RecordValues.elements_encode (record : RecordValues fields) :
    Flow.elements fields record.encode = record.elements := elements_flatten record.lengths

/-- A field is no longer than its record. -/
theorem length_le_of_mem_elements {data : List UInt8} {element : FieldSpec × List UInt8}
    (hmem : element ∈ elements fields data) : element.2.length ≤ data.length := by
  induction fields generalizing data with
  | nil => exact absurd hmem List.not_mem_nil
  | cons field fields ih =>
    rcases List.mem_cons.mp hmem with rfl | hrest
    · exact List.length_take_le' ..
    · exact (ih hrest).trans (List.length_drop .. ▸ Nat.sub_le ..)

/-- Three bytes of padding hold no record with two addresses. -/
theorem filterMap_chunks_padding (flowOf : List (FieldSpec × List UInt8) → Option FlowDict)
    (hflow : ∀ fields, lastOf (addressOf 8 27) fields = none → flowOf fields = none)
    {padding : List UInt8} (hpadding : padding.length ≤ 3) :
    (chunks (totalLength fields) padding).filterMap
      (fun data ↦ flowOf (elements fields data)) = [] := by
  by_cases hshort : padding.length < totalLength fields
  · rw [chunks_of_lt hshort]
    rfl
  · refine List.filterMap_eq_nil_iff.mpr fun data hdata ↦ hflow _ (lastOf_eq_none ?_)
    intro element helement
    have hle := length_le_of_mem_elements helement
    rw [length_of_mem_chunks hdata] at hle
    exact addressOf_eq_none (by omega)

/-! ### What is sent -/

/-- A v9 template as an exporter may announce it: any fields that fit the specifiers and do not all
have length zero, with uptimes of at most four bytes. -/
structure V9Template where
  id : ℕ
  fields : List FieldSpec
  id_ge : 256 ≤ id
  id_lt : id < 65536
  fits : ∀ field ∈ fields, field.FitsV9
  count_lt : fields.length < 65536
  set_lt : (encodeTemplates encodeV9Spec [(id, fields)]).length + 4 < 65536
  length_pos : 0 < totalLength fields
  shortUptimes : ShortUptimes fields

/-- Some records of a template in one data set, behind which up to three bytes of padding come. -/
structure V9DataSet (template : V9Template) where
  records : List (RecordValues template.fields)
  padding : List UInt8
  padding_le : padding.length ≤ 3
  set_lt : ((records.map RecordValues.encode).flatten ++ padding).length + 4 < 65536

/-- A packet with data sets, and when it arrives. -/
structure V9DataPacket (template : V9Template) where
  now : ℚ
  head : V9Header
  dataSets : List (V9DataSet template)

/-- A data set as it is sent. -/
def V9DataSet.wire {template : V9Template} (dataSet : V9DataSet template) : WireSet where
  id := template.id
  payload := (dataSet.records.map RecordValues.encode).flatten ++ dataSet.padding
  id_lt := template.id_lt
  payload_lt := dataSet.set_lt

/-- A template set as it is sent. -/
def V9Template.wire (template : V9Template) : WireSet where
  id := 0
  payload := encodeTemplates encodeV9Spec [(template.id, template.fields)]
  id_lt := by decide
  payload_lt := template.set_lt

/-- The packet with the template as it arrives. -/
def V9Template.datagram (template : V9Template) (exporterIp : String) (now : ℚ)
    (head : V9Header) : Datagram where
  data := head.encode ++ encodeSets [template.wire]
  exporterIp := exporterIp
  now := now

/-- A packet with data sets as it arrives. -/
def V9DataPacket.datagram {template : V9Template} (packet : V9DataPacket template)
    (exporterIp : String) : Datagram where
  data := packet.head.encode ++ encodeSets (packet.dataSets.map V9DataSet.wire)
  exporterIp := exporterIp
  now := packet.now

/-- The flows of the records of a packet, in order. -/
def V9DataPacket.flows {template : V9Template} (packet : V9DataPacket template)
    (exporterIp : String) : List FlowDict :=
  packet.dataSets.flatMap fun dataSet ↦ dataSet.records.filterMap fun record ↦
    v9Flow exporterIp packet.head.context record.elements

variable {exporterIp : String} {template : V9Template} {now : ℚ} {head : V9Header}
  {parser : TemplateParser V9Context}

/-! ### The packet with the template -/

/-- The sets of a packet, behind any header that the parser reads. -/
theorem parsePacket_encodeSets {Context Time : Type} {dialect : Dialect Context Time}
    {readHead : List UInt8 → Option (PacketHead Context)} {datagram : Datagram}
    {parser : TemplateParser Context} {sourceId : ℕ} {context : Context} {sets : List WireSet}
    (hhead : readHead datagram.data = some ⟨sourceId, context, encodeSets sets⟩) :
    dialect.parsePacket readHead parser datagram =
      parseAll (parseSet dialect datagram.now datagram.exporterIp sourceId context)
        (parser.cleanupExpired datagram.now) (sets.map WireSet.received) := by
  have hsplit := splitSets_encodeSets sets []
  rw [List.append_nil, show splitSets [].length [] = [] from rfl, List.append_nil] at hsplit
  rw [Dialect.parsePacket, hhead]
  dsimp only
  rw [parseSets, hsplit]

theorem splitTemplates_v9 (template : V9Template) :
    splitTemplates v9Dialect.readSpec template.wire.payload.length template.wire.payload =
      [(template.id, template.fields)] := by
  refine splitTemplates_encodeTemplates ?_ ?_ ?_ (length_le_encodeTemplates _)
  · exact List.forall_mem_singleton.mpr ⟨template.id_ge, template.id_lt⟩
  · exact List.forall_mem_singleton.mpr template.count_lt
  · exact List.forall_mem_singleton.mpr fun spec hspec ↦
      readSpec_encodeV9Spec (template.fits spec hspec)

/-- Under a key that no data set waits for, a template is only stored. -/
theorem parseTemplate_of_not_waiting {Context Time : Type} (dialect : Dialect Context Time)
    {parser : TemplateParser Context} {sourceId : ℕ} {template : ℕ × List FieldSpec}
    (hwaiting : ∀ orphan ∈ parser.waiting (exporterIp, sourceId), orphan.templateId ≠ template.1) :
    (parseTemplate dialect now exporterIp sourceId parser template).1.templates =
        parser.templates.set (exporterIp, sourceId, template.1) ⟨template.2, now⟩ ∧
      dictsOf (parseTemplate dialect now exporterIp sourceId parser template).2 = some [] := by
  obtain ⟨hdrained, hflows⟩ := drained_parseTemplate dialect parser (fun _ ↦ [])
    fun orphan hmem _ hsame ↦ absurd hsame (hwaiting orphan hmem)
  refine ⟨hdrained.templates, hflows.trans (congrArg some ?_)⟩
  exact List.flatMap_eq_nil_iff.mpr fun _ _ ↦ rfl

/-- A packet with one template that no data set waits for stores the template. -/
theorem parsePacket_template {Context Time : Type} {dialect : Dialect Context Time}
    {readHead : List UInt8 → Option (PacketHead Context)} {datagram : Datagram}
    {parser : TemplateParser Context} {sourceId : ℕ} {context : Context} {set : WireSet}
    {template : ℕ × List FieldSpec}
    (hhead : readHead datagram.data = some ⟨sourceId, context, encodeSets [set]⟩)
    (hset : set.id = dialect.templateSetId)
    (hsplit : splitTemplates dialect.readSpec set.payload.length set.payload = [template])
    (hwaiting : ∀ orphan ∈ parser.waiting (datagram.exporterIp, sourceId),
      orphan.templateId ≠ template.1) :
    (dialect.parsePacket readHead parser datagram).1.templates.get?
        (datagram.exporterIp, sourceId, template.1) = some ⟨template.2, datagram.now⟩ ∧
      dictsOf (dialect.parsePacket readHead parser datagram).2 = some [] := by
  have hparse : dialect.parsePacket readHead parser datagram =
      parseTemplate dialect datagram.now datagram.exporterIp sourceId
        (parser.cleanupExpired datagram.now) template := by
    rw [parsePacket_encodeSets hhead, List.map_singleton, parseAll_singleton,
      parseSet_templates hset]
    refine (congrArg (parseAll _ _) hsplit).trans ?_
    exact parseAll_singleton ..
  have hcleaned : ∀ orphan ∈ (parser.cleanupExpired datagram.now).waiting
      (datagram.exporterIp, sourceId), orphan.templateId ≠ template.1 := hwaiting
  obtain ⟨htemplates, hflows⟩ := parseTemplate_of_not_waiting dialect hcleaned
  rw [hparse, htemplates, Dict.get?_set, if_pos rfl]
  exact ⟨rfl, hflows⟩

/-- After the packet with a template that no data set waits for, the parser has the template. -/
theorem decodeV9_datagram (now : ℚ)
    (hwaiting : ∀ orphan ∈ parser.waiting (exporterIp, head.sourceId),
      orphan.templateId ≠ template.id) :
    (decodeV9 parser (template.datagram exporterIp now head)).1.templates.get?
        (exporterIp, head.sourceId, template.id) = some ⟨template.fields, now⟩ ∧
      dictsOf (decodeV9 parser (template.datagram exporterIp now head)).2 = some [] := by
  have hhead : readV9Head (template.datagram exporterIp now head).data =
      some ⟨head.sourceId, head.context, encodeSets [template.wire]⟩ := readV9Head_encode head _
  rw [decodeV9, ← parsePacket_v9]
  obtain ⟨hget, hflows⟩ := parsePacket_template hhead rfl (splitTemplates_v9 template) hwaiting
  exact ⟨hget, hflows⟩

/-! ### The packets with records -/

/-- The flows of a data set are those of its records. -/
theorem V9DataSet.flows_eq (dataSet : V9DataSet template) (context : V9Context) :
    v9Flows exporterIp context template.fields dataSet.wire.payload =
      dataSet.records.filterMap fun record ↦ v9Flow exporterIp context record.elements := by
  have hlengths : ∀ record ∈ dataSet.records.map RecordValues.encode,
      record.length = totalLength template.fields := by
    intro record hmem
    obtain ⟨values, -, rfl⟩ := List.mem_map.mp hmem
    exact values.length_encode
  rw [v9Flows, V9DataSet.wire, chunks_flatten template.length_pos hlengths, List.filterMap_append,
    filterMap_chunks_padding (v9Flow exporterIp context)
      (fun fields hnone ↦ recordFlow_eq_none (Or.inl hnone)) dataSet.padding_le,
    List.append_nil, List.filterMap_map]
  refine List.filterMap_congr fun record _ ↦ ?_
  rw [Function.comp_apply, record.elements_encode]

/-- A packet with records of a template that the parser has gives their flows. -/
theorem decodeV9_packet {announced : ℚ} (packet : V9DataPacket template)
    (hget : parser.templates.get? (exporterIp, packet.head.sourceId, template.id) =
      some ⟨template.fields, announced⟩) (httl : packet.now - announced ≤ templateTtl) :
    (decodeV9 parser (packet.datagram exporterIp)).1 = parser.cleanupExpired packet.now ∧
      dictsOf (decodeV9 parser (packet.datagram exporterIp)).2 =
        some (packet.flows exporterIp) := by
  have hparse : decodeV9 parser (packet.datagram exporterIp) =
      parseAll (parseSet v9Dialect packet.now exporterIp packet.head.sourceId packet.head.context)
        (parser.cleanupExpired packet.now)
        ((packet.dataSets.map V9DataSet.wire).map WireSet.received) :=
    (parsePacket_v9 ..).symm.trans (parsePacket_encodeSets (readV9Head_encode packet.head _))
  have hkept : (parser.cleanupExpired packet.now).usable
      (exporterIp, packet.head.sourceId, template.id) = some ⟨template.fields, announced⟩ := by
    rw [TemplateParser.usable, get?_cleanupExpired_of_live hget httl]
    simp [Option.filter, template.length_pos.ne']
  have hkeeps : ∀ dataSet ∈ packet.dataSets,
      (parseSet v9Dialect packet.now exporterIp packet.head.sourceId packet.head.context
          (parser.cleanupExpired packet.now) dataSet.wire.received).1 =
          parser.cleanupExpired packet.now ∧
        dictsOf (parseSet v9Dialect packet.now exporterIp packet.head.sourceId
          packet.head.context (parser.cleanupExpired packet.now) dataSet.wire.received).2 =
          some (dataSet.records.filterMap fun record ↦
            v9Flow exporterIp packet.head.context record.elements) := by
    intro dataSet _
    have hdata : dataSet.wire.received.1 ≠ v9Dialect.templateSetId :=
      (Nat.zero_lt_of_lt template.id_ge).ne'
    rw [parseSet_of_usable hdata template.id_ge hkept, ← dataSet.flows_eq]
    exact ⟨rfl, dictsOf_readRecords_v9 packet.head.sysUptime_lt template.shortUptimes _⟩
  rw [hparse, List.map_map, parseAll_map]
  exact parseAll_of_keeps _ hkeeps

/-- Packets with records of a template that the parser has give their flows. -/
theorem decodePackets_v9 {announced : ℚ} {sourceId : ℕ} {packets : List (V9DataPacket template)}
    (hget : parser.templates.get? (exporterIp, sourceId, template.id) =
      some ⟨template.fields, announced⟩)
    (hsource : ∀ packet ∈ packets, packet.head.sourceId = sourceId)
    (httl : ∀ packet ∈ packets, packet.now - announced ≤ templateTtl) :
    (decodePackets decodeV9 parser (packets.map (V9DataPacket.datagram · exporterIp))).2.map
        dictsOf = packets.map fun packet ↦ some (packet.flows exporterIp) := by
  induction packets generalizing parser with
  | nil => rfl
  | cons packet packets ih =>
    rw [List.forall_mem_cons] at hsource httl
    obtain ⟨hsame, hsource⟩ := hsource
    obtain ⟨hstate, hflows⟩ := decodeV9_packet packet (hsame ▸ hget) httl.1
    have hrest := ih (get?_cleanupExpired_of_live hget httl.1) hsource httl.2
    rw [← hstate] at hrest
    rw [List.map_cons, decodePackets, List.map_cons, List.map_cons, hflows, hrest]

/-- The v9 parser undoes the encoder. An exporter announces a template, which may replace another
one, and sends records of it within the lifetime of the template, in any data sets and packets: the
parser returns, for each packet and in order, the flows of the records that have both addresses.
Assumes: no data set waits for the template. -/
theorem decodeV9_encode (exporterIp : String) (template : V9Template) (announced : ℚ)
    (head : V9Header) (packets : List (V9DataPacket template)) (parser : TemplateParser V9Context)
    (hwaiting : ∀ orphan ∈ parser.waiting (exporterIp, head.sourceId),
      orphan.templateId ≠ template.id)
    (hsource : ∀ packet ∈ packets, packet.head.sourceId = head.sourceId)
    (httl : ∀ packet ∈ packets, packet.now - announced ≤ templateTtl) :
    (decodePackets decodeV9 parser (template.datagram exporterIp announced head ::
        packets.map (V9DataPacket.datagram · exporterIp))).2.map dictsOf =
      some [] :: packets.map fun packet ↦ some (packet.flows exporterIp) := by
  obtain ⟨hget, hflows⟩ := decodeV9_datagram announced hwaiting
  rw [decodePackets, List.map_cons, hflows, decodePackets_v9 hget hsource httl]

/-- A template with two addresses, an unknown field, and two octet counts. -/
def sampleTemplate : V9Template where
  id := 256
  fields := [⟨8, 4, none⟩, ⟨12, 4, none⟩, ⟨4242, 2, none⟩, ⟨1, 4, none⟩, ⟨1, 2, none⟩,
    ⟨22, 4, none⟩]
  id_ge := by decide
  id_lt := leastDataSetId_lt
  fits := by decide
  count_lt := by decide
  set_lt := by decide
  length_pos := by decide
  shortUptimes := by
    unfold ShortUptimes
    decide

/-- A header of an exporter that has been up for a minute. -/
def sampleHead : V9Header where
  count := 1
  sysUptime := 60000
  unixSecs := 1700000000
  sequence := 7
  sourceId := 3
  count_pos := by decide
  count_lt := by decide
  sysUptime_lt := by decide
  unixSecs_lt := by decide
  sequence_lt := by decide
  sourceId_lt := by decide

/-- A record from 192.0.2.1 to 192.0.2.2. -/
def sampleRecord : RecordValues sampleTemplate.fields where
  values := [[192, 0, 2, 1], [192, 0, 2, 2], [9, 9], [0, 0, 0, 5], [0, 7], [0, 0, 0, 1]]
  lengths := by decide

/-- Two records in one data set, with padding. -/
def samplePacket : V9DataPacket sampleTemplate where
  now := 2
  head := sampleHead
  dataSets := [⟨[sampleRecord, sampleRecord], [0, 0], by decide, by decide⟩]

theorem decodeV9_sampleTemplate :
    (decodePackets decodeV9 (TemplateParser.initial V9Context)
        (sampleTemplate.datagram "192.0.2.9" 1 sampleHead ::
          [samplePacket].map (V9DataPacket.datagram · "192.0.2.9"))).2.map dictsOf =
      some [] :: [samplePacket].map fun packet ↦ some (packet.flows "192.0.2.9") :=
  decodeV9_encode "192.0.2.9" sampleTemplate 1 sampleHead [samplePacket] _
    (fun _ hmem ↦ absurd hmem List.not_mem_nil) (by decide)
    (List.forall_mem_singleton.mpr (by norm_num [samplePacket, templateTtl]))

end Lnmp.Flow
