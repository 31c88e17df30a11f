import Mathlib.Algebra.Order.BigOperators.Group.List
import Lnmp.Flow.RoundTrip

/-!
# IPFIX records with fields of variable length

A field whose template gives the length 65535 has its length in the record, in front of its value.
The parser takes 65535 for the length of the field, and then no record fits a data set: it reads
nothing for such a template. `decodeIpfix_encode_iff` says exactly when the parser returns the flows
of the records that were encoded.
-/

set_option autoImplicit false
set_option relaxedAutoImplicit false

namespace Lnmp.Flow

open Lnmp.Foundation

/-! ### What is sent -/

/-- The length of the field is in the record. -/
def FieldSpec.isVariable (field : FieldSpec) : Bool := field.length = 65535

/-- The value of a field, and whether a length in front of it takes three bytes. -/
structure FieldValue where
  value : List UInt8
  long : Bool

/-- A value that a field can have: of the length of the field, or of a length that fits in front of
it. -/
def FieldValue.Fits (field : FieldSpec) (value : FieldValue) : Prop :=
  if field.isVariable then value.value.length < (if value.long then 65536 else 255)
  else value.value.length = field.length

/-- A value as it is sent. -/
def encodeValue (field : FieldSpec) (value : FieldValue) : List UInt8 :=
  if field.isVariable then
    (if value.long then 255 :: toBytes 2 value.value.length
      else toBytes 1 value.value.length) ++ value.value
  else value.value

/-- The values of the fields of an IPFIX record. -/
structure IpfixRecord (fields : List FieldSpec) where
  values : List FieldValue
  fits : List.Forall₂ FieldValue.Fits fields values

/-- The fields of a record with their values. -/
def IpfixRecord.elements {fields : List FieldSpec} (record : IpfixRecord fields) :
    List (FieldSpec × List UInt8) := fields.zip (record.values.map FieldValue.value)

/-- A record as it is sent. -/
def IpfixRecord.encode {fields : List FieldSpec} (record : IpfixRecord fields) : List UInt8 :=
  (List.zipWith encodeValue fields record.values).flatten

/-- The record has a source and a destination. -/
def IpfixRecord.hasAddresses {fields : List FieldSpec} (record : IpfixRecord fields) : Bool :=
  (lastOf (addressOf 8 27) record.elements).isSome &&
    (lastOf (addressOf 12 28) record.elements).isSome

/-- An IPFIX template as an exporter may announce it. -/
structure IpfixTemplate where
  id : ℕ
  fields : List FieldSpec
  id_ge : 256 ≤ id
  id_lt : id < 65536
  fits : ∀ field ∈ fields, field.FitsIpfix
  count_lt : fields.length < 65536
  message_lt : (encodeTemplates encodeIpfixSpec [(id, fields)]).length + 20 < 65536

/-- Some records of a template in one data set. -/
structure IpfixDataSet (template : IpfixTemplate) where
  records : List (IpfixRecord template.fields)
  set_lt : (records.map IpfixRecord.encode).flatten.length + 4 < 65536

/-- A data set as it is sent. -/
def IpfixDataSet.wire {template : IpfixTemplate} (dataSet : IpfixDataSet template) : WireSet where
  id := template.id
  payload := (dataSet.records.map IpfixRecord.encode).flatten
  id_lt := template.id_lt
  payload_lt := dataSet.set_lt

/-- A message with data sets, and when it arrives. -/
structure IpfixMessage (template : IpfixTemplate) where
  now : ℚ
  head : IpfixHeader
  dataSets : List (IpfixDataSet template)
  fits : 16 + (encodeSets (dataSets.map IpfixDataSet.wire)).length < 65536

/-- A template set as it is sent. -/
def IpfixTemplate.wire (template : IpfixTemplate) : WireSet where
  id := 2
  payload := encodeTemplates encodeIpfixSpec [(template.id, template.fields)]
  id_lt := by decide
  payload_lt := Nat.lt_of_le_of_lt (Nat.add_le_add_left (by decide) _) template.message_lt

/-- A message with some sets as it arrives. -/
def ipfixDatagram (exporterIp : String) (now : ℚ) (head : IpfixHeader) (sets : List WireSet) :
    Datagram where
  data := head.encode (encodeSets sets).length ++ encodeSets sets
  exporterIp := exporterIp
  now := now

/-- The message with the template as it arrives. -/
def IpfixTemplate.datagram (template : IpfixTemplate) (exporterIp : String) (now : ℚ)
    (head : IpfixHeader) : Datagram := ipfixDatagram exporterIp now head [template.wire]

/-- A message with data sets as it arrives. -/
def IpfixMessage.datagram {template : IpfixTemplate} (message : IpfixMessage template)
    (exporterIp : String) : Datagram :=
  ipfixDatagram exporterIp message.now message.head (message.dataSets.map IpfixDataSet.wire)

/-- The records of a message. -/
def IpfixMessage.records {template : IpfixTemplate} (message : IpfixMessage template) :
    List (IpfixRecord template.fields) := message.dataSets.flatMap IpfixDataSet.records

/-- The flows of the records of a message, in order. -/
def IpfixMessage.flows {template : IpfixTemplate} (message : IpfixMessage template)
    (exporterIp : String) : List FlowDict :=
  message.records.filterMap fun record ↦
    ipfixFlow exporterIp message.head.exportTime record.elements

/-! ### When it is read -/

/-- The template has outlived its lifetime when one of some messages arrives. -/
def ExpiredBy {template : IpfixTemplate} (announced : ℚ)
    (messages : List (IpfixMessage template)) : Prop :=
  ∃ message ∈ messages, templateTtl < message.now - announced

/-- When the parser reads a message, after some others. With a field of variable length, and after
the lifetime of the template, it reads nothing, so that no record may have addresses; else no time
may be too large for a float. -/
def IpfixMessage.Readable {template : IpfixTemplate} (announced : ℚ)
    (before : List (IpfixMessage template)) (message : IpfixMessage template) : Prop :=
  ((∃ field ∈ template.fields, field.isVariable) ∨ ExpiredBy announced (before ++ [message]) →
    ∀ record ∈ message.records, record.hasAddresses = false) ∧
  ((∀ field ∈ template.fields, field.isVariable = false) ∧
      ¬ ExpiredBy announced (before ++ [message]) →
    ∀ record ∈ message.records, ∀ element ∈ record.elements, overflowsTime element = false)

/-! ### Records of a data set -/

variable {fields : List FieldSpec} {exporterIp : String} {template : IpfixTemplate} {now : ℚ}
  {head : IpfixHeader} {parser : TemplateParser ℕ}

/-- Values of fixed length are sent as they are. -/
theorem zipWith_encodeValue {values : List FieldValue}
    (hfits : List.Forall₂ FieldValue.Fits fields values)
    (hfixed : ∀ field ∈ fields, field.isVariable = false) :
    List.zipWith encodeValue fields values = values.map FieldValue.value ∧
      (values.map FieldValue.value).map List.length = fields.map FieldSpec.length := by
  induction hfits with
  | nil => exact ⟨rfl, rfl⟩
  | @cons field value fields values hvalue _ ih =>
    rw [List.forall_mem_cons] at hfixed
    obtain ⟨hencode, hlengths⟩ := ih hfixed.2
    rw [FieldValue.Fits, hfixed.1, if_neg Bool.false_ne_true] at hvalue
    constructor
    · rw [List.zipWith_cons_cons, hencode, encodeValue, hfixed.1, if_neg Bool.false_ne_true,
        List.map_cons]
    · rw [List.map_cons, List.map_cons, hlengths, hvalue, List.map_cons]

/-- A record of fixed length as the values of its fields. -/
def IpfixRecord.toValues (record : IpfixRecord fields)
    (hfixed : ∀ field ∈ fields, field.isVariable = false) : RecordValues fields where
  values := record.values.map FieldValue.value
  lengths := (zipWith_encodeValue record.fits hfixed).2

theorem IpfixRecord.encode_toValues (record : IpfixRecord fields)
    (hfixed : ∀ field ∈ fields, field.isVariable = false) :
    (record.toValues hfixed).encode = record.encode := by
  rw [encode, (zipWith_encodeValue record.fits hfixed).1]
  rfl

theorem IpfixRecord.elements_encode (record : IpfixRecord fields)
    (hfixed : ∀ field ∈ fields, field.isVariable = false) :
    Flow.elements fields record.encode = record.elements := by
  rw [← record.encode_toValues hfixed]
  exact (record.toValues hfixed).elements_encode

/-- Without fields of variable length, the records of a data set are those that were encoded. -/
theorem IpfixDataSet.chunks_fixed (dataSet : IpfixDataSet template)
    (hfixed : ∀ field ∈ template.fields, field.isVariable = false)
    (hpos : 0 < totalLength template.fields) :
    chunks (totalLength template.fields) dataSet.wire.payload =
      dataSet.records.map IpfixRecord.encode := by
  have hlengths : ∀ record ∈ dataSet.records.map IpfixRecord.encode,
      record.length = totalLength template.fields := by
    intro record hmem
    obtain ⟨values, -, rfl⟩ := List.mem_map.mp hmem
    rw [← values.encode_toValues hfixed]
    exact (values.toValues hfixed).length_encode
  have hchunks := chunks_flatten hpos hlengths []
  have hnil : chunks (totalLength template.fields) [] = [] := chunks_of_lt hpos
  rwa [List.append_nil, hnil, List.append_nil] at hchunks

theorem length_le_totalLength {field : FieldSpec} (hmem : field ∈ fields) :
    field.length ≤ totalLength fields :=
  List.le_sum_of_mem (List.mem_map_of_mem hmem)

/-- With a field of variable length, no record fits a data set. -/
theorem IpfixDataSet.chunks_variable (dataSet : IpfixDataSet template)
    (hvariable : ∃ field ∈ template.fields, field.isVariable) :
    chunks (totalLength template.fields) dataSet.wire.payload = [] := by
  obtain ⟨field, hmem, his⟩ := hvariable
  have hlength : field.length = 65535 := of_decide_eq_true his
  have hle := length_le_totalLength hmem
  have hfits := dataSet.wire.payload_lt
  exact chunks_of_lt (by omega)

/-- The flows of the data set as the parser reads them. -/
theorem IpfixDataSet.dictsOf_readRecords (dataSet : IpfixDataSet template) (exporterIp : String)
    (exportTime : ℕ) (hpos : 0 < totalLength template.fields) :
    dictsOf (readRecords ipfixDialect
        (splitRecords exporterIp exportTime template.fields dataSet.wire.payload)) =
      if ∃ field ∈ template.fields, field.isVariable then some []
      else if ∃ record ∈ dataSet.records, record.elements.any overflowsTime then none
      else some (dataSet.records.filterMap fun record ↦
        ipfixFlow exporterIp exportTime record.elements) := by
  rw [dictsOf_readRecords_ipfix, overflowsTimes, ipfixFlows]
  by_cases hvariable : ∃ field ∈ template.fields, field.isVariable
  · rw [dataSet.chunks_variable hvariable, if_pos hvariable]
    rfl
  · have hfixed : ∀ field ∈ template.fields, field.isVariable = false := by
      simpa using hvariable
    have helements : ∀ record : IpfixRecord template.fields,
        Flow.elements template.fields record.encode = record.elements :=
      fun record ↦ record.elements_encode hfixed
    rw [dataSet.chunks_fixed hfixed hpos, if_neg hvariable, List.any_map, List.filterMap_map]
    simp only [Function.comp_def, helements, List.any_eq_true]

/-! ### Messages -/

/-- A record has a flow exactly when it has both addresses. -/
theorem IpfixRecord.isSome_ipfixFlow (record : IpfixRecord fields) (exportTime : ℕ) :
    (ipfixFlow exporterIp exportTime record.elements).isSome = record.hasAddresses := by
  rw [ipfixFlow, recordFlow, hasAddresses]
  cases lastOf (addressOf 8 27) record.elements <;>
    cases lastOf (addressOf 12 28) record.elements <;> rfl

theorem IpfixMessage.flows_eq_nil_iff (message : IpfixMessage template) (exporterIp : String) :
    message.flows exporterIp = [] ↔ ∀ record ∈ message.records, record.hasAddresses = false := by
  rw [flows, List.filterMap_eq_nil_iff]
  refine forall₂_congr fun record _ ↦ ?_
  rw [← record.isSome_ipfixFlow message.head.exportTime, Option.isSome_eq_false_iff,
    Option.isNone_iff_eq_none]

/-- The value of a field of length zero is zero. -/
theorem overflowsTime_of_nil {element : FieldSpec × List UInt8} (hnil : element.2 = []) :
    overflowsTime element = false :=
  not_overflowsTime fun _ ↦ by rw [hnil]; exact Nat.zero_le _

theorem length_of_mem_elements_fixed (record : IpfixRecord fields)
    (hfixed : ∀ field ∈ fields, field.isVariable = false) :
    ∀ element ∈ record.elements, element.2.length = element.1.length := by
  have hencode := record.elements_encode hfixed
  have hlength : record.encode.length = totalLength fields := by
    rw [← record.encode_toValues hfixed]
    exact (record.toValues hfixed).length_encode
  rw [← hencode]
  exact length_of_mem_elements hlength

/-- Records of length zero have no addresses and no times. -/
theorem eq_nil_of_totalLength (record : IpfixRecord fields) (hzero : totalLength fields = 0)
    (hfixed : ∀ field ∈ fields, field.isVariable = false) :
    ∀ element ∈ record.elements, element.2 = [] := by
  intro element helement
  have hlength := length_of_mem_elements_fixed record hfixed element helement
  have hmem : element.1 ∈ fields := by
    rw [← record.elements_encode hfixed] at helement
    exact fst_mem_of_mem_elements helement
  have hle := length_le_totalLength hmem
  exact List.eq_nil_of_length_eq_zero (by omega)

theorem hasAddresses_of_totalLength (record : IpfixRecord fields)
    (hzero : totalLength fields = 0) (hfixed : ∀ field ∈ fields, field.isVariable = false) :
    record.hasAddresses = false := by
  have hnone : lastOf (addressOf 8 27) record.elements = none := by
    refine lastOf_eq_none fun element helement ↦ addressOf_eq_none ?_
    rw [eq_nil_of_totalLength record hzero hfixed element helement]
    exact Nat.succ_pos 3
  rw [IpfixRecord.hasAddresses, hnone]
  rfl

/-- The sets of a message as the parser handles them. -/
theorem decodeIpfix_message (message : IpfixMessage template) :
    decodeIpfix parser (message.datagram exporterIp) =
      parseAll (parseSet ipfixDialect message.now exporterIp message.head.domainId
          message.head.exportTime) (parser.cleanupExpired message.now)
        ((message.dataSets.map IpfixDataSet.wire).map WireSet.received) := by
  have hhead : readIpfixHead (message.datagram exporterIp).data =
      some ⟨message.head.domainId, message.head.exportTime,
        encodeSets (message.dataSets.map IpfixDataSet.wire)⟩ :=
    readIpfixHead_encode message.head message.fits
  rw [decodeIpfix, ← parsePacket_ipfix]
  exact parsePacket_encodeSets hhead

variable {announced : ℚ} {message : IpfixMessage template}

/-- What the parser does with a data set of a message. -/
def IpfixMessage.parse (message : IpfixMessage template) (exporterIp : String)
    (parser : TemplateParser ℕ) (dataSet : IpfixDataSet template) :
    TemplateParser ℕ × Option (List (TemplateFlow ipfixDialect)) :=
  parseSet ipfixDialect message.now exporterIp message.head.domainId message.head.exportTime parser
    dataSet.wire.received

/-- A message whose template the parser cannot use waits, and has no flows. -/
theorem decodeIpfix_of_unusable
    (hnone : (parser.cleanupExpired message.now).usable
      (exporterIp, message.head.domainId, template.id) = none) :
    (decodeIpfix parser (message.datagram exporterIp)).1.templates =
        (parser.cleanupExpired message.now).templates ∧
      dictsOf (decodeIpfix parser (message.datagram exporterIp)).2 = some [] := by
  have hid : ∀ set ∈ (message.dataSets.map IpfixDataSet.wire).map WireSet.received,
      set.1 = template.id := by
    intro set hmem
    obtain ⟨wire, hwire, rfl⟩ := List.mem_map.mp hmem
    obtain ⟨dataSet, -, rfl⟩ := List.mem_map.mp hwire
    rfl
  have hdata : template.id ≠ ipfixDialect.templateSetId :=
    (Nat.lt_of_lt_of_le (by decide) template.id_ge).ne'
  rw [decodeIpfix_message]
  refine And.imp_right (congrArg dictsOf) (parseAll_of_unusable ?_ ?_ ?_)
  · exact fun set hmem ↦ (hid set hmem).symm ▸ hdata
  · exact fun set hmem ↦ (hid set hmem).symm ▸ template.id_ge
  · exact fun set hmem ↦ (hid set hmem).symm ▸ hnone

/-- A data set whose template the parser can use is read record by record. -/
theorem IpfixMessage.parse_of_usable {parser : TemplateParser ℕ}
    (husable : parser.usable (exporterIp, message.head.domainId, template.id) =
      some ⟨template.fields, announced⟩) (dataSet : IpfixDataSet template) :
    message.parse exporterIp parser dataSet =
      (parser, readRecords ipfixDialect (splitRecords exporterIp message.head.exportTime
        template.fields dataSet.wire.payload)) := by
  have hdata : dataSet.wire.received.1 ≠ ipfixDialect.templateSetId :=
    (Nat.lt_of_lt_of_le (by decide) template.id_ge).ne'
  exact parseSet_of_usable hdata template.id_ge husable

/-- What the parser returns for a message whose template it can use. -/
theorem decodeIpfix_of_usable
    (husable : (parser.cleanupExpired message.now).usable
      (exporterIp, message.head.domainId, template.id) = some ⟨template.fields, announced⟩) :
    (decodeIpfix parser (message.datagram exporterIp)).1 = parser.cleanupExpired message.now ∧
      dictsOf (decodeIpfix parser (message.datagram exporterIp)).2 =
        if ∃ field ∈ template.fields, field.isVariable then some []
        else if ∃ record ∈ message.records, record.elements.any overflowsTime then none
        else some (message.flows exporterIp) := by
  have hpos : 0 < totalLength template.fields := by
    have hlength := (Option.filter_eq_some_iff.mp husable).2
    exact Nat.pos_of_ne_zero (of_decide_eq_true hlength)
  have hparse := message.parse_of_usable husable
  have hread := fun dataSet : IpfixDataSet template ↦
    dataSet.dictsOf_readRecords exporterIp message.head.exportTime hpos
  have hmessage : decodeIpfix parser (message.datagram exporterIp) =
      parseAll (message.parse exporterIp) (parser.cleanupExpired message.now)
        message.dataSets := by
    rw [decodeIpfix_message, List.map_map, parseAll_map]
    rfl
  rw [hmessage]
  by_cases hvariable : ∃ field ∈ template.fields, field.isVariable
  · simp only [if_pos hvariable] at hread ⊢
    have hnil : (message.dataSets.flatMap fun _ ↦ ([] : List FlowDict)) = [] :=
      List.flatMap_eq_nil_iff.mpr fun _ _ ↦ rfl
    rw [← hnil]
    refine parseAll_of_keeps _ fun dataSet _ ↦ ?_
    rw [hparse]
    exact ⟨rfl, hread dataSet⟩
  · simp only [if_neg hvariable] at hread ⊢
    have hmem : (∃ record ∈ message.records, record.elements.any overflowsTime) ↔
        ∃ dataSet ∈ message.dataSets, ∃ record ∈ dataSet.records,
          record.elements.any overflowsTime := by
      simp only [IpfixMessage.records, List.mem_flatMap]
      grind
    by_cases hoverflow : ∃ record ∈ message.records, record.elements.any overflowsTime
    · obtain ⟨dataSet, hdataSet, hrecord⟩ := hmem.mp hoverflow
      have hkeeps : ∀ dataSet ∈ message.dataSets,
          (message.parse exporterIp (parser.cleanupExpired message.now) dataSet).1 =
            parser.cleanupExpired message.now := fun dataSet _ ↦ by rw [hparse]
      obtain ⟨hstate, hnone⟩ := parseAll_eq_none_iff hkeeps
      rw [if_pos hoverflow, hnone.mpr ⟨dataSet, hdataSet, ?_⟩]
      · exact ⟨hstate, rfl⟩
      · rw [hparse]
        have hraises := hread dataSet
        rwa [if_pos hrecord, dictsOf, Option.map_eq_none_iff] at hraises
    · rw [if_neg hoverflow, IpfixMessage.flows, IpfixMessage.records, List.filterMap_flatMap]
      refine parseAll_of_keeps _ fun dataSet hdataSet ↦ ?_
      rw [hparse, hread, if_neg fun hrecord ↦ hoverflow (hmem.mpr ⟨dataSet, hdataSet, hrecord⟩)]
      exact ⟨rfl, rfl⟩

/-! ### Sequences of messages -/

/-- After some messages, the parser has the template until it expires. -/
structure HasTemplate (exporterIp : String) (domainId : ℕ) (template : IpfixTemplate)
    (announced : ℚ) (seen : List (IpfixMessage template)) (parser : TemplateParser ℕ) : Prop where
  expired : ExpiredBy announced seen →
    parser.templates.get? (exporterIp, domainId, template.id) = none
  live : ¬ ExpiredBy announced seen →
    parser.templates.get? (exporterIp, domainId, template.id) =
      some ⟨template.fields, announced⟩

variable {seen : List (IpfixMessage template)}

theorem expiredBy_concat : ExpiredBy announced (seen ++ [message]) ↔
    ExpiredBy announced seen ∨ templateTtl < message.now - announced := by
  simp only [ExpiredBy, List.mem_append, List.mem_singleton]
  grind

/-- The sweep of a message removes the template when it has expired by then. -/
theorem HasTemplate.cleanupExpired {domainId : ℕ}
    (htemplate : HasTemplate exporterIp domainId template announced seen parser)
    (message : IpfixMessage template) :
    HasTemplate exporterIp domainId template announced (seen ++ [message])
      (parser.cleanupExpired message.now) where
  expired := by
    rw [expiredBy_concat]
    intro hexpired
    rw [get?_cleanupExpired]
    by_cases hseen : ExpiredBy announced seen
    · rw [htemplate.expired hseen]
      rfl
    · rw [htemplate.live hseen, Option.filter_some, Template.isExpired,
        decide_eq_true (hexpired.resolve_left hseen)]
      rfl
  live := by
    rw [expiredBy_concat, not_or]
    rintro ⟨hseen, hlive⟩
    exact get?_cleanupExpired_of_live (htemplate.live hseen) (not_lt.mp hlive)

theorem HasTemplate.congr {domainId : ℕ} {next : TemplateParser ℕ}
    (htemplate : HasTemplate exporterIp domainId template announced seen parser)
    (hsame : next.templates = parser.templates) :
    HasTemplate exporterIp domainId template announced seen next where
  expired := fun hexpired ↦ by rw [hsame, htemplate.expired hexpired]
  live := fun hlive ↦ by rw [hsame, htemplate.live hlive]

/-- The step lemma: the parser returns the flows of a message exactly when it reads the message,
and it goes on with the template that it had. -/
theorem decodeIpfix_message_iff (message : IpfixMessage template)
    (htemplate : HasTemplate exporterIp message.head.domainId template announced seen parser) :
    (dictsOf (decodeIpfix parser (message.datagram exporterIp)).2 =
        some (message.flows exporterIp) ↔ message.Readable announced seen) ∧
      HasTemplate exporterIp message.head.domainId template announced (seen ++ [message])
        (decodeIpfix parser (message.datagram exporterIp)).1 := by
  have hcleaned := htemplate.cleanupExpired message
  have haddresses := message.flows_eq_nil_iff exporterIp
  -- Unless the parser can use the template, it returns nothing.
  have hunusable : (parser.cleanupExpired message.now).usable
      (exporterIp, message.head.domainId, template.id) = none →
        (dictsOf (decodeIpfix parser (message.datagram exporterIp)).2 =
            some (message.flows exporterIp) ↔
          ∀ record ∈ message.records, record.hasAddresses = false) ∧
        HasTemplate exporterIp message.head.domainId template announced (seen ++ [message])
          (decodeIpfix parser (message.datagram exporterIp)).1 := by
    intro hnone
    obtain ⟨hsame, hflows⟩ := decodeIpfix_of_unusable hnone
    rw [hflows, Option.some_inj, eq_comm, haddresses]
    exact ⟨Iff.rfl, hcleaned.congr hsame⟩
  rw [IpfixMessage.Readable]
  by_cases hexpired : ExpiredBy announced (seen ++ [message])
  · obtain ⟨hreads, hnext⟩ := hunusable (by
      rw [TemplateParser.usable, hcleaned.expired hexpired]
      rfl)
    refine ⟨hreads.trans ?_, hnext⟩
    simp [hexpired]
  · by_cases hzero : totalLength template.fields = 0
    · obtain ⟨hreads, hnext⟩ := hunusable (by
        rw [TemplateParser.usable, hcleaned.live hexpired]
        simp [Option.filter, hzero])
      have hfixed : ∀ field ∈ template.fields, field.isVariable = false := by
        intro field hmem
        have hle := length_le_totalLength hmem
        exact decide_eq_false (by omega)
      refine ⟨hreads.trans (iff_of_true ?_ ⟨?_, ?_⟩), hnext⟩
      · exact fun record _ ↦ hasAddresses_of_totalLength record hzero hfixed
      · exact fun _ record _ ↦ hasAddresses_of_totalLength record hzero hfixed
      · exact fun _ record _ element helement ↦
          overflowsTime_of_nil (eq_nil_of_totalLength record hzero hfixed element helement)
    · have husable : (parser.cleanupExpired message.now).usable
          (exporterIp, message.head.domainId, template.id) =
            some ⟨template.fields, announced⟩ := by
        rw [TemplateParser.usable, hcleaned.live hexpired]
        simp [Option.filter, hzero]
      obtain ⟨hsame, hflows⟩ := decodeIpfix_of_usable husable
      refine ⟨?_, hcleaned.congr (congrArg TemplateParser.templates hsame)⟩
      rw [hflows]
      by_cases hvariable : ∃ field ∈ template.fields, field.isVariable
      · rw [if_pos hvariable, Option.some_inj, eq_comm, haddresses]
        have hnot : ¬ ∀ field ∈ template.fields, field.isVariable = false := by
          simpa using hvariable
        simp [hvariable, hnot]
      · have hfixed : ∀ field ∈ template.fields, field.isVariable = false := by
          simpa using hvariable
        have hoverflow : (¬ ∃ record ∈ message.records, record.elements.any overflowsTime) ↔
            ∀ record ∈ message.records, ∀ element ∈ record.elements,
              overflowsTime element = false := by
          simp
        have hreadable : ((∃ field ∈ template.fields, field.isVariable) ∨
              ExpiredBy announced (seen ++ [message]) →
                ∀ record ∈ message.records, record.hasAddresses = false) ∧
            ((∀ field ∈ template.fields, field.isVariable = false) ∧
              ¬ ExpiredBy announced (seen ++ [message]) →
                ∀ record ∈ message.records, ∀ element ∈ record.elements,
                  overflowsTime element = false) ↔
            ¬ ∃ record ∈ message.records, record.elements.any overflowsTime := by
          rw [hoverflow]
          exact ⟨fun hboth ↦ hboth.2 ⟨hfixed, hexpired⟩,
            fun htimes ↦ ⟨fun hor ↦ absurd hor (not_or_intro hvariable hexpired), fun _ ↦ htimes⟩⟩
        rw [if_neg hvariable, hreadable]
        by_cases hany : ∃ record ∈ message.records, record.elements.any overflowsTime
        · rw [if_pos hany]
          exact iff_of_false (fun hsome ↦ by cases hsome) (not_not_intro hany)
        · rw [if_neg hany]
          exact iff_of_true rfl hany

/-- The run lemma. -/
theorem decodePackets_ipfix_iff {domainId : ℕ} {messages : List (IpfixMessage template)}
    (htemplate : HasTemplate exporterIp domainId template announced seen parser)
    (hdomain : ∀ message ∈ messages, message.head.domainId = domainId) :
    (decodePackets decodeIpfix parser (messages.map (IpfixMessage.datagram · exporterIp))).2.map
        dictsOf = (messages.map fun message ↦ some (message.flows exporterIp)) ↔
      ∀ before message after, messages = before ++ message :: after →
        message.Readable announced (seen ++ before) := by
  induction messages generalizing parser seen with
  | nil => simp [decodePackets]
  | cons message messages ih =>
    rw [List.forall_mem_cons] at hdomain
    obtain ⟨rfl, hdomain⟩ := hdomain
    obtain ⟨hreads, hnext⟩ := decodeIpfix_message_iff message htemplate
    rw [List.map_cons, decodePackets, List.map_cons, List.map_cons, List.cons.injEq, hreads,
      ih hnext hdomain, Runs.forall_split_cons, List.append_nil]
    simp only [List.append_assoc, List.singleton_append]

/-! ### The message with the template -/

theorem splitTemplates_ipfix (template : IpfixTemplate) :
    splitTemplates ipfixDialect.readSpec template.wire.payload.length template.wire.payload =
      [(template.id, template.fields)] := by
  refine splitTemplates_encodeTemplates ?_ ?_ ?_ (length_le_encodeTemplates _)
  · exact List.forall_mem_singleton.mpr ⟨template.id_ge, template.id_lt⟩
  · exact List.forall_mem_singleton.mpr template.count_lt
  · exact List.forall_mem_singleton.mpr fun spec hspec ↦
      readSpec_encodeIpfixSpec (template.fits spec hspec)

/-- After the message with a template that no data set waits for, the parser has the template. -/
theorem decodeIpfix_datagram (now : ℚ)
    (hwaiting : ∀ orphan ∈ parser.waiting (exporterIp, head.domainId),
      orphan.templateId ≠ template.id) :
    HasTemplate exporterIp head.domainId template now []
        (decodeIpfix parser (template.datagram exporterIp now head)).1 ∧
      dictsOf (decodeIpfix parser (template.datagram exporterIp now head)).2 = some [] := by
  have hfits : 16 + (encodeSets [template.wire]).length < 65536 := by
    have hmessage := template.message_lt
    have hpayload : template.wire.payload.length + 20 < 65536 := hmessage
    rw [encodeSets, List.flatMap_singleton, WireSet.encode, List.length_append, length_header]
    omega
  have hhead : readIpfixHead (template.datagram exporterIp now head).data =
      some ⟨head.domainId, head.exportTime, encodeSets [template.wire]⟩ :=
    readIpfixHead_encode head hfits
  rw [decodeIpfix, ← parsePacket_ipfix]
  obtain ⟨hget, hflows⟩ := parsePacket_template hhead rfl (splitTemplates_ipfix template) hwaiting
  refine ⟨⟨fun hexpired ↦ ?_, fun _ ↦ hget⟩, hflows⟩
  obtain ⟨message, hmem, -⟩ := hexpired
  exact absurd hmem List.not_mem_nil

/-- An exporter announces a template, and sends records of it in any data sets and messages. The
parser returns, for each message and in order, the flows of the records that have both addresses,
exactly when it reads every message.
Assumes: no data set waits for the template. -/
theorem decodeIpfix_encode_iff (exporterIp : String) (template : IpfixTemplate) (announced : ℚ)
    (head : IpfixHeader) (messages : List (IpfixMessage template)) (parser : TemplateParser ℕ)
    (hwaiting : ∀ orphan ∈ parser.waiting (exporterIp, head.domainId),
      orphan.templateId ≠ template.id)
    (hdomain : ∀ message ∈ messages, message.head.domainId = head.domainId) :
    (decodePackets decodeIpfix parser (template.datagram exporterIp announced head ::
          messages.map (IpfixMessage.datagram · exporterIp))).2.map dictsOf =
        some [] :: messages.map (fun message ↦ some (message.flows exporterIp)) ↔
      ∀ before message after, messages = before ++ message :: after →
        message.Readable announced before := by
  obtain ⟨htemplate, hflows⟩ := decodeIpfix_datagram announced hwaiting
  rw [decodePackets, List.map_cons, hflows, List.cons.injEq]
  exact (and_iff_right rfl).trans (decodePackets_ipfix_iff htemplate hdomain)

/-- A template with two addresses and a count of octets. -/
def countTemplate : IpfixTemplate where
  id := 256
  fields := [⟨8, 4, none⟩, ⟨12, 4, none⟩, ⟨7, 2, some 9⟩, ⟨1, 4, none⟩]
  id_ge := sampleTemplate.id_ge
  id_lt := leastDataSetId_lt
  fits := by decide
  count_lt := by decide
  message_lt := by decide

/-- A header of an exporter at its observation domain 3. -/
def domainHead : IpfixHeader where
  exportTime := 1700000000
  sequence := 7
  domainId := 3
  exportTime_lt := sampleHead.unixSecs_lt
  sequence_lt := sampleHead.sequence_lt
  domainId_lt := sampleHead.sourceId_lt

/-- A message with one record from 192.0.2.1 to 192.0.2.2. -/
def countMessage : IpfixMessage countTemplate where
  now := 2
  head := domainHead
  dataSets := [⟨[⟨[⟨[192, 0, 2, 1], false⟩, ⟨[192, 0, 2, 2], false⟩, ⟨[9, 9], false⟩,
    ⟨[0, 0, 0, 5], false⟩], by
      simp [countTemplate, FieldValue.Fits, FieldSpec.isVariable]⟩], by decide⟩]
  fits := by decide

theorem decodeIpfix_countTemplate :
    (decodePackets decodeIpfix (TemplateParser.initial ℕ)
          (countTemplate.datagram "192.0.2.9" 1 domainHead ::
            [countMessage].map (IpfixMessage.datagram · "192.0.2.9"))).2.map dictsOf =
        some [] :: [countMessage].map (fun message ↦ some (message.flows "192.0.2.9")) ↔
      ∀ before message after, [countMessage] = before ++ message :: after →
        message.Readable 1 before :=
  decodeIpfix_encode_iff "192.0.2.9" countTemplate 1 domainHead [countMessage] _
    (fun _ hmem ↦ absurd hmem List.not_mem_nil) (List.forall_mem_singleton.mpr rfl)

/-- A template with two addresses and the name of an interface, of variable length. -/
def nameTemplate : IpfixTemplate where
  id := 256
  fields := [⟨8, 4, none⟩, ⟨12, 4, none⟩, ⟨82, 65535, none⟩]
  id_ge := sampleTemplate.id_ge
  id_lt := leastDataSetId_lt
  fits := by decide
  count_lt := by decide
  message_lt := by decide

/-- A message with one record from 192.0.2.1 to 192.0.2.2, over eth0. -/
def nameMessage : IpfixMessage nameTemplate where
  now := 2
  head := domainHead
  dataSets := [⟨[⟨[⟨[192, 0, 2, 1], false⟩, ⟨[192, 0, 2, 2], false⟩,
    ⟨[101, 116, 104, 48], false⟩], by
      simp [nameTemplate, FieldValue.Fits, FieldSpec.isVariable]⟩], by decide⟩]
  fits := by decide

/-- The record with the name of an interface has a flow, and the parser returns none. -/
theorem decodeIpfix_drops_name :
    (nameMessage.flows "192.0.2.9").length = 1 ∧
      (decodePackets decodeIpfix (TemplateParser.initial ℕ)
          [nameTemplate.datagram "192.0.2.9" 1 domainHead,
            nameMessage.datagram "192.0.2.9"]).2.map
          (fun output ↦ (dictsOf output).map List.length) = [some 0, some 0] := by
  decide +kernel

end Lnmp.Flow
