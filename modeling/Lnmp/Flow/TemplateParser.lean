import Lnmp.Foundation.Dict
import Lnmp.Flow.Packet

/-!
# Template parsers

`monitoring/flow/v9_parser.py` and `monitoring/flow/ipfix_parser.py`. Both keep the templates that
an exporter has announced, read the data records of a packet by them, and buffer data sets that have
no template yet. They differ in their headers, in the form of a field specifier, in the elements
that hold times and in what the times mean, and agree in everything else: a `Dialect` has the
differences, and the parser is written once for any of them.

The clock is read once for a packet. Reading a record raises when a number is too large for a
float. Then the rest of the packet is lost, and the templates and buffers stay as they are.

A `TemplateFlow` is a flow together with the record that was read.
-/

set_option autoImplicit false
set_option relaxedAutoImplicit false

namespace Lnmp.Flow

open Lnmp.Foundation Lnmp.Foundation.PythonText Lnmp.Foundation.IpAddress

/-! ### Records -/

/-- A field of a template. Only IPFIX has enterprise numbers. -/
structure FieldSpec where
  ieId : ℕ
  length : ℕ
  enterpriseNumber : Option ℕ
  deriving DecidableEq

/-- The length of a record with some fields. -/
def totalLength (fields : List FieldSpec) : ℕ := (fields.map FieldSpec.length).sum

/-- The fields of a record with their bytes, in order. -/
def elements : List FieldSpec → List UInt8 → List (FieldSpec × List UInt8)
  | [], _ => []
  | field :: fields, data =>
    (field, data.take field.length) :: elements fields (data.drop field.length)

/-- The variables for the times of a record. -/
structure RecordTimes (Time : Type) where
  startTime : Option Time
  endTime : Option Time

/-- The variables of the loop over the fields of a record. -/
structure RecordVars (Time : Type) where
  srcIp : Option String
  dstIp : Option String
  srcPort : ℕ
  dstPort : ℕ
  protocol : ℕ
  octets : ℕ
  packets : ℕ
  tcpFlags : ℕ
  inputIf : ℕ
  outputIf : ℕ
  times : RecordTimes Time

/-- The variables before the loop. -/
def RecordVars.initial (Time : Type) : RecordVars Time :=
  ⟨none, none, 0, 0, 0, 0, 0, 0, 0, 0, ⟨none, none⟩⟩

/-- How the parsers differ: the version of their flows, the set id of templates, the form of a field
specifier (nothing when the specifier is cut off, and the bytes behind what was read), the elements
that hold times, and the time of a flow. Reading a time may raise. -/
structure Dialect (Context Time : Type) where
  version : ℕ
  templateSetId : ℕ
  readSpec : List UInt8 → Option FieldSpec × List UInt8
  assignTime : RecordTimes Time → ℕ → ℕ → Option (RecordTimes Time)
  flowTime : Context → Option Time → Option ℚ

variable {Context Time : Type}

/-- The variable that an element with a number is assigned to. -/
def RecordVars.assignNumber (vars : RecordVars Time) (ieId value : ℕ) : Option (RecordVars Time) :=
  match ieId with
  | 7 => some { vars with srcPort := value }
  | 11 => some { vars with dstPort := value }
  | 4 => some { vars with protocol := value }
  | 1 => some { vars with octets := value }
  | 2 => some { vars with packets := value }
  | 6 => some { vars with tcpFlags := value }
  | 10 => some { vars with inputIf := value }
  | 14 => some { vars with outputIf := value }
  | _ => none

/-- One pass of the loop over the fields of a record, `none` when it raises. -/
def Dialect.assign (dialect : Dialect Context Time) (vars : RecordVars Time)
    (element : FieldSpec × List UInt8) : Option (RecordVars Time) :=
  if element.1.enterpriseNumber ≠ none then some vars
  else if element.1.ieId = 8 ∧ element.1.length = 4 then
    some { vars with srcIp := some (inetNtopV4 (octets element.2)) }
  else if element.1.ieId = 12 ∧ element.1.length = 4 then
    some { vars with dstIp := some (inetNtopV4 (octets element.2)) }
  else if element.1.ieId = 27 ∧ element.1.length = 16 then
    some { vars with srcIp := some (inetNtopV6 (octets element.2)) }
  else if element.1.ieId = 28 ∧ element.1.length = 16 then
    some { vars with dstIp := some (inetNtopV6 (octets element.2)) }
  else
    match vars.assignNumber element.1.ieId (fromBytes element.2) with
    | some assigned => some assigned
    | none =>
      (dialect.assignTime vars.times element.1.ieId (fromBytes element.2)).map fun times ↦
        { vars with times := times }

/-- A data record: who sent it, the times of its packet, the fields of its template, and its
bytes. -/
structure TemplateRecord (Context : Type) where
  exporterIp : String
  context : Context
  fields : List FieldSpec
  data : List UInt8
  complete : data.length = totalLength fields

/-- The variables after the loop over the fields, `none` when it raises. -/
def TemplateRecord.vars (dialect : Dialect Context Time) (record : TemplateRecord Context) :
    Option (RecordVars Time) :=
  (elements record.fields record.data).foldlM dialect.assign (RecordVars.initial Time)

/-- Read a record: its flow, or nothing when an address is missing; `none` when it raises. -/
def TemplateRecord.read (dialect : Dialect Context Time) (record : TemplateRecord Context) :
    Option (Option FlowDict) := do
  let vars ← record.vars dialect
  match vars.srcIp, vars.dstIp with
  | some srcIp, some dstIp =>
    let startTime ← dialect.flowTime record.context vars.times.startTime
    let endTime ← dialect.flowTime record.context vars.times.endTime
    some (some
      { version := dialect.version
        exporterIp := record.exporterIp
        srcIp := srcIp
        dstIp := dstIp
        srcPort := vars.srcPort
        dstPort := vars.dstPort
        protocol := vars.protocol
        bytes := vars.octets
        packets := vars.packets
        tcpFlags := vars.tcpFlags
        inputIf := vars.inputIf
        outputIf := vars.outputIf
        startTime := startTime
        endTime := endTime })
  | _, _ => some none

/-- A flow, and the record that it was read from. -/
structure TemplateFlow (dialect : Dialect Context Time) where
  record : TemplateRecord Context
  flow : FlowDict
  read : record.read dialect = some (some flow)

/-! ### Templates -/

/-- A template, and when it was received. -/
structure Template where
  fields : List FieldSpec
  createdAt : ℚ

/-- A data set that waits for its template. -/
structure Orphan (Context : Type) where
  stamp : ℚ
  templateId : ℕ
  payload : List UInt8
  context : Context

/-- The state of a parser: the templates by exporter, source and template id, and the buffers of
data sets by exporter and source. -/
structure TemplateParser (Context : Type) where
  templates : Dict (String × ℕ × ℕ) Template
  orphanBuffer : Dict (String × ℕ) (List (Orphan Context))

/-- A parser that has received nothing. -/
def TemplateParser.initial (Context : Type) : TemplateParser Context where
  templates := Dict.empty
  orphanBuffer := Dict.empty

/-- The lifetime of a template. -/
def templateTtl : ℚ := 1800

/-- The lifetime of a data set in the buffer. -/
def orphanTtl : ℚ := 10

/-- Append to a `deque(maxlen=100)`, which drops its first item when it is full. -/
def appendOrphan (buffer : List (Orphan Context)) (orphan : Orphan Context) :
    List (Orphan Context) := (buffer ++ [orphan]).drop (buffer.length + 1 - 100)

/-- `_cleanup_expired`. -/
def TemplateParser.cleanupExpired (now : ℚ) (parser : TemplateParser Context) :
    TemplateParser Context :=
  let expired := parser.templates.entries.filter fun entry ↦
    templateTtl < now - entry.2.createdAt
  { parser with templates := (expired.map Prod.fst).foldl Dict.erase parser.templates }

/-- Process items one after the other, until one raises; `none` when one did. -/
def parseAll {Item Flow State : Type} (parse : State → Item → State × Option (List Flow)) :
    State → List Item → State × Option (List Flow)
  | state, [] => (state, some [])
  | state, item :: rest =>
    match parse state item with
    | (next, none) => (next, none)
    | (next, some flows) =>
      let (finish, more) := parseAll parse next rest
      (finish, more.map (flows ++ ·))

/-! ### Sets -/

/-- The sets of a packet behind its header, with their ids: up to the first that is too short for a
set header or too long for the packet. Every set takes four bytes, so that the fuel is enough. -/
def splitSets : ℕ → List UInt8 → List (ℕ × List UInt8)
  | 0, _ => []
  | fuel + 1, data =>
    if data.length < 4 then []
    else
      let setLength := unsignedAt data 2 2
      if setLength < 4 ∨ data.length < setLength then []
      else
        (unsignedAt data 0 2, slice data 4 (setLength - 4)) ::
          splitSets fuel (data.drop setLength)

/-- Field specifiers, as many as a template says and as are there. -/
def readSpecs (readSpec : List UInt8 → Option FieldSpec × List UInt8) :
    ℕ → List UInt8 → List FieldSpec × List UInt8
  | 0, data => ([], data)
  | count + 1, data =>
    match readSpec data with
    | (none, rest) => ([], rest)
    | (some spec, rest) =>
      let (specs, behind) := readSpecs readSpec count rest
      (spec :: specs, behind)

/-- The templates of a template set, with their ids: up to the first id that is reserved, without
those that are cut off. Every template takes four bytes. -/
def splitTemplates (readSpec : List UInt8 → Option FieldSpec × List UInt8) :
    ℕ → List UInt8 → List (ℕ × List FieldSpec)
  | 0, _ => []
  | fuel + 1, payload =>
    if payload.length < 4 ∨ unsignedAt payload 0 2 < 256 then []
    else
      let (fields, rest) := readSpecs readSpec (unsignedAt payload 2 2) (payload.drop 4)
      if fields.length = unsignedAt payload 2 2 then
        (unsignedAt payload 0 2, fields) :: splitTemplates readSpec fuel rest
      else splitTemplates readSpec fuel rest

/-- The records of a data set. -/
def splitRecords (exporterIp : String) (context : Context) (fields : List FieldSpec)
    (payload : List UInt8) : List (TemplateRecord Context) :=
  List.ofFn fun index : Fin (payload.length / totalLength fields) ↦
    { exporterIp := exporterIp
      context := context
      fields := fields
      data := slice payload (index.val * totalLength fields) (totalLength fields)
      complete := length_slice (by
        have hfits := Nat.mul_le_of_le_div _ _ _ (Nat.succ_le_of_lt index.isLt)
        rwa [Nat.succ_mul] at hfits) }

/-- Read records one after the other, `none` when one raises. -/
def readRecords (dialect : Dialect Context Time) :
    List (TemplateRecord Context) → Option (List (TemplateFlow dialect))
  | [] => some []
  | record :: rest =>
    match hread : record.read dialect with
    | none => none
    | some none => readRecords dialect rest
    | some (some flow) => (readRecords dialect rest).map (⟨record, flow, hread⟩ :: ·)

section Parse

variable (dialect : Dialect Context Time) (now : ℚ) (exporterIp : String) (sourceId : ℕ)

/-- `_parse_data_flowset` and `_parse_data_set`: the flows of a data set, nothing when it has no
template; `none` when reading a record raises. -/
def parseDataSet (parser : TemplateParser Context) (templateId : ℕ) (payload : List UInt8)
    (context : Context) : Option (Option (List (TemplateFlow dialect))) :=
  match parser.templates.get? (exporterIp, sourceId, templateId) with
  | none => some none
  | some template =>
    if totalLength template.fields = 0 then some none
    else (readRecords dialect (splitRecords exporterIp context template.fields payload)).map some

/-- The loop of `_drain_orphans` over a buffer: the data sets of a template are read, those that are
too old are dropped, and the others remain. The state is what is left of the buffer when a record
raises, and what remains at the end otherwise. -/
def drainBuffer (parser : TemplateParser Context) (templateId : ℕ) :
    List (Orphan Context) → List (Orphan Context) →
      List (Orphan Context) × Option (List (TemplateFlow dialect))
  | remaining, [] => (remaining, some [])
  | remaining, orphan :: buffer =>
    if orphanTtl < now - orphan.stamp then drainBuffer parser templateId remaining buffer
    else if orphan.templateId = templateId then
      match parseDataSet dialect exporterIp sourceId parser templateId orphan.payload
          orphan.context with
      | none => (buffer, none)
      | some parsed =>
        let (rest, flows) := drainBuffer parser templateId remaining buffer
        (rest, flows.map (parsed.getD [] ++ ·))
    else drainBuffer parser templateId (remaining ++ [orphan]) buffer

/-- `_drain_orphans`. -/
def drainOrphans (parser : TemplateParser Context) (templateId : ℕ) :
    TemplateParser Context × Option (List (TemplateFlow dialect)) :=
  match parser.orphanBuffer.get? (exporterIp, sourceId) with
  | none | some [] => (parser, some [])
  | some buffer =>
    let (rest, flows) := drainBuffer dialect now exporterIp sourceId parser templateId [] buffer
    ({ parser with orphanBuffer := parser.orphanBuffer.set (exporterIp, sourceId) rest }, flows)

/-- A template of a template set: it is kept, and the data sets that waited for it are read. -/
def parseTemplate (parser : TemplateParser Context) (template : ℕ × List FieldSpec) :
    TemplateParser Context × Option (List (TemplateFlow dialect)) :=
  drainOrphans dialect now exporterIp sourceId
    { parser with
      templates := parser.templates.set (exporterIp, sourceId, template.1) ⟨template.2, now⟩ }
    template.1

/-- One set of a packet. A data set without template is buffered. -/
def parseSet (context : Context) (parser : TemplateParser Context) (set : ℕ × List UInt8) :
    TemplateParser Context × Option (List (TemplateFlow dialect)) :=
  if set.1 = dialect.templateSetId then
    parseAll (parseTemplate dialect now exporterIp sourceId) parser
      (splitTemplates dialect.readSpec set.2.length set.2)
  else if 256 ≤ set.1 then
    match parseDataSet dialect exporterIp sourceId parser set.1 set.2 context with
    | none => (parser, none)
    | some (some flows) => (parser, some flows)
    | some none =>
      let buffer := (parser.orphanBuffer.get? (exporterIp, sourceId)).getD []
      ({ parser with
        orphanBuffer := parser.orphanBuffer.set (exporterIp, sourceId)
          (appendOrphan buffer ⟨now, set.1, set.2, context⟩) }, some [])
  else (parser, some [])

/-- A packet behind its header. -/
def parseSets (context : Context) (data : List UInt8) (parser : TemplateParser Context) :
    TemplateParser Context × Option (List (TemplateFlow dialect)) :=
  parseAll (parseSet dialect now exporterIp sourceId context) (parser.cleanupExpired now)
    (splitSets data.length data)

end Parse

/-! ### NetFlow v9 -/

/-- The times of a v9 packet. -/
structure V9Context where
  sysUptime : ℕ
  unixSecs : ℕ

/-- `int / 1000.0`, `none` when the number is too large for a float. -/
def divideMillis (number : ℤ) : Option ℚ :=
  if |(number : ℚ)| < floatOverflow then some ((number : ℚ) / 1000) else none

/-- `calc_v9_time`. An uptime of more than 32 bits is still ahead after the rollover. -/
def calcV9Time (context : V9Context) : Option ℕ → Option ℚ
  | none => some context.unixSecs
  | some uptimeMs =>
    let diff := uptimeDiff context.sysUptime uptimeMs
    if 2592000000 < diff then some context.unixSecs
    else (divideMillis diff).map fun seconds ↦ context.unixSecs - seconds

/-- The v9 parser. -/
def v9Dialect : Dialect V9Context ℕ where
  version := 9
  templateSetId := 0
  readSpec := fun data ↦
    if data.length < 4 then (none, data)
    else (some ⟨unsignedAt data 0 2, unsignedAt data 2 2, none⟩, data.drop 4)
  assignTime := fun times fieldType value ↦
    match fieldType with
    | 22 => some { times with startTime := some value }
    | 21 => some { times with endTime := some value }
    | _ => some times
  flowTime := calcV9Time

/-- `V9Parser.parse_packet`. -/
def parseV9Packet (now : ℚ) (data : List UInt8) (exporterIp : String)
    (parser : TemplateParser V9Context) :
    TemplateParser V9Context × Option (List (TemplateFlow v9Dialect)) :=
  if data.length < 20 ∨ unsignedAt data 0 2 ≠ 9 ∨ unsignedAt data 2 2 = 0 then (parser, some [])
  else
    parseSets v9Dialect now exporterIp (unsignedAt data 16 4)
      ⟨unsignedAt data 4 4, unsignedAt data 8 4⟩ (data.drop 20) parser

/-! ### IPFIX -/

/-- `float(int)`, `none` when the number is too large. -/
def floatOfNat (number : ℕ) : Option ℚ :=
  if (number : ℚ) < floatOverflow then some (number : ℚ) else none

/-- A field specifier of IPFIX: an enterprise number follows when the top bit of the id is set. -/
def readIpfixSpec (data : List UInt8) : Option FieldSpec × List UInt8 :=
  if data.length < 4 then (none, data)
  else
    let rawIeId := unsignedAt data 0 2
    let rest := data.drop 4
    if rawIeId < 0x8000 then (some ⟨rawIeId, unsignedAt data 2 2, none⟩, rest)
    else if rest.length < 4 then (none, rest)
    else (some ⟨rawIeId % 0x8000, unsignedAt data 2 2, some (unsignedAt rest 0 4)⟩, rest.drop 4)

/-- The IPFIX parser. Its context is the export time of a packet. -/
def ipfixDialect : Dialect ℕ ℚ where
  version := 10
  templateSetId := 2
  readSpec := readIpfixSpec
  assignTime := fun times ieId value ↦
    match ieId with
    | 150 => (floatOfNat value).map fun time ↦ { times with startTime := some time }
    | 151 => (floatOfNat value).map fun time ↦ { times with endTime := some time }
    | 152 => (divideMillis value).map fun time ↦ { times with startTime := some time }
    | 153 => (divideMillis value).map fun time ↦ { times with endTime := some time }
    | _ => some times
  flowTime := fun exportTime time ↦ some (time.getD exportTime)

/-- `IPFIXParser.parse_packet`. -/
def parseIpfixPacket (now : ℚ) (data : List UInt8) (exporterIp : String)
    (parser : TemplateParser ℕ) :
    TemplateParser ℕ × Option (List (TemplateFlow ipfixDialect)) :=
  if data.length < 16 ∨ unsignedAt data 0 2 ≠ 10 ∨ data.length < unsignedAt data 2 2 then
    (parser, some [])
  else
    parseSets ipfixDialect now exporterIp (unsignedAt data 12 4) (unsignedAt data 4 4)
      ((data.take (unsignedAt data 2 2)).drop 16) parser

end Lnmp.Flow
