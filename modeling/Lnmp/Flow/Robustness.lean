import Lnmp.Flow.Sets

/-!
# When decoding a packet raises

Reading a record raises when one of its times is too large for a float, and nothing else raises.
The length of a time is what its template says, and so is up to the exporter.

`packetRecords` has the records that a packet makes a parser read: those of its data sets with a
template, and those of the buffered data sets of a template that it announces. Which these are
depends on the templates and the buffers, and not on what the records say.
`everyStep_returns_iff` says that in any run the parsers return for every packet exactly when no
record that is read has a time too large.
-/

set_option autoImplicit false
set_option relaxedAutoImplicit false

namespace Lnmp.Flow

open Lnmp.Foundation Lnmp.Foundation.PythonText

/-! ### Sequences -/

section Sequences

variable {State Item Decoded Output : Type}

/-- What items put out, each in the state that those before it leave. -/
def along (next : State → Item → State) (output : State → Item → List Output) :
    State → List Item → List Output
  | _, [] => []
  | state, item :: items => output state item ++ along next output (next state item) items

/-- Parsing an item raises when one of its outputs does, and otherwise leaves a given state. -/
structure Follows (parse : State → Item → State × Option (List Decoded))
    (next : State → Item → State) (output : State → Item → List Output)
    (raises : Output → Prop) : Prop where
  raises_iff : ∀ state item, (parse state item).2 = none ↔ ∃ out ∈ output state item, raises out
  next_eq : ∀ state item, (parse state item).2 ≠ none → (parse state item).1 = next state item

variable {parse : State → Item → State × Option (List Decoded)} {next : State → Item → State}
  {output : State → Item → List Output} {raises : Output → Prop}

/-- What is known of an item is known of a list of items. -/
theorem follows_parseAll (hfollows : Follows parse next output raises) :
    Follows (parseAll parse) (fun state items ↦ items.foldl next state) (along next output)
      raises where
  raises_iff := by
    intro state items
    induction items generalizing state with
    | nil => simp [parseAll, along]
    | cons item items ih =>
      have hitem := hfollows.raises_iff state item
      have hstate := hfollows.next_eq state item
      simp only [along, List.mem_append, or_and_right, exists_or]
      rw [← hitem, parseAll]
      split
      · rename_i hparse
        rw [hparse]
        simp
      · rename_i hparse
        rw [hparse] at hstate ⊢
        rw [← ih, ← hstate (Option.some_ne_none _)]
        simp
  next_eq := by
    intro state items
    induction items generalizing state with
    | nil => exact fun _ ↦ rfl
    | cons item items ih =>
      have hstate := hfollows.next_eq state item
      rw [parseAll]
      split
      · exact fun h ↦ absurd rfl h
      · rename_i hparse
        rw [hparse] at hstate
        intro hsome
        rw [List.foldl_cons, ← hstate (Option.some_ne_none _)]
        exact ih _ fun hnone ↦ hsome (by simp [hnone])

end Sequences

/-! ### The records of a packet -/

section Records

variable {Context Time : Type} (dialect : Dialect Context Time) (now : ℚ) (exporterIp : String)
  (sourceId : ℕ)

/-- The records of a data set that the parser reads. -/
def TemplateParser.dataRecords (parser : TemplateParser Context) (templateId : ℕ)
    (payload : List UInt8) (context : Context) : List (TemplateRecord Context) :=
  match parser.usable (exporterIp, sourceId, templateId) with
  | none => []
  | some template => splitRecords exporterIp context template.fields payload

/-- The parser after a template: the buffered data sets of the template are gone, and those that
have waited too long. -/
def TemplateParser.afterTemplate (parser : TemplateParser Context)
    (template : ℕ × List FieldSpec) : TemplateParser Context :=
  let announced := parser.announce (exporterIp, sourceId, template.1) ⟨template.2, now⟩
  if parser.waiting (exporterIp, sourceId) = [] then announced
  else
    { announced with
      orphanBuffer := announced.orphanBuffer.set (exporterIp, sourceId)
        ((parser.waiting (exporterIp, sourceId)).filter fun orphan ↦
          orphan.isFresh now && orphan.templateId ≠ template.1) }

/-- The records that a template makes the parser read: those of the data sets that waited for
it. -/
def TemplateParser.templateRecords (parser : TemplateParser Context)
    (template : ℕ × List FieldSpec) : List (TemplateRecord Context) :=
  ((parser.waiting (exporterIp, sourceId)).filter fun orphan ↦
    orphan.isFresh now && orphan.templateId = template.1).flatMap fun orphan ↦
      (parser.announce (exporterIp, sourceId, template.1) ⟨template.2, now⟩).dataRecords exporterIp
        sourceId template.1 orphan.payload orphan.context

/-- The parser after a set. -/
def Dialect.afterSet (context : Context) (parser : TemplateParser Context)
    (set : ℕ × List UInt8) : TemplateParser Context :=
  if set.1 = dialect.templateSetId then
    (splitTemplates dialect.readSpec set.2.length set.2).foldl
      (TemplateParser.afterTemplate now exporterIp sourceId) parser
  else if 256 ≤ set.1 then
    match parser.usable (exporterIp, sourceId, set.1) with
    | none => parser.buffer (exporterIp, sourceId) ⟨now, set.1, set.2, context⟩
    | some _ => parser
  else parser

/-- The records that a set makes the parser read. -/
def Dialect.setRecords (context : Context) (parser : TemplateParser Context)
    (set : ℕ × List UInt8) : List (TemplateRecord Context) :=
  if set.1 = dialect.templateSetId then
    along (TemplateParser.afterTemplate now exporterIp sourceId)
      (TemplateParser.templateRecords now exporterIp sourceId) parser
      (splitTemplates dialect.readSpec set.2.length set.2)
  else if 256 ≤ set.1 then parser.dataRecords exporterIp sourceId set.1 set.2 context
  else []

end Records

/-- The records that a packet makes the parser read. -/
def Dialect.packetRecords {Context Time : Type} (dialect : Dialect Context Time)
    (readHead : List UInt8 → Option (PacketHead Context)) (parser : TemplateParser Context)
    (datagram : Datagram) : List (TemplateRecord Context) :=
  match readHead datagram.data with
  | none => []
  | some head =>
    along (dialect.afterSet datagram.now datagram.exporterIp head.sourceId head.context)
      (dialect.setRecords datagram.now datagram.exporterIp head.sourceId head.context)
      (parser.cleanupExpired datagram.now) (splitSets head.body.length head.body)

/-! ### What raises -/

section Raises

variable {Context Time : Type} {dialect : Dialect Context Time} {now : ℚ} {exporterIp : String}
  {sourceId : ℕ} {context : Context} {parser : TemplateParser Context}

theorem parseDataSet_eq_none_iff {templateId : ℕ} {payload : List UInt8} :
    parseDataSet dialect exporterIp sourceId parser templateId payload context = none ↔
      ∃ record ∈ parser.dataRecords exporterIp sourceId templateId payload context,
        record.read dialect = none := by
  rw [parseDataSet_usable, TemplateParser.dataRecords]
  cases parser.usable (exporterIp, sourceId, templateId) with
  | none => simp
  | some template =>
    dsimp only
    rw [Option.map_eq_none_iff]
    exact readRecords_eq_none_iff

/-- The loop over the buffer raises when a fresh data set of the template does. -/
theorem drainBuffer_eq_none_iff {templateId : ℕ} {buffer : List (Orphan Context)}
    (remaining : List (Orphan Context)) :
    (drainBuffer dialect now exporterIp sourceId parser templateId remaining buffer).2 = none ↔
      ∃ orphan ∈ buffer.filter fun orphan ↦ orphan.isFresh now && orphan.templateId = templateId,
        parseDataSet dialect exporterIp sourceId parser templateId orphan.payload
          orphan.context = none := by
  induction buffer generalizing remaining with
  | nil => simp [drainBuffer]
  | cons orphan buffer ih =>
    rw [drainBuffer, List.filter_cons]
    by_cases hfresh : orphan.isFresh now = true
    · rw [if_neg (Orphan.isFresh_iff.mp hfresh)]
      by_cases hsame : orphan.templateId = templateId
      · rw [if_pos hsame, if_pos (by simp [hfresh, hsame]), List.exists_mem_cons_iff,
          ← ih remaining]
        split
        · rename_i hraises
          simp [hraises]
        · rename_i parsed hparsed
          simp [hparsed]
      · rw [if_neg hsame, if_neg (by simp [hsame])]
        exact ih _
    · rw [if_pos (not_not.mp fun h ↦ hfresh (Orphan.isFresh_iff.mpr h)), if_neg (by simp [hfresh])]
      exact ih _

/-- A buffer that is read without raising leaves the fresh data sets of other templates. -/
theorem fst_drainBuffer {templateId : ℕ} {buffer : List (Orphan Context)}
    (hreturns : (drainBuffer dialect now exporterIp sourceId parser templateId [] buffer).2 ≠
      none) :
    (drainBuffer dialect now exporterIp sourceId parser templateId [] buffer).1 =
      buffer.filter fun orphan ↦ orphan.isFresh now && orphan.templateId ≠ templateId := by
  rw [Ne, drainBuffer_eq_none_iff] at hreturns
  have hparse : ∀ orphan ∈ buffer, orphan.isFresh now → orphan.templateId = templateId →
      ∃ parsed, parseDataSet dialect exporterIp sourceId parser templateId orphan.payload
          orphan.context = some parsed ∧
        (parsed.getD []).map TemplateFlow.flow =
          (((parseDataSet dialect exporterIp sourceId parser templateId orphan.payload
            orphan.context).getD none).getD []).map TemplateFlow.flow := by
    intro orphan horphan hfresh hsame
    cases hparsed : parseDataSet dialect exporterIp sourceId parser templateId orphan.payload
        orphan.context with
    | none => exact absurd ⟨orphan, by simp [horphan, hfresh, hsame], hparsed⟩ hreturns
    | some parsed => exact ⟨parsed, rfl, rfl⟩
  rw [(drainBuffer_eq hparse []).1, List.nil_append]

/-- A template is stored before the buffer is read. -/
theorem parseTemplate_eq (parser : TemplateParser Context) (template : ℕ × List FieldSpec) :
    parseTemplate dialect now exporterIp sourceId parser template =
      drainOrphans dialect now exporterIp sourceId
        (parser.announce (exporterIp, sourceId, template.1) ⟨template.2, now⟩) template.1 := rfl

theorem follows_parseTemplate (dialect : Dialect Context Time) (now : ℚ) (exporterIp : String)
    (sourceId : ℕ) :
    Follows (parseTemplate dialect now exporterIp sourceId)
      (TemplateParser.afterTemplate now exporterIp sourceId)
      (TemplateParser.templateRecords now exporterIp sourceId) (·.read dialect = none) where
  raises_iff := by
    intro parser template
    rw [parseTemplate_eq, drainOrphans_eq, waiting_announce, TemplateParser.templateRecords]
    split_ifs with hnil
    · rw [hnil]
      simp
    · dsimp only
      rw [drainBuffer_eq_none_iff]
      simp only [List.mem_flatMap, parseDataSet_eq_none_iff]
      constructor
      · rintro ⟨orphan, horphan, record, hrecord, hraises⟩
        exact ⟨record, ⟨orphan, horphan, hrecord⟩, hraises⟩
      · rintro ⟨record, ⟨orphan, horphan, hrecord⟩, hraises⟩
        exact ⟨orphan, horphan, record, hrecord, hraises⟩
  next_eq := by
    intro parser template
    rw [parseTemplate_eq, drainOrphans_eq, waiting_announce, TemplateParser.afterTemplate]
    split_ifs with hnil
    · exact fun _ ↦ rfl
    · intro hreturns
      dsimp only
      rw [fst_drainBuffer hreturns]

theorem follows_parseSet (dialect : Dialect Context Time) (now : ℚ) (exporterIp : String)
    (sourceId : ℕ) (context : Context) :
    Follows (parseSet dialect now exporterIp sourceId context)
      (dialect.afterSet now exporterIp sourceId context)
      (dialect.setRecords now exporterIp sourceId context) (·.read dialect = none) where
  raises_iff := by
    intro parser set
    rw [Dialect.setRecords]
    split_ifs with htemplates hdata
    · rw [parseSet_templates htemplates]
      exact (follows_parseAll (follows_parseTemplate ..)).raises_iff _ _
    · rw [← parseDataSet_eq_none_iff, parseDataSet_usable]
      cases husable : parser.usable (exporterIp, sourceId, set.1) with
      | none =>
        rw [parseSet_of_unusable htemplates hdata husable]
        simp
      | some template =>
        rw [parseSet_of_usable htemplates hdata husable]
        simp
    · rw [parseSet, if_neg htemplates, if_neg hdata]
      simp
  next_eq := by
    intro parser set
    rw [Dialect.afterSet]
    split_ifs with htemplates hdata
    · rw [parseSet_templates htemplates]
      exact (follows_parseAll (follows_parseTemplate ..)).next_eq _ _
    · cases husable : parser.usable (exporterIp, sourceId, set.1) with
      | none => exact fun _ ↦ congrArg Prod.fst (parseSet_of_unusable htemplates hdata husable)
      | some template =>
        exact fun _ ↦ congrArg Prod.fst (parseSet_of_usable htemplates hdata husable)
    · rw [parseSet, if_neg htemplates, if_neg hdata]
      exact fun _ ↦ rfl

/-- Parsing a packet raises exactly when reading one of its records does. -/
theorem parsePacket_eq_none_iff (readHead : List UInt8 → Option (PacketHead Context))
    (parser : TemplateParser Context) (datagram : Datagram) :
    (dialect.parsePacket readHead parser datagram).2 = none ↔
      ∃ record ∈ dialect.packetRecords readHead parser datagram, record.read dialect = none := by
  rw [Dialect.parsePacket, Dialect.packetRecords]
  cases readHead datagram.data with
  | none => simp
  | some head => exact (follows_parseAll (follows_parseSet ..)).raises_iff _ _

end Raises

/-! ### Times that are too large -/

/-- An uptime is so far ahead of that of the packet that the difference is too large for a
float. -/
def overflowsUptime (context : V9Context) (uptime : Option ℕ) : Bool :=
  uptime.any fun uptimeMs : ℕ ↦
    floatOverflow ≤ (uptimeMs : ℚ) - context.sysUptime - 2 ^ 32

/-- A v9 record has both addresses, and an uptime that is too large. -/
def TemplateRecord.overflowsV9 (record : TemplateRecord V9Context) : Bool :=
  let fields := elements record.fields record.data
  (lastOf (addressOf 8 27) fields).isSome && (lastOf (addressOf 12 28) fields).isSome &&
    (overflowsUptime record.context (lastOf (numberOf 22) fields) ||
      overflowsUptime record.context (lastOf (numberOf 21) fields))

/-- An IPFIX record has a time that is too large. -/
def TemplateRecord.overflowsIpfix (record : TemplateRecord ℕ) : Bool :=
  (elements record.fields record.data).any overflowsTime

theorem divideMillis_eq_none_iff {number : ℤ} :
    divideMillis number = none ↔ floatOverflow ≤ |(number : ℚ)| := by
  rw [divideMillis, ite_eq_right_iff, ← not_lt]
  simp

/-- A time raises when it is believed and too large for a float. -/
theorem calcV9Time_some_eq_none_iff {context : V9Context} {uptimeMs : ℕ} :
    calcV9Time context (some uptimeMs) = none ↔
      uptimeDiff context.sysUptime uptimeMs ≤ 2592000000 ∧
        floatOverflow ≤ |(uptimeDiff context.sysUptime uptimeMs : ℚ)| := by
  rw [calcV9Time, ← not_lt]
  split_ifs with hold
  · simp [hold]
  · rw [Option.map_eq_none_iff, divideMillis_eq_none_iff]
    simp [hold]

/-- What is believed is too large only when it is negative. -/
theorem le_abs_iff_of_le {diff : ℤ} :
    diff ≤ 2592000000 ∧ floatOverflow ≤ |(diff : ℚ)| ↔ floatOverflow ≤ -(diff : ℚ) := by
  have hlarge : (2 : ℚ) ^ 32 < floatOverflow := lt_floatOverflow le_rfl
  constructor
  · rintro ⟨hle, habs⟩
    have hle : (diff : ℚ) ≤ 2592000000 := by exact_mod_cast hle
    rcases abs_choice (diff : ℚ) with hsame | hneg
    · rw [hsame] at habs
      linarith
    · rwa [hneg] at habs
  · intro hneg
    refine ⟨?_, hneg.trans (neg_le_abs _)⟩
    have hle : (diff : ℚ) ≤ 2592000000 := by linarith
    exact_mod_cast hle

theorem calcV9Time_eq_none_iff {context : V9Context} {uptime : Option ℕ} :
    calcV9Time context uptime = none ↔ overflowsUptime context uptime = true := by
  cases uptime with
  | none => simp [calcV9Time, overflowsUptime]
  | some uptimeMs =>
    have hlarge : (2 : ℚ) ^ 32 < floatOverflow := lt_floatOverflow le_rfl
    rw [calcV9Time_some_eq_none_iff, le_abs_iff_of_le, overflowsUptime, Option.any_some,
      decide_eq_true_eq]
    rcases lt_or_ge context.sysUptime uptimeMs with hahead | hbehind
    · -- the uptime is ahead, and the clock is taken to have wrapped once
      have hcast : -(uptimeDiff context.sysUptime uptimeMs : ℚ) =
          (uptimeMs : ℚ) - context.sysUptime - 2 ^ 32 := by
        rw [uptimeDiff_of_lt hahead]
        push_cast
        ring
      rw [hcast]
    · have hcast : (uptimeMs : ℚ) ≤ context.sysUptime := by exact_mod_cast hbehind
      rw [uptimeDiff_of_le hbehind]
      push_cast
      exact iff_of_false (by linarith) (by linarith)

/-- Reading a v9 record raises exactly when one of its uptimes is too large. -/
theorem read_v9_eq_none_iff {record : TemplateRecord V9Context} :
    record.read v9Dialect = none ↔ record.overflowsV9 = true := by
  have htimes := (TemplateRecord.times_vars ignoresPlain_v9 record).trans
    (foldlM_timesStep_v9 _)
  obtain ⟨vars, hvars, hvarsTimes⟩ := Option.map_eq_some_iff.mp htimes
  obtain ⟨hsrc, hdst⟩ := TemplateRecord.addresses_vars hvars
  rw [TemplateRecord.overflowsV9, ← hsrc, ← hdst, TemplateRecord.read, hvars,
    Option.bind_eq_bind, Option.bind_some]
  cases vars.srcIp with
  | none => simp
  | some srcIp =>
    cases vars.dstIp with
    | none => simp
    | some dstIp =>
      rw [Option.isSome_some, Option.isSome_some, Bool.and_true, Bool.true_and, Bool.or_eq_true,
        ← calcV9Time_eq_none_iff, ← calcV9Time_eq_none_iff, hvarsTimes]
      simp only [v9Dialect]
      cases calcV9Time record.context
          (lastOf (numberOf 22) (elements record.fields record.data)) <;>
        cases calcV9Time record.context
          (lastOf (numberOf 21) (elements record.fields record.data)) <;> simp

/-- Reading an IPFIX record raises exactly when one of its times is too large. -/
theorem read_ipfix_eq_none_iff {record : TemplateRecord ℕ} :
    record.read ipfixDialect = none ↔ record.overflowsIpfix = true := by
  rw [read_ipfix, TemplateRecord.overflowsIpfix]
  simp

/-! ### Runs -/

/-- The v9 parser returns for a packet. -/
def ReturnsV9 (parser : TemplateParser V9Context) (datagram : Datagram) : Prop :=
  (decodeV9 parser datagram).2 ≠ none

/-- The IPFIX parser returns for a message. -/
def ReturnsIpfix (parser : TemplateParser ℕ) (datagram : Datagram) : Prop :=
  (decodeIpfix parser datagram).2 ≠ none

/-- No record that a v9 packet makes the parser read has an uptime that is too large. -/
def ReadableV9 (parser : TemplateParser V9Context) (datagram : Datagram) : Prop :=
  ∀ record ∈ v9Dialect.packetRecords readV9Head parser datagram, record.overflowsV9 = false

/-- No record that an IPFIX message makes the parser read has a time that is too large. -/
def ReadableIpfix (parser : TemplateParser ℕ) (datagram : Datagram) : Prop :=
  ∀ record ∈ ipfixDialect.packetRecords readIpfixHead parser datagram,
    record.overflowsIpfix = false

theorem returnsV9_iff {parser : TemplateParser V9Context} {datagram : Datagram} :
    ReturnsV9 parser datagram ↔ ReadableV9 parser datagram := by
  rw [ReturnsV9, decodeV9, ← parsePacket_v9, Ne, parsePacket_eq_none_iff]
  simp only [read_v9_eq_none_iff, ReadableV9, not_exists, not_and, Bool.not_eq_true]

theorem returnsIpfix_iff {parser : TemplateParser ℕ} {datagram : Datagram} :
    ReturnsIpfix parser datagram ↔ ReadableIpfix parser datagram := by
  rw [ReturnsIpfix, decodeIpfix, ← parsePacket_ipfix, Ne, parsePacket_eq_none_iff]
  simp only [read_ipfix_eq_none_iff, ReadableIpfix, not_exists, not_and, Bool.not_eq_true]

/-- A packet for the v9 parser, which goes on after one that raised. -/
def stepV9 (parser : TemplateParser V9Context) (datagram : Datagram) :
    Option (TemplateParser V9Context) := some (decodeV9 parser datagram).1

/-- A message for the IPFIX parser, which goes on after one that raised. -/
def stepIpfix (parser : TemplateParser ℕ) (datagram : Datagram) : Option (TemplateParser ℕ) :=
  some (decodeIpfix parser datagram).1

/-- In a run, the parsers return for every packet exactly when no record that they read has a time
that is too large. -/
theorem everyStep_returns_iff (v9Parser : TemplateParser V9Context)
    (ipfixParser : TemplateParser ℕ) (datagrams : List Datagram) :
    (Runs.EveryStep stepV9 v9Parser datagrams ReturnsV9 ↔
      Runs.EveryStep stepV9 v9Parser datagrams ReadableV9) ∧
    (Runs.EveryStep stepIpfix ipfixParser datagrams ReturnsIpfix ↔
      Runs.EveryStep stepIpfix ipfixParser datagrams ReadableIpfix) := by
  constructor
  · simp only [Runs.EveryStep, returnsV9_iff]
  · simp only [Runs.EveryStep, returnsIpfix_iff]

/-- A message that announces a template with a start time of 129 bytes and sends a record of it. -/
def hugeTimeMessage : Datagram where
  data := [0, 10, 0, 161, 0, 0, 0, 0, 0, 0, 0, 1, 0, 0, 0, 7] ++
    [0, 2, 0, 12, 1, 0, 0, 1, 0, 152, 0, 129] ++ ([1, 0, 0, 133, 1] ++ List.replicate 128 0)
  exporterIp := "192.0.2.1"
  now := 0

/-- The record of that message. -/
def hugeTimeRecord : TemplateRecord ℕ where
  exporterIp := "192.0.2.1"
  context := 0
  fields := [⟨152, 129, none⟩]
  data := 1 :: List.replicate 128 0
  complete := by
    rw [List.length_cons, List.length_replicate]
    rfl

set_option maxRecDepth 8000 in
theorem packetRecords_hugeTimeMessage :
    ipfixDialect.packetRecords readIpfixHead (TemplateParser.initial ℕ) hugeTimeMessage =
      [hugeTimeRecord] := by
  rfl

set_option maxRecDepth 8000 in
theorem overflowsIpfix_hugeTimeRecord : hugeTimeRecord.overflowsIpfix = true := by
  have hvalue : fromBytes hugeTimeRecord.data = 256 ^ 128 := by decide
  have hlarge : floatOverflow ≤ ((256 ^ 128 : ℕ) : ℚ) := by
    have hpower : ((256 ^ 128 : ℕ) : ℚ) = 2 ^ 1024 := by
      rw [Nat.cast_pow, show ((256 : ℕ) : ℚ) = 2 ^ 8 by norm_num, ← pow_mul]
    rw [hpower, floatOverflow]
    exact sub_le_self _ (pow_nonneg zero_le_two 970)
  rw [TemplateRecord.overflowsIpfix, List.any_eq_true]
  refine ⟨(⟨152, 129, none⟩, hugeTimeRecord.data), List.mem_cons_self, ?_⟩
  rw [overflowsTime, hvalue, decide_eq_true hlarge]
  rfl

/-- The parser raises for that message, which is the first one that it receives. -/
theorem exists_not_returnsIpfix :
    ∃ datagram, ¬ ReturnsIpfix (TemplateParser.initial ℕ) datagram := by
  refine ⟨hugeTimeMessage, ?_⟩
  rw [returnsIpfix_iff, ReadableIpfix, packetRecords_hugeTimeMessage]
  intro hreadable
  have hfalse := hreadable hugeTimeRecord List.mem_cons_self
  rw [overflowsIpfix_hugeTimeRecord] at hfalse
  cases hfalse

end Lnmp.Flow
