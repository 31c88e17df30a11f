import Lnmp.Flow.Simulation
import Lnmp.Flow.VariableLength

/-!
# The two parsers agree

The same templates and data sets may be carried by NetFlow v9 and by IPFIX. As long as no field
specifier has an enterprise number or a time, the two parsers return the same flows, except for
their versions and times, and keep the same templates and the same data sets waiting
(`decode_carried`). The payloads may be any bytes, also of templates that are cut off.
-/

set_option autoImplicit false
set_option relaxedAutoImplicit false

namespace Lnmp.Flow

open Lnmp.Foundation

/-! ### What is carried -/

/-- The elements that hold times in one of the protocols. -/
def timeElements : List ℕ := [21, 22, 150, 151, 152, 153]

/-- All field specifiers of the templates of a template set, also of those that are cut off. -/
def templateSpecs (readSpec : List UInt8 → Option FieldSpec × List UInt8) :
    ℕ → List UInt8 → List FieldSpec
  | 0, _ => []
  | fuel + 1, payload =>
    if payload.length < 4 ∨ unsignedAt payload 0 2 < 256 then []
    else
      let (fields, rest) := readSpecs readSpec (unsignedAt payload 2 2) (payload.drop 4)
      fields ++ templateSpecs readSpec fuel rest

/-- A set with templates or data, of any bytes. -/
inductive CarriedSet
  | templates (payload : List UInt8) (payload_lt : payload.length + 4 < 65536)
  | data (id : ℕ) (payload : List UInt8) (id_ge : 256 ≤ id) (id_lt : id < 65536)
    (payload_lt : payload.length + 4 < 65536)

/-- A set as it is sent, by the id of template sets. -/
def CarriedSet.wire (templateSetId : ℕ) (hid : templateSetId < 65536) : CarriedSet → WireSet
  | .templates payload payload_lt => ⟨templateSetId, payload, hid, payload_lt⟩
  | .data id payload _ id_lt payload_lt => ⟨id, payload, id_lt, payload_lt⟩

/-- No field specifier of the set has an enterprise number or a time. -/
def CarriedSet.Plain : CarriedSet → Prop
  | .templates payload _ => ∀ spec ∈ templateSpecs v9Dialect.readSpec payload.length payload,
    spec.ieId < 0x8000 ∧ spec.ieId ∉ timeElements
  | .data .. => True

/-- The sets of a packet of either protocol. -/
def encodeCarried (templateSetId : ℕ) (hid : templateSetId < 65536) (sets : List CarriedSet) :
    List UInt8 := encodeSets (sets.map (CarriedSet.wire templateSetId hid))

/-- A packet that is carried by both protocols: the same sets from the same source at the same time,
and behind them, in either protocol, bytes that are not a complete set. -/
structure CarriedPacket where
  now : ℚ
  exporterIp : String
  v9Head : V9Header
  ipfixHead : IpfixHeader
  sets : List CarriedSet
  v9Tail : List UInt8
  ipfixTail : List UInt8
  source : ipfixHead.domainId = v9Head.sourceId
  v9_incomplete : splitSets v9Tail.length v9Tail = []
  ipfix_incomplete : splitSets ipfixTail.length ipfixTail = []
  fits : 16 + (encodeCarried ipfixTemplateSetId ipfixTemplateSetId_lt sets ++
    ipfixTail).length < 65536

/-- The packet as NetFlow v9. -/
def CarriedPacket.v9 (packet : CarriedPacket) : Datagram where
  data := packet.v9Head.encode ++
    (encodeCarried v9TemplateSetId v9TemplateSetId_lt packet.sets ++ packet.v9Tail)
  exporterIp := packet.exporterIp
  now := packet.now

/-- The packet as IPFIX. -/
def CarriedPacket.ipfix (packet : CarriedPacket) : Datagram where
  data := packet.ipfixHead.encode
      (encodeCarried ipfixTemplateSetId ipfixTemplateSetId_lt packet.sets ++
        packet.ipfixTail).length ++
    (encodeCarried ipfixTemplateSetId ipfixTemplateSetId_lt packet.sets ++ packet.ipfixTail)
  exporterIp := packet.exporterIp
  now := packet.now

/-- The same flow, except for its version and times. -/
def SameButTimes (flow flow' : FlowDict) : Prop :=
  { flow with
    version := flow'.version
    startTime := flow'.startTime
    endTime := flow'.endTime } = flow'

/-! ### Templates -/

/-- The two specifiers have the same form unless there is an enterprise number. -/
theorem readIpfixSpec_eq {data : List UInt8}
    (hplain : ∀ spec ∈ (v9Dialect.readSpec data).1, spec.ieId < 0x8000) :
    readIpfixSpec data = v9Dialect.readSpec data := by
  rw [readIpfixSpec]
  by_cases hshort : data.length < 4
  · simp [v9Dialect, hshort]
  · have hieId : unsignedAt data 0 2 < 0x8000 := by simpa [v9Dialect, hshort] using hplain
    simp [v9Dialect, hshort, hieId]

theorem readSpecs_eq {count : ℕ} {data : List UInt8}
    (hplain : ∀ spec ∈ (readSpecs v9Dialect.readSpec count data).1, spec.ieId < 0x8000) :
    readSpecs readIpfixSpec count data = readSpecs v9Dialect.readSpec count data := by
  induction count generalizing data with
  | zero => rfl
  | succ count ih =>
    rw [readSpecs] at hplain ⊢
    rw [readSpecs]
    have hfirst : readIpfixSpec data = v9Dialect.readSpec data := by
      refine readIpfixSpec_eq fun spec hspec ↦ ?_
      rcases hread : v9Dialect.readSpec data with ⟨_ | first, rest⟩
      · rw [hread] at hspec
        exact absurd hspec (Option.not_mem_none spec)
      · rw [hread] at hplain hspec
        obtain rfl := Option.some.inj hspec
        exact hplain first (List.mem_cons_self ..)
    rw [hfirst]
    rcases hread : v9Dialect.readSpec data with ⟨_ | first, rest⟩
    · rfl
    · rw [hread] at hplain
      dsimp only
      rw [ih fun spec hmem ↦ hplain spec (List.mem_cons_of_mem _ hmem)]

/-- Both parsers find the same templates. -/
theorem splitTemplates_eq {fuel : ℕ} {payload : List UInt8}
    (hplain : ∀ spec ∈ templateSpecs v9Dialect.readSpec fuel payload, spec.ieId < 0x8000) :
    splitTemplates readIpfixSpec fuel payload =
      splitTemplates v9Dialect.readSpec fuel payload := by
  induction fuel generalizing payload with
  | zero => rfl
  | succ fuel ih =>
    rw [templateSpecs] at hplain
    rw [splitTemplates, splitTemplates]
    by_cases hstop : payload.length < 4 ∨ unsignedAt payload 0 2 < 256
    · rw [if_pos hstop, if_pos hstop]
    · rw [if_neg hstop] at hplain ⊢
      rw [if_neg hstop]
      dsimp only at hplain ⊢
      rw [List.forall_mem_append] at hplain
      rw [readSpecs_eq hplain.1, ih hplain.2]

/-- The fields of a template are among the specifiers of its set. -/
theorem of_mem_splitTemplates {fuel : ℕ} {payload : List UInt8} {template : ℕ × List FieldSpec}
    (hmem : template ∈ splitTemplates v9Dialect.readSpec fuel payload) {field : FieldSpec}
    (hfield : field ∈ template.2) :
    field ∈ templateSpecs v9Dialect.readSpec fuel payload := by
  induction fuel generalizing payload with
  | zero => exact absurd hmem List.not_mem_nil
  | succ fuel ih =>
    rw [splitTemplates] at hmem
    rw [templateSpecs]
    by_cases hstop : payload.length < 4 ∨ unsignedAt payload 0 2 < 256
    · rw [if_pos hstop] at hmem
      exact absurd hmem List.not_mem_nil
    · rw [if_neg hstop] at hmem ⊢
      dsimp only at hmem ⊢
      split_ifs at hmem with hcount
      · rcases List.mem_cons.mp hmem with rfl | hmem
        · exact List.mem_append_left _ hfield
        · exact List.mem_append_right _ (ih hmem)
      · exact List.mem_append_right _ (ih hmem)

/-! ### Records -/

/-- The two flows of a record are the same, except for their versions and times. -/
theorem recordFlow_same (version version' : ℕ) (exporterIp : String)
    (fields : List (FieldSpec × List UInt8)) (startTime endTime startTime' endTime' : ℚ) :
    Option.Rel SameButTimes (recordFlow version exporterIp fields startTime endTime)
      (recordFlow version' exporterIp fields startTime' endTime') := by
  unfold recordFlow
  cases lastOf (addressOf 8 27) fields with
  | none => exact .none
  | some srcIp =>
    cases lastOf (addressOf 12 28) fields with
    | none => exact .none
    | some dstIp => exact .some rfl

/-- Templates without times are read alike. -/
def carriedLikeness : Likeness V9Context ℕ ℕ ℚ where
  dialect := v9Dialect
  dialect' := ipfixDialect
  SameContext := fun context _ ↦ context.sysUptime < 256 ^ 4
  Covers := fun fields ↦ ∀ field ∈ fields, field.ieId ∉ timeElements
  SameFlow := SameButTimes
  mayRaise := False
  reads := by
    intro exporterIp fields payload context exportTime hplain hsys
    have huptimes : ShortUptimes fields := by
      intro field hfield htime
      refine absurd ?_ (hplain field hfield)
      rcases htime with htime | htime <;> rw [htime] <;> decide
    have htimes : overflowsTimes fields payload = false := by
      rw [overflowsTimes, List.any_eq_false]
      intro data hdata hany
      obtain ⟨element, helement, hoverflows⟩ := List.any_eq_true.mp hany
      have hnot : overflowsTime element = false := not_overflowsTime fun htime ↦
        absurd (List.mem_cons_of_mem _ (List.mem_cons_of_mem _ htime))
          (hplain element.1 (fst_mem_of_mem_elements helement))
      exact absurd (hnot.symm.trans hoverflows) Bool.false_ne_true
    rw [dictsOf_readRecords_v9 hsys huptimes, dictsOf_readRecords_ipfix, htimes,
      if_neg Bool.false_ne_true]
    have hflows : List.Forall₂ SameButTimes (v9Flows exporterIp context fields payload)
        (ipfixFlows exporterIp exportTime fields payload) := by
      refine List.rel_filterMap (R := Eq) ?_ (List.forall₂_same.mpr fun _ _ ↦ rfl)
      rintro data _ rfl
      exact recordFlow_same ..
    exact .flows hflows

/-! ### Packets -/

/-- Two parsers agree at every key. -/
def Agree (parser : TemplateParser V9Context) (parser' : TemplateParser ℕ) : Prop :=
  ∀ key, carriedLikeness.AgreeAt key parser parser'

/-- The same flows, except for their versions and times. -/
def SameOutput (output : Option (List (TemplateFlow v9Dialect)))
    (output' : Option (List (TemplateFlow ipfixDialect))) : Prop :=
  ∃ flows flows', dictsOf output = some flows ∧ dictsOf output' = some flows' ∧
    List.Forall₂ SameButTimes flows flows'

/-- A carried set brings the same in both protocols. -/
theorem CarriedSet.sameArrival {set : CarriedSet} (hplain : set.Plain) (now : ℚ)
    {context : V9Context} (hsys : context.sysUptime < 256 ^ 4) (exportTime : ℕ) :
    List.Forall₂ carriedLikeness.SameArrival
      (setArrivals v9Dialect now context (set.wire v9TemplateSetId v9TemplateSetId_lt).received)
      (setArrivals ipfixDialect now exportTime
        (set.wire ipfixTemplateSetId ipfixTemplateSetId_lt).received) := by
  cases set with
  | templates payload payload_lt =>
    have hsame : splitTemplates readIpfixSpec payload.length payload =
        splitTemplates v9Dialect.readSpec payload.length payload :=
      splitTemplates_eq fun spec hspec ↦ (hplain spec hspec).1
    rw [setArrivals_templates rfl, setArrivals_templates rfl]
    show List.Forall₂ _ ((splitTemplates v9Dialect.readSpec payload.length payload).map _)
      ((splitTemplates readIpfixSpec payload.length payload).map _)
    rw [hsame, List.forall₂_map_left_iff, List.forall₂_map_right_iff, List.forall₂_same]
    exact fun template hmem ↦ .template now template.1 fun field hfield ↦
      (hplain field (of_mem_splitTemplates hmem hfield)).2
  | data id payload id_ge id_lt payload_lt =>
    have hv9 : id ≠ 0 := (Nat.zero_lt_of_lt id_ge).ne'
    have hipfix : id ≠ 2 := (Nat.lt_of_lt_of_le (by decide) id_ge).ne'
    rw [setArrivals_data hv9 id_ge, setArrivals_data hipfix id_ge]
    exact .cons (.dataSet now id payload hsys) .nil

/-- No field specifier of the packet has an enterprise number or a time. -/
def CarriedPacket.Plain (packet : CarriedPacket) : Prop := ∀ set ∈ packet.sets, set.Plain

/-- What the packet brings as NetFlow v9. -/
def CarriedPacket.v9Arrivals (packet : CarriedPacket) : List (Arrival V9Context) :=
  packet.sets.flatMap fun set ↦
    setArrivals v9Dialect packet.now packet.v9Head.context
      (set.wire v9TemplateSetId v9TemplateSetId_lt).received

/-- What the packet brings as IPFIX. -/
def CarriedPacket.ipfixArrivals (packet : CarriedPacket) : List (Arrival ℕ) :=
  packet.sets.flatMap fun set ↦
    setArrivals ipfixDialect packet.now packet.ipfixHead.exportTime
      (set.wire ipfixTemplateSetId ipfixTemplateSetId_lt).received

theorem CarriedPacket.sameArrivals {packet : CarriedPacket} (hplain : packet.Plain) :
    List.Forall₂ carriedLikeness.SameArrival packet.v9Arrivals packet.ipfixArrivals := by
  have hsets : List.Forall₂ (fun set set' ↦ set = set' ∧ set.Plain) packet.sets packet.sets :=
    List.forall₂_same.mpr fun set hmem ↦ ⟨rfl, hplain set hmem⟩
  refine List.rel_flatMap hsets ?_
  rintro set _ ⟨rfl, hset⟩
  exact CarriedSet.sameArrival hset packet.now packet.v9Head.sysUptime_lt _

theorem decodeV9_carried (packet : CarriedPacket) (parser : TemplateParser V9Context) :
    decodeV9 parser packet.v9 =
      parseAll (arrive v9Dialect packet.exporterIp packet.v9Head.sourceId)
        (parser.cleanupExpired packet.now) packet.v9Arrivals := by
  have hhead : Protocol.netflowV9.readHead packet.v9.data = some ⟨packet.v9Head.sourceId,
      packet.v9Head.context,
      encodeCarried v9TemplateSetId v9TemplateSetId_lt packet.sets ++ packet.v9Tail⟩ :=
    readV9Head_encode packet.v9Head _
  have harrivals := Protocol.arrivals_encodeSets hhead packet.v9_incomplete
  rw [List.flatMap_map] at harrivals
  have hfrom : Protocol.netflowV9.IsFrom packet.exporterIp packet.v9Head.sourceId packet.v9 :=
    ⟨rfl, fun head hsome ↦ by rw [← Option.some.inj (hhead.symm.trans hsome)]⟩
  have hdecode := hfrom.decode_eq parser
  rw [harrivals] at hdecode
  exact hdecode.trans (parseAll_sweep _)

theorem decodeIpfix_carried (packet : CarriedPacket) (parser : TemplateParser ℕ) :
    decodeIpfix parser packet.ipfix =
      parseAll (arrive ipfixDialect packet.exporterIp packet.v9Head.sourceId)
        (parser.cleanupExpired packet.now) packet.ipfixArrivals := by
  have hhead : Protocol.ipfix.readHead packet.ipfix.data = some ⟨packet.ipfixHead.domainId,
      packet.ipfixHead.exportTime,
      encodeCarried ipfixTemplateSetId ipfixTemplateSetId_lt packet.sets ++ packet.ipfixTail⟩ :=
    readIpfixHead_encode packet.ipfixHead packet.fits
  have harrivals := Protocol.arrivals_encodeSets hhead packet.ipfix_incomplete
  rw [List.flatMap_map] at harrivals
  have hfrom : Protocol.ipfix.IsFrom packet.exporterIp packet.v9Head.sourceId packet.ipfix :=
    ⟨rfl, fun head hsome ↦ by rw [← Option.some.inj (hhead.symm.trans hsome), packet.source]⟩
  have hdecode := hfrom.decode_eq parser
  rw [harrivals] at hdecode
  exact hdecode.trans (parseAll_sweep _)

variable {parser : TemplateParser V9Context} {parser' : TemplateParser ℕ}

theorem SameFlows.sameOutput {output : Option (List (TemplateFlow v9Dialect))}
    {output' : Option (List (TemplateFlow ipfixDialect))}
    (hsame : SameFlows False SameButTimes (dictsOf output) (dictsOf output')) :
    SameOutput output output' := by
  unfold SameOutput
  generalize dictsOf output = flows at hsame ⊢
  generalize dictsOf output' = flows' at hsame ⊢
  cases hsame with
  | flows hflows => exact ⟨_, _, rfl, rfl, hflows⟩
  | raised hfalse => exact hfalse.elim

/-- The step lemma: a packet keeps the parsers in agreement, and gives the same flows. -/
theorem Agree.decode (hagree : Agree parser parser') {packet : CarriedPacket}
    (hplain : packet.Plain) :
    Agree (decodeV9 parser packet.v9).1 (decodeIpfix parser' packet.ipfix).1 ∧
      SameOutput (decodeV9 parser packet.v9).2 (decodeIpfix parser' packet.ipfix).2 := by
  have hsweep := fun key ↦ (hagree key).cleanupExpired packet.now
  obtain ⟨hnext, hflows⟩ := Likeness.parseAll_agree
    (hsweep (packet.exporterIp, packet.v9Head.sourceId)) (CarriedPacket.sameArrivals hplain)
  rw [decodeV9_carried, decodeIpfix_carried]
  refine ⟨fun key ↦ ?_, SameFlows.sameOutput hflows⟩
  by_cases hkey : key = (packet.exporterIp, packet.v9Head.sourceId)
  · exact hkey ▸ hnext
  · refine (hsweep key).of_sameAt (parseAll_elsewhere hkey ?_ _) (parseAll_elsewhere hkey ?_ _)
    · intro arrival hmem
      obtain ⟨set, -, hset⟩ := List.mem_flatMap.mp hmem
      exact ne_sweep_of_mem_setArrivals hset
    · intro arrival hmem
      obtain ⟨set, -, hset⟩ := List.mem_flatMap.mp hmem
      exact ne_sweep_of_mem_setArrivals hset

/-- The run lemma. -/
theorem Agree.decodePackets (hagree : Agree parser parser') {packets : List CarriedPacket}
    (hplain : ∀ packet ∈ packets, packet.Plain) :
    Agree (decodePackets decodeV9 parser (packets.map CarriedPacket.v9)).1
        (decodePackets decodeIpfix parser' (packets.map CarriedPacket.ipfix)).1 ∧
      List.Forall₂ SameOutput (decodePackets decodeV9 parser (packets.map CarriedPacket.v9)).2
        (decodePackets decodeIpfix parser' (packets.map CarriedPacket.ipfix)).2 := by
  induction packets generalizing parser parser' with
  | nil => exact ⟨hagree, .nil⟩
  | cons packet packets ih =>
    rw [List.forall_mem_cons] at hplain
    obtain ⟨hnext, hfirst⟩ := hagree.decode hplain.1
    obtain ⟨hfinish, hrest⟩ := ih hnext hplain.2
    rw [List.map_cons, List.map_cons, Flow.decodePackets, Flow.decodePackets]
    exact ⟨hfinish, .cons hfirst hrest⟩

/-- The two parsers agree: for packets that both protocols carry, without enterprise numbers and
times, they return the same flows, except for versions and times, and end with the same templates
and the same data sets waiting, at every key. -/
theorem decode_carried (packets : List CarriedPacket) (hplain : ∀ packet ∈ packets, packet.Plain) :
    List.Forall₂ SameOutput
        (Protocol.netflowV9.outputs (packets.map CarriedPacket.v9))
        (Protocol.ipfix.outputs (packets.map CarriedPacket.ipfix)) ∧
      Agree
        (Flow.decodePackets decodeV9 (TemplateParser.initial V9Context)
          (packets.map CarriedPacket.v9)).1
        (Flow.decodePackets decodeIpfix (TemplateParser.initial ℕ)
          (packets.map CarriedPacket.ipfix)).1 := by
  have hstart : Agree (TemplateParser.initial V9Context) (TemplateParser.initial ℕ) := by
    refine fun key ↦ ⟨fun _ ↦ rfl, fun id template hget ↦ ?_, .nil⟩
    exact absurd hget (Option.some_ne_none template).symm
  exact (hstart.decodePackets hplain).symm

/-- A packet with a template of two addresses, one record, and a set that is cut off. -/
def samplePair : CarriedPacket where
  now := 1
  exporterIp := "192.0.2.9"
  v9Head := sampleHead
  ipfixHead := domainHead
  sets := [.templates [1, 0, 0, 2, 0, 8, 0, 4, 0, 12, 0, 4] (by decide),
    .data 256 [192, 0, 2, 1, 192, 0, 2, 2] sampleTemplate.id_ge leastDataSetId_lt (by decide)]
  v9Tail := [1, 0, 0, 9, 7]
  ipfixTail := [1, 0, 0, 9, 7]
  source := rfl
  v9_incomplete := by decide
  ipfix_incomplete := by decide
  fits := by decide

theorem decode_carried_samplePair :
    List.Forall₂ SameOutput
        (Protocol.netflowV9.outputs ([samplePair].map CarriedPacket.v9))
        (Protocol.ipfix.outputs ([samplePair].map CarriedPacket.ipfix)) ∧
      Agree
        (Flow.decodePackets decodeV9 (TemplateParser.initial V9Context)
          ([samplePair].map CarriedPacket.v9)).1
        (Flow.decodePackets decodeIpfix (TemplateParser.initial ℕ)
          ([samplePair].map CarriedPacket.ipfix)).1 := by
  refine decode_carried [samplePair] (List.forall_mem_singleton.mpr ?_)
  refine List.forall_mem_cons.mpr ⟨?_, List.forall_mem_singleton.mpr trivial⟩
  unfold CarriedSet.Plain
  decide

end Lnmp.Flow
