import Lnmp.Flow.Sets

/-!
# What packets bring

A packet brings a sweep of the expired templates, and then templates and data sets in the order of
its sets. `parsePacket_eq_arrive` says that a parser handles a packet arrival by arrival, so that
what holds of a run of packets can be proved for one arrival at a time.

`Protocol` names the two parsers, and what is said of a protocol is said of both.
-/

set_option autoImplicit false
set_option relaxedAutoImplicit false

namespace Lnmp.Flow

open Lnmp.Foundation

/-! ### Protocols -/

/-- The protocols with templates. -/
inductive Protocol
  | netflowV9
  | ipfix
  deriving DecidableEq

/-- What a packet of the protocol says of its times. -/
def Protocol.Context : Protocol → Type
  | .netflowV9 => V9Context
  | .ipfix => ℕ

/-- The times of a record of the protocol. -/
def Protocol.Time : Protocol → Type
  | .netflowV9 => ℕ
  | .ipfix => ℚ

/-- How the parser of the protocol differs from the other one. -/
def Protocol.dialect : (protocol : Protocol) → Dialect protocol.Context protocol.Time
  | .netflowV9 => v9Dialect
  | .ipfix => ipfixDialect

/-- The header of a packet of the protocol. -/
def Protocol.readHead : (protocol : Protocol) → List UInt8 → Option (PacketHead protocol.Context)
  | .netflowV9 => readV9Head
  | .ipfix => readIpfixHead

/-- `parse_packet` of the parser of the protocol. -/
def Protocol.decode : (protocol : Protocol) → TemplateParser protocol.Context → Datagram →
    TemplateParser protocol.Context × Option (List (TemplateFlow protocol.dialect))
  | .netflowV9 => decodeV9
  | .ipfix => decodeIpfix

theorem Protocol.decode_eq (protocol : Protocol) (parser : TemplateParser protocol.Context)
    (datagram : Datagram) :
    protocol.decode parser datagram =
      protocol.dialect.parsePacket protocol.readHead parser datagram := by
  cases protocol with
  | netflowV9 => exact (parsePacket_v9 parser datagram).symm
  | ipfix => exact (parsePacket_ipfix parser datagram).symm

/-! ### Arrivals -/

/-- What a packet brings, and when. -/
inductive Arrival (Context : Type)
  | sweep (now : ℚ)
  | template (now : ℚ) (templateId : ℕ) (fields : List FieldSpec)
  | dataSet (now : ℚ) (templateId : ℕ) (payload : List UInt8) (context : Context)

variable {Context Time : Type}

/-- When an arrival comes. -/
def Arrival.now : Arrival Context → ℚ
  | .sweep now => now
  | .template now _ _ => now
  | .dataSet now _ _ _ => now

/-- What a set brings. -/
def setArrivals (dialect : Dialect Context Time) (now : ℚ) (context : Context)
    (set : ℕ × List UInt8) : List (Arrival Context) :=
  if set.1 = dialect.templateSetId then
    (splitTemplates dialect.readSpec set.2.length set.2).map fun template ↦
      .template now template.1 template.2
  else if 256 ≤ set.1 then [.dataSet now set.1 set.2 context]
  else []

/-- What a packet brings behind its header. -/
def PacketHead.arrivals (head : PacketHead Context) (dialect : Dialect Context Time) (now : ℚ) :
    List (Arrival Context) :=
  .sweep now :: (splitSets head.body.length head.body).flatMap
    (setArrivals dialect now head.context)

section Arrive

variable (dialect : Dialect Context Time) (exporterIp : String) (sourceId : ℕ)

/-- A data set: it is read, or waits for its template. -/
def receiveDataSet (parser : TemplateParser Context) (now : ℚ) (templateId : ℕ)
    (payload : List UInt8) (context : Context) :
    TemplateParser Context × Option (List (TemplateFlow dialect)) :=
  match parser.usable (exporterIp, sourceId, templateId) with
  | none => (parser.buffer (exporterIp, sourceId) ⟨now, templateId, payload, context⟩, some [])
  | some template =>
    (parser, readRecords dialect (splitRecords exporterIp context template.fields payload))

/-- What a parser does with an arrival. -/
def arrive (parser : TemplateParser Context) :
    Arrival Context → TemplateParser Context × Option (List (TemplateFlow dialect))
  | .sweep now => (parser.cleanupExpired now, some [])
  | .template now templateId fields =>
    parseTemplate dialect now exporterIp sourceId parser (templateId, fields)
  | .dataSet now templateId payload context =>
    receiveDataSet dialect exporterIp sourceId parser now templateId payload context

end Arrive

variable {dialect : Dialect Context Time} {now : ℚ} {exporterIp : String} {sourceId : ℕ}
  {parser : TemplateParser Context}

/-- Items that bring several arrivals each are handled arrival by arrival. -/
theorem parseAll_flatMap {Item Source Flow State : Type}
    {parse : State → Source → State × Option (List Flow)}
    {handle : State → Item → State × Option (List Flow)} {items : Source → List Item}
    (hparse : ∀ state source, parse state source = parseAll handle state (items source))
    (state : State) (sources : List Source) :
    parseAll parse state sources = parseAll handle state (sources.flatMap items) := by
  induction sources generalizing state with
  | nil => rfl
  | cons source sources ih =>
    rw [List.flatMap_cons, parseAll_append, parseAll, hparse]
    rcases parseAll handle state (items source) with ⟨next, _ | flows⟩
    · rfl
    · dsimp only
      rw [ih]

/-- A set is handled arrival by arrival. -/
theorem parseSet_eq_arrive (context : Context) (set : ℕ × List UInt8) :
    parseSet dialect now exporterIp sourceId context parser set =
      parseAll (arrive dialect exporterIp sourceId) parser
        (setArrivals dialect now context set) := by
  rw [setArrivals]
  by_cases htemplates : set.1 = dialect.templateSetId
  · rw [parseSet_templates htemplates, if_pos htemplates, parseAll_map]
    rfl
  · rw [if_neg htemplates]
    by_cases hdata : 256 ≤ set.1
    · rw [if_pos hdata, parseAll_singleton, arrive, receiveDataSet]
      cases husable : parser.usable (exporterIp, sourceId, set.1) with
      | none => exact parseSet_of_unusable htemplates hdata husable
      | some template => exact parseSet_of_usable htemplates hdata husable
    · rw [if_neg hdata, parseSet, if_neg htemplates, if_neg hdata]
      rfl

theorem parseAll_sweep (rest : List (Arrival Context)) :
    parseAll (arrive dialect exporterIp sourceId) parser (.sweep now :: rest) =
      parseAll (arrive dialect exporterIp sourceId) (parser.cleanupExpired now) rest := by
  rw [parseAll, arrive]
  simp

/-- A packet is handled arrival by arrival, under the key of its header. -/
theorem parsePacket_eq_arrive {readHead : List UInt8 → Option (PacketHead Context)}
    {datagram : Datagram} {head : PacketHead Context} (hhead : readHead datagram.data = some head) :
    dialect.parsePacket readHead parser datagram =
      parseAll (arrive dialect datagram.exporterIp head.sourceId) parser
        (head.arrivals dialect datagram.now) := by
  rw [Dialect.parsePacket, hhead, PacketHead.arrivals, parseAll_sweep]
  exact parseAll_flatMap (fun state set ↦ parseSet_eq_arrive head.context set) ..

theorem setArrivals_templates {set : ℕ × List UInt8} (htemplates : set.1 = dialect.templateSetId)
    (now : ℚ) (context : Context) :
    setArrivals dialect now context set =
      (splitTemplates dialect.readSpec set.2.length set.2).map fun template ↦
        .template now template.1 template.2 := if_pos htemplates

theorem setArrivals_data {set : ℕ × List UInt8} (htemplates : set.1 ≠ dialect.templateSetId)
    (hdata : 256 ≤ set.1) (now : ℚ) (context : Context) :
    setArrivals dialect now context set = [.dataSet now set.1 set.2 context] :=
  (if_neg htemplates).trans (if_pos hdata)

/-- Only a packet brings a sweep, not its sets. -/
theorem ne_sweep_of_mem_setArrivals {context : Context} {set : ℕ × List UInt8}
    {arrival : Arrival Context} (hmem : arrival ∈ setArrivals dialect now context set) (time : ℚ) :
    arrival ≠ .sweep time := by
  rintro rfl
  rw [setArrivals] at hmem
  split_ifs at hmem with htemplates hdata
  · obtain ⟨template, -, hsame⟩ := List.mem_map.mp hmem
    cases hsame
  · cases List.mem_singleton.mp hmem
  · exact absurd hmem List.not_mem_nil

/-! ### Sequences of packets -/

/-- What a packet brings, which is nothing when the parser ignores it. -/
def Protocol.arrivals (protocol : Protocol) (datagram : Datagram) :
    List (Arrival protocol.Context) :=
  match protocol.readHead datagram.data with
  | none => []
  | some head => head.arrivals protocol.dialect datagram.now

/-- The packet is one of a key, or one that the parser ignores. -/
structure Protocol.IsFrom (protocol : Protocol) (exporterIp : String) (sourceId : ℕ)
    (datagram : Datagram) : Prop where
  exporter : datagram.exporterIp = exporterIp
  source : ∀ head, protocol.readHead datagram.data = some head → head.sourceId = sourceId

variable {protocol : Protocol} {datagram : Datagram} {arrival : Arrival protocol.Context}

/-- What arrives does so with its packet, and a data set has the times of its packet. -/
theorem of_mem_arrivals (hmem : arrival ∈ protocol.arrivals datagram) :
    arrival.now = datagram.now ∧
      ∀ now id payload context, arrival = .dataSet now id payload context →
        ∃ head, protocol.readHead datagram.data = some head ∧ head.context = context := by
  rw [Protocol.arrivals] at hmem
  cases hhead : protocol.readHead datagram.data with
  | none => simp [hhead] at hmem
  | some head =>
    rw [hhead] at hmem
    rcases List.mem_cons.mp hmem with rfl | hmem
    · exact ⟨rfl, fun _ _ _ _ hsame ↦ by cases hsame⟩
    · obtain ⟨set, -, hset⟩ := List.mem_flatMap.mp hmem
      rw [setArrivals] at hset
      split_ifs at hset with htemplates hdata
      · obtain ⟨template, -, rfl⟩ := List.mem_map.mp hset
        exact ⟨rfl, fun _ _ _ _ hsame ↦ by cases hsame⟩
      · obtain rfl := List.mem_singleton.mp hset
        refine ⟨rfl, fun now id payload context hsame ↦ ⟨head, rfl, ?_⟩⟩
        injection hsame
      · exact absurd hset List.not_mem_nil

/-- What a packet with some sets brings, and nothing for what comes behind them. -/
theorem Protocol.arrivals_encodeSets {context : protocol.Context} {sets : List WireSet}
    {tail : List UInt8}
    (hhead : protocol.readHead datagram.data = some ⟨sourceId, context, encodeSets sets ++ tail⟩)
    (htail : splitSets tail.length tail = []) :
    protocol.arrivals datagram = .sweep datagram.now ::
      sets.flatMap fun set ↦ setArrivals protocol.dialect datagram.now context set.received := by
  rw [Protocol.arrivals, hhead]
  dsimp only
  rw [PacketHead.arrivals]
  dsimp only
  rw [splitSets_encodeSets, htail, List.append_nil, List.flatMap_map]

/-- A packet of a key is handled arrival by arrival. -/
theorem Protocol.IsFrom.decode_eq (hfrom : protocol.IsFrom exporterIp sourceId datagram)
    (parser : TemplateParser protocol.Context) :
    protocol.decode parser datagram =
      parseAll (arrive protocol.dialect exporterIp sourceId) parser
        (protocol.arrivals datagram) := by
  obtain ⟨rfl, hsource⟩ := hfrom
  rw [protocol.decode_eq, Protocol.arrivals]
  cases hhead : protocol.readHead datagram.data with
  | none =>
    rw [Dialect.parsePacket, hhead]
    rfl
  | some head =>
    rw [parsePacket_eq_arrive hhead, hsource head hhead]

/-- What a new parser returns for some packets. -/
def Protocol.outputs (protocol : Protocol) (datagrams : List Datagram) :
    List (Option (List (TemplateFlow protocol.dialect))) :=
  (decodePackets protocol.decode (TemplateParser.initial protocol.Context) datagrams).2

/-- The flows of the packets of a run, `none` when one of them raises. -/
def emitted : List (Option (List (TemplateFlow dialect))) → Option (List FlowDict)
  | [] => some []
  | output :: outputs =>
    (dictsOf output).bind fun flows ↦ (emitted outputs).map (flows ++ ·)

/-- A run of packets of a key that does not raise is a run of what they bring. -/
theorem decodePackets_eq_arrive {datagrams : List Datagram}
    (hfrom : ∀ datagram ∈ datagrams, protocol.IsFrom exporterIp sourceId datagram)
    {parser finish : TemplateParser protocol.Context}
    {flows : List (TemplateFlow protocol.dialect)}
    (hparse : parseAll (arrive protocol.dialect exporterIp sourceId) parser
      (datagrams.flatMap protocol.arrivals) = (finish, some flows)) :
    (decodePackets protocol.decode parser datagrams).1 = finish ∧
      emitted (decodePackets protocol.decode parser datagrams).2 =
        some (flows.map TemplateFlow.flow) := by
  induction datagrams generalizing parser flows with
  | nil =>
    obtain ⟨rfl, hflows⟩ := Prod.ext_iff.mp hparse
    exact ⟨rfl, congrArg (Option.map (List.map TemplateFlow.flow)) hflows⟩
  | cons datagram datagrams ih =>
    rw [List.forall_mem_cons] at hfrom
    rw [List.flatMap_cons, parseAll_append, ← hfrom.1.decode_eq] at hparse
    rw [decodePackets]
    rcases hfirst : protocol.decode parser datagram with ⟨next, _ | first⟩
    · rw [hfirst] at hparse
      exact absurd (Prod.ext_iff.mp hparse).2 (Option.some_ne_none _).symm
    · rw [hfirst] at hparse
      dsimp only at hparse
      rw [Prod.mk.injEq, Option.map_eq_some_iff] at hparse
      obtain ⟨hfinish, more, hmore, rfl⟩ := hparse
      obtain ⟨hsame, hrest⟩ := ih hfrom.2 (Prod.ext hfinish hmore)
      refine ⟨hsame, ?_⟩
      show (dictsOf (some first)).bind _ = _
      rw [hrest, List.map_append]
      rfl

end Lnmp.Flow
