import Lnmp.Flow.Arrivals
import Lnmp.Flow.RoundTrip

/-!
# Data sets that arrive before their templates

A data set that has no template waits in a buffer until its template arrives. As long as the buffer
never overflows and no data set waits too long, the order in which templates and data sets arrive
does not matter: what was decoded and what still waits is, together, what has arrived
(`parseAll_conserves`). `decode_anyOrder` compares any order with one that has every template first.
-/

set_option autoImplicit false
set_option relaxedAutoImplicit false

namespace Lnmp.Flow

open Lnmp.Foundation

/-! ### Templates and data sets -/

/-- A data set: the id of its template, its bytes, and the times of its packet. -/
structure DataSet (Context : Type) where
  templateId : ℕ
  payload : List UInt8
  context : Context

variable {Context Time : Type} {dialect : Dialect Context Time}

/-- A data set that waits. -/
def Orphan.dataSet (orphan : Orphan Context) : DataSet Context :=
  ⟨orphan.templateId, orphan.payload, orphan.context⟩

/-- The data set that arrives, if one does. -/
def Arrival.dataSets : Arrival Context → List (DataSet Context)
  | .dataSet _ templateId payload context => [⟨templateId, payload, context⟩]
  | _ => []

/-- Times take at most four bytes. -/
def Protocol.ShortTimes : Protocol → List FieldSpec → Prop
  | .netflowV9 => ShortUptimes
  | .ipfix => Flow.ShortTimes

/-- The flows of a data set by its template. -/
def Protocol.flows : (protocol : Protocol) → String → List FieldSpec → DataSet protocol.Context →
    List FlowDict
  | .netflowV9, exporterIp, fields, dataSet =>
    v9Flows exporterIp dataSet.context fields dataSet.payload
  | .ipfix, exporterIp, fields, dataSet =>
    ipfixFlows exporterIp dataSet.context fields dataSet.payload

/-- The templates of an exporter, by id: each has a length, and its times are short. -/
structure TemplateSet (protocol : Protocol) where
  fields : Dict ℕ (List FieldSpec)
  length_pos : ∀ id template, fields.get? id = some template → 0 < totalLength template
  shortTimes : ∀ id template, fields.get? id = some template → protocol.ShortTimes template

/-- The flows of a data set by its template in a set of templates. -/
def TemplateSet.flows {protocol : Protocol} (templates : TemplateSet protocol) (exporterIp : String)
    (dataSet : DataSet protocol.Context) : List FlowDict :=
  protocol.flows exporterIp ((templates.fields.get? dataSet.templateId).getD []) dataSet

/-! ### Sequences of packets -/

/-- The data sets of some packets, in order. -/
def Protocol.dataSets (protocol : Protocol) (datagrams : List Datagram) :
    List (DataSet protocol.Context) :=
  (datagrams.flatMap protocol.arrivals).flatMap Arrival.dataSets

/-- The packets have one key, and their templates are those of a set. -/
structure Sent {protocol : Protocol} (templates : TemplateSet protocol) (exporterIp : String)
    (sourceId : ℕ) (datagrams : List Datagram) : Prop where
  isFrom : ∀ datagram ∈ datagrams, protocol.IsFrom exporterIp sourceId datagram
  announced : ∀ now id fields,
    Arrival.template now id fields ∈ datagrams.flatMap protocol.arrivals →
      templates.fields.get? id = some fields

/-- The template of a data set that came at a time is announced within the time that the data set
may wait, and so is every template in front of it. -/
def AnnouncedInTime (stamp : ℚ) (templateId : ℕ) : List (Arrival Context) → Prop
  | [] => False
  | .template now other _ :: after =>
    now - stamp ≤ orphanTtl ∧ (other = templateId ∨ AnnouncedInTime stamp templateId after)
  | _ :: after => AnnouncedInTime stamp templateId after

/-- When times do not run back, the template has to come in time, and nothing else is asked. -/
theorem announcedInTime_iff {arrivals : List (Arrival Context)}
    (htimes : arrivals.Pairwise (·.now ≤ ·.now)) {stamp : ℚ} {templateId : ℕ} :
    AnnouncedInTime stamp templateId arrivals ↔
      ∃ now fields,
        Arrival.template now templateId fields ∈ arrivals ∧ now - stamp ≤ orphanTtl := by
  induction arrivals with
  | nil => simp [AnnouncedInTime]
  | cons arrival arrivals ih =>
    obtain ⟨hfirst, hrest⟩ := List.pairwise_cons.mp htimes
    have hbehind : (∃ now fields, Arrival.template now templateId fields ∈ arrivals ∧
        now - stamp ≤ orphanTtl) → arrival.now - stamp ≤ orphanTtl := by
      rintro ⟨now, fields, hmem, htime⟩
      exact (sub_le_sub_right (hfirst _ hmem) stamp).trans htime
    cases arrival with
    | sweep time => simp [AnnouncedInTime, ih hrest]
    | dataSet time id payload context => simp [AnnouncedInTime, ih hrest]
    | template time other others =>
      rw [AnnouncedInTime, ih hrest]
      constructor
      · rintro ⟨htime, rfl | ⟨now, fields, hmem, hnow⟩⟩
        · exact ⟨time, others, List.mem_cons_self .., htime⟩
        · exact ⟨now, fields, List.mem_cons_of_mem _ hmem, hnow⟩
      · rintro ⟨now, fields, hmem, hnow⟩
        rcases List.mem_cons.mp hmem with hsame | hmem
        · injection hsame with htime hid
          exact ⟨htime ▸ hnow, .inl hid.symm⟩
        · exact ⟨hbehind ⟨now, fields, hmem, hnow⟩, .inr ⟨now, fields, hmem, hnow⟩⟩

/-- The parser after some arrivals under a key. -/
def Protocol.after (protocol : Protocol) (exporterIp : String) (sourceId : ℕ)
    (arrivals : List (Arrival protocol.Context)) : TemplateParser protocol.Context :=
  (parseAll (arrive protocol.dialect exporterIp sourceId)
    (TemplateParser.initial protocol.Context) arrivals).1

/-- A data set has to wait when it arrives after others: its template is not there. -/
def Protocol.Waits (protocol : Protocol) (exporterIp : String) (sourceId : ℕ)
    (before : List (Arrival protocol.Context)) (templateId : ℕ) : Prop :=
  (protocol.after exporterIp sourceId before).usable (exporterIp, sourceId, templateId) = none

/-- The templates come in time: a data set that has to wait finds at most 99 others waiting, and its
template is announced in time. -/
structure InTime (protocol : Protocol) (exporterIp : String) (sourceId : ℕ)
    (arrivals : List (Arrival protocol.Context)) : Prop where
  room : ∀ before now templateId payload context after,
    arrivals = before ++ .dataSet now templateId payload context :: after →
      protocol.Waits exporterIp sourceId before templateId →
        ((protocol.after exporterIp sourceId before).waiting (exporterIp, sourceId)).length < 100
  announced : ∀ before now templateId payload context after,
    arrivals = before ++ .dataSet now templateId payload context :: after →
      protocol.Waits exporterIp sourceId before templateId →
        AnnouncedInTime now templateId after

/-- Every template comes first: some packets without data sets announce the templates of all data
sets of the packets behind them, all within the lifetime of a template. -/
structure TemplatesFirst (protocol : Protocol) (announcing sending : List Datagram) : Prop where
  none_sent : protocol.dataSets announcing = []
  announced : ∀ dataSet ∈ protocol.dataSets sending, ∃ now fields,
    Arrival.template now dataSet.templateId fields ∈ announcing.flatMap protocol.arrivals
  lifetime : ∀ first ∈ announcing ++ sending, ∀ second ∈ announcing ++ sending,
    second.now - first.now ≤ templateTtl

/-! ### Reading data sets -/

/-- The times of a packet that fit its header. -/
def Protocol.FitsContext : (protocol : Protocol) → protocol.Context → Prop
  | .netflowV9 => fun context ↦ V9Context.sysUptime context < 256 ^ 4
  | .ipfix => fun _ ↦ True

theorem sysUptime_of_readV9Head {data : List UInt8} {head : PacketHead V9Context}
    (hhead : readV9Head data = some head) : head.context.sysUptime < 256 ^ 4 := by
  rw [readV9Head, Option.ite_none_left_eq_some] at hhead
  obtain rfl := Option.some.inj hhead.2
  exact unsignedAt_lt ..

theorem Protocol.fitsContext {protocol : Protocol} {data : List UInt8}
    {head : PacketHead protocol.Context} (hhead : protocol.readHead data = some head) :
    protocol.FitsContext head.context := by
  cases protocol with
  | netflowV9 => exact sysUptime_of_readV9Head hhead
  | ipfix => trivial

/-- A data set with short times is read as its flows. -/
theorem Protocol.dictsOf_readRecords {protocol : Protocol} {fields : List FieldSpec}
    (exporterIp : String) (dataSet : DataSet protocol.Context) (hshort : protocol.ShortTimes fields)
    (hfits : protocol.FitsContext dataSet.context) :
    dictsOf (readRecords protocol.dialect
        (splitRecords exporterIp dataSet.context fields dataSet.payload)) =
      some (protocol.flows exporterIp fields dataSet) := by
  cases protocol with
  | netflowV9 => exact dictsOf_readRecords_v9 hfits hshort _
  | ipfix =>
    refine (dictsOf_readRecords_ipfix exporterIp dataSet.context fields dataSet.payload).trans ?_
    refine if_neg fun hany ↦ ?_
    obtain ⟨data, hdata, hrecord⟩ := List.any_eq_true.mp hany
    obtain ⟨element, helement, hoverflows⟩ := List.any_eq_true.mp hrecord
    have hlength : element.2.length = element.1.length :=
      length_of_mem_elements (length_of_mem_chunks hdata) element helement
    have hnot : overflowsTime element = false := not_overflowsTime fun htime ↦
      hlength ▸ hshort element.1 (fst_mem_of_mem_elements helement) htime
    exact absurd (hnot.symm.trans hoverflows) Bool.false_ne_true

/-! ### One arrival -/

variable {protocol : Protocol} {templates : TemplateSet protocol} {exporterIp : String}
  {sourceId : ℕ} {parser : TemplateParser protocol.Context} {arrival : Arrival protocol.Context}

/-- What a parser holds under a key when all templates of the key are those of a set. -/
structure Conforms (templates : TemplateSet protocol) (exporterIp : String) (sourceId : ℕ)
    (parser : TemplateParser protocol.Context) : Prop where
  fields : ∀ id template, parser.templates.get? (exporterIp, sourceId, id) = some template →
    templates.fields.get? id = some template.fields
  contexts : ∀ orphan ∈ parser.waiting (exporterIp, sourceId),
    protocol.FitsContext orphan.context

/-- Every template of the set can be used. -/
theorem Conforms.usable_eq (hconforms : Conforms templates exporterIp sourceId parser)
    (id : ℕ) :
    parser.usable (exporterIp, sourceId, id) =
      parser.templates.get? (exporterIp, sourceId, id) := by
  rw [TemplateParser.usable]
  cases hget : parser.templates.get? (exporterIp, sourceId, id) with
  | none => rfl
  | some template =>
    have hpos := templates.length_pos id template.fields (hconforms.fields id template hget)
    rw [Option.filter_some, if_pos (decide_eq_true hpos.ne')]

/-- A data set is read by its template. -/
theorem Conforms.reads (hconforms : Conforms templates exporterIp sourceId parser)
    (dataSet : DataSet protocol.Context) {template : Template}
    (hget : parser.templates.get? (exporterIp, sourceId, dataSet.templateId) = some template)
    (hfits : protocol.FitsContext dataSet.context) :
    dictsOf (readRecords protocol.dialect
        (splitRecords exporterIp dataSet.context template.fields dataSet.payload)) =
      some (templates.flows exporterIp dataSet) := by
  have hfields := hconforms.fields _ _ hget
  rw [TemplateSet.flows, hfields]
  exact Protocol.dictsOf_readRecords exporterIp dataSet
    (templates.shortTimes _ _ hfields) hfits

/-- What the buffer of a key can take: a template comes while all that waits is fresh, and a data
set comes while its template is there or there is room. -/
def Timely (key : String × ℕ) (parser : TemplateParser Context) : Arrival Context → Prop
  | .sweep _ => True
  | .template now _ _ => ∀ orphan ∈ parser.waiting key, now - orphan.stamp ≤ orphanTtl
  | .dataSet _ templateId _ _ =>
    parser.usable (key.1, key.2, templateId) = none → (parser.waiting key).length < 100

/-- What an arrival keeps: it decodes some data sets, which are, with those that wait afterwards,
the ones that waited before and the one that arrived. -/
def Conserves (templates : TemplateSet protocol) (exporterIp : String) (sourceId : ℕ)
    (parser : TemplateParser protocol.Context) (arrived : List (DataSet protocol.Context))
    (parsed : TemplateParser protocol.Context × Option (List (TemplateFlow protocol.dialect))) :
    Prop :=
  Conforms templates exporterIp sourceId parsed.1 ∧
    ∃ decoded, dictsOf parsed.2 = some (decoded.flatMap (templates.flows exporterIp)) ∧
      (decoded ++ (parsed.1.waiting (exporterIp, sourceId)).map Orphan.dataSet).Perm
        ((parser.waiting (exporterIp, sourceId)).map Orphan.dataSet ++ arrived)

theorem conserves_sweep (hconforms : Conforms templates exporterIp sourceId parser) (now : ℚ) :
    Conserves templates exporterIp sourceId parser []
      (arrive protocol.dialect exporterIp sourceId parser (.sweep now)) := by
  refine ⟨⟨fun id template hget ↦ ?_, hconforms.contexts⟩, [], rfl, ?_⟩
  · change (parser.cleanupExpired now).templates.get? _ = some template at hget
    rw [get?_cleanupExpired] at hget
    exact hconforms.fields id template (Option.filter_eq_some_iff.mp hget).1
  · rw [List.nil_append, List.append_nil]
    exact List.Perm.refl _

theorem Conforms.announce (hconforms : Conforms templates exporterIp sourceId parser) {id : ℕ}
    {fields : List FieldSpec} (hfields : templates.fields.get? id = some fields) (now : ℚ) :
    Conforms templates exporterIp sourceId
      (parser.announce (exporterIp, sourceId, id) ⟨fields, now⟩) := by
  refine ⟨fun other template hget ↦ ?_, hconforms.contexts⟩
  rw [get?_announce] at hget
  by_cases hother : other = id
  · rw [if_pos (by rw [hother]), Option.some_inj] at hget
    rw [hother, hfields, ← hget]
  · rw [if_neg (by simpa using hother)] at hget
    exact hconforms.fields other template hget

/-- A template is stored, and the data sets that waited for it are decoded. -/
theorem Conforms.drained (hconforms : Conforms templates exporterIp sourceId parser) {id : ℕ}
    {fields : List FieldSpec} (hfields : templates.fields.get? id = some fields) (now : ℚ) :
    Drained now (exporterIp, sourceId) id
        (parser.announce (exporterIp, sourceId, id) ⟨fields, now⟩)
        (arrive protocol.dialect exporterIp sourceId parser (.template now id fields)).1 ∧
      dictsOf (arrive protocol.dialect exporterIp sourceId parser (.template now id fields)).2 =
        some (((parser.waiting (exporterIp, sourceId)).filter fun orphan ↦
          orphan.isFresh now && orphan.templateId = id).flatMap fun orphan ↦
            templates.flows exporterIp orphan.dataSet) := by
  have hannounced := hconforms.announce hfields now
  have hget : (parser.announce (exporterIp, sourceId, id) ⟨fields, now⟩).templates.get?
      (exporterIp, sourceId, id) = some ⟨fields, now⟩ := by
    rw [get?_announce, if_pos rfl]
  refine drained_parseTemplate protocol.dialect parser _ ?_
  rintro orphan hmem - rfl
  have hreads := hannounced.reads orphan.dataSet hget (hconforms.contexts orphan hmem)
  obtain ⟨flows, hflows, hmap⟩ := Option.map_eq_some_iff.mp hreads
  refine ⟨some flows, ?_, hmap⟩
  rw [parseDataSet_usable, hannounced.usable_eq, hget]
  exact congrArg (Option.map some) hflows

/-- A data set that finds room waits behind the others. -/
theorem waiting_buffer {key : String × ℕ} {parser : TemplateParser Context}
    (orphan : Orphan Context) (hroom : (parser.waiting key).length < 100) :
    (parser.buffer key orphan).waiting key = parser.waiting key ++ [orphan] := by
  rw [TemplateParser.buffer, waiting_set, if_pos rfl, appendOrphan, Nat.sub_eq_zero_of_le hroom,
    List.drop_zero]

/-- A template decodes the data sets that wait for it, and the others go on waiting. -/
theorem conserves_template (hconforms : Conforms templates exporterIp sourceId parser)
    {now : ℚ} {id : ℕ} {fields : List FieldSpec} (hfields : templates.fields.get? id = some fields)
    (hfresh : ∀ orphan ∈ parser.waiting (exporterIp, sourceId), now - orphan.stamp ≤ orphanTtl) :
    Conserves templates exporterIp sourceId parser []
      (arrive protocol.dialect exporterIp sourceId parser (.template now id fields)) := by
  obtain ⟨hdrained, hflows⟩ := hconforms.drained hfields now
  have hall : ∀ orphan ∈ parser.waiting (exporterIp, sourceId), orphan.isFresh now = true :=
    fun orphan hmem ↦ Orphan.isFresh_iff.mpr (not_lt.mpr (hfresh orphan hmem))
  refine ⟨⟨?_, ?_⟩, ((parser.waiting (exporterIp, sourceId)).filter fun orphan ↦
    orphan.isFresh now && orphan.templateId = id).map Orphan.dataSet, ?_, ?_⟩
  · intro other template hother
    exact (hconforms.announce hfields now).fields other template (hdrained.templates ▸ hother)
  · intro orphan hmem
    rw [hdrained.waiting] at hmem
    exact hconforms.contexts orphan (List.mem_of_mem_filter hmem)
  · rw [List.flatMap_map]
    exact hflows
  · rw [hdrained.waiting, waiting_announce, List.append_nil, ← List.map_append]
    refine List.Perm.map _ ?_
    have hsame : (parser.waiting (exporterIp, sourceId)).filter (fun orphan ↦
        orphan.isFresh now && orphan.templateId ≠ id) =
        (parser.waiting (exporterIp, sourceId)).filter fun orphan ↦
          !(orphan.isFresh now && orphan.templateId = id) := by
      refine List.filter_congr fun orphan hmem ↦ ?_
      simp [hall orphan hmem]
    exact hsame ▸ List.filter_append_perm _ _

/-- A data set is decoded by its template, or waits for it when there is room. -/
theorem conserves_dataSet (hconforms : Conforms templates exporterIp sourceId parser)
    {now : ℚ} {dataSet : DataSet protocol.Context}
    (hfits : protocol.FitsContext dataSet.context)
    (hroom : parser.usable (exporterIp, sourceId, dataSet.templateId) = none →
      (parser.waiting (exporterIp, sourceId)).length < 100) :
    Conserves templates exporterIp sourceId parser [dataSet]
      (arrive protocol.dialect exporterIp sourceId parser
        (.dataSet now dataSet.templateId dataSet.payload dataSet.context)) := by
  rw [arrive, receiveDataSet]
  cases husable : parser.usable (exporterIp, sourceId, dataSet.templateId) with
  | some template =>
    have hreads := hconforms.reads dataSet (hconforms.usable_eq _ ▸ husable) hfits
    refine ⟨hconforms, [dataSet], ?_, List.perm_append_comm⟩
    rw [List.flatMap_singleton]
    exact hreads
  | none =>
    have hbuffered := waiting_buffer
      (⟨now, dataSet.templateId, dataSet.payload, dataSet.context⟩ : Orphan protocol.Context)
      (hroom husable)
    refine ⟨⟨hconforms.fields, ?_⟩, [], rfl, ?_⟩
    · intro orphan hmem
      rw [hbuffered, List.mem_append, List.mem_singleton] at hmem
      rcases hmem with hmem | rfl
      · exact hconforms.contexts orphan hmem
      · exact hfits
    · rw [hbuffered, List.nil_append, List.map_append]
      exact List.Perm.refl _

/-- The step lemma. -/
theorem arrive_conserves (hconforms : Conforms templates exporterIp sourceId parser)
    (hannounced : ∀ now id fields, arrival = .template now id fields →
      templates.fields.get? id = some fields)
    (hfits : ∀ dataSet ∈ arrival.dataSets, protocol.FitsContext dataSet.context)
    (htimely : Timely (exporterIp, sourceId) parser arrival) :
    Conserves templates exporterIp sourceId parser arrival.dataSets
      (arrive protocol.dialect exporterIp sourceId parser arrival) := by
  cases arrival with
  | sweep now => exact conserves_sweep hconforms now
  | template now id fields =>
    exact conserves_template hconforms (hannounced now id fields rfl) htimely
  | dataSet now id payload context =>
    exact conserves_dataSet hconforms (hfits _ (List.mem_singleton_self _)) htimely

/-! ### Runs -/

variable {arrivals : List (Arrival protocol.Context)} {datagrams : List Datagram}

/-- The run lemma, by induction from the right: what was decoded and what still waits is what has
arrived. -/
theorem parseAll_conserves
    (hannounced : ∀ now id fields, Arrival.template now id fields ∈ arrivals →
      templates.fields.get? id = some fields)
    (hfits : ∀ arrival ∈ arrivals, ∀ dataSet ∈ arrival.dataSets,
      protocol.FitsContext dataSet.context)
    (htimely : ∀ before arrival after, arrivals = before ++ arrival :: after →
      Timely (exporterIp, sourceId) (protocol.after exporterIp sourceId before) arrival) :
    Conserves templates exporterIp sourceId (TemplateParser.initial protocol.Context)
      (arrivals.flatMap Arrival.dataSets)
      (parseAll (arrive protocol.dialect exporterIp sourceId)
        (TemplateParser.initial protocol.Context) arrivals) := by
  induction arrivals using List.reverseRecOn with
  | nil =>
    refine ⟨⟨fun id template hget ↦ ?_, fun orphan hmem ↦ ?_⟩, [], rfl, List.Perm.refl _⟩
    · exact absurd hget (Option.some_ne_none template).symm
    · exact absurd hmem List.not_mem_nil
  | append_singleton arrivals arrival ih =>
    obtain ⟨htimelyBefore, htimelyLast⟩ := Runs.forall_split_concat.mp htimely
    obtain ⟨hconforms, decoded, hflows, hperm⟩ := ih
      (fun now id fields hmem ↦ hannounced now id fields (List.mem_append_left _ hmem))
      (fun other hmem ↦ hfits other (List.mem_append_left _ hmem)) htimelyBefore
    have hlast : arrival ∈ arrivals ++ [arrival] :=
      List.mem_append_right _ (List.mem_singleton_self _)
    obtain ⟨flows, hsome, hmap⟩ := Option.map_eq_some_iff.mp hflows
    have hparse : parseAll (arrive protocol.dialect exporterIp sourceId)
        (TemplateParser.initial protocol.Context) arrivals =
          (protocol.after exporterIp sourceId arrivals, some flows) := Prod.ext rfl hsome
    rw [hparse] at hconforms hperm
    obtain ⟨hnext, more, hmore, hpermMore⟩ := arrive_conserves hconforms
      (fun now id fields hsame ↦ hannounced now id fields (hsame ▸ hlast)) (hfits arrival hlast)
      htimelyLast
    obtain ⟨moreFlows, hsomeMore, hmapMore⟩ := Option.map_eq_some_iff.mp hmore
    rw [parseAll_concat hparse]
    refine ⟨hnext, decoded ++ more, ?_, ?_⟩
    · dsimp only
      rw [hsomeMore, List.flatMap_append, ← hmap, ← hmapMore, Option.map_some, dictsOf,
        Option.map_some, List.map_append]
    · rw [List.flatMap_append, List.flatMap_singleton, List.append_assoc]
      refine (hpermMore.append_left decoded).trans ?_
      rw [← List.append_assoc, ← List.append_assoc]
      exact hperm.append_right _

/-! ### Templates in time -/

/-- The templates of all data sets that wait are announced in time by what arrives next. -/
def Promised (exporterIp : String) (sourceId : ℕ) (parser : TemplateParser Context)
    (after : List (Arrival Context)) : Prop :=
  ∀ orphan ∈ parser.waiting (exporterIp, sourceId),
    AnnouncedInTime orphan.stamp orphan.templateId after

/-- The buffer can take what arrives next. -/
theorem Promised.timely {after : List (Arrival protocol.Context)}
    (hpromised : Promised exporterIp sourceId parser (arrival :: after))
    (hroom : ∀ now id payload context, arrival = .dataSet now id payload context →
      parser.usable (exporterIp, sourceId, id) = none →
        (parser.waiting (exporterIp, sourceId)).length < 100) :
    Timely (exporterIp, sourceId) parser arrival := by
  cases arrival with
  | sweep now => trivial
  | template now id fields => exact fun orphan hmem ↦ (hpromised orphan hmem).1
  | dataSet now id payload context => exact hroom now id payload context rfl

/-- A template takes the data sets that were promised it, and a new data set comes with its own
promise. -/
theorem Promised.arrive {after : List (Arrival protocol.Context)}
    (hconforms : Conforms templates exporterIp sourceId parser)
    (hpromised : Promised exporterIp sourceId parser (arrival :: after))
    (hannounced : ∀ now id fields, arrival = .template now id fields →
      templates.fields.get? id = some fields)
    (hroom : ∀ now id payload context, arrival = .dataSet now id payload context →
      parser.usable (exporterIp, sourceId, id) = none →
        (parser.waiting (exporterIp, sourceId)).length < 100)
    (hnew : ∀ now id payload context, arrival = .dataSet now id payload context →
      parser.usable (exporterIp, sourceId, id) = none → AnnouncedInTime now id after) :
    Promised exporterIp sourceId
      (Flow.arrive protocol.dialect exporterIp sourceId parser arrival).1 after := by
  cases arrival with
  | sweep now => exact hpromised
  | template now id fields =>
    intro orphan hmem
    rw [(hconforms.drained (hannounced now id fields rfl) now).1.waiting, List.mem_filter,
      Bool.and_eq_true] at hmem
    obtain ⟨hwaiting, -, hother⟩ := hmem
    exact (hpromised orphan hwaiting).2.resolve_left fun hsame ↦ of_decide_eq_true hother hsame.symm
  | dataSet now id payload context =>
    rw [Flow.arrive, receiveDataSet]
    cases husable : parser.usable (exporterIp, sourceId, id) with
    | some template => exact hpromised
    | none =>
      intro orphan hmem
      rw [waiting_buffer _ (hroom now id payload context rfl husable), List.mem_append,
        List.mem_singleton] at hmem
      rcases hmem with hwaiting | rfl
      · exact hpromised orphan hwaiting
      · exact hnew now id payload context rfl husable

/-- At any point of a run whose templates come in time, the buffer could take all that has arrived,
and what waits is announced by what is still to come. -/
theorem InTime.promised (hinTime : InTime protocol exporterIp sourceId arrivals)
    (hannounced : ∀ now id fields, Arrival.template now id fields ∈ arrivals →
      templates.fields.get? id = some fields)
    (hfits : ∀ arrival ∈ arrivals, ∀ dataSet ∈ arrival.dataSets,
      protocol.FitsContext dataSet.context) (before after : List (Arrival protocol.Context))
    (hsplit : arrivals = before ++ after) :
    (∀ first arrival rest, before = first ++ arrival :: rest →
        Timely (exporterIp, sourceId) (protocol.after exporterIp sourceId first) arrival) ∧
      Promised exporterIp sourceId (protocol.after exporterIp sourceId before) after := by
  induction before using List.reverseRecOn generalizing after with
  | nil => exact ⟨Runs.forall_split_nil, fun _ hmem ↦ absurd hmem List.not_mem_nil⟩
  | append_singleton before arrival ih =>
    rw [List.append_assoc, List.singleton_append] at hsplit
    obtain ⟨htimely, hpromised⟩ := ih (arrival :: after) hsplit
    have hseen : ∀ {other}, other ∈ before → other ∈ arrivals :=
      fun hmem ↦ hsplit ▸ List.mem_append_left _ hmem
    have hlast : arrival ∈ arrivals := hsplit ▸ List.mem_append_right _ (List.mem_cons_self ..)
    obtain ⟨hconforms, decoded, hflows, -⟩ := parseAll_conserves
      (fun now id fields hmem ↦ hannounced now id fields (hseen hmem))
      (fun other hmem ↦ hfits other (hseen hmem)) htimely
    obtain ⟨flows, hsome, -⟩ := Option.map_eq_some_iff.mp hflows
    have hparse : parseAll (Flow.arrive protocol.dialect exporterIp sourceId)
        (TemplateParser.initial protocol.Context) before =
          (protocol.after exporterIp sourceId before, some flows) := Prod.ext rfl hsome
    have hroom : ∀ now id payload context, arrival = .dataSet now id payload context →
        (protocol.after exporterIp sourceId before).usable (exporterIp, sourceId, id) = none →
          ((protocol.after exporterIp sourceId before).waiting
            (exporterIp, sourceId)).length < 100 := by
      rintro now id payload context rfl hnone
      exact hinTime.room before now id payload context after hsplit hnone
    refine ⟨Runs.forall_split_concat.mpr ⟨htimely, hpromised.timely hroom⟩, ?_⟩
    rw [Protocol.after, parseAll_concat hparse]
    refine hpromised.arrive hconforms (fun now id fields hsame ↦ ?_) hroom ?_
    · exact hannounced now id fields (hsame ▸ hlast)
    · rintro now id payload context rfl hnone
      exact hinTime.announced before now id payload context after hsplit hnone

/-! ### Templates first -/

/-- What a parser holds when every data set so far had its template: nothing waits, and every
template is there, as old as one of the arrivals. -/
structure Available (exporterIp : String) (sourceId : ℕ) (parser : TemplateParser Context)
    (seen : List (Arrival Context)) : Prop where
  waiting : parser.waiting (exporterIp, sourceId) = []
  templates : ∀ now id fields, Arrival.template now id fields ∈ seen →
    ∃ template, parser.templates.get? (exporterIp, sourceId, id) = some template ∧
      ∃ arrival ∈ seen, arrival.now = template.createdAt

/-- A template that was announced stays available when more arrives. -/
theorem Available.mono {parser : TemplateParser Context} {seen : List (Arrival Context)}
    (havailable : Available exporterIp sourceId parser seen) {arrival : Arrival Context}
    (hold : ∀ now id fields, arrival ≠ .template now id fields) :
    Available exporterIp sourceId parser (seen ++ [arrival]) where
  waiting := havailable.waiting
  templates := by
    intro now id fields hmem
    rw [List.mem_append, List.mem_singleton] at hmem
    obtain ⟨template, hget, other, hother, hnow⟩ :=
      havailable.templates now id fields (hmem.resolve_right fun h ↦ hold now id fields h.symm)
    exact ⟨template, hget, other, List.mem_append_left _ hother, hnow⟩

/-- Nothing waits under a key, and a data set that arrives finds its template. -/
structure Supplied (key : String × ℕ) (parser : TemplateParser Context)
    (arrival : Arrival Context) : Prop where
  waiting : parser.waiting key = []
  usable : ∀ dataSet ∈ arrival.dataSets, parser.usable (key.1, key.2, dataSet.templateId) ≠ none

theorem Supplied.timely {key : String × ℕ} {parser : TemplateParser Context}
    {arrival : Arrival Context} (hsupplied : Supplied key parser arrival) :
    Timely key parser arrival := by
  cases arrival with
  | sweep now => trivial
  | template now id fields =>
    intro orphan hmem
    rw [hsupplied.waiting] at hmem
    exact absurd hmem List.not_mem_nil
  | dataSet now id payload context =>
    exact fun hnone ↦ absurd hnone (hsupplied.usable _ (List.mem_singleton_self _))

theorem Available.supplied {seen : List (Arrival protocol.Context)}
    (hconforms : Conforms templates exporterIp sourceId parser)
    (havailable : Available exporterIp sourceId parser seen)
    (hannounced : ∀ dataSet ∈ arrival.dataSets, ∃ now fields,
      Arrival.template now dataSet.templateId fields ∈ seen) :
    Supplied (exporterIp, sourceId) parser arrival where
  waiting := havailable.waiting
  usable := by
    intro dataSet hdataSet
    obtain ⟨time, fields, hmem⟩ := hannounced dataSet hdataSet
    obtain ⟨template, hget, -⟩ := havailable.templates time dataSet.templateId fields hmem
    rw [hconforms.usable_eq, hget]
    exact Option.some_ne_none template

/-- Templates stay available within their lifetime. -/
theorem Available.arrive {seen : List (Arrival protocol.Context)}
    (hconforms : Conforms templates exporterIp sourceId parser)
    (havailable : Available exporterIp sourceId parser seen)
    (hannounced : ∀ dataSet ∈ arrival.dataSets, ∃ now fields,
      Arrival.template now dataSet.templateId fields ∈ seen)
    (hlifetime : ∀ other ∈ seen, arrival.now - other.now ≤ templateTtl) :
    Available exporterIp sourceId
      (Flow.arrive protocol.dialect exporterIp sourceId parser arrival).1 (seen ++ [arrival]) := by
  cases arrival with
  | sweep now =>
    have hswept : Available exporterIp sourceId (parser.cleanupExpired now) seen := by
      refine ⟨havailable.waiting, fun time id fields hmem ↦ ?_⟩
      obtain ⟨template, hget, other, hother, hnow⟩ := havailable.templates time id fields hmem
      refine ⟨template, get?_cleanupExpired_of_live hget ?_, other, hother, hnow⟩
      exact hnow ▸ hlifetime other hother
    exact hswept.mono fun _ _ _ hsame ↦ by cases hsame
  | template now id fields =>
    have hnone : ∀ orphan ∈ parser.waiting (exporterIp, sourceId), False :=
      fun orphan hmem ↦ List.not_mem_nil (havailable.waiting ▸ hmem)
    obtain ⟨hdrained, -⟩ := drained_parseTemplate protocol.dialect parser (fun _ ↦ [])
      fun orphan hmem ↦ (hnone orphan hmem).elim
    refine ⟨?_, fun time other others hmem ↦ ?_⟩
    · rw [Flow.arrive, hdrained.waiting, waiting_announce, havailable.waiting, List.filter_nil]
    · rw [Flow.arrive, hdrained.templates, get?_announce]
      rw [List.mem_append, List.mem_singleton] at hmem
      by_cases hsame : other = id
      · rw [if_pos (by rw [hsame])]
        exact ⟨_, rfl, .template now id fields,
          List.mem_append_right _ (List.mem_singleton_self _), rfl⟩
      · rw [if_neg (by simpa using hsame)]
        have hseen : Arrival.template time other others ∈ seen :=
          hmem.resolve_right fun h ↦ hsame (by injection h)
        obtain ⟨template, hget, arrival, harrival, hnow⟩ :=
          havailable.templates time other others hseen
        exact ⟨template, hget, arrival, List.mem_append_left _ harrival, hnow⟩
  | dataSet now id payload context =>
    obtain ⟨time, fields, hmem⟩ := hannounced _ (List.mem_singleton_self _)
    obtain ⟨template, hget, -⟩ := havailable.templates time id fields hmem
    rw [Flow.arrive, receiveDataSet, hconforms.usable_eq, hget]
    exact havailable.mono fun _ _ _ hsame ↦ by cases hsame

/-- When every data set comes after its template, and all within the lifetime of a template, then
every template stays available, and every data set finds its template. -/
theorem available_after
    (hannounced : ∀ now id fields, Arrival.template now id fields ∈ arrivals →
      templates.fields.get? id = some fields)
    (hfits : ∀ arrival ∈ arrivals, ∀ dataSet ∈ arrival.dataSets,
      protocol.FitsContext dataSet.context)
    (hfirst : ∀ before arrival after, arrivals = before ++ arrival :: after →
      ∀ dataSet ∈ arrival.dataSets, ∃ now fields,
        Arrival.template now dataSet.templateId fields ∈ before)
    (hlifetime : ∀ first ∈ arrivals, ∀ second ∈ arrivals, second.now - first.now ≤ templateTtl) :
    Available exporterIp sourceId (protocol.after exporterIp sourceId arrivals) arrivals ∧
      ∀ before arrival after, arrivals = before ++ arrival :: after →
        Supplied (exporterIp, sourceId) (protocol.after exporterIp sourceId before) arrival := by
  induction arrivals using List.reverseRecOn with
  | nil =>
    exact ⟨⟨rfl, fun _ _ _ hmem ↦ absurd hmem List.not_mem_nil⟩, Runs.forall_split_nil⟩
  | append_singleton arrivals arrival ih =>
    have hold : ∀ {other}, other ∈ arrivals → other ∈ arrivals ++ [arrival] :=
      List.mem_append_left _
    have hlast : arrival ∈ arrivals ++ [arrival] :=
      List.mem_append_right _ (List.mem_singleton_self _)
    obtain ⟨hfirstBefore, hbefore⟩ := Runs.forall_split_concat.mp hfirst
    obtain ⟨havailable, hsupplied⟩ := ih
      (fun now id fields hmem ↦ hannounced now id fields (hold hmem))
      (fun other hmem ↦ hfits other (hold hmem)) hfirstBefore
      (fun first hmem second hmem' ↦ hlifetime first (hold hmem) second (hold hmem'))
    obtain ⟨hconforms, decoded, hflows, -⟩ := parseAll_conserves
      (fun now id fields hmem ↦ hannounced now id fields (hold hmem))
      (fun other hmem ↦ hfits other (hold hmem))
      fun before other after hsplit ↦ (hsupplied before other after hsplit).timely
    obtain ⟨flows, hsome, -⟩ := Option.map_eq_some_iff.mp hflows
    have hparse : parseAll (arrive protocol.dialect exporterIp sourceId)
        (TemplateParser.initial protocol.Context) arrivals =
          (protocol.after exporterIp sourceId arrivals, some flows) := Prod.ext rfl hsome
    refine ⟨?_, Runs.forall_split_concat.mpr ⟨hsupplied, havailable.supplied hconforms hbefore⟩⟩
    rw [Protocol.after, parseAll_concat hparse]
    exact havailable.arrive hconforms hbefore fun other hmem ↦
      hlifetime other (hold hmem) arrival hlast

theorem fitsContext_of_mem (datagrams : List Datagram) :
    ∀ arrival ∈ datagrams.flatMap protocol.arrivals, ∀ dataSet ∈ arrival.dataSets,
      protocol.FitsContext dataSet.context := by
  intro arrival hmem dataSet hdataSet
  obtain ⟨datagram, -, hdatagram⟩ := List.mem_flatMap.mp hmem
  cases arrival with
  | sweep now => exact absurd hdataSet List.not_mem_nil
  | template now id fields => exact absurd hdataSet List.not_mem_nil
  | dataSet now id payload context =>
    obtain rfl := List.mem_singleton.mp hdataSet
    obtain ⟨head, hhead, rfl⟩ := (of_mem_arrivals hdatagram).2 now id payload context rfl
    exact Protocol.fitsContext hhead

/-- Packets with their templates first come in time. -/
theorem TemplatesFirst.inTime {announcing sending : List Datagram}
    (hsent : Sent templates exporterIp sourceId (announcing ++ sending))
    (hfirst : TemplatesFirst protocol announcing sending) :
    InTime protocol exporterIp sourceId ((announcing ++ sending).flatMap protocol.arrivals) := by
  have hbefore : ∀ before arrival after,
      (announcing ++ sending).flatMap protocol.arrivals = before ++ arrival :: after →
        ∀ dataSet ∈ arrival.dataSets, ∃ now fields,
          Arrival.template now dataSet.templateId fields ∈ before := by
    intro before arrival after hsplit dataSet hdataSet
    rw [List.flatMap_append, List.append_eq_append_iff] at hsplit
    have hsending : ∀ arrival ∈ sending.flatMap protocol.arrivals, ∀ dataSet ∈ arrival.dataSets,
        ∃ now fields, Arrival.template now dataSet.templateId fields ∈
          announcing.flatMap protocol.arrivals := fun arrival hmem dataSet hdataSet ↦
      hfirst.announced dataSet (List.mem_flatMap.mpr ⟨arrival, hmem, hdataSet⟩)
    rcases hsplit with ⟨sent, rfl, hrest⟩ | ⟨rest, hannouncing, hrest⟩
    · obtain ⟨now, fields, hmem⟩ := hsending arrival
        (hrest ▸ List.mem_append_right _ (List.mem_cons_self ..)) dataSet hdataSet
      exact ⟨now, fields, List.mem_append_left _ hmem⟩
    · cases rest with
      | nil =>
        rw [List.append_nil] at hannouncing
        rw [List.nil_append] at hrest
        exact hannouncing ▸ hsending arrival (hrest ▸ List.mem_cons_self ..) dataSet hdataSet
      | cons other rest =>
        -- The packets in front have no data sets.
        obtain ⟨rfl, -⟩ := List.cons_eq_cons.mp hrest
        have hmem : dataSet ∈ protocol.dataSets announcing := List.mem_flatMap.mpr
          ⟨arrival, hannouncing ▸ List.mem_append_right _ (List.mem_cons_self ..), hdataSet⟩
        rw [hfirst.none_sent] at hmem
        exact absurd hmem List.not_mem_nil
  have hlifetime : ∀ first ∈ (announcing ++ sending).flatMap protocol.arrivals,
      ∀ second ∈ (announcing ++ sending).flatMap protocol.arrivals,
        second.now - first.now ≤ templateTtl := by
    intro first hmem second hmem'
    obtain ⟨datagram, hdatagram, harrival⟩ := List.mem_flatMap.mp hmem
    obtain ⟨datagram', hdatagram', harrival'⟩ := List.mem_flatMap.mp hmem'
    rw [(of_mem_arrivals harrival).1, (of_mem_arrivals harrival').1]
    exact hfirst.lifetime datagram hdatagram datagram' hdatagram'
  obtain ⟨-, hsupplied⟩ :=
    available_after hsent.announced (fitsContext_of_mem _) hbefore hlifetime
  -- No data set has to wait.
  have hnot : ∀ before now id payload context after,
      (announcing ++ sending).flatMap protocol.arrivals =
        before ++ .dataSet now id payload context :: after →
          ¬protocol.Waits exporterIp sourceId before id :=
    fun before now id payload context after hsplit ↦
      (hsupplied before _ after hsplit).usable _ (List.mem_singleton_self _)
  constructor
  · intro before now id payload context after hsplit hwaits
    exact absurd hwaits (hnot before now id payload context after hsplit)
  · intro before now id payload context after hsplit hwaits
    exact absurd hwaits (hnot before now id payload context after hsplit)

/-- A run whose templates come in time decodes every data set exactly once. -/
theorem InTime.decodes (hsent : Sent templates exporterIp sourceId datagrams)
    (hinTime : InTime protocol exporterIp sourceId (datagrams.flatMap protocol.arrivals)) :
    ∃ decoded : List (DataSet protocol.Context),
      decoded.Perm (protocol.dataSets datagrams) ∧
        emitted (protocol.outputs datagrams) =
          some (decoded.flatMap (templates.flows exporterIp)) := by
  obtain ⟨htimely, hpromised⟩ := hinTime.promised hsent.announced (fitsContext_of_mem _)
    (datagrams.flatMap protocol.arrivals) [] (List.append_nil _).symm
  obtain ⟨-, decoded, hflows, hperm⟩ :=
    parseAll_conserves hsent.announced (fitsContext_of_mem _) htimely
  obtain ⟨flows, hsome, hmap⟩ := Option.map_eq_some_iff.mp hflows
  refine ⟨decoded, ?_, ?_⟩
  · -- What waits at the end would have to be announced behind the end.
    have hfinish : (protocol.after exporterIp sourceId
        (datagrams.flatMap protocol.arrivals)).waiting (exporterIp, sourceId) = [] :=
      List.eq_nil_iff_forall_not_mem.mpr fun orphan hmem ↦ hpromised orphan hmem
    rw [Protocol.after] at hfinish
    rw [hfinish, List.map_nil, List.append_nil] at hperm
    exact hperm
  · rw [Protocol.outputs, (decodePackets_eq_arrive hsent.isFrom (Prod.ext rfl hsome)).2, hmap]

/-- The order in which templates and data sets arrive does not matter. When the templates of all
data sets come in time, every data set is decoded exactly once, and the flows are those, in some
order, of the same data sets when every template comes first. -/
theorem decode_anyOrder {protocol : Protocol} (templates : TemplateSet protocol)
    (exporterIp : String) (sourceId : ℕ) (datagrams announcing sending : List Datagram)
    (hsent : Sent templates exporterIp sourceId datagrams)
    (hinTime : InTime protocol exporterIp sourceId (datagrams.flatMap protocol.arrivals))
    (hsentFirst : Sent templates exporterIp sourceId (announcing ++ sending))
    (hfirst : TemplatesFirst protocol announcing sending)
    (hsame : (protocol.dataSets sending).Perm (protocol.dataSets datagrams)) :
    ∃ (decoded : List (DataSet protocol.Context)) (flows : List FlowDict),
      decoded.Perm (protocol.dataSets datagrams) ∧
        emitted (protocol.outputs datagrams) =
          some (decoded.flatMap (templates.flows exporterIp)) ∧
        emitted (protocol.outputs (announcing ++ sending)) = some flows ∧
        (decoded.flatMap (templates.flows exporterIp)).Perm flows := by
  obtain ⟨decoded, hperm, hflows⟩ := hinTime.decodes hsent
  obtain ⟨reference, hreference, hreferenceFlows⟩ :=
    (hfirst.inTime hsentFirst).decodes hsentFirst
  refine ⟨decoded, _, hperm, hflows, hreferenceFlows, List.Perm.flatMap_right _ ?_⟩
  refine hperm.trans (hsame.symm.trans ?_)
  have hall : protocol.dataSets (announcing ++ sending) = protocol.dataSets sending := by
    rw [Protocol.dataSets, List.flatMap_append, List.flatMap_append]
    exact congrArg (· ++ _) hfirst.none_sent
  exact hall ▸ hreference.symm

/-! ### Packets of the v9 encoder -/

/-- A template as a set of templates. -/
def V9Template.set (template : V9Template) : TemplateSet .netflowV9 where
  fields := Dict.empty.set template.id template.fields
  length_pos := by
    intro id fields hget
    rw [Dict.get?_set, Dict.get?_empty, Option.ite_none_right_eq_some] at hget
    exact Option.some.inj hget.2 ▸ template.length_pos
  shortTimes := by
    intro id fields hget
    rw [Dict.get?_set, Dict.get?_empty, Option.ite_none_right_eq_some] at hget
    exact Option.some.inj hget.2 ▸ template.shortUptimes

theorem readHead_datagram (template : V9Template) (exporterIp : String) (now : ℚ)
    (head : V9Header) :
    Protocol.netflowV9.readHead (template.datagram exporterIp now head).data =
      some ⟨head.sourceId, head.context, encodeSets [template.wire] ++ []⟩ := by
  rw [List.append_nil]
  exact readV9Head_encode head _

/-- The packet with a template brings it. -/
theorem arrivals_datagram (template : V9Template) (exporterIp : String) (now : ℚ)
    (head : V9Header) :
    Protocol.netflowV9.arrivals (template.datagram exporterIp now head) =
      [.sweep now, .template now template.id template.fields] := by
  rw [Protocol.arrivals_encodeSets (readHead_datagram template exporterIp now head) rfl,
    List.flatMap_singleton]
  refine congrArg (Arrival.sweep now :: ·) ((setArrivals_templates rfl ..).trans ?_)
  exact congrArg (List.map fun entry : ℕ × List FieldSpec ↦
    (.template now entry.1 entry.2 : Arrival V9Context)) (splitTemplates_v9 template)

theorem readHead_dataPacket {template : V9Template} (packet : V9DataPacket template)
    (exporterIp : String) :
    Protocol.netflowV9.readHead (packet.datagram exporterIp).data =
      some ⟨packet.head.sourceId, packet.head.context,
        encodeSets (packet.dataSets.map V9DataSet.wire) ++ []⟩ := by
  rw [List.append_nil]
  exact readV9Head_encode packet.head _

/-- A packet with data sets brings them. -/
theorem arrivals_dataPacket {template : V9Template} (packet : V9DataPacket template)
    (exporterIp : String) :
    Protocol.netflowV9.arrivals (packet.datagram exporterIp) =
      .sweep packet.now :: packet.dataSets.map fun dataSet ↦
        .dataSet packet.now template.id dataSet.wire.payload packet.head.context := by
  have hid : template.id ≠ 0 := (Nat.zero_lt_of_lt template.id_ge).ne'
  rw [Protocol.arrivals_encodeSets (readHead_dataPacket packet exporterIp) rfl, List.flatMap_map]
  refine congrArg (Arrival.sweep packet.now :: ·) (Eq.trans ?_ List.map_eq_flatMap.symm)
  exact List.flatMap_congr fun dataSet _ ↦ setArrivals_data hid template.id_ge _ _

theorem isFrom_datagram (template : V9Template) (exporterIp : String) (now : ℚ)
    (head : V9Header) :
    Protocol.netflowV9.IsFrom exporterIp head.sourceId (template.datagram exporterIp now head) where
  exporter := rfl
  source := by
    intro other hother
    rw [readHead_datagram, Option.some_inj] at hother
    rw [← hother]

theorem isFrom_dataPacket {template : V9Template} (packet : V9DataPacket template)
    (exporterIp : String) :
    Protocol.netflowV9.IsFrom exporterIp packet.head.sourceId (packet.datagram exporterIp) where
  exporter := rfl
  source := by
    intro other hother
    rw [readHead_dataPacket, Option.some_inj] at hother
    rw [← hother]

/-- A data set whose template comes right behind it. -/
theorem inTime_dataSet_template {protocol : Protocol} (exporterIp : String) (sourceId : ℕ)
    {now later : ℚ} (hlater : later - now ≤ orphanTtl) (id : ℕ) (payload : List UInt8)
    (context : protocol.Context) (fields : List FieldSpec) :
    InTime protocol exporterIp sourceId
      [.sweep now, .dataSet now id payload context, .sweep later, .template later id fields] := by
  have hsplit : ∀ before time other bytes (times : protocol.Context) after,
      [.sweep now, .dataSet now id payload context, .sweep later, .template later id fields] =
          before ++ Arrival.dataSet time other bytes times :: after →
        before = [.sweep now] ∧ time = now ∧ other = id ∧
          after = [.sweep later, .template later id fields] := by
    intro before time other bytes times after hsplit
    rcases before with _ | ⟨first, _ | ⟨second, _ | ⟨third, _ | ⟨fourth, before⟩⟩⟩⟩
    · cases hsplit
    · obtain ⟨rfl, hrest⟩ := List.cons_eq_cons.mp hsplit
      obtain ⟨hsame, rfl⟩ := List.cons_eq_cons.mp hrest
      cases hsame
      exact ⟨rfl, rfl, rfl, rfl⟩
    · cases hsplit
    · cases hsplit
    · exact absurd (congrArg List.length hsplit) (by simp)
  constructor
  · intro before time other bytes times after hall _
    obtain ⟨rfl, -⟩ := hsplit before time other bytes times after hall
    exact Nat.succ_pos 99
  · intro before time other bytes times after hall _
    obtain ⟨-, rfl, rfl, rfl⟩ := hsplit before time other bytes times after hall
    exact ⟨hlater, .inl rfl⟩

theorem decode_anyOrder_sampleTemplate :
    ∃ (decoded : List (DataSet V9Context)) (flows : List FlowDict),
      decoded.Perm (Protocol.netflowV9.dataSets
          [samplePacket.datagram "192.0.2.9", sampleTemplate.datagram "192.0.2.9" 3 sampleHead]) ∧
        emitted (Protocol.netflowV9.outputs
            [samplePacket.datagram "192.0.2.9", sampleTemplate.datagram "192.0.2.9" 3 sampleHead]) =
          some (decoded.flatMap (sampleTemplate.set.flows "192.0.2.9")) ∧
        emitted (Protocol.netflowV9.outputs
            ([sampleTemplate.datagram "192.0.2.9" 3 sampleHead] ++
              [samplePacket.datagram "192.0.2.9"])) = some flows ∧
        (decoded.flatMap (sampleTemplate.set.flows "192.0.2.9")).Perm flows := by
  have htemplate : Protocol.netflowV9.arrivals (sampleTemplate.datagram "192.0.2.9" 3 sampleHead) =
      [.sweep 3, .template 3 256 sampleTemplate.fields] := arrivals_datagram ..
  have hpacket : Protocol.netflowV9.arrivals (samplePacket.datagram "192.0.2.9") =
      [.sweep 2, .dataSet 2 256 (sampleRecord.encode ++ (sampleRecord.encode ++ [0, 0]))
        sampleHead.context] := arrivals_dataPacket ..
  have htemplateFrom : Protocol.netflowV9.IsFrom "192.0.2.9" 3
      (sampleTemplate.datagram "192.0.2.9" 3 sampleHead) :=
    isFrom_datagram sampleTemplate "192.0.2.9" 3 sampleHead
  have hpacketFrom : Protocol.netflowV9.IsFrom "192.0.2.9" 3
      (samplePacket.datagram "192.0.2.9") := isFrom_dataPacket samplePacket "192.0.2.9"
  have hsampleNow : (samplePacket.datagram "192.0.2.9").now = 2 := rfl
  have htemplateNow : (sampleTemplate.datagram "192.0.2.9" 3 sampleHead).now = 3 := rfl
  generalize samplePacket.datagram "192.0.2.9" = packet at *
  generalize sampleTemplate.datagram "192.0.2.9" 3 sampleHead = announcement at *
  have hall : [packet, announcement].flatMap Protocol.netflowV9.arrivals =
      [.sweep 2, .dataSet 2 256 (sampleRecord.encode ++ (sampleRecord.encode ++ [0, 0]))
        sampleHead.context, .sweep 3, .template 3 256 sampleTemplate.fields] := by
    rw [List.flatMap_cons, List.flatMap_singleton, hpacket, htemplate]
    rfl
  have hfirst : ([announcement] ++ [packet]).flatMap Protocol.netflowV9.arrivals =
      [.sweep 3, .template 3 256 sampleTemplate.fields, .sweep 2,
        .dataSet 2 256 (sampleRecord.encode ++ (sampleRecord.encode ++ [0, 0]))
          sampleHead.context] := by
    rw [List.singleton_append, List.flatMap_cons, List.flatMap_singleton, hpacket, htemplate]
    rfl
  refine decode_anyOrder sampleTemplate.set "192.0.2.9" 3 _ _ _ ⟨?_, ?_⟩ ?_
    ⟨?_, ?_⟩ ⟨?_, ?_, ?_⟩ ?_
  · simp [hpacketFrom, htemplateFrom]
  · intro now id fields hmem
    rw [hall] at hmem
    simp only [List.mem_cons, List.not_mem_nil, reduceCtorEq, false_or, or_false,
      Arrival.template.injEq] at hmem
    obtain ⟨-, rfl, rfl⟩ := hmem
    rfl
  · rw [hall]
    exact inTime_dataSet_template "192.0.2.9" 3 (by norm_num [orphanTtl]) ..
  · simp [hpacketFrom, htemplateFrom]
  · intro now id fields hmem
    rw [hfirst] at hmem
    simp only [List.mem_cons, List.not_mem_nil, reduceCtorEq, false_or, or_false,
      Arrival.template.injEq] at hmem
    obtain ⟨-, rfl, rfl⟩ := hmem
    rfl
  · rw [Protocol.dataSets, List.flatMap_singleton, htemplate]
    rfl
  · intro dataSet hmem
    rw [Protocol.dataSets, List.flatMap_singleton, hpacket] at hmem
    obtain rfl := List.mem_singleton.mp hmem
    rw [List.flatMap_singleton, htemplate]
    exact ⟨3, _, List.mem_cons_of_mem _ (List.mem_singleton_self _)⟩
  · simp only [List.singleton_append, List.forall_mem_cons, List.not_mem_nil, hsampleNow,
      htemplateNow, templateTtl]
    norm_num
  · rw [Protocol.dataSets, Protocol.dataSets, hall, List.flatMap_singleton, hpacket]
    exact List.Perm.refl _

end Lnmp.Flow
