import Mathlib.Algebra.Order.BigOperators.Group.List
import Mathlib.Data.Finset.Card
import Lnmp.Flow.Simulation

/-!
# How many data sets wait

A buffer holds at most 100 data sets, but every exporter and source id has a buffer of its own, and
only a template of the same key empties it. `orphanCount_le_iff` says what bounds the number of data
sets in all buffers: the number of keys, which are the sender's choice.
-/

set_option autoImplicit false
set_option relaxedAutoImplicit false

namespace Lnmp.Flow

open Lnmp.Foundation

variable {Context Time : Type} {dialect : Dialect Context Time} {exporterIp : String}
  {sourceId : ℕ} {keys : Finset (String × ℕ)} {parser : TemplateParser Context}

/-- The number of data sets that wait, over all keys. -/
def TemplateParser.orphanCount (parser : TemplateParser Context) : ℕ :=
  parser.orphanBuffer.sumBy fun _ buffer ↦ buffer.length

/-- All packets have keys from a set. -/
def Protocol.FromKeys (protocol : Protocol) (keys : Finset (String × ℕ))
    (datagrams : List Datagram) : Prop :=
  ∀ datagram ∈ datagrams, ∀ head, protocol.readHead datagram.data = some head →
    (datagram.exporterIp, head.sourceId) ∈ keys

/-! ### The upper bound -/

/-- The buffers belong to some keys, and none of them is overfull. -/
def Bounded (keys : Finset (String × ℕ)) (parser : TemplateParser Context) : Prop :=
  ∀ entry ∈ parser.orphanBuffer.entries, entry.1 ∈ keys ∧ entry.2.length ≤ 100

theorem Bounded.length_waiting_le (hbounded : Bounded keys parser) (key : String × ℕ) :
    (parser.waiting key).length ≤ 100 := by
  rw [TemplateParser.waiting]
  cases hget : parser.orphanBuffer.get? key with
  | none => exact Nat.zero_le _
  | some buffer => exact (hbounded (key, buffer) ((Dict.get?_eq_some_iff ..).mp hget)).2

/-- A buffer of a key that is not overfull keeps the bound. -/
theorem Bounded.setBuffer (hbounded : Bounded keys parser) (hkey : (exporterIp, sourceId) ∈ keys)
    {buffer : List (Orphan Context)} (hlength : buffer.length ≤ 100) :
    Bounded keys { parser with
      orphanBuffer := parser.orphanBuffer.set (exporterIp, sourceId) buffer } := by
  intro entry hmem
  rcases (Dict.mem_entries_set ..).mp hmem with rfl | ⟨hold, -⟩
  · exact ⟨hkey, hlength⟩
  · exact hbounded entry hold

theorem length_appendOrphan (buffer : List (Orphan Context)) (orphan : Orphan Context) :
    (appendOrphan buffer orphan).length = min 100 (buffer.length + 1) := by
  rw [appendOrphan, List.length_drop, List.length_append, List.length_singleton]
  omega

/-- The loop over the buffer leaves no more than there was. -/
theorem length_drainBuffer_le (now : ℚ) (id : ℕ) (remaining buffer : List (Orphan Context)) :
    (drainBuffer dialect now exporterIp sourceId parser id remaining buffer).1.length ≤
      remaining.length + buffer.length := by
  induction buffer generalizing remaining with
  | nil => exact Nat.le_refl _
  | cons orphan buffer ih =>
    rw [drainBuffer, List.length_cons]
    split_ifs with hold hsame
    · exact (ih remaining).trans (by omega)
    · split
      · dsimp only
        omega
      · exact (ih remaining).trans (by omega)
    · refine (ih _).trans ?_
      rw [List.length_append, List.length_singleton]
      omega

/-- The step lemma. -/
theorem Bounded.arrive (hbounded : Bounded keys parser) (hkey : (exporterIp, sourceId) ∈ keys)
    (dialect : Dialect Context Time) (arrival : Arrival Context) :
    Bounded keys (arrive dialect exporterIp sourceId parser arrival).1 := by
  cases arrival with
  | sweep now => exact hbounded
  | template now id fields =>
    have hannounced : Bounded keys
        (parser.announce (exporterIp, sourceId, id) ⟨fields, now⟩) := hbounded
    rw [Flow.arrive]
    show Bounded keys (drainOrphans dialect now exporterIp sourceId
      (parser.announce (exporterIp, sourceId, id) ⟨fields, now⟩) id).1
    rw [drainOrphans_eq]
    split_ifs
    · exact hannounced
    · refine hannounced.setBuffer hkey ((length_drainBuffer_le now id [] _).trans ?_)
      rw [List.length_nil, Nat.zero_add]
      exact hannounced.length_waiting_le _
  | dataSet now id payload context =>
    rw [Flow.arrive, receiveDataSet]
    split
    · refine hbounded.setBuffer hkey ?_
      rw [length_appendOrphan]
      exact Nat.min_le_left ..
    · exact hbounded

theorem Bounded.parseAll (hbounded : Bounded keys parser) (hkey : (exporterIp, sourceId) ∈ keys)
    (arrivals : List (Arrival Context)) :
    Bounded keys (parseAll (Flow.arrive dialect exporterIp sourceId) parser arrivals).1 := by
  induction arrivals generalizing parser with
  | nil => exact hbounded
  | cons arrival arrivals ih =>
    have hfirst := hbounded.arrive hkey dialect arrival
    rw [Flow.parseAll]
    generalize Flow.arrive dialect exporterIp sourceId parser arrival = parsed at hfirst
    obtain ⟨next, _ | flows⟩ := parsed
    · exact hfirst
    · exact ih hfirst

theorem Bounded.decode {protocol : Protocol} {parser : TemplateParser protocol.Context}
    (hbounded : Bounded keys parser) {datagram : Datagram}
    (hkey : ∀ head, protocol.readHead datagram.data = some head →
      (datagram.exporterIp, head.sourceId) ∈ keys) :
    Bounded keys (protocol.decode parser datagram).1 := by
  rw [protocol.decode_eq]
  cases hhead : protocol.readHead datagram.data with
  | none =>
    rw [Dialect.parsePacket, hhead]
    exact hbounded
  | some head =>
    rw [parsePacket_eq_arrive hhead]
    exact hbounded.parseAll (hkey head hhead) _

/-- The run lemma. -/
theorem Bounded.decodePackets {protocol : Protocol} {parser : TemplateParser protocol.Context}
    (hbounded : Bounded keys parser) {datagrams : List Datagram}
    (hkeys : protocol.FromKeys keys datagrams) :
    Bounded keys (decodePackets protocol.decode parser datagrams).1 := by
  induction datagrams generalizing parser with
  | nil => exact hbounded
  | cons datagram datagrams ih =>
    obtain ⟨hfirst, hrest⟩ := List.forall_mem_cons.mp hkeys
    exact ih (hbounded.decode hfirst) hrest

/-- Each key accounts for at most 100 data sets. -/
theorem Bounded.orphanCount_le (hbounded : Bounded keys parser) :
    parser.orphanCount ≤ 100 * keys.card := by
  have hlengths : ∀ length ∈ parser.orphanBuffer.entries.map fun entry ↦ entry.2.length,
      length ≤ 100 := by
    intro length hmem
    obtain ⟨entry, hentry, rfl⟩ := List.mem_map.mp hmem
    exact (hbounded entry hentry).2
  have hsubset : parser.orphanBuffer.keys.toFinset ⊆ keys := by
    intro key hmem
    obtain ⟨entry, hentry, rfl⟩ := List.mem_map.mp (List.mem_toFinset.mp hmem)
    exact (hbounded entry hentry).1
  have hcard := Finset.card_le_card hsubset
  rw [Dict.keys, List.toFinset_card_of_nodup parser.orphanBuffer.nodup_keys, List.length_map]
    at hcard
  calc parser.orphanCount
    _ ≤ (parser.orphanBuffer.entries.map fun entry ↦ entry.2.length).length • 100 :=
      List.sum_le_card_nsmul _ _ hlengths
    _ = 100 * parser.orphanBuffer.entries.length := by
      rw [List.length_map, nsmul_eq_mul, Nat.cast_id, Nat.mul_comm]
    _ ≤ 100 * keys.card := Nat.mul_le_mul_left _ hcard

/-! ### A flood -/

/-- A data set without records, for a template that nobody announces. -/
def emptySet : WireSet where
  id := 256
  payload := []
  id_lt := leastDataSetId_lt
  payload_lt := by decide

/-- A key that fits a header. -/
abbrev SourceKey : Type := {key : String × ℕ // key.2 < 256 ^ 4}

/-- The count in the v9 headers of a flood. -/
def floodCount : ℕ := 1

theorem floodCount_pos : 0 < floodCount := Nat.one_pos

theorem floodCount_lt : floodCount < 256 ^ 2 := one_lt_bytes 1

/-- The times and the sequence numbers in the headers of a flood. -/
def floodTime : ℕ := 0

theorem floodTime_lt : floodTime < 256 ^ 4 := zero_lt_bytes 4

/-- A packet with a hundred data sets without records. -/
def Protocol.flood (protocol : Protocol) (key : SourceKey) : Datagram where
  data := match protocol with
    | .netflowV9 =>
      V9Header.encode ⟨floodCount, floodTime, floodTime, floodTime, key.val.2, floodCount_pos,
          floodCount_lt, floodTime_lt, floodTime_lt, floodTime_lt, key.property⟩ ++
        encodeSets (List.replicate 100 emptySet)
    | .ipfix =>
      IpfixHeader.encode ⟨floodTime, floodTime, key.val.2, floodTime_lt, floodTime_lt, key.property⟩
          (encodeSets (List.replicate 100 emptySet)).length ++
        encodeSets (List.replicate 100 emptySet)
  exporterIp := key.val.1
  now := 0

/-- The times of these packets. -/
def Protocol.floodContext : (protocol : Protocol) → protocol.Context
  | .netflowV9 => ⟨0, 0⟩
  | .ipfix => (0 : ℕ)

theorem readHead_flood (protocol : Protocol) (key : SourceKey) :
    protocol.readHead (protocol.flood key).data =
      some ⟨key.val.2, protocol.floodContext,
        encodeSets (List.replicate 100 emptySet) ++ []⟩ := by
  rw [List.append_nil]
  cases protocol with
  | netflowV9 => exact readV9Head_encode _ _
  | ipfix =>
    have hfits : 16 + (encodeSets (List.replicate 100 emptySet)).length < 256 ^ 2 := by
      decide +kernel
    exact readIpfixHead_encode _ hfits

/-- A flood brings a hundred data sets. -/
theorem arrivals_flood (protocol : Protocol) (key : SourceKey) :
    protocol.arrivals (protocol.flood key) =
      .sweep 0 :: List.replicate 100 (.dataSet 0 256 [] protocol.floodContext) := by
  refine (Protocol.arrivals_encodeSets (readHead_flood protocol key) rfl).trans ?_
  have hset : setArrivals protocol.dialect (protocol.flood key).now protocol.floodContext
      emptySet.received = [.dataSet 0 256 [] protocol.floodContext] := by
    refine setArrivals_data ?_ le_rfl _ _
    cases protocol <;> decide
  rw [List.flatMap_replicate, hset]
  rfl

/-- Without templates, data sets fill the buffer of their key. -/
theorem parseAll_replicate (hnone : ∀ lookup, parser.templates.get? lookup = none)
    (now : ℚ) (id : ℕ) (payload : List UInt8) (context : Context) (count : ℕ) :
    (parseAll (arrive dialect exporterIp sourceId) parser
        (List.replicate count (.dataSet now id payload context))).1.templates = parser.templates ∧
      min 100 ((parser.waiting (exporterIp, sourceId)).length + count) ≤
        ((parseAll (arrive dialect exporterIp sourceId) parser (List.replicate count
          (.dataSet now id payload context))).1.waiting (exporterIp, sourceId)).length := by
  induction count generalizing parser with
  | zero => exact ⟨rfl, Nat.min_le_right ..⟩
  | succ count ih =>
    have hunusable : parser.usable (exporterIp, sourceId, id) = none := by
      rw [TemplateParser.usable, hnone, Option.filter_none]
    have hbuffered : ∀ lookup, (parser.buffer (exporterIp, sourceId)
        ⟨now, id, payload, context⟩).templates.get? lookup = none := hnone
    obtain ⟨htemplates, hlength⟩ := ih hbuffered
    rw [TemplateParser.buffer, waiting_set, if_pos rfl, length_appendOrphan] at hlength
    rw [List.replicate_succ, parseAll, arrive, receiveDataSet, hunusable]
    refine ⟨htemplates, le_trans ?_ hlength⟩
    omega

/-- The buffers of some keys are full, and there are no templates. -/
structure Flooded (keys : List SourceKey) (parser : TemplateParser Context) : Prop where
  templates : ∀ lookup, parser.templates.get? lookup = none
  full : ∀ key ∈ keys, 100 ≤ (parser.waiting key.val).length

theorem Flooded.decode {protocol : Protocol} {keys : List SourceKey}
    {parser : TemplateParser protocol.Context} (hflooded : Flooded keys parser) (key : SourceKey) :
    Flooded (key :: keys) (protocol.decode parser (protocol.flood key)).1 := by
  have hfrom : protocol.IsFrom key.val.1 key.val.2 (protocol.flood key) := by
    refine ⟨rfl, fun head hhead ↦ ?_⟩
    rw [readHead_flood, Option.some_inj] at hhead
    rw [← hhead]
  have hswept : ∀ lookup, (parser.cleanupExpired 0).templates.get? lookup = none := by
    intro lookup
    rw [get?_cleanupExpired, hflooded.templates, Option.filter_none]
  rw [hfrom.decode_eq, arrivals_flood, parseAll_sweep]
  obtain ⟨htemplates, hlength⟩ := parseAll_replicate hswept 0 256 [] protocol.floodContext 100
  refine ⟨fun lookup ↦ by rw [htemplates, hswept], fun other hmem ↦ ?_⟩
  by_cases hsame : other.val = key.val
  · rw [hsame]
    exact le_trans (le_min le_rfl (Nat.le_add_left ..)) hlength
  · have hold : other ∈ keys :=
      (List.mem_cons.mp hmem).resolve_left fun hkey ↦ hsame (congrArg Subtype.val hkey)
    have hsweep : ∀ arrival ∈ List.replicate 100
        (.dataSet 0 256 [] protocol.floodContext : Arrival protocol.Context),
        ∀ now, arrival ≠ .sweep now := by
      intro arrival harrival now
      rw [List.eq_of_mem_replicate harrival]
      exact fun hsame ↦ by cases hsame
    have helsewhere : SameAt other.val (parser.cleanupExpired 0)
        (parseAll (arrive protocol.dialect key.val.1 key.val.2) (parser.cleanupExpired 0)
          (List.replicate 100 (.dataSet 0 256 [] protocol.floodContext))).1 :=
      parseAll_elsewhere hsame hsweep _
    rw [helsewhere.waiting]
    exact hflooded.full other hold

/-- Floods fill the buffers of their keys. -/
theorem Flooded.decodePackets {protocol : Protocol} {keys : List SourceKey}
    {parser : TemplateParser protocol.Context} (hflooded : Flooded keys parser)
    (floods : List SourceKey) :
    Flooded (floods ++ keys)
      (Flow.decodePackets protocol.decode parser (floods.map protocol.flood)).1 := by
  induction floods generalizing parser keys with
  | nil => exact hflooded
  | cons key floods ih =>
    obtain ⟨htemplates, hfull⟩ := ih (hflooded.decode key)
    refine ⟨htemplates, fun other hmem ↦ hfull other ?_⟩
    rw [List.cons_append] at hmem
    exact List.perm_middle.symm.mem_iff.mp hmem

/-- Full buffers count. -/
theorem Flooded.le_orphanCount {floods : List SourceKey} (hflooded : Flooded floods parser)
    (hbounded : Bounded keys parser) (hkeys : ∀ key ∈ keys, key ∈ floods.map Subtype.val) :
    100 * keys.card ≤ parser.orphanCount := by
  have hfull : ∀ key ∈ keys, 100 ≤ (parser.waiting key).length := by
    intro key hkey
    obtain ⟨flood, hflood, rfl⟩ := List.mem_map.mp (hkeys key hkey)
    exact hflooded.full flood hflood
  have hlengths : ∀ length ∈ parser.orphanBuffer.entries.map fun entry ↦ entry.2.length,
      100 ≤ length := by
    intro length hmem
    obtain ⟨entry, hentry, rfl⟩ := List.mem_map.mp hmem
    have hlength := hfull entry.1 (hbounded entry hentry).1
    rwa [TemplateParser.waiting, (Dict.get?_eq_some_iff _ entry.1 entry.2).mpr hentry] at hlength
  have hsubset : keys ⊆ parser.orphanBuffer.keys.toFinset := by
    intro key hkey
    rw [List.mem_toFinset]
    by_contra hmissing
    have hlength := hfull key hkey
    rw [TemplateParser.waiting, (Dict.get?_eq_none_iff ..).mpr hmissing] at hlength
    exact Nat.not_succ_le_zero 99 hlength
  have hcard := Finset.card_le_card hsubset
  rw [Dict.keys, List.toFinset_card_of_nodup parser.orphanBuffer.nodup_keys, List.length_map]
    at hcard
  calc 100 * keys.card
    _ ≤ 100 * parser.orphanBuffer.entries.length := Nat.mul_le_mul_left _ hcard
    _ = (parser.orphanBuffer.entries.map fun entry ↦ entry.2.length).length • 100 := by
      rw [List.length_map, nsmul_eq_mul, Nat.cast_id, Nat.mul_comm]
    _ ≤ parser.orphanCount := List.card_nsmul_le_sum _ _ hlengths

/-! ### The bound -/

/-- Some keys can fill all their buffers. -/
theorem exists_orphanCount (protocol : Protocol) (keys : Finset (String × ℕ))
    (hsource : ∀ key ∈ keys, key.2 < 256 ^ 4) :
    ∃ datagrams, protocol.FromKeys keys datagrams ∧
      100 * keys.card ≤ (decodePackets protocol.decode (TemplateParser.initial protocol.Context)
        datagrams).1.orphanCount := by
  let floods : List SourceKey :=
    keys.toList.attach.map fun key ↦ ⟨key.val, hsource key.val (Finset.mem_toList.mp key.property)⟩
  have hkeys : floods.map Subtype.val = keys.toList := by
    rw [List.map_map]
    exact List.attach_map_subtype_val _
  have hfrom : protocol.FromKeys keys (floods.map protocol.flood) := by
    intro datagram hmem head hhead
    obtain ⟨flood, hflood, rfl⟩ := List.mem_map.mp hmem
    rw [readHead_flood, Option.some_inj] at hhead
    rw [← hhead, ← Finset.mem_toList, ← hkeys]
    exact List.mem_map_of_mem hflood
  have hinitial : Flooded [] (TemplateParser.initial protocol.Context) :=
    ⟨fun _ ↦ rfl, fun _ hmem ↦ absurd hmem List.not_mem_nil⟩
  have hbounded : Bounded keys (TemplateParser.initial protocol.Context) :=
    fun _ hmem ↦ absurd hmem List.not_mem_nil
  refine ⟨floods.map protocol.flood, hfrom, (hinitial.decodePackets floods).le_orphanCount
    (hbounded.decodePackets hfrom) fun key hkey ↦ ?_⟩
  rw [List.append_nil, hkeys]
  exact Finset.mem_toList.mpr hkey

/-- As many exporters as it takes. -/
theorem exists_lt_orphanCount (protocol : Protocol) (bound : ℕ) :
    ∃ datagrams, bound < (decodePackets protocol.decode
      (TemplateParser.initial protocol.Context) datagrams).1.orphanCount := by
  let key : ℕ → String × ℕ := fun index ↦ (String.ofList (List.replicate index '1'), 0)
  have hinjective : Function.Injective key := by
    intro first second hsame
    have hlength := congrArg (fun name : String × ℕ ↦ name.1.toList.length) hsame
    simpa [key] using hlength
  obtain ⟨datagrams, -, hcount⟩ := exists_orphanCount protocol
    ((Finset.range (bound + 1)).image key) (by
      intro name hname
      obtain ⟨index, -, rfl⟩ := Finset.mem_image.mp hname
      exact Nat.pow_pos (by decide))
  refine ⟨datagrams, lt_of_lt_of_le ?_ hcount⟩
  rw [Finset.card_image_of_injective _ hinjective, Finset.card_range]
  omega

/-- What bounds the number of data sets that wait: a bound holds in every run with some keys exactly
when it leaves room for a hundred data sets of each key. -/
theorem orphanCount_le_iff (protocol : Protocol) (keys : Finset (String × ℕ))
    (hsource : ∀ key ∈ keys, key.2 < 256 ^ 4) (bound : ℕ) :
    (∀ datagrams, protocol.FromKeys keys datagrams →
        (decodePackets protocol.decode (TemplateParser.initial protocol.Context)
          datagrams).1.orphanCount ≤ bound) ↔
      100 * keys.card ≤ bound := by
  constructor
  · intro hall
    obtain ⟨datagrams, hfrom, hcount⟩ := exists_orphanCount protocol keys hsource
    exact hcount.trans (hall datagrams hfrom)
  · intro hbound datagrams hfrom
    have hbounded : Bounded keys (TemplateParser.initial protocol.Context) :=
      fun _ hmem ↦ absurd hmem List.not_mem_nil
    exact (hbounded.decodePackets hfrom).orphanCount_le.trans hbound

theorem orphanCount_le_oneKey :
    (∀ datagrams, Protocol.ipfix.FromKeys {("192.0.2.9", 3)} datagrams →
        (decodePackets Protocol.ipfix.decode (TemplateParser.initial Protocol.ipfix.Context)
          datagrams).1.orphanCount ≤ 2000) ↔
      100 * Finset.card {(("192.0.2.9", 3) : String × ℕ)} ≤ 2000 :=
  orphanCount_le_iff .ipfix {("192.0.2.9", 3)} (by simp) 2000

/-- No bound holds in all runs, and 21 source ids of one exporter are enough to exceed 2000. -/
theorem orphanCount_unbounded :
    (¬ ∃ bound, ∀ datagrams, (decodePackets Protocol.netflowV9.decode
        (TemplateParser.initial Protocol.netflowV9.Context) datagrams).1.orphanCount ≤ bound) ∧
      (¬ ∃ bound, ∀ datagrams, (decodePackets Protocol.ipfix.decode
        (TemplateParser.initial Protocol.ipfix.Context) datagrams).1.orphanCount ≤ bound) ∧
      ∀ protocol : Protocol, ∃ datagrams,
        protocol.FromKeys ((Finset.range 21).image fun source ↦ ("192.0.2.9", source)) datagrams ∧
          2000 < (decodePackets protocol.decode (TemplateParser.initial protocol.Context)
            datagrams).1.orphanCount := by
  have hnone : ∀ protocol : Protocol, ¬ ∃ bound, ∀ datagrams, (decodePackets protocol.decode
      (TemplateParser.initial protocol.Context) datagrams).1.orphanCount ≤ bound := by
    rintro protocol ⟨bound, hall⟩
    obtain ⟨datagrams, hmore⟩ := exists_lt_orphanCount protocol bound
    exact absurd (hall datagrams) (Nat.not_le_of_lt hmore)
  refine ⟨hnone .netflowV9, hnone .ipfix, fun protocol ↦ ?_⟩
  obtain ⟨datagrams, hfrom, hcount⟩ := exists_orphanCount protocol
    ((Finset.range 21).image fun source ↦ ("192.0.2.9", source)) (by decide)
  exact ⟨datagrams, hfrom, lt_of_lt_of_le (by decide) hcount⟩

end Lnmp.Flow
