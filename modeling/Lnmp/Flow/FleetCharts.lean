import Lnmp.Flow.Attribution
import Lnmp.Flow.RollupRefreshes

/-!
# The chart of all traffic and the flows committed

`fleetSeries_of_history`: in every run of the aggregator with refreshes of the aggregates, and for
each of the three rollup tables, the series has a point for every bucket in which a flow was
committed in the state that the bucket shows, and no byte of these flows is missing from it. Bytes
between two endpoints count in both directions, so there can be more; where the bytes attributed are
fewer than all, the rest is split (`pointBytes_sum`).

A bucket of a series is one of the minute table that is shown there (`get?_seriesSums_rows`).
-/

set_option autoImplicit false
set_option relaxedAutoImplicit false

namespace Lnmp.Flow

open Lnmp.Foundation Lnmp.Foundation.Runs Lnmp.Foundation.GroupBy
open Lnmp.Foundation.ContinuousAggregate Lnmp.Foundation.IpAddress

variable {Inet : Type*} [DecidableEq Inet]

/-! ### Points -/

/-- The two directions of a point hold all bytes, and more only where more were attributed. -/
theorem pointBytes_sum {model : RollupModel} (hendpoints : model.hasEndpoints = true)
    (sums : ℤ × ℤ × ℤ) :
    (pointBytes model sums).1 + (pointBytes model sums).2 = max sums.1 (sums.2.1 + sums.2.2) := by
  obtain ⟨byteSum, inBytes, egBytes⟩ := sums
  rw [pointBytes]
  dsimp only
  simp only [if_pos hendpoints]
  split_ifs <;> dsimp only <;> omega

theorem pointBytes_sum_of_daily (sums : ℤ × ℤ × ℤ) :
    (pointBytes .flowDailyRollup sums).1 + (pointBytes .flowDailyRollup sums).2 =
      max sums.1 (2 * sums.1.tdiv 2) := by
  have hnone : ¬ RollupModel.hasEndpoints .flowDailyRollup = true := Bool.false_ne_true
  rw [pointBytes]
  simp only [if_neg hnone]
  split_ifs <;> dsimp only <;> omega

/-- No byte of a bucket is missing from its point. -/
theorem le_pointBytes_sum (model : RollupModel) (sums : ℤ × ℤ × ℤ) :
    sums.1 ≤ (pointBytes model sums).1 + (pointBytes model sums).2 := by
  cases hendpoints : model.hasEndpoints with
  | true =>
    rw [pointBytes_sum hendpoints]
    exact le_max_left ..
  | false =>
    obtain rfl : model = .flowDailyRollup := by
      cases model with
      | flowDailyRollup => rfl
      | _ => exact absurd hendpoints.symm Bool.false_ne_true
    rw [pointBytes_sum_of_daily]
    exact le_max_left ..

/-! ### Buckets of the minute table -/

section Buckets

variable (model : RollupModel)

/-- The sums of a series over the rows of the minute table, in the buckets of a model. -/
def minuteSums (tables : Tables Inet) (query : SeriesQuery) : Dict ℤ (ℤ × ℤ × ℤ) :=
  totals (fun row ↦ query.bucketOf model (model.viewOf row))
    (weigh (fun row counters ↦ query.amounts (model.viewOf row) counters) (minuteRows tables))

omit [DecidableEq Inet] in
/-- A bucket of a series is one of the minute table that is shown there. -/
theorem get?_seriesSums_rows (steps : List (Step (World Inet) Refresh)) (world : World Inet)
    (query : SeriesQuery) (bucket : ℤ) :
    (seriesSums (model.rows world.tables (rollupAggregates steps)) model query).get? bucket =
      (minuteSums model (shownWorld model steps world bucket).tables query).get? bucket := by
  refine get?_totals_rows model query.amounts steps world fun row hrow ↦ ?_
  rw [SeriesQuery.bucketOf] at hrow
  split_ifs at hrow
  exact Option.some.inj hrow

end Buckets

/-! ### The series in a run -/

/-- The bytes of a row as an additive map. -/
def bytesHom : FlowCounters →+ ℤ := AddMonoidHom.mk' FlowCounters.bytes fun _ _ ↦ rfl

/-- A flow belongs to a bucket of the series: its addresses are addresses of the database, and it is
of the exporter, if the query has one. -/
def ResolvedFlow.falls (castInet : String → Option Inet) (flow : ResolvedFlow)
    (model : RollupModel) (exporterId : Option UUID) (bucket : ℤ) : Bool :=
  (tableKey castInet flow.key).isSome ∧ model.truncate flow.key.bucket = bucket ∧
    (exporterId = none ∨ exporterId = some flow.key.exporterId)

section Fleet

variable {castInet : String → Option Inet} {world : World Inet} {tables : Tables Inet}
  {flows : List ResolvedFlow} (model : RollupModel) (start : ℤ) (exporterId : Option UUID)

theorem bucketOf_eq_some {model : RollupModel} {row : RollupView} {bucket : ℤ} :
    (SeriesQuery.mk start exporterId none).bucketOf model row = some bucket ↔
      start ≤ bucket ∧ row.bucket = bucket ∧
        (exporterId = none ∨ exporterId = some row.exporterId) := by
  rw [SeriesQuery.bucketOf]
  split_ifs with hselects
  · obtain ⟨hstart, hexporter, -⟩ := of_decide_eq_true hselects
    rw [Option.some_inj]
    exact ⟨fun hsame ↦ ⟨hsame ▸ hstart, hsame, hexporter⟩, fun h ↦ h.2.1⟩
  · refine ⟨False.elim, fun h ↦ hselects (decide_eq_true ⟨?_, h.2.2, Or.inl rfl⟩)⟩
    exact h.2.1.symm ▸ h.1

omit [DecidableEq Inet] in
/-- The key of a flow in the table has its minute and its exporter. -/
theorem tableKey_eq_some {key : FlowKey} {found : RollupKey Inet}
    (hkey : tableKey castInet key = some found) :
    found.bucket = key.bucket ∧ found.exporterId = key.exporterId := by
  obtain ⟨srcIp, -, hkey⟩ := Option.bind_eq_some_iff.mp hkey
  obtain ⟨dstIp, -, rfl⟩ := Option.map_eq_some_iff.mp hkey
  exact ⟨rfl, rfl⟩

/-- The buckets of a series over the minute table are those of the flows. -/
theorem mem_keys_minuteSums
    (hholds : Ledger.Holds tables.minuteCounters (flowPostings castInet flows)) {bucket : ℤ} :
    bucket ∈ (minuteSums model tables ⟨start, exporterId, none⟩).keys ↔
      start ≤ bucket ∧ ∃ flow ∈ flows, flow.falls castInet model exporterId bucket := by
  have hkeys : ∀ key, key ∈ tables.flowMinuteRollups.keys ↔
      ∃ flow ∈ flows, tableKey castInet flow.key = some key := by
    intro key
    have hcounters : tables.minuteCounters.keys = tables.flowMinuteRollups.keys :=
      List.map_map ..
    rw [← hcounters, mem_keys_of_holds hholds, flowPostings, List.mem_map]
    constructor
    · rintro ⟨posting, hposting, rfl⟩
      obtain ⟨flowKey, hcast, hmem⟩ := mem_regroup.mp hposting
      obtain ⟨flow, hflow, hsame⟩ := List.mem_map.mp hmem
      exact ⟨flow, hflow, (Prod.mk.inj hsame).1 ▸ hcast⟩
    · rintro ⟨flow, hflow, hcast⟩
      exact ⟨(key, flow.counters),
        mem_regroup.mpr ⟨flow.key, hcast, List.mem_map_of_mem hflow⟩, rfl⟩
  rw [minuteSums, mem_keys_totals, map_fst_weigh]
  constructor
  · rintro ⟨row, hrow, hbucket⟩
    obtain ⟨hstart, hminute, hexporter⟩ := (bucketOf_eq_some start exporterId).mp hbucket
    obtain ⟨pair, hpair, rfl⟩ := List.mem_map.mp hrow
    obtain ⟨entry, hentry, rfl⟩ := List.mem_map.mp hpair
    obtain ⟨flow, hflow, hkey⟩ := (hkeys entry.1).mp (List.mem_map_of_mem hentry)
    obtain ⟨hsame, howner⟩ := tableKey_eq_some hkey
    refine ⟨hstart, flow, hflow, decide_eq_true ⟨?_, hsame ▸ hminute, howner ▸ hexporter⟩⟩
    rw [hkey, Option.isSome_some]
  · rintro ⟨hstart, flow, hflow, hfalls⟩
    obtain ⟨hsome, hminute, hexporter⟩ := of_decide_eq_true hfalls
    obtain ⟨key, hkey⟩ := Option.isSome_iff_exists.mp hsome
    obtain ⟨hsame, howner⟩ := tableKey_eq_some hkey
    obtain ⟨entry, hentry, rfl⟩ := List.mem_map.mp ((hkeys key).mpr ⟨flow, hflow, hkey⟩)
    refine ⟨_, List.mem_map_of_mem (List.mem_map_of_mem hentry), ?_⟩
    exact (bucketOf_eq_some start exporterId).mpr ⟨hstart, hsame ▸ hminute, howner ▸ hexporter⟩

/-- The bytes of a key that belongs to a bucket. -/
def bucketBytes (bucket : ℤ) (key : RollupKey Inet) : FlowCounters →+ ℤ :=
  if model.truncate key.bucket = bucket ∧ (exporterId = none ∨ exporterId = some key.exporterId)
  then bytesHom else 0

omit [DecidableEq Inet] in
theorem bucketBytes_apply (bucket : ℤ) (key : RollupKey Inet) (counters : FlowCounters) :
    bucketBytes model exporterId bucket key counters =
      if model.truncate key.bucket = bucket ∧
        (exporterId = none ∨ exporterId = some key.exporterId) then counters.bytes else 0 := by
  rw [bucketBytes]
  split_ifs <;> rfl

omit [DecidableEq Inet] in
/-- The bytes of the flows of a bucket. -/
theorem sum_flowPostings (flows : List ResolvedFlow) (bucket : ℤ) :
    ((flowPostings castInet flows).map fun posting ↦
        bucketBytes model exporterId bucket posting.1 posting.2).sum =
      sumWhere flows (fun flow ↦ flow.falls castInet model exporterId bucket) (·.flowBytes) := by
  rw [flowPostings, sum_regroup]
  induction flows with
  | nil => rfl
  | cons flow rest ih =>
    rw [List.map_cons, List.map_cons, List.sum_cons, ih, sumWhere_cons]
    refine congrArg (· + _) ?_
    change ((tableKey castInet flow.key).elim 0 fun key ↦
      bucketBytes model exporterId bucket key flow.counters) = _
    cases hkey : tableKey castInet flow.key with
    | none =>
      rw [Option.elim_none, if_neg fun hfalls ↦ ?_]
      have hsome := (of_decide_eq_true hfalls).1
      rw [hkey] at hsome
      exact Bool.false_ne_true hsome
    | some key =>
      obtain ⟨hsame, howner⟩ := tableKey_eq_some hkey
      rw [Option.elim_some, bucketBytes_apply, hsame, howner]
      refine if_congr ?_ rfl rfl
      rw [ResolvedFlow.falls, decide_eq_true_eq, hkey]
      exact ⟨fun h ↦ ⟨rfl, h⟩, fun h ↦ h.2⟩

/-- The total of a bucket is that of its flows. -/
theorem fst_minuteSums
    (hholds : Ledger.Holds tables.minuteCounters (flowPostings castInet flows)) {bucket : ℤ}
    (hstart : start ≤ bucket) :
    (((minuteSums model tables ⟨start, exporterId, none⟩).get? bucket).getD 0).1 =
      sumWhere flows (fun flow ↦ flow.falls castInet model exporterId bucket) (·.flowBytes) := by
  rw [← sum_flowPostings, ← hholds.sumBy_eq (bucketBytes model exporterId bucket),
    minuteSums, getD_totals, Tables.minuteCounters, Dict.sumBy_mapValues, Dict.sumBy,
    ← AddMonoidHom.coe_fst, map_list_sum, weigh, minuteRows, List.map_map, List.map_map,
    List.map_map]
  refine congrArg List.sum (List.map_congr_left fun entry _ ↦ ?_)
  rw [bucketBytes_apply]
  dsimp only [Function.comp_apply]
  rw [apply_ite (AddMonoidHom.fst ℤ (ℤ × ℤ)), map_zero]
  refine if_congr ((bucketOf_eq_some start exporterId).trans ?_) rfl rfl
  exact and_iff_right hstart

/-- In every run with refreshes and for every window, the series of all traffic has a point for
every bucket of the window in which a flow was committed in the state that the bucket shows, and no
byte of these flows is missing. -/
theorem fleetSeries_of_history {Rate : Type*} (bps : ℤ → ℤ → Rate)
    {steps : List (Step (World Inet) Refresh)} (hhistory : RollupHistory castInet steps world)
    (now : ℤ) (window : String) (interfaceIdx : Option ℤ) :
    ∃ rows : List SeriesBytes,
      getTrafficSeries bps world.tables (rollupAggregates steps) now window none none interfaceIdx =
        rows.map (·.point bps (selectRollupModel window none).bucketSeconds) ∧
      (rows.map SeriesBytes.bucket).Pairwise (· < ·) ∧
      (∀ bucket, bucket ∈ rows.map SeriesBytes.bucket ↔ startTime now window ≤ bucket ∧
        ∃ flow ∈ flowsOf (shownWorld (selectRollupModel window none) steps world
            bucket).history.durable,
          flow.falls castInet (selectRollupModel window none) none bucket) ∧
      ∀ row ∈ rows, sumWhere (flowsOf (shownWorld (selectRollupModel window none) steps world
          row.bucket).history.durable)
        (fun flow ↦ flow.falls castInet (selectRollupModel window none) none row.bucket)
          (·.flowBytes) ≤ row.inBytes + row.egBytes := by
  let model := selectRollupModel window none
  let sums := seriesSums (model.rows world.tables (rollupAggregates steps)) model
    ⟨startTime now window, none, none⟩
  have hpost : ∀ bucket, Ledger.Holds (shownWorld model steps world bucket).tables.minuteCounters
      (flowPostings castInet (flowsOf (shownWorld model steps world bucket).history.durable)) := by
    intro bucket
    obtain ⟨events, hrun⟩ := hhistory.reached_shownWorld model bucket
    exact (postFlows_of_run hrun).flows
  have hkeys : ∀ bucket, bucket ∈ sums.keys ↔ startTime now window ≤ bucket ∧
      ∃ flow ∈ flowsOf (shownWorld model steps world bucket).history.durable,
        flow.falls castInet model none bucket := by
    intro bucket
    rw [← mem_keys_minuteSums model _ none (hpost bucket), ← not_iff_not,
      ← Dict.get?_eq_none_iff, ← Dict.get?_eq_none_iff, get?_seriesSums_rows]
  have hbuckets : (fleetSeries (model.rows world.tables (rollupAggregates steps)) model
      ⟨startTime now window, none, none⟩).map SeriesBytes.bucket =
        (ordered sums).map Prod.fst := List.map_map ..
  refine ⟨fleetSeries (model.rows world.tables (rollupAggregates steps)) model
    ⟨startTime now window, none, none⟩, rfl, ?_, fun bucket ↦ ?_, fun row hrow ↦ ?_⟩
  · rw [hbuckets]
    exact pairwise_ordered _
  · rw [hbuckets, mem_map_fst_ordered, hkeys]
  · obtain ⟨entry, hentry, rfl⟩ := List.mem_map.mp hrow
    have hstart := ((hkeys _).mp (mem_map_fst_ordered.mp (List.mem_map_of_mem hentry))).1
    have htotal := fst_minuteSums model _ none (hpost entry.1) hstart
    rw [← get?_seriesSums_rows, mem_ordered.mp hentry, Option.getD_some] at htotal
    exact htotal ▸ le_pointBytes_sum model entry.2

end Fleet

/-- The sample run, and a refresh of the hourly rollups two hours after its flow. -/
def sampleRefreshes : List (Step (World Address) Refresh) :=
  writesOf ipAddress (World.initial Address) sampleEvents ++
    [.refresh ⟨.flowHourlyRollup, 1767232800000000⟩]

theorem rollupHistory_sampleRefreshes :
    RollupHistory ipAddress sampleRefreshes sampleWorld :=
  RollupHistory.refresh (RollupHistory.start.append_writesOf
    (Option.some_get isSome_run_sampleEvents).symm) _

/-- The series of a day has the hour of the flow. -/
theorem fleetSeries_sampleWorld :
    ∃ rows : List SeriesBytes,
      getTrafficSeries (fun bytes _ ↦ bytes) sampleWorld.tables (rollupAggregates sampleRefreshes)
        1767232860000000 "24h" none none none =
          rows.map (·.point (fun bytes _ ↦ bytes) 3600) ∧
      1767225600000000 ∈ rows.map SeriesBytes.bucket := by
  obtain ⟨rows, hrows, -, hbuckets, -⟩ := fleetSeries_of_history (fun bytes _ ↦ bytes)
    rollupHistory_sampleRefreshes 1767232860000000 "24h" none
  exact ⟨rows, hrows, (hbuckets _).mpr (by decide +kernel)⟩

end Lnmp.Flow
