import Lnmp.Flow.BandwidthQueries
import Lnmp.Flow.TablePostings
import Lnmp.Foundation.ContinuousAggregate

/-!
# The hourly and the daily rollups

`flow_hourly_rollups` and `flow_daily_rollups` are continuous aggregates of the minute table. Their
policies refresh the buckets of a window now and then, and what is committed to the minute table
after that is not in them until the next refresh that covers its bucket.

A bucket has the rows of the query over the minute table as it was at the last such refresh
(`perm_filter_materializedRows`), which is the table of a state that the aggregator reached
(`reached_shownWorld`). So a query over an aggregate is one over the flows that are shown, each as
often as it was committed in the state that its bucket shows (`count_shownFlows`). The retention
policies are left out.
-/

set_option autoImplicit false
set_option relaxedAutoImplicit false

namespace Lnmp.Flow

open Lnmp.Foundation Lnmp.Foundation.Runs Lnmp.Foundation.GroupBy
open Lnmp.Foundation.ContinuousAggregate

variable {Inet : Type*} [DecidableEq Inet]

/-- A refresh by the policy of an aggregate. -/
structure Refresh where
  model : RollupModel
  refreshedAt : ℤ

/-- `start_offset` and `end_offset` of the policies, in seconds. The minute table has none. -/
def RollupModel.offsets : RollupModel → Option (ℤ × ℤ)
  | .flowMinuteRollup => none
  | .flowHourlyRollup => some (3 * 86400, 3600)
  | .flowDailyRollup => some (7 * 86400, 86400)

/-- A refresh covers the whole buckets of its window. -/
def RollupModel.covers (model : RollupModel) (refresh : Refresh) (bucket : ℤ) : Bool :=
  refresh.model = model ∧ model.offsets.any fun offsets ↦
    refresh.refreshedAt - offsets.1 * microseconds ≤ bucket ∧
      bucket + model.bucketSeconds * microseconds ≤ refresh.refreshedAt - offsets.2 * microseconds

/-- The rows of an aggregate after steps of the aggregator and refreshes. -/
def materializedRows (model : RollupModel) (steps : List (Step (World Inet) Refresh)) :
    List (RollupView × FlowCounters) :=
  (aggregateOf (fun world : World Inet ↦ model.query world.tables) (fun row ↦ row.1.bucket)
    model.covers (World.initial Inet) steps).materialized

/-- The rows of both aggregates. -/
def rollupAggregates (steps : List (Step (World Inet) Refresh)) : RollupAggregates where
  flowHourlyRollups := materializedRows .flowHourlyRollup steps
  flowDailyRollups := materializedRows .flowDailyRollup steps

/-- Steps of the aggregator, from its start to a state, with refreshes between them. -/
inductive RollupHistory (castInet : String → Option Inet) :
    List (Step (World Inet) Refresh) → World Inet → Prop
  | start : RollupHistory castInet [] (World.initial Inet)
  | flow {steps : List (Step (World Inet) Refresh)} {world next : World Inet} {event : Event}
      (hhistory : RollupHistory castInet steps world)
      (hstep : step castInet world event = some next) :
      RollupHistory castInet (steps ++ [.write next]) next
  | refresh {steps : List (Step (World Inet) Refresh)} {world : World Inet}
      (hhistory : RollupHistory castInet steps world) (refresh : Refresh) :
      RollupHistory castInet (steps ++ [.refresh refresh]) world

/-- The state whose minute table a bucket shows: the current one in the minute table itself, and
that of the last refresh that covered the bucket in an aggregate. -/
def shownWorld (model : RollupModel) (steps : List (Step (World Inet) Refresh))
    (world : World Inet) (bucket : ℤ) : World Inet :=
  match model with
  | .flowMinuteRollup => world
  | .flowHourlyRollup | .flowDailyRollup =>
    (shownOf model.covers (World.initial Inet) steps).shown bucket

variable {castInet : String → Option Inet} {steps : List (Step (World Inet) Refresh)}
  {world next : World Inet}

/-- The steps of a run of the aggregator. -/
def writesOf (castInet : String → Option Inet) :
    World Inet → List Event → List (Step (World Inet) Refresh)
  | _, [] => []
  | world, event :: events =>
    match step castInet world event with
    | none => []
    | some next => .write next :: writesOf castInet next events

/-- Every run of the aggregator goes on with a history. -/
theorem RollupHistory.append_writesOf {events : List Event}
    (hhistory : RollupHistory castInet steps world)
    (hrun : run (step castInet) world events = some next) :
    RollupHistory castInet (steps ++ writesOf castInet world events) next := by
  induction events generalizing steps world with
  | nil =>
    obtain rfl := Option.some.inj hrun
    rw [writesOf, List.append_nil]
    exact hhistory
  | cons event events ih =>
    rw [run_cons, Option.bind_eq_some_iff] at hrun
    obtain ⟨middle, hstep, hrest⟩ := hrun
    rw [writesOf, hstep]
    dsimp only
    rw [List.append_cons]
    exact ih (hhistory.flow hstep) hrest

/-- A state that the aggregator reaches. -/
def Reached (castInet : String → Option Inet) (world : World Inet) : Prop :=
  ∃ events, run (step castInet) (World.initial Inet) events = some world

theorem reached_initial (castInet : String → Option Inet) :
    Reached castInet (World.initial Inet) := ⟨[], rfl⟩

theorem Reached.step {event : Event} (hreached : Reached castInet world)
    (hstep : step castInet world event = some next) : Reached castInet next := by
  obtain ⟨events, hrun⟩ := hreached
  exact ⟨events ++ [event], run_concat_eq_some.mpr ⟨world, hrun, hstep⟩⟩

/-- The current state and those that the buckets show are reached. -/
theorem RollupHistory.reached (hhistory : RollupHistory castInet steps world)
    (model : RollupModel) : Reached castInet world ∧
      (shownOf model.covers (World.initial Inet) steps : Shown (World Inet) ℤ).table = world ∧
      ∀ bucket, Reached castInet
        ((shownOf model.covers (World.initial Inet) steps).shown bucket) := by
  induction hhistory with
  | start => exact ⟨reached_initial castInet, rfl, fun _ ↦ reached_initial castInet⟩
  | flow hhistory hstep ih =>
    obtain ⟨hworld, -, hshown⟩ := ih
    rw [shownOf_concat]
    exact ⟨hworld.step hstep, rfl, hshown⟩
  | refresh hhistory refresh ih =>
    obtain ⟨hworld, htable, hshown⟩ := ih
    rw [shownOf_concat]
    refine ⟨hworld, htable, fun bucket ↦ ?_⟩
    rw [Shown.next]
    dsimp only
    split
    · rw [htable]
      exact hworld
    · exact hshown bucket

theorem RollupHistory.reached_shownWorld (hhistory : RollupHistory castInet steps world)
    (model : RollupModel) (bucket : ℤ) :
    Reached castInet (shownWorld model steps world bucket) := by
  cases model with
  | flowMinuteRollup => exact (hhistory.reached .flowMinuteRollup).1
  | flowHourlyRollup => exact (hhistory.reached .flowHourlyRollup).2.2 bucket
  | flowDailyRollup => exact (hhistory.reached .flowDailyRollup).2.2 bucket

omit [DecidableEq Inet] in
/-- An aggregate has, for each bucket, the rows of its query over the table that is shown. -/
theorem perm_filter_materializedRows (model : RollupModel)
    (steps : List (Step (World Inet) Refresh)) (bucket : ℤ) :
    ((materializedRows model steps).filter (·.1.bucket = bucket)).Perm
      ((model.query ((shownOf model.covers (World.initial Inet) steps).shown bucket).tables).filter
        (·.1.bucket = bucket)) :=
  perm_filter_materialized RollupView.bucket (fun _ ↦ rfl)
    (fun _ : World Inet ↦ Dict.nodup_keys _) rfl steps bucket

/-! ### Totals over the rows of a model -/

section Totals

variable {Group Amount : Type*} [DecidableEq Group] [AddCommGroup Amount]
  (model : RollupModel) (weight : RollupView → FlowCounters →+ Amount)

omit [DecidableEq Inet] in
/-- Totals over the query of an aggregate are totals over the minute table. -/
theorem get?_totals_query (tables : Tables Inet) (group : RollupView → Option Group)
    (other : Group) :
    (totals group (weigh (fun row counters ↦ weight row counters)
        (model.query tables))).get? other =
      (totals (fun row ↦ group (model.viewOf row))
        (weigh (fun row counters ↦ weight (model.viewOf row) counters)
          (minuteRows tables))).get? other := by
  have hholds : Ledger.Holds (totals (fun row ↦ some (model.viewOf row)) (minuteRows tables))
      (regroup (fun row ↦ some (model.viewOf row)) (minuteRows tables)) := fun _ ↦ rfl
  exact get?_totals_of_holds_map hholds group weight other

omit [DecidableEq Inet] in
/-- The total of a group with rows in one bucket is one over the minute table that is shown
there. -/
theorem get?_totals_rows (steps : List (Step (World Inet) Refresh)) (world : World Inet)
    {group : RollupView → Option Group} {other : Group} {bucket : ℤ}
    (hbucket : ∀ row, group row = some other → row.bucket = bucket) :
    (totals group (weigh (fun row counters ↦ weight row counters)
        (model.rows world.tables (rollupAggregates steps)))).get? other =
      (totals (fun row ↦ group (model.viewOf row))
        (weigh (fun row counters ↦ weight (model.viewOf row) counters)
          (minuteRows (shownWorld model steps world bucket).tables))).get? other := by
  have hmaterialized : (totals group (weigh (fun row counters ↦ weight row counters)
      (materializedRows model steps))).get? other =
        (totals (fun row ↦ group (model.viewOf row))
          (weigh (fun row counters ↦ weight (model.viewOf row) counters) (minuteRows
            ((shownOf model.covers (World.initial Inet) steps).shown bucket).tables))).get? other :=
    (get?_totals_weigh_of_perm _ (fun row hrow ↦ decide_eq_true (hbucket row hrow))
      (perm_filter_materializedRows model steps bucket)).trans (get?_totals_query ..)
  cases model with
  | flowMinuteRollup => rfl
  | flowHourlyRollup => exact hmaterialized
  | flowDailyRollup => exact hmaterialized

end Totals

/-! ### The flows that are shown -/

/-- The buckets of the flows committed in the states of a history. -/
def shownBuckets (model : RollupModel) (steps : List (Step (World Inet) Refresh))
    (world : World Inet) : List ℤ :=
  ((world :: steps.filterMap Step.written?).flatMap fun written ↦
    (flowsOf written.history.durable).map fun flow ↦ model.truncate flow.key.bucket).dedup

/-- The flows of every bucket that were committed in the state that it shows. -/
def shownFlows (model : RollupModel) (steps : List (Step (World Inet) Refresh))
    (world : World Inet) : List ResolvedFlow :=
  (shownBuckets model steps world).flatMap fun bucket ↦
    (flowsOf (shownWorld model steps world bucket).history.durable).filter fun flow ↦
      model.truncate flow.key.bucket = bucket

omit [DecidableEq Inet] in
theorem mem_shownBuckets (model : RollupModel) (steps : List (Step (World Inet) Refresh))
    (world : World Inet) {bucket : ℤ} {flow : ResolvedFlow}
    (hflow : flow ∈ flowsOf (shownWorld model steps world bucket).history.durable) :
    model.truncate flow.key.bucket ∈ shownBuckets model steps world := by
  have hshown : shownWorld model steps world bucket ∈
      world :: steps.filterMap Step.written? := by
    have hwritten : (shownOf model.covers (World.initial Inet) steps).shown bucket =
        shownWorld model steps world bucket →
          shownWorld model steps world bucket ∈ world :: steps.filterMap Step.written? := by
      intro hsame
      refine List.mem_cons_of_mem _ (hsame ▸ ((shown_eq_or_mem steps).2 bucket).resolve_left ?_)
      intro hempty
      rw [← hsame, hempty] at hflow
      exact List.not_mem_nil hflow
    cases model with
    | flowMinuteRollup => exact List.mem_cons_self ..
    | flowHourlyRollup => exact hwritten rfl
    | flowDailyRollup => exact hwritten rfl
  exact List.mem_dedup.mpr (List.mem_flatMap.mpr ⟨_, hshown, List.mem_map_of_mem hflow⟩)

omit [DecidableEq Inet] in
/-- A flow is shown as often as it was committed in the state that its bucket shows. -/
theorem count_shownFlows (model : RollupModel) (steps : List (Step (World Inet) Refresh))
    (world : World Inet) (flow : ResolvedFlow) :
    (shownFlows model steps world).count flow = (flowsOf (shownWorld model steps world
      (model.truncate flow.key.bucket)).history.durable).count flow := by
  have hother : ∀ bucket, bucket ≠ model.truncate flow.key.bucket →
      bucket ∈ shownBuckets model steps world →
        (List.count flow ∘ fun bucket ↦ (flowsOf (shownWorld model steps world
          bucket).history.durable).filter fun flow ↦ model.truncate flow.key.bucket = bucket)
            bucket = 0 := by
    intro bucket hne _
    refine List.count_eq_zero.mpr fun hmem ↦ hne ?_
    exact (of_decide_eq_true (List.mem_filter.mp hmem).2).symm
  have hnodup : (shownBuckets model steps world).Nodup := List.nodup_dedup _
  have hown : ∀ flows : List ResolvedFlow, (flows.filter fun other ↦
      model.truncate other.key.bucket = model.truncate flow.key.bucket).count flow =
        flows.count flow := fun flows ↦ List.count_filter (decide_eq_true rfl)
  rw [shownFlows, List.count_flatMap, List.sum_map_eq_nsmul_single _ _ hother, Function.comp_apply,
    hown]
  by_cases hbucket : model.truncate flow.key.bucket ∈ shownBuckets model steps world
  · rw [List.count_eq_one_of_mem hnodup hbucket, one_nsmul]
  · rw [List.count_eq_zero.mpr hbucket, zero_nsmul, eq_comm, List.count_eq_zero]
    exact fun hflow ↦ hbucket (mem_shownBuckets model steps world hflow)

omit [DecidableEq Inet] in
/-- The flows of a bucket are those that were committed in the state that it shows. -/
theorem perm_filter_shownFlows (model : RollupModel) (steps : List (Step (World Inet) Refresh))
    (world : World Inet) (bucket : ℤ) :
    ((shownFlows model steps world).filter fun flow ↦ model.truncate flow.key.bucket = bucket).Perm
      ((flowsOf (shownWorld model steps world bucket).history.durable).filter fun flow ↦
        model.truncate flow.key.bucket = bucket) := by
  refine List.perm_iff_count.mpr fun flow ↦ ?_
  by_cases hbucket : model.truncate flow.key.bucket = bucket
  · have hown : ∀ flows : List ResolvedFlow, (flows.filter fun other ↦
        model.truncate other.key.bucket = bucket).count flow = flows.count flow := fun flows ↦
      List.count_filter (decide_eq_true hbucket)
    rw [hown, hown, count_shownFlows, hbucket]
  · have hnone : ∀ flows : List ResolvedFlow, (flows.filter fun other ↦
        model.truncate other.key.bucket = bucket).count flow = 0 := fun flows ↦
      List.count_eq_zero.mpr fun hmem ↦ hbucket (of_decide_eq_true (List.mem_filter.mp hmem).2)
    rw [hnone, hnone]

end Lnmp.Flow
