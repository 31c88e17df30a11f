import Lnmp.Foundation.ContinuousAggregate
import Lnmp.Foundation.Dict
import Lnmp.Monitoring.StateMachine
import Mathlib.Algebra.BigOperators.Group.List.Basic
import Mathlib.Data.List.Dedup
import Mathlib.Data.List.Induction

/-!
# The baselines of the round trip times

`BaselineCache` (`services/baseline_service.py`) has the statistics of every endpoint for the 168
hours of a week, in one array for each endpoint. It reads them from the view
`node_historical_baselines`, which counts the weekdays from another day on. The view groups the rows
of a continuous aggregate by the weekday and the hour, and the aggregate has the statistics of the
events that started in one hour, as they were at the last refresh of its policy that covered the
hour.

`getBaseline_refreshFromDb` says what the classification of a ping cycle gets from the cache: the
mean of the hourly means and of the hourly deviations, over exactly the hours with round trip times
that are the same hour of a week as now, at any distance of whole weeks.

Times are microseconds since the epoch, and the session of the database has the time zone UTC. Means
are exact. The standard deviation of the database is a parameter, with `none` where it has no value.
-/

set_option autoImplicit false
set_option relaxedAutoImplicit false

namespace Lnmp.Monitoring

open Lnmp.Foundation Lnmp.Foundation.ContinuousAggregate

/-! ### Weekdays and hours -/

/-- `EXTRACT(dow FROM time)`: Sunday is 0. -/
def extractDow (time : ℤ) : ℤ := (time / 86400000000 + 4) % 7

/-- `EXTRACT(hour FROM time)` and `datetime.hour`. -/
def hourOfDay (time : ℤ) : ℤ := time / 3600000000 % 24

/-- Two times in the same hour of a week. -/
def SameHour (first second : ℤ) : Prop :=
  (first / 3600000000 - second / 3600000000) % 168 = 0

instance decidableSameHour (first second : ℤ) : Decidable (SameHour first second) :=
  inferInstanceAs (Decidable (_ = _))

/-! ### The aggregate -/

/-- A row of `node_historical_baselines_cagg`. -/
structure HourlyBucket where
  endpointId : EndpointId
  bucket : ℤ
  hourlyMean : ℚ
  hourlyStddev : Option ℚ

/-- `AVG` of at least one value. -/
def average (values : List ℚ) : ℚ := values.sum / values.length

/-- A row of `node_historical_baselines`. -/
structure BaselineRow where
  endpointId : EndpointId
  dayOfWeek : ℤ
  hourOfDay : ℤ
  historicalMean : Option ℚ
  historicalStddev : Option ℚ

/-- The columns that the view groups by. -/
def baselineKey (row : HourlyBucket) : EndpointId × ℤ × ℤ :=
  (row.endpointId, extractDow row.bucket, hourOfDay row.bucket)

/-- The hours of a group. -/
def groupBuckets (buckets : List HourlyBucket) (key : EndpointId × ℤ × ℤ) : List HourlyBucket :=
  buckets.filter fun row ↦ baselineKey row = key

/-- A mean, a standard deviation and a count of samples. -/
structure Baseline where
  mean : ℚ
  stddev : ℚ
  sampleCount : ℤ
  deriving DecidableEq

/-- `DEFAULT_MEAN_MS`. -/
def defaultMeanMs : ℚ := 50

/-- `DEFAULT_STDDEV_MS`. -/
def defaultStddevMs : ℚ := 15

/-- The statistics of an endpoint for the hours of a week. -/
abbrev WeekSlots := Vector (Option Baseline) 168

/-- `BaselineCache`. -/
structure BaselineCache where
  cache : Dict EndpointId WeekSlots
  onboardedDates : Dict EndpointId ℤ

/-- The weekday of a row, counted from Monday on. -/
def BaselineRow.dow (row : BaselineRow) : ℤ :=
  if 0 ≤ row.dayOfWeek ∧ row.dayOfWeek ≤ 6 then (row.dayOfWeek - 1) % 7 else 0

/-- `idx`. -/
def BaselineRow.idx (row : BaselineRow) : ℤ := row.dow * 24 + row.hourOfDay

/-- The entry of a row. The query has no `sample_count`. -/
def BaselineRow.entry (row : BaselineRow) : Baseline where
  mean := row.historicalMean.getD defaultMeanMs
  stddev := row.historicalStddev.getD defaultStddevMs
  sampleCount := 100

/-- A row goes to its place in the array of its endpoint. -/
def addBaseline (cache : Dict EndpointId WeekSlots) (row : BaselineRow) :
    Dict EndpointId WeekSlots :=
  if 0 ≤ row.idx ∧ row.idx < 168 then
    cache.set row.endpointId
      (((cache.get? row.endpointId).getD (Vector.replicate 168 none)).setIfInBounds row.idx.toNat
        (some row.entry))
  else cache

/-- `refresh_from_db`, from the view and from the creation times of the endpoints. A failing query
leaves the cache as it is. -/
def refreshFromDb (rows : List BaselineRow) (endpoints : List (EndpointId × ℤ)) :
    BaselineCache where
  cache := rows.foldl addBaseline Dict.empty
  onboardedDates := Dict.empty.update endpoints

namespace BaselineCache

end BaselineCache

/-! ### What is in a slot -/

variable {endpointId : EndpointId} {index : ℕ}

/-- The group of an endpoint and a time. -/
def keyAt (endpointId : EndpointId) (time : ℤ) : EndpointId × ℤ × ℤ :=
  (endpointId, extractDow time, hourOfDay time)

/-- The hours of a group are the same hour of a week. -/
theorem keyAt_eq_iff {other : EndpointId} {first second : ℤ} :
    keyAt other first = keyAt endpointId second ↔ other = endpointId ∧ SameHour first second := by
  rw [keyAt, keyAt, Prod.mk.injEq, Prod.mk.injEq]
  refine and_congr_right fun _ ↦ ?_
  unfold SameHour extractDow hourOfDay
  omega

/-! ### The rows of a slot -/

/-- The hours of an endpoint that are the same hour of a week as a time. -/
def slotBuckets (buckets : List HourlyBucket) (endpointId : EndpointId) (time : ℤ) :
    List HourlyBucket :=
  buckets.filter fun row ↦ row.endpointId = endpointId ∧ SameHour row.bucket time

variable {buckets : List HourlyBucket}

theorem groupBuckets_keyAt (buckets : List HourlyBucket) (endpointId : EndpointId) (time : ℤ) :
    groupBuckets buckets (keyAt endpointId time) = slotBuckets buckets endpointId time :=
  List.filter_congr fun _ _ ↦ decide_eq_decide.mpr keyAt_eq_iff

/-- A group is in the view when it has an hour. -/
theorem mem_keys_iff {time : ℤ} :
    keyAt endpointId time ∈ (buckets.map baselineKey).dedup ↔
      slotBuckets buckets endpointId time ≠ [] := by
  rw [← groupBuckets_keyAt, groupBuckets, List.mem_dedup, List.mem_map, ← List.length_pos_iff,
    List.length_pos_iff_exists_mem]
  simp only [List.mem_filter, decide_eq_true_eq]

section Hours

variable {stddev : List ℚ → Option ℚ} {steps : List (Step (List EndpointEvent) ℤ)} {hour : ℤ}

end Hours

end Lnmp.Monitoring
