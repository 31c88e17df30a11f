import Lnmp.Monitoring.EventTable
import Mathlib.Algebra.Order.BigOperators.Group.List
import Mathlib.Data.List.Sort

/-!
# The uptime calculator

`services/uptime_calculator.py`: the gaps of the monitoring service within a window, the seconds
that they take from the lifespan of a device, and the availability that is left.

Times are microseconds. The division, the multiplication and the rounding of floating-point numbers
are a parameter.
-/

set_option autoImplicit false
set_option relaxedAutoImplicit false

namespace Lnmp.Reports

open Lnmp.Monitoring

/-- `int(delta.total_seconds())`. -/
def totalSeconds (delta : ℤ) : ℤ := delta.tdiv 1000000

theorem totalSeconds_natCast (delta : ℕ) : totalSeconds delta = (delta / 1000000 : ℕ) := rfl

/-- What a gap takes from a lifespan. -/
def gapSeconds (deviceStart deviceEnd : ℤ) (gap : ℤ × ℤ) : ℤ :=
  let overlapStart := max gap.1 deviceStart
  let overlapEnd := min gap.2 deviceEnd
  if overlapStart < overlapEnd then totalSeconds (overlapEnd - overlapStart) else 0

/-- `calculate_device_gap_seconds`. -/
def calculateDeviceGapSeconds (deviceStart deviceEnd : ℤ) (gapIntervals : List (ℤ × ℤ)) : ℤ :=
  (gapIntervals.map (gapSeconds deviceStart deviceEnd)).sum

/-- The query selects a gap. -/
def selectsGap (startDt endDt : ℤ) (gap : ServiceEvent) : Bool :=
  gap.startTime < endDt ∧ gap.endTime.all (startDt < ·)

/-- A gap within a window, unless nothing of it is there. -/
def clampGap (startDt endDt : ℤ) (gap : ServiceEvent) : Option (ℤ × ℤ) :=
  let gapStart := max gap.startTime startDt
  let gapEnd := min (gap.endTime.getD endDt) endDt
  if gapStart < gapEnd then some (gapStart, gapEnd) else none

/-- `get_service_gap_intervals`. -/
def getServiceGapIntervals (rows : List ServiceEvent) (startDt endDt : ℤ) : List (ℤ × ℤ) :=
  ((rows.filter (selectsGap startDt endDt)).insertionSort
    fun first second ↦ first.startTime ≤ second.startTime).filterMap (clampGap startDt endDt)

/-- The seconds of a lifespan, without those that are taken from it. -/
def availabilityDenominator (effectiveStart effectiveEnd deviceGapSec : ℤ) : ℤ :=
  max 0 (totalSeconds (effectiveEnd - effectiveStart)) - deviceGapSec

/-- `calculate_uptime_denominator_and_percentage`. The parameter divides the seconds by the
denominator, makes it a percentage and rounds that to two decimals. -/
def calculateUptimeDenominatorAndPercentage (roundedPercentage : ℤ → ℤ → ℚ)
    (createdAt startTime endTime nowUtc upEventsCount unknownSeconds : ℤ)
    (gapIntervals : Option (List (ℤ × ℤ))) (uptimeSeconds : Option ℤ) : ℚ :=
  let effectiveStart := max startTime createdAt
  let effectiveEnd := min endTime nowUtc
  let deviceGapSec :=
    match gapIntervals with
    | some gapIntervals => calculateDeviceGapSeconds effectiveStart effectiveEnd gapIntervals
    | none => unknownSeconds
  let denominator := availabilityDenominator effectiveStart effectiveEnd deviceGapSec
  if denominator ≤ 0 then 100
  else max 0 (min 100 (roundedPercentage (uptimeSeconds.getD (upEventsCount * 60)) denominator))

/-! ### Sums of seconds -/

/-- Sums of which one has no larger terms are equal exactly when their terms are. -/
theorem sum_map_eq_sum_map_iff {Item Number : Type*} [AddCommMonoid Number] [PartialOrder Number]
    [IsOrderedCancelAddMonoid Number] {items : List Item} {low high : Item → Number}
    (hle : ∀ item ∈ items, low item ≤ high item) :
    (items.map low).sum = (items.map high).sum ↔ ∀ item ∈ items, low item = high item := by
  constructor
  · intro hsum item hitem
    by_contra hne
    exact (List.sum_lt_sum low high hle ⟨item, hitem, (hle item hitem).lt_of_ne hne⟩).ne hsum
  · intro hterms
    rw [List.map_congr_left hterms]

end Lnmp.Reports
