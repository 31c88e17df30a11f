import Lnmp.Foundation.Cover
import Lnmp.Reports.UptimeCalculator
import Mathlib.Algebra.BigOperators.Ring.Finset
import Mathlib.Data.Int.Interval
import Mathlib.Data.Set.Card

/-!
# Gaps as a measure

What the uptime calculator takes from a lifespan is a sum over the gaps of the monitoring service,
each cut to the window and then to the lifespan. Gaps that overlap are counted more than once, and
a fraction of a second is dropped for each gap.

`gapsMeasured_iff` says when the sum is the length of the union of the gaps within the lifespan:
when no two gaps have an instant of the lifespan in common, and every gap takes whole seconds of it.
-/

set_option autoImplicit false
set_option relaxedAutoImplicit false

namespace Lnmp.Reports

open Lnmp.Foundation Lnmp.Monitoring

/-- A lifespan. -/
def lifespan (effectiveStart effectiveEnd : ℤ) : Span ℤ := ⟨effectiveStart, some effectiveEnd⟩

/-- The seconds that are taken are the length of the union of the gaps within the lifespan, the
lifespan is at least as long, and no instant is taken twice. -/
structure GapsMeasured (rows : List ServiceEvent) (startDt endDt effectiveStart effectiveEnd : ℤ) :
    Prop where
  seconds_eq :
    calculateDeviceGapSeconds effectiveStart effectiveEnd
        (getServiceGapIntervals rows startDt endDt) * 1000000 =
      ((⋃ gap ∈ rows, gap.span.instants) ∩ (lifespan effectiveStart effectiveEnd).instants).ncard
  denominator_nonneg :
    0 ≤ availabilityDenominator effectiveStart effectiveEnd
      (calculateDeviceGapSeconds effectiveStart effectiveEnd
        (getServiceGapIntervals rows startDt endDt))
  once : ∀ instant ∈ (lifespan effectiveStart effectiveEnd).instants,
    ((getServiceGapIntervals rows startDt endDt).countP fun gap ↦
      gap.1 ≤ instant ∧ instant < gap.2) ≤ 1

/-- No two gaps have an instant of the lifespan in common, and every gap takes whole seconds. -/
structure GapsApart (rows : List ServiceEvent) (effectiveStart effectiveEnd : ℤ) : Prop where
  disjoint : rows.Pairwise fun first second ↦
    ∀ instant ∈ (lifespan effectiveStart effectiveEnd).instants,
      instant ∈ first.span.instants → instant ∉ second.span.instants
  wholeSeconds : ∀ gap ∈ rows,
    1000000 ∣ (gap.span.instants ∩ (lifespan effectiveStart effectiveEnd).instants).ncard

/-! ### Gaps and intervals -/

/-- The instants of a gap within a lifespan. -/
def lifespanPart (effectiveStart effectiveEnd : ℤ) (gap : ServiceEvent) : Finset ℤ :=
  gap.span.instantsWithin effectiveStart effectiveEnd

/-- The span of an interval. -/
def intervalSpan (interval : ℤ × ℤ) : Span ℤ := ⟨interval.1, some interval.2⟩

/-- What the query and the window leave of a gap. -/
def clip (startDt endDt : ℤ) (gap : ServiceEvent) : Option (ℤ × ℤ) :=
  if selectsGap startDt endDt gap then clampGap startDt endDt gap else none

section Interval

variable {rows : List ServiceEvent} {gap : ServiceEvent} {interval : ℤ × ℤ}
  {startDt endDt effectiveStart effectiveEnd instant : ℤ}

theorem mem_lifespan_iff : instant ∈ (lifespan effectiveStart effectiveEnd).instants ↔
    effectiveStart ≤ instant ∧ instant < effectiveEnd := by
  rw [Span.instants_of_closed rfl]
  exact Set.mem_Ico

theorem mem_lifespanPart :
    instant ∈ lifespanPart effectiveStart effectiveEnd gap ↔
      instant ∈ (lifespan effectiveStart effectiveEnd).instants ∧ instant ∈ gap.span.instants := by
  rw [mem_lifespan_iff]
  exact Span.mem_instantsWithin_iff

theorem ncard_lifespanPart :
    (gap.span.instants ∩ (lifespan effectiveStart effectiveEnd).instants).ncard =
      (lifespanPart effectiveStart effectiveEnd gap).card := by
  rw [← Set.ncard_coe_finset]
  congr 1
  ext instant
  rw [Finset.mem_coe, mem_lifespanPart, and_comm]
  rfl

theorem ncard_union_lifespanPart :
    ((⋃ gap ∈ rows, gap.span.instants) ∩ (lifespan effectiveStart effectiveEnd).instants).ncard =
      (Cover.union (rows.map (lifespanPart effectiveStart effectiveEnd))).card := by
  rw [← Set.ncard_coe_finset]
  congr 1
  ext instant
  simp only [Finset.mem_coe, Cover.mem_union, List.mem_map, exists_exists_and_eq_and,
    mem_lifespanPart, Set.mem_inter_iff, Set.mem_iUnion, exists_prop]
  constructor
  · rintro ⟨⟨gap, hgap, hmem⟩, hlife⟩
    exact ⟨gap, hgap, hlife, hmem⟩
  · rintro ⟨gap, hgap, hlife, hmem⟩
    exact ⟨⟨gap, hgap, hmem⟩, hlife⟩

/-- A gap takes the whole seconds of its instants within the lifespan. -/
theorem gapSeconds_eq :
    gapSeconds effectiveStart effectiveEnd interval =
      (((intervalSpan interval).instantsWithin effectiveStart effectiveEnd).card /
        1000000 : ℕ) := by
  simp only [Span.instantsWithin, Int.card_Ico, gapSeconds, intervalSpan, Option.getD_some]
  split
  · rename_i hlt
    rw [← totalSeconds_natCast, Int.toNat_of_nonneg (by omega)]
  · rw [Int.toNat_of_nonpos (by omega)]
    rfl

theorem perm_filterMap_clip :
    (getServiceGapIntervals rows startDt endDt).Perm (rows.filterMap (clip startDt endDt)) := by
  have hselected : rows.filterMap (clip startDt endDt) =
      (rows.filter (selectsGap startDt endDt)).filterMap (clampGap startDt endDt) := by
    rw [List.filterMap_filter]
    rfl
  rw [hselected, getServiceGapIntervals]
  exact (List.perm_insertionSort ..).filterMap _

/-- An interval has the instants of its gap within a lifespan in the window. -/
theorem instantsWithin_of_clip (hstart : startDt ≤ effectiveStart) (hend : effectiveEnd ≤ endDt)
    (hclip : clip startDt endDt gap = some interval) :
    (intervalSpan interval).instantsWithin effectiveStart effectiveEnd =
      lifespanPart effectiveStart effectiveEnd gap := by
  rw [clip, Option.ite_none_right_eq_some, clampGap] at hclip
  obtain ⟨-, -, hinterval⟩ := hclip.imp_right Option.ite_none_right_eq_some.mp
  obtain rfl := Option.some.inj hinterval
  ext instant
  rw [lifespanPart, Span.mem_instantsWithin_iff, Span.mem_instantsWithin_iff]
  refine and_congr_right fun hlife ↦ ?_
  rw [Span.mem_instants_iff, Span.mem_instants_iff, intervalSpan, ServiceEvent.span]
  cases gap.endTime with
  | none => simp; omega
  | some endTime => simp; omega

/-- A gap without an interval has no instants within a lifespan in the window. -/
theorem lifespanPart_of_clip_eq_none (hstart : startDt ≤ effectiveStart)
    (hend : effectiveEnd ≤ endDt) (hclip : clip startDt endDt gap = none) :
    lifespanPart effectiveStart effectiveEnd gap = ∅ := by
  rw [Finset.eq_empty_iff_forall_notMem]
  intro instant hmem
  obtain ⟨hlife, hgap⟩ := mem_lifespanPart.mp hmem
  obtain ⟨hlower, hupper⟩ := mem_lifespan_iff.mp hlife
  obtain ⟨hfrom, hfinish⟩ := Span.mem_instants_iff.mp hgap
  rw [ServiceEvent.span] at hfrom hfinish
  rw [clip] at hclip
  cases hopen : gap.endTime with
  | none =>
    simp only [selectsGap, clampGap, hopen, Option.all_none, Option.getD_none] at hclip
    grind
  | some endTime =>
    have hbefore := hfinish endTime hopen
    simp only [selectsGap, clampGap, hopen, Option.all_some, Option.getD_some] at hclip
    grind

end Interval

/-! ### The measure -/

section Measure

variable {rows : List ServiceEvent} {startDt endDt effectiveStart effectiveEnd : ℤ}

/-- A sum over the intervals is one over the gaps, when gaps without an interval add nothing. -/
theorem sum_filterMap {Row Item : Type*} {rows : List Row} {select : Row → Option Item}
    {weight : Item → ℤ} {total : Row → ℤ}
    (hsome : ∀ row item, select row = some item → weight item = total row)
    (hnone : ∀ row, select row = none → total row = 0) :
    ((rows.filterMap select).map weight).sum = (rows.map total).sum := by
  induction rows with
  | nil => rfl
  | cons row rows ih =>
    rw [List.map_cons, List.sum_cons, ← ih]
    cases hselect : select row with
    | none => rw [List.filterMap_cons_none hselect, hnone row hselect, zero_add]
    | some item =>
      rw [List.filterMap_cons_some hselect, List.map_cons, List.sum_cons, hsome row item hselect]

/-- The seconds that are taken are those of the sizes of the parts of the gaps. -/
theorem calculateDeviceGapSeconds_eq (hstart : startDt ≤ effectiveStart)
    (hend : effectiveEnd ≤ endDt) :
    calculateDeviceGapSeconds effectiveStart effectiveEnd
        (getServiceGapIntervals rows startDt endDt) =
      ((((rows.map (lifespanPart effectiveStart effectiveEnd)).map Finset.card).map
        (· / 1000000)).sum : ℕ) := by
  have hparts : ((rows.filterMap (clip startDt endDt)).map
      (gapSeconds effectiveStart effectiveEnd)).sum =
        (rows.map fun gap ↦
          (((lifespanPart effectiveStart effectiveEnd gap).card / 1000000 : ℕ) : ℤ)).sum := by
    refine sum_filterMap (fun gap interval hclip ↦ ?_) fun gap hclip ↦ ?_
    · rw [gapSeconds_eq, instantsWithin_of_clip hstart hend hclip]
    · rw [lifespanPart_of_clip_eq_none hstart hend hclip]
      rfl
  rw [calculateDeviceGapSeconds, (perm_filterMap_clip.map _).sum_eq, hparts, Nat.cast_list_sum]
  simp only [List.map_map]
  rfl

/-- An instant of the lifespan is in as many intervals as there are gaps that have it. -/
theorem countP_getServiceGapIntervals (hstart : startDt ≤ effectiveStart)
    (hend : effectiveEnd ≤ endDt) {instant : ℤ}
    (hlife : instant ∈ (lifespan effectiveStart effectiveEnd).instants) :
    ((getServiceGapIntervals rows startDt endDt).countP fun interval ↦
        interval.1 ≤ instant ∧ instant < interval.2) =
      (rows.map (lifespanPart effectiveStart effectiveEnd)).countP (instant ∈ ·) := by
  rw [perm_filterMap_clip.countP_eq, List.countP_filterMap, List.countP_map]
  refine List.countP_congr fun gap _ ↦ ?_
  cases hclip : clip startDt endDt gap with
  | none => simp [lifespanPart_of_clip_eq_none hstart hend hclip]
  | some interval =>
    have hspan : instant ∈ (intervalSpan interval).instants ↔
        interval.1 ≤ instant ∧ instant < interval.2 := by
      rw [Span.instants_of_closed rfl]
      exact Set.mem_Ico
    rw [mem_lifespan_iff] at hlife
    simp only [Option.map_some, Option.getD_some, Function.comp_apply, decide_eq_true_eq,
      ← instantsWithin_of_clip hstart hend hclip, Span.mem_instantsWithin_iff, hspan,
      and_iff_right hlife]

/-- No instant of the lifespan is taken twice exactly when the parts of the gaps are disjoint. -/
theorem countP_le_one_iff (hstart : startDt ≤ effectiveStart) (hend : effectiveEnd ≤ endDt) :
    (∀ instant ∈ (lifespan effectiveStart effectiveEnd).instants,
      ((getServiceGapIntervals rows startDt endDt).countP fun interval ↦
        interval.1 ≤ instant ∧ instant < interval.2) ≤ 1) ↔
      (rows.map (lifespanPart effectiveStart effectiveEnd)).Pairwise Disjoint := by
  rw [← Cover.countP_mem_le_one_iff]
  constructor
  · intro hcount instant
    by_cases hlife : instant ∈ (lifespan effectiveStart effectiveEnd).instants
    · exact countP_getServiceGapIntervals hstart hend hlife ▸ hcount instant hlife
    · refine le_of_eq_of_le (List.countP_eq_zero.mpr fun part hpart hmem ↦ ?_) (Nat.zero_le 1)
      obtain ⟨gap, -, rfl⟩ := List.mem_map.mp hpart
      exact hlife (mem_lifespanPart.mp (of_decide_eq_true hmem)).1
  · intro hcount instant hlife
    exact countP_getServiceGapIntervals hstart hend hlife ▸ hcount instant

theorem pairwise_disjoint_lifespanPart_iff :
    (rows.map (lifespanPart effectiveStart effectiveEnd)).Pairwise Disjoint ↔
      rows.Pairwise fun first second ↦
        ∀ instant ∈ (lifespan effectiveStart effectiveEnd).instants,
          instant ∈ first.span.instants → instant ∉ second.span.instants := by
  rw [List.pairwise_map]
  refine List.Pairwise.iff fun first second ↦ ?_
  simp only [Finset.disjoint_left, mem_lifespanPart]
  constructor
  · intro hdisjoint instant hlife hfirst hsecond
    exact hdisjoint ⟨hlife, hfirst⟩ ⟨hlife, hsecond⟩
  · intro hdisjoint instant hfirst hsecond
    exact hdisjoint instant hfirst.1 hfirst.2 hsecond.2

/-- Whole parts lose nothing exactly when all numbers are multiples. -/
theorem sum_div_mul_eq_sum_iff {unit : ℕ} {numbers : List ℕ} :
    (numbers.map (· / unit)).sum * unit = numbers.sum ↔ ∀ number ∈ numbers, unit ∣ number := by
  have hparts : (numbers.map fun number ↦ number / unit * unit).sum =
      (numbers.map fun number ↦ number).sum ↔ ∀ number ∈ numbers, number / unit * unit = number :=
    sum_map_eq_sum_map_iff fun number _ ↦ Nat.div_mul_le_self number unit
  rw [List.sum_map_mul_right, List.map_id'] at hparts
  rw [hparts]
  exact forall₂_congr fun number _ ↦ (Nat.dvd_iff_div_mul_eq number unit).symm

theorem wholeSeconds_iff :
    (∀ gap ∈ rows,
      1000000 ∣ (gap.span.instants ∩ (lifespan effectiveStart effectiveEnd).instants).ncard) ↔
      ∀ size ∈ (rows.map (lifespanPart effectiveStart effectiveEnd)).map Finset.card,
        1000000 ∣ size := by
  simp only [ncard_lifespanPart, List.forall_mem_map]

/-- The union of the gaps within the lifespan is no longer than the lifespan. -/
theorem card_union_lifespanPart_le :
    (Cover.union (rows.map (lifespanPart effectiveStart effectiveEnd))).card ≤
      (effectiveEnd - effectiveStart).toNat := by
  rw [← Int.card_Ico]
  refine Finset.card_le_card fun instant hmem ↦ ?_
  obtain ⟨part, hpart, hinstant⟩ := Cover.mem_union.mp hmem
  obtain ⟨gap, -, rfl⟩ := List.mem_map.mp hpart
  exact Finset.mem_Ico.mpr (mem_lifespan_iff.mp (mem_lifespanPart.mp hinstant).1)

/-- Whole seconds that fit into the lifespan leave a denominator that is not negative. -/
theorem availabilityDenominator_nonneg {seconds : ℕ}
    (hfits : seconds * 1000000 ≤ (effectiveEnd - effectiveStart).toNat) :
    0 ≤ availabilityDenominator effectiveStart effectiveEnd seconds := by
  rw [availabilityDenominator, sub_nonneg]
  rcases le_total (effectiveEnd - effectiveStart) 0 with hnonpos | hnonneg
  · have hzero : seconds = 0 := by omega
    rw [hzero]
    exact le_max_left _ _
  · refine le_trans ?_ (le_max_right _ _)
    rw [← Int.toNat_of_nonneg hnonneg, totalSeconds_natCast]
    exact_mod_cast (Nat.le_div_iff_mul_le (by omega)).mpr hfits

end Measure

/-- The gaps are measured exactly when they are apart within the lifespan, for a lifespan within
the window. -/
theorem gapsMeasured_iff {rows : List ServiceEvent} {startDt endDt effectiveStart effectiveEnd : ℤ}
    (hstart : startDt ≤ effectiveStart) (hend : effectiveEnd ≤ endDt) :
    GapsMeasured rows startDt endDt effectiveStart effectiveEnd ↔
      GapsApart rows effectiveStart effectiveEnd := by
  have hseconds : calculateDeviceGapSeconds effectiveStart effectiveEnd
      (getServiceGapIntervals rows startDt endDt) =
        ((((rows.map (lifespanPart effectiveStart effectiveEnd)).map Finset.card).map
          (· / 1000000)).sum : ℕ) := calculateDeviceGapSeconds_eq hstart hend
  constructor
  · intro hmeasured
    have hdisjoint := (countP_le_one_iff hstart hend).mp hmeasured.once
    have hsum := hmeasured.seconds_eq
    rw [hseconds, ncard_union_lifespanPart, Cover.card_union_of_pairwise hdisjoint] at hsum
    have hwhole := sum_div_mul_eq_sum_iff.mp (by exact_mod_cast hsum)
    exact ⟨pairwise_disjoint_lifespanPart_iff.mp hdisjoint, wholeSeconds_iff.mpr hwhole⟩
  · intro hapart
    have hdisjoint := pairwise_disjoint_lifespanPart_iff.mpr hapart.disjoint
    have hsum := sum_div_mul_eq_sum_iff.mpr (wholeSeconds_iff.mp hapart.wholeSeconds)
    rw [← Cover.card_union_of_pairwise hdisjoint] at hsum
    refine ⟨?_, ?_, (countP_le_one_iff hstart hend).mpr hdisjoint⟩
    · rw [hseconds, ncard_union_lifespanPart]
      exact_mod_cast hsum
    · rw [hseconds]
      exact availabilityDenominator_nonneg (hsum.le.trans card_union_lifespanPart_le)

/-- A gap that starts after ten seconds. -/
def restartGap (endTime : Option ℤ) : ServiceEvent where
  id := 0
  eventType := .serviceRestart
  description := none
  startTime := 10000000
  endTime := endTime
  durationSeconds := none

theorem gapsMeasured_iff_restartGap :
    GapsMeasured [restartGap (some 20000000)] 0 60000000 0 60000000 :=
  (gapsMeasured_iff le_rfl le_rfl).mpr {
    disjoint := List.pairwise_singleton ..
    wholeSeconds := by
      intro gap hgap
      obtain rfl := List.mem_singleton.mp hgap
      rw [ncard_lifespanPart, lifespanPart, Span.instantsWithin, Int.card_Ico]
      decide }

/-- Two open gaps take more seconds than the lifespan has. -/
theorem exists_not_gapsMeasured :
    ∃ (rows : List ServiceEvent) (startDt endDt effectiveStart effectiveEnd : ℤ),
      (∀ gap ∈ rows, 1000000 ∣ gap.startTime ∧ ∀ finish ∈ gap.endTime, 1000000 ∣ finish) ∧
      startDt ≤ effectiveStart ∧ effectiveEnd ≤ endDt ∧
      ¬ GapsMeasured rows startDt endDt effectiveStart effectiveEnd := by
  refine ⟨[restartGap none, restartGap none], 0, 20000000, 5000000, 20000000,
    by decide, by decide, by decide, fun hmeasured ↦ ?_⟩
  exact absurd hmeasured.denominator_nonneg (by decide)

end Lnmp.Reports
