import Lnmp.Foundation.Eviction
import Lnmp.Reports.ReportAgreement

/-!
# The two ways of the fleet summary

`get_fleet_summary` asks the database for the sums of each endpoint, and adds the events up itself
when that query fails. The events are then objects of the session, which has one object for a
primary key. The only key of `EndpointEvent` is `start_time`, so that the rows of several endpoints
with one start are all read as the first of them.

`statsAgree_iff` says when the rows of `stats_map` do not depend on the way. No two events of the
window start together, and in each state of an endpoint the recorded durations that are taken for
events with less than a second in the window make up for the seconds that the query rounds up. The
database returns rows that start together in any order.
-/

set_option autoImplicit false
set_option relaxedAutoImplicit false

namespace Lnmp.Reports

open Lnmp.Foundation Lnmp.Foundation.Eviction Lnmp.Monitoring

/-- A row of `stats_map` with the latest states. -/
structure FleetRow extends FleetStats where
  latestOperationalState : OperationalState
  latestDetailedState : DetailedState

/-! ### The query -/

/-- The row with `rn = 1`, the first in the order of the starts that descends. -/
def latestEvent (events : List EndpointEvent) : Option EndpointEvent :=
  (byAge (fun event ↦ OrderDual.toDual event.startTime) events).head?

/-- The row of an endpoint in the answer of `cte_query`, if it has events. -/
def cteRow (startDt endDt nowUtc : ℤ) (events : List EndpointEvent) : Option FleetRow :=
  (rankedStats startDt endDt nowUtc events).bind fun stats ↦ (latestEvent events).map fun latest ↦
    { stats with
      latestOperationalState := latest.operationalState
      latestDetailedState := latest.detailedState }

/-- The rows of `cte_query` by endpoint. -/
def cteStats (endpointEvents : List EndpointEvent) (startDt endDt nowUtc : ℤ)
    (endpointId : EndpointId) : Option FleetRow :=
  cteRow startDt endDt nowUtc (eventsWithin endpointEvents endpointId startDt endDt)

/-! ### The fallback -/

/-- `all_events`. -/
def allEvents (endpointEvents : List EndpointEvent) (startDt endDt : ℤ) : List EndpointEvent :=
  loadedEvents (byAge EndpointEvent.startTime (selectedEvents endpointEvents startDt endDt))

/-- A round of the loop that fills `grouped_events`. -/
def groupEvent (groups : Dict EndpointId (List EndpointEvent)) (event : EndpointEvent) :
    Dict EndpointId (List EndpointEvent) :=
  groups.set event.endpointId ((groups.get? event.endpointId).getD [] ++ [event])

/-- What the loop over the events of an endpoint keeps. -/
structure LoopTotals where
  upSec : ℤ
  downSec : ℤ
  incCnt : ℕ
  prevSt : Option OperationalState

/-- A round of the loop over the events of an endpoint. -/
def LoopTotals.add (startDt endDt nowUtc : ℤ) (totals : LoopTotals) (event : EndpointEvent) :
    LoopTotals :=
  let dur := clampedOrRecordedSeconds startDt endDt nowUtc event
  match event.operationalState with
  | .up => { totals with upSec := totals.upSec + dur, prevSt := some .up }
  | .down =>
    { totals with
      downSec := totals.downSec + dur
      incCnt := if totals.prevSt ≠ some .down then totals.incCnt + 1 else totals.incCnt
      prevSt := some .down }

/-- The row of `stats_map` for the events of an endpoint. -/
def fallbackRow (startDt endDt nowUtc : ℤ) (events : List EndpointEvent) : Option FleetRow :=
  let totals := events.foldl (LoopTotals.add startDt endDt nowUtc) ⟨0, 0, 0, none⟩
  events.getLast?.map fun lastEv ↦
    { upSeconds := totals.upSec
      downSeconds := totals.downSec
      upCount := countIn .up events
      downCount := countIn .down events
      incidentCount := totals.incCnt
      latestOperationalState := lastEv.operationalState
      latestDetailedState := lastEv.detailedState }

/-- The rows of the fallback by endpoint. -/
def fallbackStats (endpointEvents : List EndpointEvent) (startDt endDt nowUtc : ℤ)
    (endpointId : EndpointId) : Option FleetRow :=
  (((allEvents endpointEvents startDt endDt).foldl groupEvent Dict.empty).get? endpointId).bind
    (fallbackRow startDt endDt nowUtc)

/-- Both ways give the same rows, in whatever order the database has the events. -/
def StatsAgree (endpointEvents : List EndpointEvent) (startDt endDt nowUtc : ℤ) : Prop :=
  ∀ rows : List EndpointEvent, rows.Perm endpointEvents →
    ∀ endpointId, fallbackStats rows startDt endDt nowUtc endpointId =
      cteStats rows startDt endDt nowUtc endpointId

/-- The recorded duration that the fallback takes for an event with less than a second in the
window. -/
def takenDuration (startDt endDt nowUtc : ℤ) (event : EndpointEvent) : ℤ :=
  if timeWithin startDt endDt nowUtc event < 1000000 then max 0 event.durationSeconds else 0

/-- The second that the query rounds an event up to. -/
def roundedUp (startDt endDt nowUtc : ℤ) (event : EndpointEvent) : ℤ :=
  if max 0 (timeWithin startDt endDt nowUtc event) % 1000000 < 500000 then 0 else 1

/-- No two events of the window start together, and the recorded durations that are taken make up
for the seconds that are rounded up. -/
structure ReadAlike (endpointEvents : List EndpointEvent) (startDt endDt nowUtc : ℤ) : Prop where
  apart : ((selectedEvents endpointEvents startDt endDt).map (·.startTime)).Nodup
  balanced : ∀ endpointId state,
    secondsIn state (takenDuration startDt endDt nowUtc)
        (eventsWithin endpointEvents endpointId startDt endDt) =
      secondsIn state (roundedUp startDt endDt nowUtc)
        (eventsWithin endpointEvents endpointId startDt endDt)

/-! ### Rows of an endpoint -/

section Row

variable {startDt endDt nowUtc : ℤ} {event : EndpointEvent} {events : List EndpointEvent}
  {state : OperationalState}

theorem secondsIn_cons {seconds : EndpointEvent → ℤ} :
    secondsIn state seconds (event :: events) = secondsIn state seconds events +
      if event.operationalState = state then seconds event else 0 := by
  rw [secondsIn, List.filter_cons, secondsIn]
  by_cases hstate : event.operationalState = state
  · rw [if_pos (decide_eq_true hstate), if_pos hstate, List.map_cons, List.sum_cons, add_comm]
  · rw [if_neg (by simpa using hstate), if_neg hstate, add_zero]

theorem secondsIn_add (first second : EndpointEvent → ℤ) :
    secondsIn state (fun event ↦ first event + second event) events =
      secondsIn state first events + secondsIn state second events :=
  List.sum_map_add ..

/-- The loop adds up the seconds of the up events. -/
theorem upSec_foldl_add (totals : LoopTotals) :
    (events.foldl (LoopTotals.add startDt endDt nowUtc) totals).upSec =
      totals.upSec + secondsIn .up (clampedOrRecordedSeconds startDt endDt nowUtc) events := by
  induction events generalizing totals with
  | nil => exact (add_zero _).symm
  | cons event events ih =>
    rw [List.foldl_cons, ih, secondsIn_cons]
    cases hstate : event.operationalState with
    | up =>
      simp only [LoopTotals.add, hstate, if_pos]
      omega
    | down => simp [LoopTotals.add, hstate]

theorem downSec_foldl_add (totals : LoopTotals) :
    (events.foldl (LoopTotals.add startDt endDt nowUtc) totals).downSec =
      totals.downSec + secondsIn .down (clampedOrRecordedSeconds startDt endDt nowUtc) events := by
  induction events generalizing totals with
  | nil => exact (add_zero _).symm
  | cons event events ih =>
    rw [List.foldl_cons, ih, secondsIn_cons]
    cases hstate : event.operationalState with
    | up => simp [LoopTotals.add, hstate]
    | down =>
      simp only [LoopTotals.add, hstate, if_pos]
      omega

/-- The loop counts the incidents. -/
theorem incCnt_foldl_add (totals : LoopTotals) :
    (events.foldl (LoopTotals.add startDt endDt nowUtc) totals).incCnt =
      totals.incCnt + countIncidents totals.prevSt events := by
  induction events generalizing totals with
  | nil => rfl
  | cons event events ih =>
    rw [List.foldl_cons, ih, countIncidents]
    cases hstate : event.operationalState with
    | up => simp [LoopTotals.add, hstate]
    | down =>
      simp only [LoopTotals.add, hstate, true_and]
      split_ifs <;> omega

/-- The fallback gives the sums of `groupedStats` and the states of the last event. -/
theorem fallbackRow_eq (startDt endDt nowUtc : ℤ) (events : List EndpointEvent) :
    fallbackRow startDt endDt nowUtc events =
      (groupedStats startDt endDt nowUtc events).bind fun stats ↦ events.getLast?.map fun lastEv ↦
        { stats with
          latestOperationalState := lastEv.operationalState
          latestDetailedState := lastEv.detailedState } := by
  rw [fallbackRow, groupedStats]
  split
  · rename_i hempty
    rw [hempty]
    rfl
  · simp [upSec_foldl_add, downSec_foldl_add, incCnt_foldl_add]

/-- The query finds the last event, when no two start together. -/
theorem latestEvent_eq (horder : events.Pairwise fun first second ↦
    first.startTime < second.startTime) : latestEvent events = events.getLast? := by
  have hnodup : (events.map id).Nodup := by
    rw [List.map_id]
    exact horder.imp fun hlt hsame ↦ hlt.ne (congrArg EndpointEvent.startTime hsame)
  have hreverse := (reverse_byAge_toDual_iff EndpointEvent.startTime id hnodup).mpr
    (horder.imp fun hlt ↦ hlt.ne)
  rw [List.map_id, List.map_id,
    byAge_eq_self EndpointEvent.startTime (horder.imp fun hlt ↦ hlt.le)] at hreverse
  rw [latestEvent, ← List.getLast?_reverse, hreverse]

theorem clampedOrRecordedSeconds_eq_add :
    clampedOrRecordedSeconds startDt endDt nowUtc event =
      clampedSeconds startDt endDt nowUtc event + takenDuration startDt endDt nowUtc event := by
  have hclamped : clampedSeconds startDt endDt nowUtc event = _ := clampedSeconds_eq
  rw [clampedOrRecordedSeconds, takenDuration]
  grind

theorem clampedDuration_eq_add :
    clampedDuration startDt endDt nowUtc event =
      clampedSeconds startDt endDt nowUtc event + roundedUp startDt endDt nowUtc event := by
  rw [clampedDuration_eq, clampedSeconds_eq, roundedUp]
  split_ifs <;> omega

/-- The seconds of both ways are the same when what they add to the whole seconds is. -/
theorem secondsIn_recorded_eq_iff :
    secondsIn state (clampedOrRecordedSeconds startDt endDt nowUtc) events =
        secondsIn state (clampedDuration startDt endDt nowUtc) events ↔
      secondsIn state (takenDuration startDt endDt nowUtc) events =
        secondsIn state (roundedUp startDt endDt nowUtc) events := by
  have hrecorded : clampedOrRecordedSeconds startDt endDt nowUtc = _ :=
    funext fun _ ↦ clampedOrRecordedSeconds_eq_add
  have hrounded : clampedDuration startDt endDt nowUtc = _ :=
    funext fun _ ↦ clampedDuration_eq_add
  rw [hrecorded, hrounded, secondsIn_add, secondsIn_add]
  exact add_right_inj _

/-- When both ways have the same events, and no two start together, they differ in the seconds
alone. -/
theorem fallbackRow_eq_cteRow_iff (horder : events.Pairwise fun first second ↦
    first.startTime < second.startTime) :
    fallbackRow startDt endDt nowUtc events = cteRow startDt endDt nowUtc events ↔
      ∀ state, secondsIn state (takenDuration startDt endDt nowUtc) events =
        secondsIn state (roundedUp startDt endDt nowUtc) events := by
  simp only [← secondsIn_recorded_eq_iff]
  rw [fallbackRow_eq, cteRow, latestEvent_eq horder, groupedStats, rankedStats]
  rcases List.eq_nil_or_concat events with rfl | ⟨before, last, rfl⟩
  · exact iff_of_true rfl fun _ ↦ rfl
  · rw [List.concat_eq_append, if_neg (List.concat_ne_nil _ _), if_neg (List.concat_ne_nil _ _),
      List.getLast?_concat]
    simp only [prevStates, countP_zip_eq_countIncidents, Option.bind_some, Option.map_some,
      Option.some.injEq, FleetRow.mk.injEq, FleetStats.mk.injEq, and_true]
    constructor
    · rintro ⟨hup, hdown⟩ state
      cases state with
      | up => exact hup
      | down => exact hdown
    · exact fun hseconds ↦ ⟨hseconds .up, hseconds .down⟩

/-- The counts of a row are those of its events. -/
theorem length_eq_countIn : events.length = countIn .up events + countIn .down events := by
  induction events with
  | nil => rfl
  | cons event events ih =>
    rw [List.length_cons, ih, countIn_cons, countIn_cons]
    cases event.operationalState <;> simp <;> omega

theorem elim_fallbackRow (startDt endDt nowUtc : ℤ) (events : List EndpointEvent) :
    (fallbackRow startDt endDt nowUtc events).elim 0 (fun row ↦ row.upCount + row.downCount) =
      events.length := by
  rw [length_eq_countIn, fallbackRow]
  rcases List.eq_nil_or_concat events with rfl | ⟨before, last, rfl⟩
  · rfl
  · rw [List.concat_eq_append, List.getLast?_concat]
    rfl

theorem elim_cteRow :
    (cteRow startDt endDt nowUtc events).elim 0 (fun row ↦ row.upCount + row.downCount) =
      events.length := by
  rw [length_eq_countIn, cteRow, rankedStats]
  split
  · rename_i hempty
    rw [hempty]
    rfl
  · rename_i hne
    have hlatest : latestEvent events ≠ none := fun hnone ↦
      hne (List.perm_nil.mp ((List.head?_eq_none_iff.mp hnone) ▸ (perm_byAge _ events)).symm)
    obtain ⟨latest, hlatest⟩ := Option.ne_none_iff_exists'.mp hlatest
    rw [hlatest]
    rfl

/-- Both rows are for as many events when they are the same. -/
theorem length_eq_of_fallbackRow_eq {others : List EndpointEvent}
    (hsame : fallbackRow startDt endDt nowUtc events = cteRow startDt endDt nowUtc others) :
    events.length = others.length := by
  rw [← elim_fallbackRow startDt endDt nowUtc events, hsame, elim_cteRow]

end Row

/-! ### Events of an endpoint -/

section Groups

variable {rows : List EndpointEvent} {startDt endDt nowUtc : ℤ} {endpointId : EndpointId}

/-- The loop over all events gives each endpoint its own, in their order. -/
theorem get?_foldl_groupEvent (groups : Dict EndpointId (List EndpointEvent))
    (events : List EndpointEvent) (endpointId : EndpointId) :
    ((events.foldl groupEvent groups).get? endpointId).getD [] =
      (groups.get? endpointId).getD [] ++ events.filter (·.endpointId = endpointId) := by
  induction events generalizing groups with
  | nil => exact (List.append_nil _).symm
  | cons event events ih =>
    rw [List.foldl_cons, ih, groupEvent, Dict.get?_set, List.filter_cons]
    by_cases hendpoint : event.endpointId = endpointId
    · rw [if_pos hendpoint.symm, if_pos (decide_eq_true hendpoint), hendpoint, Option.getD_some,
        List.append_assoc]
      rfl
    · rw [if_neg (Ne.symm hendpoint), if_neg (by simpa using hendpoint)]

theorem fallbackStats_eq (rows : List EndpointEvent) (startDt endDt nowUtc : ℤ)
    (endpointId : EndpointId) :
    fallbackStats rows startDt endDt nowUtc endpointId =
      fallbackRow startDt endDt nowUtc
        ((allEvents rows startDt endDt).filter (·.endpointId = endpointId)) := by
  have hgroup := get?_foldl_groupEvent Dict.empty (allEvents rows startDt endDt) endpointId
  have hempty :
      ((Dict.empty : Dict EndpointId (List EndpointEvent)).get? endpointId).getD [] = [] := rfl
  rw [hempty, List.nil_append] at hgroup
  rw [fallbackStats, ← hgroup]
  cases ((allEvents rows startDt endDt).foldl groupEvent Dict.empty).get? endpointId <;> rfl

/-- When all events start apart, the ways differ in the seconds alone. -/
theorem fallbackStats_eq_cteStats_iff
    (hapart : ((selectedEvents rows startDt endDt).map (·.startTime)).Nodup) :
    fallbackStats rows startDt endDt nowUtc endpointId =
        cteStats rows startDt endDt nowUtc endpointId ↔
      ∀ state, secondsIn state (takenDuration startDt endDt nowUtc)
          (eventsWithin rows endpointId startDt endDt) =
        secondsIn state (roundedUp startDt endDt nowUtc)
          (eventsWithin rows endpointId startDt endDt) := by
  have hsorted : ((byAge EndpointEvent.startTime (selectedEvents rows startDt endDt)).map
      (·.startTime)).Nodup := ((perm_byAge _ _).map _).nodup_iff.mpr hapart
  have horder : (byAge EndpointEvent.startTime (selectedEvents rows startDt endDt)).Pairwise
      fun first second ↦ first.startTime < second.startTime :=
    ((pairwise_byAge _ _).and (List.pairwise_map.mp hsorted)).imp fun hle ↦
      lt_of_le_of_ne hle.1 hle.2
  rw [fallbackStats_eq, allEvents, loadedEvents, IdentityMap.loaded_eq_self hsorted, cteStats,
    ← eventsWithin_eq_filter]
  refine fallbackRow_eq_cteRow_iff ?_
  rw [eventsWithin_eq_filter]
  exact horder.filter _

/-- When the rows of an endpoint come first and another endpoint has an event with the start of one
of theirs, the fallback gives the endpoint more events than it has. -/
theorem length_lt_of_shared {own others : List EndpointEvent} {shared other : EndpointEvent}
    (hown : ∀ event ∈ own, event.endpointId = endpointId)
    (hothers : ∀ event ∈ others, event.endpointId ≠ endpointId) (hshared : shared ∈ own)
    (hother : other ∈ others) (hstart : shared.startTime = other.startTime)
    (hselected : selectedEvents rows startDt endDt = own ++ others) :
    (eventsWithin rows endpointId startDt endDt).length <
      ((allEvents rows startDt endDt).filter (·.endpointId = endpointId)).length := by
  -- a row whose start an own row has is read as an own row
  have hread : ∀ row event : EndpointEvent, event ∈ own → event.startTime = row.startTime →
      (((own ++ others).find? fun first ↦ first.startTime = row.startTime).getD row).endpointId =
        endpointId := by
    intro row event hevent hsame
    cases hfind : own.find? fun first ↦ first.startTime = row.startTime with
    | none =>
      exact absurd (decide_eq_true hsame) (List.find?_eq_none.mp hfind event hevent)
    | some first =>
      rw [List.find?_append, hfind]
      exact hown first (List.mem_of_find?_eq_some hfind)
  rw [eventsWithin_eq_filter, allEvents, loadedEvents_byAge, hselected,
    ← List.countP_eq_length_filter, ← List.countP_eq_length_filter, List.countP_map]
  refine countP_lt_countP (fun row hrow hid ↦ ?_) ⟨other, ?_, ?_, ?_⟩
  · have hrow := (perm_byAge _ _).mem_iff.mp hrow
    rcases List.mem_append.mp hrow with hmem | hmem
    · exact decide_eq_true (hread row row hmem rfl)
    · exact absurd (of_decide_eq_true hid) (hothers row hmem)
  · exact (perm_byAge _ _).mem_iff.mpr (List.mem_append_right _ hother)
  · exact decide_eq_true (hread other shared hshared hstart)
  · exact decide_eq_false (hothers other hother)

end Groups

/-! ### Agreement -/

/-- Events that both ways read alike in every order start apart. -/
theorem StatsAgree.apart {endpointEvents : List EndpointEvent} {startDt endDt nowUtc : ℤ}
    (hagree : StatsAgree endpointEvents startDt endDt nowUtc)
    (hdistinct : endpointEvents.Pairwise fun first second ↦
      first.endpointId = second.endpointId → first.startTime ≠ second.startTime) :
    ((selectedEvents endpointEvents startDt endDt).map (·.startTime)).Nodup := by
  have hselected := hdistinct.sublist
    (List.filter_sublist (p := fun event ↦ event.endTime.all (startDt ≤ ·) ∧
      event.startTime ≤ endDt))
  refine List.pairwise_map.mpr (List.pairwise_iff_forall_sublist.mpr
    fun {first second} hpair hstart ↦ ?_)
  have hother : second.endpointId ≠ first.endpointId := fun hid ↦
    List.pairwise_iff_forall_sublist.mp hselected hpair hid.symm hstart
  -- the rows of the endpoint of the first event, before the others
  have hperm := List.filter_append_perm (fun event ↦ event.endpointId = first.endpointId)
    endpointEvents
  have hsame := length_eq_of_fallbackRow_eq
    ((fallbackStats_eq ..).symm.trans (hagree _ hperm first.endpointId))
  obtain ⟨hfirst, hfirstWithin⟩ := List.mem_filter.mp (hpair.subset (List.mem_cons_self ..))
  obtain ⟨hsecond, hsecondWithin⟩ :=
    List.mem_filter.mp (hpair.subset (List.mem_cons_of_mem _ (List.mem_singleton_self _)))
  refine absurd hsame (length_lt_of_shared ?_ ?_ ?_ ?_ hstart (List.filter_append ..)).ne'
  · intro event hevent
    exact of_decide_eq_true (List.mem_filter.mp (List.mem_of_mem_filter hevent)).2
  · intro event hevent
    simpa using (List.mem_filter.mp (List.mem_of_mem_filter hevent)).2
  · exact List.mem_filter.mpr
      ⟨List.mem_filter.mpr ⟨hfirst, decide_eq_true rfl⟩, hfirstWithin⟩
  · exact List.mem_filter.mpr
      ⟨List.mem_filter.mpr ⟨hsecond, by simpa using hother⟩, hsecondWithin⟩

/-- The fallback gives the rows of the query exactly when the events are read alike. -/
theorem statsAgree_iff {endpointEvents : List EndpointEvent} {startDt endDt nowUtc : ℤ}
    (hdistinct : endpointEvents.Pairwise fun first second ↦
      first.endpointId = second.endpointId → first.startTime ≠ second.startTime) :
    StatsAgree endpointEvents startDt endDt nowUtc ↔
      ReadAlike endpointEvents startDt endDt nowUtc := by
  constructor
  · intro hagree
    have hapart := hagree.apart hdistinct
    exact ⟨hapart, fun endpointId ↦
      (fallbackStats_eq_cteStats_iff hapart).mp (hagree _ (List.Perm.refl _) endpointId)⟩
  · rintro ⟨hapart, hbalanced⟩ rows hperm endpointId
    have hrows := ((perm_selectedEvents hperm).map EndpointEvent.startTime).nodup_iff.mpr hapart
    have hevents : (eventsWithin rows endpointId startDt endDt).Perm
        (eventsWithin endpointEvents endpointId startDt endDt) := by
      rw [eventsWithin_eq_filter, eventsWithin_eq_filter]
      exact (((perm_byAge _ _).trans (perm_selectedEvents hperm)).trans
        (perm_byAge _ _).symm).filter _
    refine (fallbackStats_eq_cteStats_iff hrows).mpr fun state ↦ ?_
    rw [secondsIn, secondsIn, ((hevents.filter _).map _).sum_eq, ((hevents.filter _).map _).sum_eq]
    exact hbalanced endpointId state

/-- An up event and a down event of a host, the second open, in a window of whole seconds. -/
theorem statsAgree_hostEvents :
    StatsAgree [hostEvent 0 .up 0 (some 30000000), hostEvent 1 .down 30000000 none] 0 60000000
        60000000 ↔
      ReadAlike [hostEvent 0 .up 0 (some 30000000), hostEvent 1 .down 30000000 none] 0 60000000
        60000000 :=
  statsAgree_iff (by decide)

/-- An event that ends when the window starts has no second there. The fallback takes its recorded
duration. -/
theorem exists_not_statsAgree :
    ∃ (endpointEvents : List EndpointEvent) (startDt endDt nowUtc : ℤ),
      (∀ event ∈ endpointEvents, 1000000 ∣ event.startTime ∧
        ∀ finish ∈ event.endTime, 1000000 ∣ finish ∧
          event.durationSeconds * 1000000 = finish - event.startTime) ∧
      (endpointEvents.Pairwise fun first second ↦
        first.endpointId = second.endpointId → first.startTime ≠ second.startTime) ∧
      ∃ endpointId,
        (fallbackStats endpointEvents startDt endDt nowUtc endpointId).map (·.upSeconds) = some 30 ∧
        (cteStats endpointEvents startDt endDt nowUtc endpointId).map (·.upSeconds) = some 0 :=
  ⟨[hostEvent 0 .up 0 (some 30000000)], 30000000, 60000000, 60000000, by decide, by decide, 1,
    by decide, by decide⟩

end Lnmp.Reports
