import Lnmp.Reports.Incidents

/-!
# The two paths of the incidents

The query of `get_incidents` selects the events that start within the window, the fallback those
that reach into it. The query takes the latest end and the worst state of a run, the fallback the
end of the last event and, for the state, the first event and the down ones behind it.

`pathsAgree_iff` says when the path does not show: no down event reaches into the window from
before, and each run ends with its last event and has a down state by both rules.
-/

set_option autoImplicit false
set_option relaxedAutoImplicit false

namespace Lnmp.Reports

open Lnmp.Foundation.Eviction Lnmp.Foundation.Islands Lnmp.Monitoring

/-- The event does not end before the window starts. -/
def reaches (startDt : ℤ) (event : EndpointEvent) : Bool := event.endTime.all (startDt ≤ ·)

/-- Both paths give the same page and the same total, whatever the limit and the offset. -/
def PathsAgree (endpointEvents : List EndpointEvent) (endpointId : EndpointId)
    (startDt endDt : ℤ) : Prop :=
  ∀ limit offset,
    getIncidents true endpointEvents endpointId startDt endDt limit offset =
      getIncidents false endpointEvents endpointId startDt endDt limit offset

/-- The last event of a run has the latest end, and when it is open all events are. -/
def EndsLast (run : List EndpointEvent) : Prop :=
  ∀ last ∈ run.getLast?, ∀ event ∈ run, ∀ finish ∈ event.endTime,
    ∃ lastFinish ∈ last.endTime, finish ≤ lastFinish

/-- The first event of a run has a down state, or a later one is down. -/
def PeaksDown (run : List EndpointEvent) : Prop :=
  ∀ first ∈ run.head?, first.detailedState = .down ∨ first.detailedState = .downUnstable ∨
    ∃ event ∈ run.tail, event.detailedState = .down

/-- No down event reaches into the window from before, what ends before the window although it
starts within does not change the runs, and each run has one end and one peak by both rules. -/
structure ReadAlikeWithin (endpointEvents : List EndpointEvent) (endpointId : EndpointId)
    (startDt endDt : ℤ) : Prop where
  inside : ∀ event ∈ eventsWithin endpointEvents endpointId startDt endDt,
    event.operationalState = .down → startDt ≤ event.startTime
  unbroken : downRuns ((startedWithin endpointEvents endpointId startDt endDt).filter
    (reaches startDt)) = downRuns (startedWithin endpointEvents endpointId startDt endDt)
  ends : ∀ run ∈ downRuns (startedWithin endpointEvents endpointId startDt endDt), EndsLast run
  peaks : ∀ run ∈ downRuns (startedWithin endpointEvents endpointId startDt endDt), PeaksDown run

section Runs

variable {endpointEvents events run : List EndpointEvent} {endpointId : EndpointId}
  {startDt endDt : ℤ}

/-- The latest end is that of the last event exactly when the run ends last. -/
theorem max?_eq_endTime_iff {last : EndpointEvent} (hlast : run.getLast? = some last) :
    (run.filterMap (·.endTime)).max? = last.endTime ↔ EndsLast run := by
  have hmem : last ∈ run := List.mem_of_getLast? hlast
  have hends : EndsLast run ↔ ∀ event ∈ run, ∀ finish ∈ event.endTime,
      ∃ lastFinish ∈ last.endTime, finish ≤ lastFinish := by
    simp [EndsLast, hlast]
  rw [hends]
  cases hend : last.endTime with
  | none =>
    rw [List.max?_eq_none_iff, List.filterMap_eq_nil_iff]
    simp [Option.eq_none_iff_forall_not_mem]
  | some finish =>
    rw [List.max?_eq_some_iff]
    constructor
    · rintro ⟨-, hmax⟩ event hevent other hother
      exact ⟨finish, rfl, hmax other (List.mem_filterMap.mpr ⟨event, hevent, hother⟩)⟩
    · intro hlatest
      refine ⟨List.mem_filterMap.mpr ⟨last, hmem, hend⟩, fun other hother ↦ ?_⟩
      obtain ⟨event, hevent, hother⟩ := List.mem_filterMap.mp hother
      obtain ⟨lastFinish, hfinish, hle⟩ := hlatest event hevent other hother
      exact Option.some.inj hfinish ▸ hle

/-- Both peaks of a run are the same exactly when it peaks down. -/
theorem peak_eq_iff {first : EndpointEvent} {rest : List EndpointEvent} :
    (if rest.any (·.detailedState = .down) then .down else first.detailedState) =
        (if (first :: rest).any (·.detailedState = .down) then DetailedState.down
          else .downUnstable) ↔ PeaksDown (first :: rest) := by
  have hpeaks : PeaksDown (first :: rest) ↔ first.detailedState = .down ∨
      first.detailedState = .downUnstable ∨ ∃ event ∈ rest, event.detailedState = .down := by
    simp [PeaksDown]
  rw [hpeaks, List.any_cons]
  by_cases hrest : ∃ event ∈ rest, event.detailedState = .down
  · have hany : rest.any (·.detailedState = .down) = true := by simpa using hrest
    simp [hany, hrest]
  · have hany : rest.any (·.detailedState = .down) = false := by
      rw [Bool.eq_false_iff]
      simpa using hrest
    simp only [hany, hrest, Bool.or_false, decide_eq_true_eq, Bool.false_eq_true, if_false,
      or_false]
    cases first.detailedState <;> decide

/-- Both records of a run are the same exactly when it has one end and one peak by both rules. -/
theorem recordOf_eq_iff
    (horder : run.Pairwise fun first second ↦ first.startTime < second.startTime)
    (hendpoint : ∀ event ∈ run, event.endpointId = endpointId) (hne : run ≠ []) :
    recordOf true endpointId run = recordOf false endpointId run ↔
      EndsLast run ∧ PeaksDown run := by
  have hlast : run.getLast? = some (run.getLast hne) := List.getLast?_eq_some_getLast hne
  rw [← max?_eq_endTime_iff hlast]
  cases run with
  | nil => exact absurd rfl hne
  | cons first rest =>
    rw [← peak_eq_iff, recordOf, if_pos rfl, recordOf, if_neg (by decide), aggregate_cons horder,
      currentOf, hlast, hendpoint first (List.mem_cons_self ..)]
    simp only [List.head?_cons, Option.bind_some, Option.map_some, CurrentIncident.record,
      List.tail_cons, Option.some.injEq, IncidentRecord.mk.injEq, true_and, and_true]
    exact and_congr_left' eq_comm

/-- The rows of the fallback that start within the window are those of the query that reach
it. -/
theorem filter_eventsWithin :
    (eventsWithin endpointEvents endpointId startDt endDt).filter (startDt ≤ ·.startTime) =
      (startedWithin endpointEvents endpointId startDt endDt).filter (reaches startDt) := by
  have hevents : eventsWithin endpointEvents endpointId startDt endDt =
      byAge EndpointEvent.startTime (endpointEvents.filter fun event ↦
        event.endpointId = endpointId ∧ event.startTime ≤ endDt ∧
          event.endTime.all (startDt ≤ ·)) :=
    rfl
  rw [hevents, startedWithin, ← byAge_filter, ← byAge_filter, List.filter_filter,
    List.filter_filter]
  congr 1
  refine List.filter_congr fun event _ ↦ ?_
  rw [Bool.eq_iff_iff]
  simp only [reaches, Bool.and_eq_true, decide_eq_true_eq]
  tauto

/-- What starts before the window makes no run when no down event does. -/
theorem downRuns_filter_le
    (horder : events.Pairwise fun first second ↦ first.startTime < second.startTime)
    (hinside : ∀ event ∈ events, event.operationalState = .down → startDt ≤ event.startTime) :
    downRuns (events.filter (startDt ≤ ·.startTime)) = downRuns events := by
  induction events with
  | nil => rfl
  | cons event rest ih =>
    obtain ⟨hevent, hrest⟩ := List.pairwise_cons.mp horder
    by_cases hstart : startDt ≤ event.startTime
    · rw [List.filter_eq_self.mpr]
      intro other hother
      rcases List.mem_cons.mp hother with rfl | hother
      · exact decide_eq_true hstart
      · exact decide_eq_true (hstart.trans (hevent other hother).le)
    · rw [List.filter_cons_of_neg (by simpa using hstart),
        ih hrest fun other hother ↦ hinside other (List.mem_cons_of_mem _ hother)]
      exact (downRuns_cons_of_up fun hdown ↦
        hstart (hinside event (List.mem_cons_self ..) hdown)).symm

/-- The paths agree exactly when their records do. -/
theorem pathsAgree_iff_records
    (hapart : ((endpointEvents.filter (·.endpointId = endpointId)).map (·.startTime)).Nodup) :
    PathsAgree endpointEvents endpointId startDt endDt ↔
      (downRuns (eventsWithin endpointEvents endpointId startDt endDt)).filterMap
          (recordOf true endpointId) =
        (downRuns (startedWithin endpointEvents endpointId startDt endDt)).filterMap
          (recordOf false endpointId) := by
  simp only [PathsAgree, getIncidents_eq _ endpointEvents endpointId startDt endDt _ _ hapart,
    Prod.mk.injEq]
  simp only [groupedEvents, if_true, Bool.false_eq_true, if_false]
  rw [← length_recordOf true endpointId (eventsWithin endpointEvents endpointId startDt endDt),
    ← length_recordOf false endpointId (startedWithin endpointEvents endpointId startDt endDt)]
  generalize (downRuns (eventsWithin endpointEvents endpointId startDt endDt)).filterMap
    (recordOf true endpointId) = first
  generalize (downRuns (startedWithin endpointEvents endpointId startDt endDt)).filterMap
    (recordOf false endpointId) = second
  constructor
  · intro hpages
    have hpage := (hpages (first.length + second.length) 0).1
    rwa [pageOf, pageOf, List.drop_zero, List.drop_zero, List.take_of_length_le (by omega),
      List.take_of_length_le (by omega)] at hpage
  · rintro rfl limit offset
    exact ⟨rfl, rfl⟩

/-- The same records count the same events, and the runs of fewer of them are the same runs. -/
theorem downRuns_eq_of_counts {kept : List EndpointEvent} (hkept : kept.Sublist events)
    (hcounts : (downRuns kept).map List.length = (downRuns events).map List.length) :
    downRuns kept = downRuns events := by
  refine List.eq_iff_flatten_eq.mpr ⟨?_, hcounts⟩
  have hflatten : (downRuns kept).flatten.Sublist (downRuns events).flatten := by
    rw [downRuns, downRuns, flatten_islands, flatten_islands]
    exact hkept.filter _
  refine hflatten.eq_of_length ?_
  rw [List.length_flatten, hcounts, List.length_flatten]

/-- An incident of the fallback starts with the first of its events. -/
theorem start_le_of_recordOf_true {incident : IncidentRecord} {event : EndpointEvent}
    (horder : run.Pairwise fun first second ↦ first.startTime < second.startTime)
    (hrecord : recordOf true endpointId run = some incident) (hevent : event ∈ run) :
    incident.incidentStart ≤ event.startTime := by
  cases run with
  | nil => exact absurd hevent List.not_mem_nil
  | cons first rest =>
    rw [recordOf, if_pos rfl, currentOf, List.head?_cons, Option.bind_some,
      List.getLast?_cons, Option.map_some, Option.map_some] at hrecord
    obtain rfl := Option.some.inj hrecord
    rcases List.mem_cons.mp hevent with rfl | hevent
    · exact le_rfl
    · exact (List.rel_of_pairwise_cons horder hevent).le

theorem filterMap_eq_filterMap_iff {Item Other : Type*} {items : List Item}
    {first second : Item → Option Other} (hfirst : ∀ item ∈ items, ∃ value, first item = some value)
    (hsecond : ∀ item ∈ items, ∃ value, second item = some value) :
    items.filterMap first = items.filterMap second ↔
      ∀ item ∈ items, first item = second item := by
  induction items with
  | nil => simp
  | cons item rest ih =>
    obtain ⟨value, hvalue⟩ := hfirst item (List.mem_cons_self ..)
    obtain ⟨other, hother⟩ := hsecond item (List.mem_cons_self ..)
    rw [List.filterMap_cons_some hvalue, List.filterMap_cons_some hother, List.cons.injEq,
      ih (fun item hitem ↦ hfirst item (List.mem_cons_of_mem _ hitem))
        fun item hitem ↦ hsecond item (List.mem_cons_of_mem _ hitem),
      List.forall_mem_cons, hvalue, hother, Option.some.injEq]

/-- The records that both paths make of the same runs. -/
theorem filterMap_recordOf_eq_iff
    (horder : events.Pairwise fun first second ↦ first.startTime < second.startTime)
    (hendpoint : ∀ event ∈ events, event.endpointId = endpointId) :
    (downRuns events).filterMap (recordOf true endpointId) =
        (downRuns events).filterMap (recordOf false endpointId) ↔
      ∀ run ∈ downRuns events, EndsLast run ∧ PeaksDown run := by
  have hsome : ∀ queryFails, ∀ run ∈ downRuns events,
      ∃ incident, recordOf queryFails endpointId run = some incident := by
    intro queryFails run hrun
    obtain ⟨incident, hincident, -⟩ :=
      exists_recordOf queryFails endpointId (ne_nil_of_mem_islands hrun)
    exact ⟨incident, hincident⟩
  rw [filterMap_eq_filterMap_iff (hsome true) (hsome false)]
  refine forall₂_congr fun run hrun ↦ ?_
  refine recordOf_eq_iff (pairwise_of_mem_islands horder hrun) (fun event hevent ↦ ?_)
    (ne_nil_of_mem_islands hrun)
  exact hendpoint event (mem_of_mem_downRuns hrun hevent)

/-- With the same records, no down event reaches into the window from before. -/
theorem start_le_of_records_eq
    (horder : (eventsWithin endpointEvents endpointId startDt endDt).Pairwise
      fun first second ↦ first.startTime < second.startTime)
    (hrecords : (downRuns (eventsWithin endpointEvents endpointId startDt endDt)).filterMap
        (recordOf true endpointId) =
      (downRuns (startedWithin endpointEvents endpointId startDt endDt)).filterMap
        (recordOf false endpointId)) {event : EndpointEvent}
    (hevent : event ∈ eventsWithin endpointEvents endpointId startDt endDt)
    (hdown : event.operationalState = .down) : startDt ≤ event.startTime := by
  have hflatten : event ∈
      (downRuns (eventsWithin endpointEvents endpointId startDt endDt)).flatten := by
    rw [downRuns, flatten_islands]
    exact List.mem_filter.mpr ⟨hevent, decide_eq_true hdown⟩
  obtain ⟨run, hrun, hmem⟩ := List.mem_flatten.mp hflatten
  obtain ⟨incident, hincident, -⟩ := exists_recordOf true endpointId (ne_nil_of_mem_islands hrun)
  -- the query has this incident as well, and so an event that starts with it
  have hquery : incident ∈ (downRuns (startedWithin endpointEvents endpointId startDt
      endDt)).filterMap (recordOf false endpointId) :=
    hrecords ▸ List.mem_filterMap.mpr ⟨run, hrun, hincident⟩
  obtain ⟨other, hother, haggregate⟩ := List.mem_filterMap.mp hquery
  obtain ⟨first, hfirst, hstart⟩ := exists_start_of_aggregate haggregate
  calc startDt ≤ first.startTime := (mem_startedWithin.mp (mem_of_mem_downRuns hother hfirst)).2.2.1
    _ = incident.incidentStart := hstart
    _ ≤ event.startTime :=
      start_le_of_recordOf_true (pairwise_of_mem_islands horder hrun) hincident hmem

end Runs

/-- The paths agree exactly when they read the events alike. -/
theorem pathsAgree_iff (endpointEvents : List EndpointEvent) (endpointId : EndpointId)
    (startDt endDt : ℤ)
    (hapart : ((endpointEvents.filter (·.endpointId = endpointId)).map (·.startTime)).Nodup) :
    PathsAgree endpointEvents endpointId startDt endDt ↔
      ReadAlikeWithin endpointEvents endpointId startDt endDt := by
  have horder := pairwise_eventsWithin startDt endDt hapart
  have hendpoint : ∀ event ∈ startedWithin endpointEvents endpointId startDt endDt,
      event.endpointId = endpointId := fun event hevent ↦ (mem_startedWithin.mp hevent).2.1
  have hruns := filterMap_recordOf_eq_iff (pairwise_startedWithin startDt endDt hapart) hendpoint
  rw [pathsAgree_iff_records hapart]
  constructor
  · intro hrecords
    have hinside : ∀ event ∈ eventsWithin endpointEvents endpointId startDt endDt,
        event.operationalState = .down → startDt ≤ event.startTime :=
      fun event hevent hdown ↦ start_le_of_records_eq horder hrecords hevent hdown
    have hkept := downRuns_filter_le horder hinside
    rw [filter_eventsWithin] at hkept
    have hcounts := congrArg (List.map (·.contributingEventCount)) hrecords
    rw [map_count_recordOf, map_count_recordOf, ← hkept] at hcounts
    have hunbroken := downRuns_eq_of_counts List.filter_sublist hcounts
    rw [← hkept, hunbroken, hruns] at hrecords
    exact ⟨hinside, hunbroken, fun run hrun ↦ (hrecords run hrun).1,
      fun run hrun ↦ (hrecords run hrun).2⟩
  · rintro ⟨hinside, hunbroken, hends, hpeaks⟩
    have hkept := downRuns_filter_le horder hinside
    rw [filter_eventsWithin] at hkept
    rw [← hkept, hunbroken, hruns]
    exact fun run hrun ↦ ⟨hends run hrun, hpeaks run hrun⟩

/-- Events that do not end before they start reach the window within which they start. -/
theorem filter_reaches_startedWithin {endpointEvents : List EndpointEvent}
    {endpointId : EndpointId} {startDt endDt : ℤ}
    (hproper : ∀ event ∈ endpointEvents, ∀ finish ∈ event.endTime, event.startTime ≤ finish) :
    (startedWithin endpointEvents endpointId startDt endDt).filter (reaches startDt) =
      startedWithin endpointEvents endpointId startDt endDt := by
  refine List.filter_eq_self.mpr fun event hevent ↦ ?_
  obtain ⟨hmem, -, hstart, -⟩ := mem_startedWithin.mp hevent
  cases hend : event.endTime with
  | none => simp [reaches, hend]
  | some finish =>
    have hfinish := hstart.trans (hproper event hmem finish hend)
    simp [reaches, hend, hfinish]

theorem pathsAgree_iff_twoOutages :
    PathsAgree twoOutages 1 0 120000000 ↔ ReadAlikeWithin twoOutages 1 0 120000000 :=
  pathsAgree_iff twoOutages 1 0 120000000 (by decide)

/-- An outage that began before the window is an incident of the fallback only. -/
theorem not_pathsAgree_straddling :
    (([hostEvent 0 .down 0 none].filter (·.endpointId = 1)).map (·.startTime)).Nodup ∧
      getIncidents true [hostEvent 0 .down 0 none] 1 60000000 120000000 50 0 =
        ([⟨1, 0, none, 60, .down, 1⟩], 1) ∧
      getIncidents false [hostEvent 0 .down 0 none] 1 60000000 120000000 50 0 = ([], 0) ∧
      ¬ PathsAgree [hostEvent 0 .down 0 none] 1 60000000 120000000 := by
  have hfallback : getIncidents true [hostEvent 0 .down 0 none] 1 60000000 120000000 50 0 =
      ([⟨1, 0, none, 60, .down, 1⟩], 1) := by decide
  have hquery : getIncidents false [hostEvent 0 .down 0 none] 1 60000000 120000000 50 0 =
      ([], 0) := by decide
  refine ⟨by decide, hfallback, hquery, fun hagree ↦ ?_⟩
  have hsame := hagree 50 0
  rw [hfallback, hquery] at hsame
  exact absurd hsame (by decide)

end Lnmp.Reports
