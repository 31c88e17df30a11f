import Lnmp.Reports.Incidents

/-!
# The times of incidents

An incident of `get_incidents` counts each of its events as a minute, however long it was, and the
query takes the latest of the ends that its events have: an open event at the end of a longer run
does not count, and the incident seems to be over.

`hasTrueTimes_iff` says when the times are true: when the events of a run last a minute on average,
and an open event is the only one of its run. The fallback takes the end of the last event.
-/

set_option autoImplicit false
set_option relaxedAutoImplicit false

namespace Lnmp.Reports

open Lnmp.Foundation.Eviction Lnmp.Foundation.Islands Lnmp.Monitoring

/-- How long an event has lasted. An open event lasts until now. -/
def timeUntil (nowUtc : ℤ) (event : EndpointEvent) : ℤ :=
  event.endTime.getD nowUtc - event.startTime

/-- The times of an incident are those of its events: its duration is the time that they last, and
it ends with the last of them. -/
structure HasTrueTimes (nowUtc : ℤ) (run : List EndpointEvent) (incident : IncidentRecord) :
    Prop where
  duration : incident.durationSeconds * 1000000 = (run.map (timeUntil nowUtc)).sum
  finish : run.getLast?.map (·.endTime) = some incident.incidentEnd

/-- The events of a run last a minute on average, and for the query an open event at the end of it
is its only one. -/
structure IsMeasured (queryFails : Bool) (nowUtc : ℤ) (run : List EndpointEvent) : Prop where
  minutes : (run.map fun event ↦ timeUntil nowUtc event - 60000000).sum = 0
  alone : queryFails = false → ∀ last ∈ run.getLast?, last.endTime = none → run = [last]

/-- The events of an endpoint are intervals, in their order: each is over when the next starts. -/
structure IsTimeline (events : List EndpointEvent) : Prop where
  proper : ∀ event ∈ events, ∀ finish ∈ event.endTime, event.startTime ≤ finish
  ordered : events.Pairwise fun first second ↦ first.span.Precedes second.span

theorem IsTimeline.starts {events : List EndpointEvent} (htimeline : IsTimeline events) :
    events.Pairwise fun first second ↦ first.startTime < second.startTime :=
  htimeline.ordered.imp fun hprecedes ↦ hprecedes.starts

theorem IsTimeline.of_mem_downRuns {events run : List EndpointEvent} (htimeline : IsTimeline events)
    (hrun : run ∈ downRuns events) : IsTimeline run where
  proper := fun event hevent ↦ htimeline.proper event (mem_of_mem_downRuns hrun hevent)
  ordered := pairwise_of_mem_islands htimeline.ordered hrun

section Times

variable {queryFails : Bool} {endpointEvents events run : List EndpointEvent}
  {endpointId : EndpointId} {startDt endDt nowUtc : ℤ} {incident : IncidentRecord}

/-- The end of the last event is the latest one, unless it is open behind others. -/
theorem max?_endTimes_eq_iff (htimeline : IsTimeline run) {last : EndpointEvent}
    (hlast : run.getLast? = some last) :
    (run.filterMap (·.endTime)).max? = last.endTime ↔ (last.endTime = none → run = [last]) := by
  obtain ⟨before, rfl⟩ := List.getLast?_eq_some_iff.mp hlast
  have hbefore : ∀ event ∈ before, ∃ finish, event.endTime = some finish ∧
      finish ≤ last.startTime := fun event hevent ↦
    ((List.pairwise_append.mp htimeline.ordered).2.2 event hevent last
      (List.mem_singleton_self last)).finishes
  cases hend : last.endTime with
  | none =>
    rw [List.max?_eq_none_iff]
    constructor
    · intro hnone _
      cases before with
      | nil => rfl
      | cons event before =>
        -- an event in front of the last one has an end
        obtain ⟨finish, hfinish, -⟩ := hbefore event (List.mem_cons_self ..)
        rw [List.cons_append, List.filterMap_cons_some hfinish] at hnone
        cases hnone
    · intro halone
      rw [halone rfl, List.filterMap_cons_none hend, List.filterMap_nil]
  | some finish =>
    refine iff_of_true ?_ fun hopen ↦ nomatch hopen
    rw [List.max?_eq_some_iff]
    refine ⟨List.mem_filterMap.mpr ⟨last, by simp, hend⟩, fun other hother ↦ ?_⟩
    obtain ⟨event, hevent, hother⟩ := List.mem_filterMap.mp hother
    rcases List.mem_append.mp hevent with hevent | hevent
    · obtain ⟨earlier, hearlier, hle⟩ := hbefore event hevent
      obtain rfl := Option.some.inj (hearlier.symm.trans hother)
      exact hle.trans (htimeline.proper last (by simp) finish hend)
    · rw [List.mem_singleton.mp hevent, hend] at hother
      exact (Option.some.inj hother).ge

/-- As many minutes as there are events are the time that they last exactly when they last a minute
on average. -/
theorem minutes_eq_sum_iff :
    (run.length * 60 : ℕ) * 1000000 = (run.map (timeUntil nowUtc)).sum ↔
      (run.map fun event ↦ timeUntil nowUtc event - 60000000).sum = 0 := by
  have hsum : (run.map fun event ↦ timeUntil nowUtc event - 60000000).sum =
      (run.map (timeUntil nowUtc)).sum - run.length * 60000000 := by
    induction run with
    | nil => rfl
    | cons event rest ih =>
      rw [List.map_cons, List.sum_cons, ih, List.map_cons, List.sum_cons, List.length_cons]
      push_cast
      ring
  rw [hsum]
  push_cast
  omega

/-- An incident that counts minutes has true times when its events last a minute on average and it
ends with the last of them. -/
theorem hasTrueTimes_iff {last : EndpointEvent} (hlast : run.getLast? = some last)
    (hcount : incident.durationSeconds = run.length * 60) :
    HasTrueTimes nowUtc run incident ↔
      (run.map fun event ↦ timeUntil nowUtc event - 60000000).sum = 0 ∧
        incident.incidentEnd = last.endTime := by
  rw [← minutes_eq_sum_iff, ← hcount]
  constructor
  · rintro ⟨hduration, hfinish⟩
    rw [hlast] at hfinish
    exact ⟨hduration, (Option.some.inj hfinish).symm⟩
  · rintro ⟨hduration, hfinish⟩
    exact ⟨hduration, by rw [hlast, hfinish]; rfl⟩

/-- The times of the record of a run are true when the run is measured. -/
theorem exists_recordOf_hasTrueTimes_iff (queryFails : Bool) (endpointId : EndpointId) (nowUtc : ℤ)
    (htimeline : IsTimeline run) (hne : run ≠ []) :
    ∃ incident, recordOf queryFails endpointId run = some incident ∧
      (HasTrueTimes nowUtc run incident ↔ IsMeasured queryFails nowUtc run) := by
  have hlast : run.getLast? = some (run.getLast hne) := List.getLast?_eq_some_getLast hne
  have hfirst : run.head? = some (run.head hne) := List.head?_eq_some_head hne
  cases queryFails with
  | true =>
    have hrecord : recordOf true endpointId run = some
        (CurrentIncident.record endpointId
          { start := (run.head hne).startTime
            finish := (run.getLast hne).endTime
            peak := if run.tail.any (·.detailedState = .down) then .down
              else (run.head hne).detailedState
            count := run.length }) := by
      rw [recordOf, if_pos rfl, currentOf, hfirst, hlast]
      rfl
    refine ⟨_, hrecord, ?_⟩
    rw [hasTrueTimes_iff hlast rfl]
    exact ⟨fun htrue ↦ ⟨htrue.1, fun hquery ↦ absurd hquery Bool.noConfusion⟩,
      fun hmeasured ↦ ⟨hmeasured.minutes, rfl⟩⟩
  | false =>
    have hrecord : recordOf false endpointId run = some
        { endpointId := (run.head hne).endpointId
          incidentStart := (run.head hne).startTime
          incidentEnd := (run.filterMap (·.endTime)).max?
          durationSeconds := run.length * 60
          peakDetailedState := if run.any (·.detailedState = .down) then .down else .downUnstable
          contributingEventCount := run.length } := by
      have hstarts := htimeline.starts
      cases run with
      | nil => exact absurd rfl hne
      | cons first rest => exact aggregate_cons hstarts
    refine ⟨_, hrecord, ?_⟩
    rw [hasTrueTimes_iff hlast rfl, max?_endTimes_eq_iff htimeline hlast]
    constructor
    · rintro ⟨hminutes, halone⟩
      refine ⟨hminutes, fun _ last hmem hopen ↦ ?_⟩
      obtain rfl := Option.some.inj (hlast.symm.trans hmem)
      exact halone hopen
    · exact fun hmeasured ↦ ⟨hmeasured.minutes, hmeasured.alone rfl _ hlast⟩

/-- The events that are grouped are a part of a timeline. -/
theorem isTimeline_groupedEvents (queryFails : Bool)
    (htimeline : IsTimeline (endpointEvents.filter (·.endpointId = endpointId)))
    (startDt endDt : ℤ) :
    IsTimeline (groupedEvents queryFails endpointEvents endpointId startDt endDt) := by
  have hpart : ∀ condition : EndpointEvent → Bool,
      (∀ event, condition event = true → event.endpointId = endpointId) →
        IsTimeline (byAge EndpointEvent.startTime (endpointEvents.filter condition)) := by
    intro condition hcondition
    have hsub : (endpointEvents.filter condition).Sublist _ :=
      filter_sublist_filter_endpoint hcondition
    have hkept : IsTimeline (endpointEvents.filter condition) :=
      ⟨fun event hevent ↦ htimeline.proper event (hsub.subset hevent),
        htimeline.ordered.sublist hsub⟩
    rw [byAge_eq_self EndpointEvent.startTime (hkept.starts.imp le_of_lt)]
    exact hkept
  rw [groupedEvents]
  split_ifs
  · exact hpart _ fun event hevent ↦ (of_decide_eq_true hevent).1
  · exact hpart _ fun event hevent ↦ (of_decide_eq_true hevent).1

end Times

/-- The times of the incidents of a page are true exactly when the runs that they are made of are
measured. -/
theorem forall₂_hasTrueTimes_iff (queryFails : Bool) (endpointEvents : List EndpointEvent)
    (endpointId : EndpointId) (startDt endDt nowUtc : ℤ) (limit offset : ℕ)
    (htimeline : IsTimeline (endpointEvents.filter (·.endpointId = endpointId))) :
    List.Forall₂ (HasTrueTimes nowUtc)
        (pageOf limit offset (downRuns
          (groupedEvents queryFails endpointEvents endpointId startDt endDt)))
        (getIncidents queryFails endpointEvents endpointId startDt endDt limit offset).1 ↔
      ∀ run ∈ pageOf limit offset (downRuns
          (groupedEvents queryFails endpointEvents endpointId startDt endDt)),
        IsMeasured queryFails nowUtc run := by
  have hevents := isTimeline_groupedEvents queryFails htimeline startDt endDt
  have hapart : ((endpointEvents.filter (·.endpointId = endpointId)).map (·.startTime)).Nodup :=
    List.pairwise_map.mpr (htimeline.starts.imp ne_of_lt)
  rw [getIncidents_eq queryFails endpointEvents endpointId startDt endDt limit offset hapart,
    pageOf_filterMap, forall₂_filterMap_iff]
  · intro run hrun
    have hmem := mem_of_mem_pageOf hrun
    exact exists_recordOf_hasTrueTimes_iff queryFails endpointId nowUtc
      (hevents.of_mem_downRuns hmem) (ne_nil_of_mem_islands hmem)
  · intro run hrun
    obtain ⟨incident, hincident, -⟩ :=
      exists_recordOf queryFails endpointId (ne_nil_of_mem_islands hrun)
    exact ⟨incident, hincident⟩

/-- An outage of two hours that is not over: its first event was closed after an hour. -/
def longOutage : List EndpointEvent :=
  [hostEvent 0 .down 0 (some 3600000000), hostEvent 1 .down 3600000000 none]

theorem isTimeline_longOutage : IsTimeline (longOutage.filter (·.endpointId = 1)) where
  proper := by decide
  ordered := List.pairwise_pair.mpr ⟨by decide, 3600000000, rfl, le_rfl⟩

theorem forall₂_hasTrueTimes_iff_longOutage :
    List.Forall₂ (HasTrueTimes 7200000000)
        (pageOf 50 0 (downRuns (groupedEvents false longOutage 1 0 7200000000)))
        (getIncidents false longOutage 1 0 7200000000 50 0).1 ↔
      ∀ run ∈ pageOf 50 0 (downRuns (groupedEvents false longOutage 1 0 7200000000)),
        IsMeasured false 7200000000 run :=
  forall₂_hasTrueTimes_iff false longOutage 1 0 7200000000 7200000000 50 0 isTimeline_longOutage

/-- The outage of two hours is an incident of two minutes that is over. -/
theorem getIncidents_longOutage :
    IsTimeline (longOutage.filter (·.endpointId = 1)) ∧
      (∀ event ∈ longOutage, 1000000 ∣ event.startTime ∧
        ∀ finish ∈ event.endTime, 1000000 ∣ finish) ∧
      getIncidents false longOutage 1 0 7200000000 50 0 =
        ([⟨1, 0, some 3600000000, 120, .down, 2⟩], 1) ∧
      ¬ List.Forall₂ (HasTrueTimes 7200000000)
        (pageOf 50 0 (downRuns (groupedEvents false longOutage 1 0 7200000000)))
        (getIncidents false longOutage 1 0 7200000000 50 0).1 := by
  have hincidents : getIncidents false longOutage 1 0 7200000000 50 0 =
      ([⟨1, 0, some 3600000000, 120, .down, 2⟩], 1) := by decide
  have hruns : pageOf 50 0 (downRuns (groupedEvents false longOutage 1 0 7200000000)) =
      [longOutage] := by decide
  refine ⟨isTimeline_longOutage, by decide, hincidents, ?_⟩
  rw [hincidents, hruns, List.forall₂_cons]
  rintro ⟨htrue, -⟩
  exact absurd htrue.duration (by decide)

end Lnmp.Reports
