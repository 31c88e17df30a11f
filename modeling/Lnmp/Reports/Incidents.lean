import Lnmp.Foundation.Islands
import Lnmp.Reports.FleetQuery

/-!
# The incidents of an endpoint

`ReportRepository.get_incidents` groups the down events of an endpoint into incidents: a query with
window functions flags the events whose state is new, drops the up events, and numbers the others
by the sum of their flags. The fallback, for when the query fails, goes over the events in a loop.

`exists_incidents_of_downRuns` says that the incidents of the query are the runs of down events
without an up event in between.
-/

set_option autoImplicit false
set_option relaxedAutoImplicit false

namespace Lnmp.Reports

open Lnmp.Foundation.Eviction Lnmp.Foundation.Islands Lnmp.Monitoring

/-! ### Records -/

/-- An `IncidentRecord`. -/
structure IncidentRecord where
  endpointId : EndpointId
  incidentStart : ℤ
  incidentEnd : Option ℤ
  durationSeconds : ℕ
  peakDetailedState : DetailedState
  contributingEventCount : ℕ
  deriving DecidableEq

/-- `LIMIT` and `OFFSET`, and `incidents[offset : offset + limit]`. -/
def pageOf {Item : Type*} (limit offset : ℕ) (items : List Item) : List Item :=
  (items.drop offset).take limit

/-! ### The query -/

/-- The rows that the query selects: the events of an endpoint that start within a window, in the
order of their starts. -/
def startedWithin (endpointEvents : List EndpointEvent) (endpointId : EndpointId)
    (startDt endDt : ℤ) : List EndpointEvent :=
  byAge EndpointEvent.startTime (endpointEvents.filter fun event ↦
    event.endpointId = endpointId ∧ startDt ≤ event.startTime ∧ event.startTime ≤ endDt)

/-- `down_events_cte`: the events, each with `is_new_group`. -/
def downEventsCte (events : List EndpointEvent) : List (EndpointEvent × ℕ) :=
  (lag EndpointEvent.operationalState events).map fun row ↦
    (row.2, if row.1 = some row.2.operationalState then 0 else 1)

/-- `grouped_cte`: the down events, each with `grp`. The window has the rows that are left. -/
def groupedCte (events : List EndpointEvent) : List (EndpointEvent × ℕ) :=
  let rows := (downEventsCte events).filter fun row ↦ row.1.operationalState = .down
  rows.map fun row ↦ (row.1, runningSum (fun row ↦ row.1.startTime) Prod.snd rows row)

/-- The aggregates of a group. A group has a row. The maximum of the ends leaves out those that are
missing. -/
def aggregate (group : List EndpointEvent) : Option IncidentRecord :=
  group.head?.bind fun first ↦ (group.map (·.startTime)).min?.map fun incidentStart ↦
    { endpointId := first.endpointId
      incidentStart := incidentStart
      incidentEnd := (group.filterMap (·.endTime)).max?
      durationSeconds := group.length * 60
      peakDetailedState := if group.any (·.detailedState = .down) then .down else .downUnstable
      contributingEventCount := group.length }

/-- `incidents_agg_cte`. -/
def incidentsAggCte (events : List EndpointEvent) : List IncidentRecord :=
  (groupRows (fun row ↦ (row.2, row.1.endpointId)) (groupedCte events)).filterMap fun group ↦
    aggregate (group.map Prod.fst)

/-! ### The fallback -/

/-- `curr`. -/
structure CurrentIncident where
  start : ℤ
  finish : Option ℤ
  peak : DetailedState
  count : ℕ
  deriving DecidableEq

/-- A round of the loop: `incidents` and `curr`. -/
def addEvent (state : List CurrentIncident × Option CurrentIncident) (ev : EndpointEvent) :
    List CurrentIncident × Option CurrentIncident :=
  match ev.operationalState with
  | .down =>
    match state.2 with
    | none => (state.1, some ⟨ev.startTime, ev.endTime, ev.detailedState, 1⟩)
    | some curr =>
      (state.1, some
        { curr with
          finish := ev.endTime
          count := curr.count + 1
          peak := if ev.detailedState = .down then .down else curr.peak })
  | .up => (state.1 ++ state.2.toList, none)

/-- The incidents of the fallback. -/
def loopIncidents (rawEvents : List EndpointEvent) : List CurrentIncident :=
  let state := rawEvents.foldl addEvent ([], none)
  state.1 ++ state.2.toList

/-- The record of an incident of the fallback. -/
def CurrentIncident.record (endpointId : EndpointId) (inc : CurrentIncident) : IncidentRecord where
  endpointId := endpointId
  incidentStart := inc.start
  incidentEnd := inc.finish
  durationSeconds := inc.count * 60
  peakDetailedState := inc.peak
  contributingEventCount := inc.count

/-- `get_incidents`. The query may have failed. -/
def getIncidents (queryFails : Bool) (endpointEvents : List EndpointEvent)
    (endpointId : EndpointId) (startDt endDt : ℤ) (limit offset : ℕ) : List IncidentRecord × ℕ :=
  if queryFails then
    let incidents := loopIncidents (eventsWithin endpointEvents endpointId startDt endDt)
    ((pageOf limit offset incidents).map (CurrentIncident.record endpointId), incidents.length)
  else
    let incidents := incidentsAggCte (startedWithin endpointEvents endpointId startDt endDt)
    (pageOf limit offset (byAge IncidentRecord.incidentStart incidents), incidents.length)

/-! ### Runs of down events -/

/-- The rows that `get_incidents` groups. The query may have failed. -/
def groupedEvents (queryFails : Bool) (endpointEvents : List EndpointEvent)
    (endpointId : EndpointId) (startDt endDt : ℤ) : List EndpointEvent :=
  if queryFails then eventsWithin endpointEvents endpointId startDt endDt
  else startedWithin endpointEvents endpointId startDt endDt

/-- The longest stretches of consecutive down events. -/
def downRuns (events : List EndpointEvent) : List (List EndpointEvent) :=
  islands (fun event ↦ event.operationalState = .down) events

/-- What an incident says of the run of events that it is made of. -/
structure IsIncidentOf (endpointId : EndpointId) (run : List EndpointEvent)
    (incident : IncidentRecord) : Prop where
  endpointId : incident.endpointId = endpointId
  start : run.head?.map (·.startTime) = some incident.incidentStart
  count : incident.contributingEventCount = run.length
  peak : incident.peakDetailedState =
    if ∃ event ∈ run, event.detailedState = .down then .down else .downUnstable

/-- All pages in a row. -/
theorem flatMap_pageOf {Item : Type*} (limit pages : ℕ) (items : List Item) :
    (List.range pages).flatMap (fun page ↦ pageOf limit (page * limit) items) =
      items.take (pages * limit) := by
  induction pages with
  | zero => simp
  | succ pages ih =>
    rw [List.range_succ, List.flatMap_append, ih, List.flatMap_singleton, pageOf, Nat.succ_mul,
      List.take_add]

section Pages

variable {Item Other : Type*} {items : List Item} {other : Item → Option Other}

theorem drop_filterMap (count : ℕ) (hsome : ∀ item ∈ items, ∃ value, other item = some value) :
    (items.filterMap other).drop count = (items.drop count).filterMap other := by
  induction items generalizing count with
  | nil => simp
  | cons item rest ih =>
    obtain ⟨value, hvalue⟩ := hsome item (List.mem_cons_self ..)
    cases count with
    | zero => rfl
    | succ count =>
      rw [List.filterMap_cons_some hvalue, List.drop_succ_cons, List.drop_succ_cons,
        ih count fun item hitem ↦ hsome item (List.mem_cons_of_mem _ hitem)]

theorem take_filterMap (count : ℕ) (hsome : ∀ item ∈ items, ∃ value, other item = some value) :
    (items.filterMap other).take count = (items.take count).filterMap other := by
  induction items generalizing count with
  | nil => simp
  | cons item rest ih =>
    obtain ⟨value, hvalue⟩ := hsome item (List.mem_cons_self ..)
    cases count with
    | zero => rfl
    | succ count =>
      rw [List.filterMap_cons_some hvalue, List.take_succ_cons, List.take_succ_cons,
        List.filterMap_cons_some hvalue,
        ih count fun item hitem ↦ hsome item (List.mem_cons_of_mem _ hitem)]

theorem mem_of_mem_pageOf {limit offset : ℕ} {item : Item}
    (hitem : item ∈ pageOf limit offset items) : item ∈ items :=
  List.mem_of_mem_drop (List.mem_of_mem_take hitem)

/-- A page of the records is made of a page of the items, when each has a record. -/
theorem pageOf_filterMap (limit offset : ℕ)
    (hsome : ∀ item ∈ items, ∃ value, other item = some value) :
    pageOf limit offset (items.filterMap other) =
      (pageOf limit offset items).filterMap other := by
  rw [pageOf, drop_filterMap offset hsome,
    take_filterMap limit fun item hitem ↦ hsome item (List.mem_of_mem_drop hitem), pageOf]

/-- What holds of the items and their records, one by one. -/
theorem forall₂_filterMap_iff {relation : Item → Other → Prop} {condition : Item → Prop}
    (hother : ∀ item ∈ items, ∃ value, other item = some value ∧
      (relation item value ↔ condition item)) :
    List.Forall₂ relation items (items.filterMap other) ↔ ∀ item ∈ items, condition item := by
  induction items with
  | nil => simp
  | cons item rest ih =>
    obtain ⟨value, hvalue, hcondition⟩ := hother item (List.mem_cons_self ..)
    rw [List.filterMap_cons_some hvalue, List.forall₂_cons, hcondition,
      ih fun item hitem ↦ hother item (List.mem_cons_of_mem _ hitem), List.forall_mem_cons]

end Pages

section Runs

variable {endpointEvents events run : List EndpointEvent} {endpointId : EndpointId}
  {startDt endDt : ℤ}

theorem mem_startedWithin {event : EndpointEvent} :
    event ∈ startedWithin endpointEvents endpointId startDt endDt ↔
      event ∈ endpointEvents ∧ event.endpointId = endpointId ∧ startDt ≤ event.startTime ∧
        event.startTime ≤ endDt := by
  rw [startedWithin, (perm_byAge _ _).mem_iff, List.mem_filter, decide_eq_true_eq]

/-- Events that start apart are in strict order. -/
theorem pairwise_byAge_of_nodup (hapart : (events.map (·.startTime)).Nodup) :
    (byAge EndpointEvent.startTime events).Pairwise fun first second ↦
      first.startTime < second.startTime := by
  have hsorted := ((perm_byAge EndpointEvent.startTime events).map (·.startTime)).nodup_iff.mpr
    hapart
  exact ((pairwise_byAge _ _).and (List.pairwise_map.mp hsorted)).imp fun hle ↦
    lt_of_le_of_ne hle.1 hle.2

/-- A selection of the events of an endpoint has them in their order. -/
theorem filter_sublist_filter_endpoint {condition : EndpointEvent → Bool}
    (hcondition : ∀ event, condition event = true → event.endpointId = endpointId) :
    (endpointEvents.filter condition).Sublist
      (endpointEvents.filter (·.endpointId = endpointId)) :=
  List.monotone_filter_right _ fun event hevent ↦ decide_eq_true (hcondition event hevent)

theorem pairwise_startedWithin (startDt endDt : ℤ)
    (hapart : ((endpointEvents.filter (·.endpointId = endpointId)).map (·.startTime)).Nodup) :
    (startedWithin endpointEvents endpointId startDt endDt).Pairwise fun first second ↦
      first.startTime < second.startTime :=
  pairwise_byAge_of_nodup (hapart.sublist ((filter_sublist_filter_endpoint
    fun _ hevent ↦ (of_decide_eq_true hevent).1).map _))

theorem pairwise_eventsWithin (startDt endDt : ℤ)
    (hapart : ((endpointEvents.filter (·.endpointId = endpointId)).map (·.startTime)).Nodup) :
    (eventsWithin endpointEvents endpointId startDt endDt).Pairwise fun first second ↦
      first.startTime < second.startTime :=
  pairwise_byAge_of_nodup (hapart.sublist ((filter_sublist_filter_endpoint
    fun _ hevent ↦ (of_decide_eq_true hevent).1).map _))

theorem fst_mem_of_mem_groupedCte {row : EndpointEvent × ℕ} (hrow : row ∈ groupedCte events) :
    row.1 ∈ events := by
  obtain ⟨flag, hflag, rfl⟩ := List.mem_map.mp hrow
  obtain ⟨ranked, hranked, rfl⟩ := List.mem_map.mp (List.mem_filter.mp hflag).1
  exact (List.of_mem_zip hranked).2

theorem downRuns_append_cons {gap : EndpointEvent} (front rest : List EndpointEvent)
    (hup : gap.operationalState ≠ .down) :
    downRuns (front ++ gap :: rest) = downRuns front ++ downRuns rest :=
  islands_append_cons front rest (by simpa using hup)

theorem downRuns_cons_of_up {gap : EndpointEvent} {rest : List EndpointEvent}
    (hup : gap.operationalState ≠ .down) : downRuns (gap :: rest) = downRuns rest :=
  downRuns_append_cons [] rest hup

theorem mem_of_mem_downRuns (hrun : run ∈ downRuns events) {event : EndpointEvent}
    (hevent : event ∈ run) : event ∈ events :=
  List.mem_of_mem_filter (flatten_islands _ events ▸ List.mem_flatten_of_mem hrun hevent)

/-- The groups of the query are the runs of down events. -/
theorem map_groupRows_groupedCte
    (horder : events.Pairwise fun first second ↦ first.startTime < second.startTime)
    (hendpoint : ∀ event ∈ events, event.endpointId = endpointId) :
    (groupRows (fun row ↦ (row.2, row.1.endpointId)) (groupedCte events)).map (List.map Prod.fst) =
      downRuns events := by
  have hgroups := map_groupRows_eq_islands EndpointEvent.operationalState .down horder rfl
  have hkey : ∀ row ∈ groupedCte events, (row.2, row.1.endpointId) = (row.2, endpointId) := by
    intro row hrow
    rw [hendpoint row.1 (fst_mem_of_mem_groupedCte hrow)]
  rw [groupRows_of_injective (Prod.mk_left_injective endpointId) hkey]
  exact hgroups

/-- The aggregates of a run. -/
theorem aggregate_cons {first : EndpointEvent} {rest : List EndpointEvent}
    (horder : (first :: rest).Pairwise fun first second ↦ first.startTime < second.startTime) :
    aggregate (first :: rest) = some
      { endpointId := first.endpointId
        incidentStart := first.startTime
        incidentEnd := ((first :: rest).filterMap (·.endTime)).max?
        durationSeconds := (first :: rest).length * 60
        peakDetailedState :=
          if (first :: rest).any (·.detailedState = .down) then .down else .downUnstable
        contributingEventCount := (first :: rest).length } := by
  have hmin : ((first :: rest).map (·.startTime)).min? = some first.startTime := by
    rw [List.min?_eq_some_iff]
    refine ⟨List.mem_cons_self .., fun start hstart ↦ ?_⟩
    rcases List.mem_cons.mp hstart with rfl | hstart
    · exact le_rfl
    · obtain ⟨event, hevent, rfl⟩ := List.mem_map.mp hstart
      exact (List.rel_of_pairwise_cons horder hevent).le
  rw [aggregate, hmin]
  rfl

/-- An incident starts with one of its events. -/
theorem exists_start_of_aggregate {incident : IncidentRecord}
    (haggregate : aggregate run = some incident) :
    ∃ event ∈ run, event.startTime = incident.incidentStart := by
  obtain ⟨first, -, hincident⟩ := Option.bind_eq_some_iff.mp haggregate
  obtain ⟨start, hstart, rfl⟩ := Option.map_eq_some_iff.mp hincident
  exact List.mem_map.mp (List.min?_mem hstart)

/-- A run has a record, which says what it should of the run. -/
theorem exists_aggregate
    (horder : events.Pairwise fun first second ↦ first.startTime < second.startTime)
    (hendpoint : ∀ event ∈ events, event.endpointId = endpointId) (hrun : run ∈ downRuns events) :
    ∃ incident, aggregate run = some incident ∧ IsIncidentOf endpointId run incident := by
  have hrunOrder := pairwise_of_mem_islands horder hrun
  cases run with
  | nil => exact absurd rfl (ne_nil_of_mem_islands hrun)
  | cons first rest =>
    refine ⟨_, aggregate_cons hrunOrder, ?_, rfl, rfl, ?_⟩
    · exact hendpoint first (mem_of_mem_downRuns hrun (List.mem_cons_self ..))
    · simp only [List.any_eq_true, decide_eq_true_eq]

theorem incidentsAggCte_eq
    (horder : events.Pairwise fun first second ↦ first.startTime < second.startTime)
    (hendpoint : ∀ event ∈ events, event.endpointId = endpointId) :
    incidentsAggCte events = (downRuns events).filterMap aggregate := by
  rw [← map_groupRows_groupedCte horder hendpoint, List.filterMap_map]
  rfl

/-- The incidents of the query are those of the runs. -/
theorem forall₂_incidentsAggCte
    (horder : events.Pairwise fun first second ↦ first.startTime < second.startTime)
    (hendpoint : ∀ event ∈ events, event.endpointId = endpointId) :
    List.Forall₂ (IsIncidentOf endpointId) (downRuns events) (incidentsAggCte events) := by
  rw [incidentsAggCte_eq horder hendpoint, forall₂_filterMap_iff]
  · exact fun _ _ ↦ trivial
  · intro run hrun
    obtain ⟨incident, haggregate, hincident⟩ := exists_aggregate horder hendpoint hrun
    exact ⟨incident, haggregate, iff_of_true hincident trivial⟩

/-- The incidents of the query are in the order of their starts. -/
theorem byAge_incidentsAggCte
    (horder : events.Pairwise fun first second ↦ first.startTime < second.startTime)
    (hendpoint : ∀ event ∈ events, event.endpointId = endpointId) :
    byAge IncidentRecord.incidentStart (incidentsAggCte events) = incidentsAggCte events := by
  refine byAge_eq_self _ ?_
  rw [incidentsAggCte_eq horder hendpoint, List.pairwise_filterMap]
  refine (pairwise_islands horder).imp fun {first second} hruns earlier hearlier later hlater ↦ ?_
  obtain ⟨event, hevent, hstart⟩ := exists_start_of_aggregate hearlier
  obtain ⟨other, hother, hend⟩ := exists_start_of_aggregate hlater
  rw [← hstart, ← hend]
  exact (hruns event hevent other hother).le

end Runs

/-! ### The runs of the loop -/

section Loop

variable {events run : List EndpointEvent}

/-- The incident that the loop makes of a run. -/
def currentOf (run : List EndpointEvent) : Option CurrentIncident :=
  run.head?.bind fun first ↦ run.getLast?.map fun last ↦
    { start := first.startTime
      finish := last.endTime
      peak := if run.tail.any (·.detailedState = .down) then .down else first.detailedState
      count := run.length }

theorem addEvent_of_up {state : List CurrentIncident × Option CurrentIncident}
    {event : EndpointEvent} (hup : event.operationalState ≠ .down) :
    addEvent state event = (state.1 ++ state.2.toList, none) := by
  rw [addEvent]
  cases hstate : event.operationalState with
  | up => rfl
  | down => exact absurd hstate hup

/-- The loop over the events of a run behind its first one. -/
theorem foldl_addEvent_some (done : List CurrentIncident) (curr : CurrentIncident)
    {rest : List EndpointEvent} (hdown : ∀ event ∈ rest, event.operationalState = .down) :
    rest.foldl addEvent (done, some curr) = (done, some
      { curr with
        finish := (rest.getLast?.map (·.endTime)).getD curr.finish
        peak := if rest.any (·.detailedState = .down) then .down else curr.peak
        count := curr.count + rest.length }) := by
  induction rest generalizing curr with
  | nil => simp
  | cons event rest ih =>
    have hevent := hdown event (List.mem_cons_self ..)
    rw [List.foldl_cons, addEvent, hevent,
      ih _ fun other hother ↦ hdown other (List.mem_cons_of_mem _ hother)]
    simp only [List.getLast?_cons, List.any_cons, List.length_cons, Option.map_some,
      Option.getD_some, Prod.mk.injEq, Option.some.injEq, true_and, CurrentIncident.mk.injEq]
    refine ⟨?_, ?_, by omega⟩
    · cases rest.getLast? <;> rfl
    · by_cases hpeak : event.detailedState = .down <;> simp [hpeak]

/-- The loop over a run. -/
theorem foldl_addEvent_none (done : List CurrentIncident) (hne : run ≠ [])
    (hdown : ∀ event ∈ run, event.operationalState = .down) :
    run.foldl addEvent (done, none) = (done, currentOf run) := by
  cases run with
  | nil => exact absurd rfl hne
  | cons first rest =>
    rw [List.foldl_cons, addEvent, hdown first (List.mem_cons_self ..),
      foldl_addEvent_some _ _ fun other hother ↦ hdown other (List.mem_cons_of_mem _ hother)]
    simp only [currentOf, List.head?_cons, Option.bind_some, List.getLast?_cons, Option.map_some,
      List.tail_cons, List.length_cons, Prod.mk.injEq, Option.some.injEq, true_and,
      CurrentIncident.mk.injEq]
    exact ⟨by cases rest.getLast? <;> rfl, rfl, Nat.add_comm 1 rest.length⟩

/-- The loop makes an incident of every run. -/
theorem loopIncidents_eq (events : List EndpointEvent) :
    loopIncidents events = (downRuns events).filterMap currentOf := by
  have hstretch : ∀ (done : List CurrentIncident) (front : List EndpointEvent),
      (∀ event ∈ front, decide (event.operationalState = .down) = true) →
      (front.foldl addEvent (done, none)).1 ++ (front.foldl addEvent (done, none)).2.toList =
        done ++ (downRuns front).filterMap currentOf := by
    intro done front hfront
    by_cases hne : front = []
    · rw [hne]
      rfl
    · rw [foldl_addEvent_none done hne (by simpa using hfront), downRuns,
        islands_of_all hne hfront]
      cases hcurrent : currentOf front <;> simp [hcurrent]
  have hloop : ∀ done : List CurrentIncident,
      (events.foldl addEvent (done, none)).1 ++ (events.foldl addEvent (done, none)).2.toList =
        done ++ (downRuns events).filterMap currentOf := by
    induction events using gap_induction
      fun event : EndpointEvent ↦ decide (event.operationalState = .down) with
    | last front hfront => exact fun done ↦ hstretch done front hfront
    | split front gap rest hfront hgap ih =>
      intro done
      have hup : gap.operationalState ≠ .down := by simpa using hgap
      rw [List.foldl_append, List.foldl_cons, addEvent_of_up hup, ih,
        hstretch done front hfront, downRuns_append_cons front rest hup, List.filterMap_append,
        List.append_assoc]
  exact hloop []

/-- The record of a run. The query may have failed. -/
def recordOf (queryFails : Bool) (endpointId : EndpointId) (run : List EndpointEvent) :
    Option IncidentRecord :=
  if queryFails then (currentOf run).map (CurrentIncident.record endpointId) else aggregate run

/-- A run has a record. -/
theorem exists_recordOf (queryFails : Bool) (endpointId : EndpointId) (hne : run ≠ []) :
    ∃ incident, recordOf queryFails endpointId run = some incident ∧
      incident.contributingEventCount = run.length := by
  have hfirst : run.head? = some (run.head hne) := List.head?_eq_some_head hne
  cases queryFails with
  | true =>
    have hlast : run.getLast? = some (run.getLast hne) := List.getLast?_eq_some_getLast hne
    exact ⟨_, by rw [recordOf, if_pos rfl, currentOf, hfirst, hlast]; rfl, rfl⟩
  | false =>
    have hstart : (run.map (·.startTime)).min? ≠ none := by simpa using hne
    obtain ⟨start, hstart⟩ := Option.ne_none_iff_exists'.mp hstart
    exact ⟨_, by rw [recordOf, if_neg (by decide), aggregate, hfirst, hstart]; rfl, rfl⟩

/-- The records count the events of the runs. -/
theorem map_count_recordOf (queryFails : Bool) (endpointId : EndpointId)
    (events : List EndpointEvent) :
    ((downRuns events).filterMap (recordOf queryFails endpointId)).map
        (·.contributingEventCount) = (downRuns events).map List.length := by
  have hall : ∀ runs : List (List EndpointEvent), (∀ run ∈ runs, run ≠ []) →
      (runs.filterMap (recordOf queryFails endpointId)).map (·.contributingEventCount) =
        runs.map List.length := by
    intro runs hruns
    induction runs with
    | nil => rfl
    | cons run rest ih =>
      obtain ⟨incident, hincident, hcount⟩ :=
        exists_recordOf queryFails endpointId (hruns run (List.mem_cons_self ..))
      rw [List.filterMap_cons_some hincident, List.map_cons, hcount,
        ih fun other hother ↦ hruns other (List.mem_cons_of_mem _ hother), List.map_cons]
  exact hall _ fun run hrun ↦ ne_nil_of_mem_islands hrun

theorem length_recordOf (queryFails : Bool) (endpointId : EndpointId)
    (events : List EndpointEvent) :
    ((downRuns events).filterMap (recordOf queryFails endpointId)).length =
      (downRuns events).length := by
  simpa only [List.length_map] using
    congrArg List.length (map_count_recordOf queryFails endpointId events)

/-- The answer of `get_incidents` in terms of the runs. -/
theorem getIncidents_eq (queryFails : Bool) (endpointEvents : List EndpointEvent)
    (endpointId : EndpointId) (startDt endDt : ℤ) (limit offset : ℕ)
    (hapart : ((endpointEvents.filter (·.endpointId = endpointId)).map (·.startTime)).Nodup) :
    getIncidents queryFails endpointEvents endpointId startDt endDt limit offset =
      (pageOf limit offset ((downRuns (groupedEvents queryFails endpointEvents endpointId startDt
          endDt)).filterMap (recordOf queryFails endpointId)),
        (downRuns (groupedEvents queryFails endpointEvents endpointId startDt endDt)).length) := by
  rw [← length_recordOf queryFails endpointId]
  cases queryFails with
  | true =>
    simp only [getIncidents, groupedEvents, if_true, loopIncidents_eq]
    rw [pageOf, List.map_take, List.map_drop, List.map_filterMap, ← List.length_map,
      List.map_filterMap]
    rfl
  | false =>
    have horder := pairwise_startedWithin startDt endDt hapart
    have hendpoint : ∀ event ∈ startedWithin endpointEvents endpointId startDt endDt,
        event.endpointId = endpointId := fun event hevent ↦ (mem_startedWithin.mp hevent).2.1
    simp only [getIncidents, groupedEvents, Bool.false_eq_true, if_false]
    rw [byAge_incidentsAggCte horder hendpoint, incidentsAggCte_eq horder hendpoint]
    rfl

end Loop

/-! ### The incidents of the query -/

/-- The query gives the runs of down events within the window as incidents, and the pages one after
the other give all of them. -/
theorem exists_incidents_of_downRuns (endpointEvents : List EndpointEvent)
    (endpointId : EndpointId) (startDt endDt : ℤ)
    (hapart : ((endpointEvents.filter (·.endpointId = endpointId)).map (·.startTime)).Nodup) :
    ∃ incidents,
      List.Forall₂ (IsIncidentOf endpointId)
        (downRuns (startedWithin endpointEvents endpointId startDt endDt)) incidents ∧
      (∀ limit offset,
        getIncidents false endpointEvents endpointId startDt endDt limit offset =
          (pageOf limit offset incidents,
            (downRuns (startedWithin endpointEvents endpointId startDt endDt)).length)) ∧
      ∀ limit pages, incidents.length ≤ pages * limit →
        (List.range pages).flatMap (fun page ↦
          (getIncidents false endpointEvents endpointId startDt endDt limit (page * limit)).1) =
            incidents := by
  have horder := pairwise_startedWithin startDt endDt hapart
  have hendpoint : ∀ event ∈ startedWithin endpointEvents endpointId startDt endDt,
      event.endpointId = endpointId := fun event hevent ↦ (mem_startedWithin.mp hevent).2.1
  have hruns := forall₂_incidentsAggCte horder hendpoint
  have hpage : ∀ limit offset,
      getIncidents false endpointEvents endpointId startDt endDt limit offset =
        (pageOf limit offset
            (incidentsAggCte (startedWithin endpointEvents endpointId startDt endDt)),
          (downRuns (startedWithin endpointEvents endpointId startDt endDt)).length) := by
    intro limit offset
    simp only [getIncidents, Bool.false_eq_true, if_false]
    rw [byAge_incidentsAggCte horder hendpoint, hruns.length_eq]
  refine ⟨_, hruns, hpage, fun limit pages hlength ↦ ?_⟩
  simp only [hpage]
  rw [flatMap_pageOf, List.take_of_length_le hlength]

/-- Two outages of a host, the second one unstable at first. -/
def twoOutages : List EndpointEvent :=
  [hostEvent 0 .down 0 (some 30000000), hostEvent 1 .up 30000000 (some 60000000),
    { hostEvent 2 .down 60000000 (some 90000000) with detailedState := .downUnstable },
    hostEvent 3 .down 90000000 none]

theorem exists_incidents_twoOutages :
    ∃ incidents,
      List.Forall₂ (IsIncidentOf 1) (downRuns (startedWithin twoOutages 1 0 120000000)) incidents ∧
      (∀ limit offset, getIncidents false twoOutages 1 0 120000000 limit offset =
        (pageOf limit offset incidents,
          (downRuns (startedWithin twoOutages 1 0 120000000)).length)) ∧
      ∀ limit pages, incidents.length ≤ pages * limit →
        (List.range pages).flatMap (fun page ↦
          (getIncidents false twoOutages 1 0 120000000 limit (page * limit)).1) = incidents :=
  exists_incidents_of_downRuns twoOutages 1 0 120000000 (by decide)

end Lnmp.Reports
