import Lnmp.Reports.LoadedEvents
import Mathlib.Data.List.Chain

/-!
# When the availability reports agree

The three reports of an endpoint count incidents by different rules, round the seconds of an event
differently, and one takes the recorded duration of an event that has no second in the window. It
also reads the events of several endpoints at once, and may lose one that starts with an event of
another endpoint, or read it twice.

`reportsAgree_iff` says when these differences do not show, in whatever order the database returns
the rows: when no down event follows another, no event that counts is rounded up or taken at its
recorded duration, and an event that does not start alone is an up event without a second in the
window. Up events count only when something is left of the lifespan to divide by. The percentages
agree for every way of rounding them.
-/

set_option autoImplicit false
set_option relaxedAutoImplicit false

namespace Lnmp.Reports

open Lnmp.Foundation Lnmp.Monitoring

/-- Three reports of an endpoint agree. -/
structure Agree (report : UptimeReport) (summary : FleetEndpointSummary) (row : EndpointRow) :
    Prop where
  percentage : summary.uptimePercentage = report.uptimePercentage ∧
    row.uptimePercentage = report.uptimePercentage
  incidents : summary.incidentCount = report.incidentCount ∧
    row.incidentCount = report.incidentCount
  downtime : summary.downtimeSeconds = report.downtimeSeconds ∧
    row.downtimeSeconds = report.downtimeSeconds

/-- The three reports are made, have the endpoint, and agree about it. -/
def ReportsAgree (roundedPercentage : ℤ → ℤ → ℚ) (queryFails : Bool) (tables : Tables)
    (endpointIds : List EndpointId) (endpoint : Endpoint) (startDt endDt nowUtc : ℤ) : Prop :=
  ∃ report summaries summary row,
    getUptimeReport roundedPercentage tables endpoint.id startDt endDt nowUtc = .ok report ∧
    getFleetSummary roundedPercentage queryFails tables startDt endDt nowUtc = .ok summaries ∧
    summaries.find? (·.id = endpoint.id) = some summary ∧
    (compileAvailabilityReportData roundedPercentage tables endpointIds startDt endDt
      nowUtc).find? (·.id = endpoint.id) = some row ∧
    Agree report summary row

/-- The seconds of the lifespan of an endpoint that its percentage is taken of. -/
def denominatorOf (tables : Tables) (endpoint : Endpoint) (startDt endDt nowUtc : ℤ) : ℤ :=
  availabilityDenominator (max startDt endpoint.createdAt) (min endDt nowUtc)
    (calculateDeviceGapSeconds (max startDt endpoint.createdAt) (min endDt nowUtc)
      (getServiceGapIntervals tables.serviceEvents startDt endDt))

/-- All reports take the same seconds of an event: its time in the window is not rounded up, and
when it has less than a second there, no duration is recorded. -/
structure TakenAlike (queryFails : Bool) (startDt endDt nowUtc : ℤ) (event : EndpointEvent) :
    Prop where
  notRoundedUp : queryFails = false →
    max 0 (timeWithin startDt endDt nowUtc event) % 1000000 < 500000
  notRecorded : timeWithin startDt endDt nowUtc event < 1000000 → event.durationSeconds ≤ 0

/-- The endpoints whose events are loaded with those of an endpoint: those of the compiled report,
and all when the query of the fleet summary fails. -/
def loadsWith (queryFails : Bool) (endpointIds : List EndpointId) (id : EndpointId) : Bool :=
  queryFails || id ∈ endpointIds

/-- No down event follows another, also when the fallback of the fleet summary loses events that do
not start alone. Such events are up events without a second in the window, and all reports take the
same seconds of the events that count. -/
structure CountedAlike (queryFails : Bool) (tables : Tables) (endpointIds : List EndpointId)
    (endpoint : Endpoint) (startDt endDt nowUtc : ℤ) : Prop where
  separate : ((eventsWithin tables.endpointEvents endpoint.id startDt endDt).filter fun event ↦
      !queryFails || startsAlone tables.endpointEvents (loadsWith queryFails endpointIds) startDt
        endDt event).IsChain
    fun first second ↦ ¬ (first.operationalState = .down ∧ second.operationalState = .down)
  apart : ∀ event ∈ eventsWithin tables.endpointEvents endpoint.id startDt endDt,
    startsAlone tables.endpointEvents (loadsWith queryFails endpointIds) startDt endDt event =
        false →
      event.operationalState = .up ∧ (0 < denominatorOf tables endpoint startDt endDt nowUtc →
        timeWithin startDt endDt nowUtc event < 1000000)
  taken : ∀ event ∈ eventsWithin tables.endpointEvents endpoint.id startDt endDt,
    event.operationalState = .down ∨ 0 < denominatorOf tables endpoint startDt endDt nowUtc →
      TakenAlike queryFails startDt endDt nowUtc event

/-! ### Incidents -/

section Incidents

variable {events : List EndpointEvent} {event : EndpointEvent}
  {prevState : Option OperationalState} {state : OperationalState}

theorem countIn_cons : countIn state (event :: events) =
    countIn state events + if event.operationalState = state then 1 else 0 := by
  rw [countIn, List.countP_cons]
  simp only [decide_eq_true_eq]
  rfl

theorem countIncidents_le : countIncidents prevState events ≤ countIn .down events := by
  induction events generalizing prevState with
  | nil => exact le_rfl
  | cons event events ih =>
    rw [countIncidents, countIn_cons]
    refine Nat.add_le_add ih ?_
    split_ifs <;> simp_all

/-- Every down event begins an incident exactly when none follows another. -/
theorem countIncidents_some_eq_iff :
    countIncidents (some state) events = countIn .down events ↔
      (state :: events.map (·.operationalState)).IsChain
        fun first second ↦ ¬ (first = .down ∧ second = .down) := by
  induction events generalizing state with
  | nil => simp [countIncidents, countIn]
  | cons event events ih =>
    have hle : countIncidents (some event.operationalState) events ≤ countIn .down events :=
      countIncidents_le
    rw [countIncidents, countIn_cons, List.map_cons, List.isChain_cons_cons, ← ih]
    split_ifs <;> simp_all
    omega

theorem countIncidents_none_eq_iff :
    countIncidents none events = countIn .down events ↔
      events.IsChain fun first second ↦
        ¬ (first.operationalState = .down ∧ second.operationalState = .down) := by
  have hfirst : countIncidents none events = countIncidents (some .up) events := by
    cases events <;> simp [countIncidents]
  rw [hfirst, countIncidents_some_eq_iff, List.isChain_cons, List.isChain_map]
  simp

/-- The query counts the incidents of the loop. -/
theorem countP_zip_eq_countIncidents :
    ((prevState :: events.map fun event ↦ some event.operationalState).zip events).countP
        (fun ranked ↦ ranked.2.operationalState = .down ∧
          (ranked.1 = none ∨ ranked.1 ≠ some .down)) =
      countIncidents prevState events := by
  induction events generalizing prevState with
  | nil => rfl
  | cons event events ih =>
    rw [List.map_cons, List.zip_cons_cons, List.countP_cons, ih, countIncidents]
    congr 1
    cases prevState <;> simp

/-- Up events may be put back where no down event follows another. -/
theorem isChain_of_filter {keeps : EndpointEvent → Bool}
    (hup : ∀ event ∈ events, keeps event = false → event.operationalState = .up)
    (hchain : (events.filter keeps).IsChain fun first second ↦
      ¬ (first.operationalState = .down ∧ second.operationalState = .down)) :
    events.IsChain fun first second ↦
      ¬ (first.operationalState = .down ∧ second.operationalState = .down) := by
  induction events with
  | nil => exact List.IsChain.nil
  | cons event events ih =>
    have hrest := fun other hother ↦ hup other (List.mem_cons_of_mem _ hother)
    cases hkeeps : keeps event with
    | false =>
      rw [List.filter_cons_of_neg (by simp [hkeeps])] at hchain
      have hstate := hup event (List.mem_cons_self ..) hkeeps
      refine List.isChain_cons.mpr ⟨fun _ _ hboth ↦ ?_, ih hrest hchain⟩
      rw [hstate] at hboth
      exact absurd hboth.1.symm (by decide)
    | true =>
      rw [List.filter_cons_of_pos hkeeps, List.isChain_cons] at hchain
      refine List.isChain_cons.mpr ⟨fun next hnext hboth ↦ ?_, ih hrest hchain.2⟩
      obtain ⟨others, rfl⟩ := List.head?_eq_some_iff.mp hnext
      -- a down event that follows is kept, and so comes first of those that are
      have hkept : keeps next = true := by
        by_contra hlost
        have hstate := hrest next (List.mem_cons_self ..) (Bool.eq_false_iff.mpr hlost)
        exact absurd (hstate.symm.trans hboth.2) (by decide)
      refine hchain.1 next ?_ hboth
      rw [List.filter_cons_of_pos hkept]
      rfl

/-- The down events are counted in as many seconds. -/
theorem countIn_eq_secondsIn : (countIn state events : ℤ) = secondsIn state (fun _ ↦ 1) events := by
  rw [secondsIn, countIn, List.countP_eq_length_filter, List.map_const', List.sum_replicate]
  simp

theorem countP_lt_countP {Item : Type*} {items : List Item} {first second : Item → Bool}
    (himplies : ∀ item ∈ items, first item = true → second item = true)
    (hmore : ∃ item ∈ items, second item = true ∧ first item = false) :
    items.countP first < items.countP second := by
  obtain ⟨item, hitem, hsecond, hfirst⟩ := hmore
  obtain ⟨before, after, rfl⟩ := List.append_of_mem hitem
  have hbefore : before.countP first ≤ before.countP second :=
    List.countP_mono_left fun other hother ↦ himplies other (List.mem_append_left _ hother)
  have hafter : after.countP first ≤ after.countP second :=
    List.countP_mono_left fun other hother ↦
      himplies other (List.mem_append_right _ (List.mem_cons_of_mem _ hother))
  rw [List.countP_append, List.countP_append, List.countP_cons, List.countP_cons, hsecond, hfirst]
  simp only [if_true, Bool.false_eq_true, if_false]
  omega

/-- An event that is left out is one less in its state. -/
theorem countIn_filter_lt {keeps : EndpointEvent → Bool} {event : EndpointEvent}
    (hevent : event ∈ events) (hstate : event.operationalState = state)
    (hlost : keeps event = false) : countIn state (events.filter keeps) < countIn state events := by
  rw [countIn, countIn, List.countP_filter]
  refine countP_lt_countP (fun other _ hboth ↦ ?_) ⟨event, hevent, decide_eq_true hstate, ?_⟩
  · exact (Bool.and_eq_true_iff.mp hboth).1
  · rw [hlost, Bool.and_false]

/-- Where every down event begins an incident, the incidents of the objects of an endpoint are as
many in every order of the rows exactly when its events that do not start alone are up events, and
no down event follows another without them. -/
theorem forall_countIncidents_eventsOfEndpoint_iff {endpointEvents : List EndpointEvent}
    {loads : EndpointId → Bool} {endpointId : EndpointId} {startDt endDt : ℤ}
    (hdistinct : HasDistinctStarts endpointEvents endpointId) (hloads : loads endpointId = true)
    (hcount : countIncidents none (eventsWithin endpointEvents endpointId startDt endDt) =
      countIn .down (eventsWithin endpointEvents endpointId startDt endDt)) :
    (∀ rows : List EndpointEvent, rows.Perm endpointEvents →
        countIncidents none (eventsOfEndpoint rows loads endpointId startDt endDt) =
          countIncidents none (eventsWithin endpointEvents endpointId startDt endDt)) ↔
      (∀ event ∈ eventsWithin endpointEvents endpointId startDt endDt,
        startsAlone endpointEvents loads startDt endDt event = false →
          event.operationalState = .up) ∧
        ((eventsWithin endpointEvents endpointId startDt endDt).filter
          (startsAlone endpointEvents loads startDt endDt)).IsChain fun first second ↦
            ¬ (first.operationalState = .down ∧ second.operationalState = .down) := by
  constructor
  · intro hsame
    have hlost := hsame _ (perm_othersFirst endpointEvents endpointId)
    rw [hdistinct.eventsOfEndpoint_othersFirst hloads, hcount] at hlost
    have hle : countIncidents none ((eventsWithin endpointEvents endpointId startDt endDt).filter
        (startsAlone endpointEvents loads startDt endDt)) ≤ countIn .down
          ((eventsWithin endpointEvents endpointId startDt endDt).filter
            (startsAlone endpointEvents loads startDt endDt)) := countIncidents_le
    have hfilter : countIn .down ((eventsWithin endpointEvents endpointId startDt endDt).filter
        (startsAlone endpointEvents loads startDt endDt)) ≤
          countIn .down (eventsWithin endpointEvents endpointId startDt endDt) :=
      List.filter_sublist.countP_le
    refine ⟨fun event hevent halone ↦ ?_, countIncidents_none_eq_iff.mp (by omega)⟩
    by_contra hstate
    have hdown : event.operationalState = .down := by
      cases hvalue : event.operationalState with
      | up => exact absurd hvalue hstate
      | down => rfl
    have hfewer := countIn_filter_lt hevent hdown halone
    omega
  · rintro ⟨hup, hchain⟩ rows hperm
    have hkept : (eventsOfEndpoint rows loads endpointId startDt endDt).filter
        (startsAlone endpointEvents loads startDt endDt) =
          (eventsWithin endpointEvents endpointId startDt endDt).filter
            (startsAlone endpointEvents loads startDt endDt) :=
      hdistinct.filter_eventsOfEndpoint_of_perm hloads hperm fun _ _ halone ↦ halone
    have hdowns : (eventsOfEndpoint rows loads endpointId startDt endDt).filter
        (·.operationalState = .down) =
          (eventsWithin endpointEvents endpointId startDt endDt).filter
            (·.operationalState = .down) := by
      refine hdistinct.filter_eventsOfEndpoint_of_perm hloads hperm fun event hevent hdown ↦ ?_
      by_contra hlost
      have hstate := hup event hevent (Bool.eq_false_iff.mpr hlost)
      exact absurd (hstate.symm.trans (of_decide_eq_true hdown)) (by decide)
    have hread : (eventsOfEndpoint rows loads endpointId startDt endDt).IsChain fun first second ↦
        ¬ (first.operationalState = .down ∧ second.operationalState = .down) := by
      refine isChain_of_filter (fun event hevent hlost ↦ hup event ?_ hlost) (hkept ▸ hchain)
      rw [← hdistinct.eventsWithin_of_perm hperm]
      exact mem_eventsWithin_of_eventsOfEndpoint hloads hevent
    rw [countIncidents_none_eq_iff.mpr hread, hcount, countIn, countIn,
      List.countP_eq_length_filter, List.countP_eq_length_filter, hdowns]

end Incidents

/-! ### Seconds -/

section Seconds

variable {startDt endDt nowUtc : ℤ} {event : EndpointEvent} {events : List EndpointEvent}
  {state : OperationalState}

theorem clampedSeconds_eq :
    clampedSeconds startDt endDt nowUtc event =
      max 0 (timeWithin startDt endDt nowUtc event) / 1000000 := by
  rw [clampedSeconds, totalSeconds]
  rcases le_total 0 (timeWithin startDt endDt nowUtc event) with hnonneg | hnonpos
  · rw [Int.tdiv_eq_ediv_of_nonneg hnonneg, max_eq_right hnonneg]
    omega
  · have hquotient : (timeWithin startDt endDt nowUtc event).tdiv 1000000 ≤ 0 := by
      rw [← Int.neg_neg (timeWithin startDt endDt nowUtc event), Int.neg_tdiv, neg_nonpos]
      exact Int.tdiv_nonneg (neg_nonneg.mpr hnonpos) (by decide)
    rw [max_eq_left hnonpos, max_eq_left hquotient]
    rfl

theorem clampedDuration_eq :
    clampedDuration startDt endDt nowUtc event =
      (max 0 (timeWithin startDt endDt nowUtc event) + 500000) / 1000000 := by
  rw [clampedDuration, epochSeconds, if_pos (le_max_left _ _)]

theorem clampedSeconds_le_clampedDuration :
    clampedSeconds startDt endDt nowUtc event ≤ clampedDuration startDt endDt nowUtc event := by
  rw [clampedSeconds_eq, clampedDuration_eq]
  omega

theorem clampedSeconds_eq_clampedDuration_iff :
    clampedSeconds startDt endDt nowUtc event = clampedDuration startDt endDt nowUtc event ↔
      max 0 (timeWithin startDt endDt nowUtc event) % 1000000 < 500000 := by
  rw [clampedSeconds_eq, clampedDuration_eq]
  omega

theorem clampedSeconds_le_clampedOrRecordedSeconds :
    clampedSeconds startDt endDt nowUtc event ≤
      clampedOrRecordedSeconds startDt endDt nowUtc event := by
  rw [clampedOrRecordedSeconds]
  grind

theorem clampedSeconds_eq_clampedOrRecordedSeconds_iff :
    clampedSeconds startDt endDt nowUtc event =
        clampedOrRecordedSeconds startDt endDt nowUtc event ↔
      (timeWithin startDt endDt nowUtc event < 1000000 → event.durationSeconds ≤ 0) := by
  have hzero : clampedSeconds startDt endDt nowUtc event = 0 ↔
      timeWithin startDt endDt nowUtc event < 1000000 := by
    rw [clampedSeconds_eq]
    omega
  rw [clampedOrRecordedSeconds, ← hzero]
  grind

/-- Seconds that are at least as many add up to the same exactly when they are the same. -/
theorem secondsIn_eq_iff {low high : EndpointEvent → ℤ} (hle : ∀ event, low event ≤ high event) :
    secondsIn state low events = secondsIn state high events ↔
      ∀ event ∈ events, event.operationalState = state → low event = high event := by
  rw [secondsIn, secondsIn, sum_map_eq_sum_map_iff fun event _ ↦ hle event]
  simp [List.mem_filter]

end Seconds

/-! ### The reports of an endpoint -/

/-- The percentage that some seconds are of a denominator. -/
def percentageOf (roundedPercentage : ℤ → ℤ → ℚ) (denominator seconds : ℤ) : ℚ :=
  if denominator ≤ 0 then 100 else max 0 (min 100 (roundedPercentage seconds denominator))

/-- The seconds of an event in the fleet summary. -/
def fleetSeconds (queryFails : Bool) (startDt endDt nowUtc : ℤ) (event : EndpointEvent) : ℤ :=
  if queryFails then clampedOrRecordedSeconds startDt endDt nowUtc event
  else clampedDuration startDt endDt nowUtc event

/-- The events of an endpoint in the fleet summary. -/
def fleetEvents (queryFails : Bool) (tables : Tables) (endpoint : Endpoint) (startDt endDt : ℤ) :
    List EndpointEvent :=
  if queryFails then
    eventsOfEndpoint tables.endpointEvents (fun _ ↦ true) endpoint.id startDt endDt
  else eventsWithin tables.endpointEvents endpoint.id startDt endDt

/-- The events of an endpoint in the compiled report. -/
def compiledEvents (tables : Tables) (endpointIds : List EndpointId) (endpoint : Endpoint)
    (startDt endDt : ℤ) : List EndpointEvent :=
  eventsOfEndpoint tables.endpointEvents (fun id ↦ id ∈ endpointIds) endpoint.id startDt endDt

section Endpoint

variable {roundedPercentage : ℤ → ℤ → ℚ} {queryFails : Bool} {tables : Tables}
  {endpoint : Endpoint} {endpointIds : List EndpointId} {startDt endDt nowUtc : ℤ}
  {state : OperationalState}

theorem clampedSeconds_le_fleetSeconds (event : EndpointEvent) :
    clampedSeconds startDt endDt nowUtc event ≤
      fleetSeconds queryFails startDt endDt nowUtc event := by
  rw [fleetSeconds]
  split_ifs
  · exact clampedSeconds_le_clampedOrRecordedSeconds
  · exact clampedSeconds_le_clampedDuration

theorem takenAlike_iff {event : EndpointEvent} :
    TakenAlike queryFails startDt endDt nowUtc event ↔
      clampedSeconds startDt endDt nowUtc event =
          fleetSeconds queryFails startDt endDt nowUtc event ∧
        clampedSeconds startDt endDt nowUtc event =
          clampedOrRecordedSeconds startDt endDt nowUtc event := by
  rw [clampedSeconds_eq_clampedOrRecordedSeconds_iff, fleetSeconds]
  constructor
  · rintro ⟨hrounded, hrecorded⟩
    refine ⟨?_, hrecorded⟩
    cases queryFails with
    | true => exact clampedSeconds_eq_clampedOrRecordedSeconds_iff.mpr hrecorded
    | false => exact clampedSeconds_eq_clampedDuration_iff.mpr (hrounded rfl)
  · rintro ⟨hfleet, hrecorded⟩
    refine ⟨?_, hrecorded⟩
    rintro rfl
    exact clampedSeconds_eq_clampedDuration_iff.mp hfleet

/-- All reports have the same seconds in a state exactly when they take the same of every event. -/
theorem secondsIn_alike_iff {events : List EndpointEvent} :
    (secondsIn state (fleetSeconds queryFails startDt endDt nowUtc) events =
        secondsIn state (clampedSeconds startDt endDt nowUtc) events ∧
      secondsIn state (clampedOrRecordedSeconds startDt endDt nowUtc) events =
        secondsIn state (clampedSeconds startDt endDt nowUtc) events) ↔
      ∀ event ∈ events, event.operationalState = state →
        TakenAlike queryFails startDt endDt nowUtc event := by
  rw [eq_comm, secondsIn_eq_iff clampedSeconds_le_fleetSeconds,
    eq_comm (b := secondsIn state (clampedSeconds startDt endDt nowUtc) events),
    secondsIn_eq_iff fun _ ↦ clampedSeconds_le_clampedOrRecordedSeconds]
  simp only [takenAlike_iff]
  constructor
  · rintro ⟨hfleet, hrecorded⟩ event hevent hstate
    exact ⟨hfleet event hevent hstate, hrecorded event hevent hstate⟩
  · intro halike
    exact ⟨fun event hevent hstate ↦ (halike event hevent hstate).1,
      fun event hevent hstate ↦ (halike event hevent hstate).2⟩

/-- The percentages of two numbers of seconds are the same however they are rounded exactly when
the numbers are, or there is nothing to divide by. -/
theorem forall_percentageOf_eq_iff {denominator seconds other : ℤ} :
    (∀ roundedPercentage, percentageOf roundedPercentage denominator other =
        percentageOf roundedPercentage denominator seconds) ↔
      (0 < denominator → other = seconds) := by
  constructor
  · intro hpercentage hpos
    by_contra hne
    -- a rounding that tells the two numbers apart
    have hapart := hpercentage fun number _ ↦ if number = seconds then 0 else 100
    simp [percentageOf, hpos.not_ge, hne] at hapart
  · intro hseconds roundedPercentage
    rcases le_or_gt denominator 0 with hnonpos | hpos
    · rw [percentageOf, percentageOf, if_pos hnonpos, if_pos hnonpos]
    · rw [hseconds hpos]

/-- The events of the uptime report are those of the window. -/
theorem eventsWithin_max_createdAt
    (hevents : ∀ event ∈ tables.endpointEvents, event.endpointId = endpoint.id →
      endpoint.createdAt ≤ event.startTime ∧ ∀ finish ∈ event.endTime, event.startTime ≤ finish) :
    eventsWithin tables.endpointEvents endpoint.id (max startDt endpoint.createdAt) endDt =
      eventsWithin tables.endpointEvents endpoint.id startDt endDt := by
  rw [eventsWithin, eventsWithin]
  congr 1
  refine List.filter_congr fun event hevent ↦ ?_
  rw [decide_eq_decide]
  refine and_congr_right fun hendpoint ↦ and_congr_right fun _ ↦ ?_
  obtain ⟨hcreated, hfinish⟩ := hevents event hevent hendpoint
  cases hend : event.endTime with
  | none => simp
  | some finish =>
    have hcreated := hcreated.trans (hfinish finish hend)
    simp [hcreated]

theorem fleetEndpointSummary_of_role (hrole : endpoint.deviceRole ≠ .flowExporter) :
    fleetEndpointSummary roundedPercentage queryFails tables startDt endDt nowUtc endpoint =
      { id := endpoint.id
        uptimePercentage :=
          percentageOf roundedPercentage (denominatorOf tables endpoint startDt endDt nowUtc)
            (secondsIn .up (fleetSeconds queryFails startDt endDt nowUtc)
              (fleetEvents queryFails tables endpoint startDt endDt))
        incidentCount :=
          countIncidents none (fleetEvents queryFails tables endpoint startDt endDt)
        uptimeSeconds := secondsIn .up (fleetSeconds queryFails startDt endDt nowUtc)
          (fleetEvents queryFails tables endpoint startDt endDt)
        downtimeSeconds := secondsIn .down (fleetSeconds queryFails startDt endDt nowUtc)
          (fleetEvents queryFails tables endpoint startDt endDt)
        totalSeconds :=
          max 0 (totalSeconds (min endDt nowUtc - max startDt endpoint.createdAt))
        deviceRole := endpoint.deviceRole } := by
  simp only [fleetEndpointSummary, fleetEvents, decide_eq_false hrole]
  cases queryFails with
  | true =>
    rw [if_pos rfl, if_pos rfl]
    generalize eventsOfEndpoint tables.endpointEvents _ endpoint.id startDt endDt = events
    cases events <;> rfl
  | false =>
    rw [if_neg Bool.false_ne_true, if_neg Bool.false_ne_true]
    generalize eventsWithin tables.endpointEvents endpoint.id startDt endDt = events
    cases events with
    | nil => rfl
    | cons event events =>
      simp only [rankedStats, prevStates, countP_zip_eq_countIncidents]
      rfl

theorem endpointRow_of_role (hrole : endpoint.deviceRole ≠ .flowExporter) :
    endpointRow roundedPercentage tables endpointIds startDt endDt nowUtc endpoint =
      { id := endpoint.id
        uptimePercentage :=
          percentageOf roundedPercentage (denominatorOf tables endpoint startDt endDt nowUtc)
            (secondsIn .up (clampedOrRecordedSeconds startDt endDt nowUtc)
              (compiledEvents tables endpointIds endpoint startDt endDt))
        incidentCount :=
          countIn .down (compiledEvents tables endpointIds endpoint startDt endDt)
        downtimeSeconds := secondsIn .down (clampedOrRecordedSeconds startDt endDt nowUtc)
          (compiledEvents tables endpointIds endpoint startDt endDt) } := by
  simp only [endpointRow, decide_eq_false hrole]
  rfl

/-! ### Agreement -/

/-- A lookup by a stronger condition, which the item found meets, finds the same item. -/
theorem find?_of_find? {Item : Type*} {items : List Item} {item : Item}
    {condition stronger : Item → Bool} (hfind : items.find? condition = some item)
    (hitem : stronger item = true)
    (himplies : ∀ other, stronger other = true → condition other = true) :
    items.find? stronger = some item := by
  obtain ⟨-, before, after, rfl, hbefore⟩ := List.find?_eq_some_iff_append.mp hfind
  refine List.find?_eq_some_iff_append.mpr ⟨hitem, before, after, rfl, fun other hother ↦ ?_⟩
  rw [Bool.not_eq_true', Bool.eq_false_iff]
  intro hstronger
  have hnot := hbefore other hother
  rw [himplies other hstronger] at hnot
  exact absurd hnot (by decide)

theorem validateDateRange_eq_ok (hrange : startDt ≤ endDt)
    (hlength : endDt - startDt ≤ 730 * 86400000000) : validateDateRange startDt endDt = .ok () := by
  rw [validateDateRange, if_neg (not_lt.mpr hrange), if_neg (not_lt.mpr hlength)]

/-- The reports are made for an endpoint that the tables have. -/
theorem reportsAgree_iff_agree (hrange : startDt ≤ endDt)
    (hlength : endDt - startDt ≤ 730 * 86400000000)
    (hendpoint : tables.endpoints.find? (·.id = endpoint.id) = some endpoint)
    (hstatus : endpoint.endpointStatus ≠ .deleted) (hdeleted : endpoint.deletedAt = none)
    (hids : endpoint.id ∈ endpointIds) :
    ReportsAgree roundedPercentage queryFails tables endpointIds endpoint startDt endDt nowUtc ↔
      Agree (uptimeReport roundedPercentage tables endpoint startDt endDt nowUtc)
        (fleetEndpointSummary roundedPercentage queryFails tables startDt endDt nowUtc endpoint)
        (endpointRow roundedPercentage tables endpointIds startDt endDt nowUtc endpoint) := by
  have hwindow := validateDateRange_eq_ok hrange hlength
  have hreport : getUptimeReport roundedPercentage tables endpoint.id startDt endDt nowUtc =
      .ok (uptimeReport roundedPercentage tables endpoint startDt endDt nowUtc) := by
    have hfind : (tables.endpoints.find? fun other ↦
        other.id = endpoint.id ∧ other.endpointStatus ≠ .deleted) = some endpoint :=
      find?_of_find? hendpoint (by simp [hstatus]) (by simp +contextual)
    simp only [getUptimeReport, hwindow, hfind]
  have hsummary : ((tables.endpoints.filter (·.endpointStatus ≠ .deleted)).map
      (fleetEndpointSummary roundedPercentage queryFails tables startDt endDt nowUtc)).find?
        (·.id = endpoint.id) =
      some (fleetEndpointSummary roundedPercentage queryFails tables startDt endDt nowUtc
        endpoint) := by
    rw [List.find?_map, List.find?_filter]
    rw [find?_of_find? hendpoint (by simp [hstatus, fleetEndpointSummary])
      (by simp +contextual [fleetEndpointSummary]), Option.map_some]
  have hrow : (compileAvailabilityReportData roundedPercentage tables endpointIds startDt endDt
      nowUtc).find? (·.id = endpoint.id) =
      some (endpointRow roundedPercentage tables endpointIds startDt endDt nowUtc endpoint) := by
    rw [compileAvailabilityReportData, List.find?_map, List.find?_filter]
    rw [find?_of_find? hendpoint (by simp [hdeleted, hids, endpointRow])
      (by simp +contextual [endpointRow]), Option.map_some]
  rw [ReportsAgree, hreport, getFleetSummary, hwindow, hrow]
  constructor
  · rintro ⟨report, summaries, summary, row, hreport, hsummaries, hfind, hrow, hagree⟩
    obtain rfl := Except.ok.inj hreport
    obtain rfl := Except.ok.inj hsummaries
    obtain rfl := Option.some.inj (hsummary.symm.trans hfind)
    obtain rfl := Option.some.inj hrow
    exact hagree
  · intro hagree
    exact ⟨_, _, _, _, rfl, rfl, hsummary, rfl, hagree⟩

/-- What agreement comes to, when the uptime report has certain events. -/
theorem agree_iff {events : List EndpointEvent} {denominator : ℤ}
    (hrole : endpoint.deviceRole ≠ .flowExporter)
    (hlifespan : loadedEvents (eventsWithin tables.endpointEvents endpoint.id
      (max startDt endpoint.createdAt) endDt) = events)
    (hdenominator : denominatorOf tables endpoint startDt endDt nowUtc = denominator) :
    Agree (uptimeReport roundedPercentage tables endpoint startDt endDt nowUtc)
        (fleetEndpointSummary roundedPercentage queryFails tables startDt endDt nowUtc endpoint)
        (endpointRow roundedPercentage tables endpointIds startDt endDt nowUtc endpoint) ↔
      (percentageOf roundedPercentage denominator
            (secondsIn .up (fleetSeconds queryFails startDt endDt nowUtc)
              (fleetEvents queryFails tables endpoint startDt endDt)) =
          percentageOf roundedPercentage denominator
            (secondsIn .up (clampedSeconds startDt endDt nowUtc) events) ∧
        percentageOf roundedPercentage denominator
            (secondsIn .up (clampedOrRecordedSeconds startDt endDt nowUtc)
              (compiledEvents tables endpointIds endpoint startDt endDt)) =
          percentageOf roundedPercentage denominator
            (secondsIn .up (clampedSeconds startDt endDt nowUtc) events)) ∧
      (countIncidents none (fleetEvents queryFails tables endpoint startDt endDt) =
          countIncidents none events ∧
        countIn .down (compiledEvents tables endpointIds endpoint startDt endDt) =
          countIncidents none events) ∧
      secondsIn .down (fleetSeconds queryFails startDt endDt nowUtc)
          (fleetEvents queryFails tables endpoint startDt endDt) =
        secondsIn .down (clampedSeconds startDt endDt nowUtc) events ∧
      secondsIn .down (clampedOrRecordedSeconds startDt endDt nowUtc)
          (compiledEvents tables endpointIds endpoint startDt endDt) =
        secondsIn .down (clampedSeconds startDt endDt nowUtc) events := by
  rw [fleetEndpointSummary_of_role hrole, endpointRow_of_role hrole, hdenominator]
  have hpercentage : (uptimeReport roundedPercentage tables endpoint startDt endDt
      nowUtc).uptimePercentage = percentageOf roundedPercentage denominator
        (secondsIn .up (clampedSeconds startDt endDt nowUtc) events) := by
    rw [← hlifespan, ← hdenominator]
    rfl
  have hincidents : (uptimeReport roundedPercentage tables endpoint startDt endDt
      nowUtc).incidentCount = countIncidents none events := by
    rw [← hlifespan]
    rfl
  have hdowntime : (uptimeReport roundedPercentage tables endpoint startDt endDt
      nowUtc).downtimeSeconds = secondsIn .down (clampedSeconds startDt endDt nowUtc) events := by
    rw [← hlifespan]
    rfl
  constructor
  · intro hagree
    exact ⟨hpercentage ▸ hagree.percentage, hincidents ▸ hagree.incidents,
      hdowntime ▸ hagree.downtime⟩
  · rintro ⟨hpercentages, hcounts, hseconds⟩
    exact ⟨hpercentage ▸ hpercentages, hincidents ▸ hcounts, hdowntime ▸ hseconds⟩

theorem clampedOrRecordedSeconds_eq_zero_iff {event : EndpointEvent} :
    clampedOrRecordedSeconds startDt endDt nowUtc event = 0 ↔
      timeWithin startDt endDt nowUtc event < 1000000 ∧ event.durationSeconds ≤ 0 := by
  have hclamped : clampedSeconds startDt endDt nowUtc event = _ := clampedSeconds_eq
  rw [clampedOrRecordedSeconds]
  grind

end Endpoint

/-! ### All orders of the rows -/

section Orders

variable {tables : Tables} {endpoint : Endpoint} {endpointIds : List EndpointId}
  {loads : EndpointId → Bool} {queryFails : Bool} {startDt endDt nowUtc : ℤ}

/-- The down events that a report finds are as many in every order of the rows exactly when no down
event starts with another event. -/
theorem forall_countIn_eventsOfEndpoint_iff
    (hdistinct : HasDistinctStarts tables.endpointEvents endpoint.id)
    (hloads : loads endpoint.id = true) {incidents : ℕ} :
    (∀ rows : List EndpointEvent, rows.Perm tables.endpointEvents →
        countIn .down (eventsOfEndpoint rows loads endpoint.id startDt endDt) = incidents) ↔
      (∀ event ∈ eventsWithin tables.endpointEvents endpoint.id startDt endDt,
        startsAlone tables.endpointEvents loads startDt endDt event = false →
          event.operationalState = .up) ∧
        countIn .down (eventsWithin tables.endpointEvents endpoint.id startDt endDt) =
          incidents := by
  have hseconds : (∀ rows : List EndpointEvent, rows.Perm tables.endpointEvents →
      secondsIn .down (fun _ ↦ 1) (eventsOfEndpoint rows loads endpoint.id startDt endDt) =
        (incidents : ℤ)) ↔ _ := hdistinct.forall_secondsIn_eq_iff hloads
  simp only [← countIn_eq_secondsIn, Nat.cast_inj] at hseconds
  rw [hseconds]
  refine and_congr_left fun _ ↦ forall_congr' fun event ↦ forall_congr' fun _ ↦
    forall_congr' fun _ ↦ ?_
  cases event.operationalState <;> simp

/-- The up seconds that a report finds, when there is something to divide by. -/
theorem forall_upSeconds_eventsOfEndpoint_iff
    (hdistinct : HasDistinctStarts tables.endpointEvents endpoint.id)
    (hloads : loads endpoint.id = true) {divides : Prop} {seconds : EndpointEvent → ℤ} {total : ℤ} :
    (∀ rows : List EndpointEvent, rows.Perm tables.endpointEvents → divides →
        secondsIn .up seconds (eventsOfEndpoint rows loads endpoint.id startDt endDt) = total) ↔
      (divides → (∀ event ∈ eventsWithin tables.endpointEvents endpoint.id startDt endDt,
        startsAlone tables.endpointEvents loads startDt endDt event = false →
          event.operationalState = .up → seconds event = 0) ∧
        secondsIn .up seconds (eventsWithin tables.endpointEvents endpoint.id startDt endDt) =
          total) := by
  rw [← hdistinct.forall_secondsIn_eq_iff hloads]
  exact ⟨fun hall hdivides rows hperm ↦ hall rows hperm hdivides,
    fun hall rows hperm hdivides ↦ hall hdivides rows hperm⟩

/-- The events of an endpoint that start alone among more rows start alone among fewer. -/
theorem startsAlone_of_loadsWith {event : EndpointEvent}
    (halone : startsAlone tables.endpointEvents (loadsWith queryFails endpointIds) startDt endDt
      event = true) :
    startsAlone tables.endpointEvents (fun id ↦ id ∈ endpointIds) startDt endDt event = true := by
  rw [startsAlone_iff] at halone ⊢
  intro other hother
  refine halone other ?_
  obtain ⟨hselected, hloads⟩ := List.mem_filter.mp hother
  exact List.mem_filter.mpr ⟨hselected, Bool.or_eq_true_iff.mpr (Or.inr hloads)⟩

/-- The uptime report has the same events in every order of the rows. -/
theorem loadedEvents_lifespan {rows : List EndpointEvent}
    (hdistinct : HasDistinctStarts tables.endpointEvents endpoint.id)
    (hevents : ∀ event ∈ tables.endpointEvents, event.endpointId = endpoint.id →
      endpoint.createdAt ≤ event.startTime ∧ ∀ finish ∈ event.endTime, event.startTime ≤ finish)
    (hperm : rows.Perm tables.endpointEvents) :
    loadedEvents (eventsWithin rows endpoint.id (max startDt endpoint.createdAt) endDt) =
      eventsWithin tables.endpointEvents endpoint.id startDt endDt := by
  rw [(hdistinct.of_perm hperm).loadedEvents_eventsWithin, hdistinct.eventsWithin_of_perm hperm,
    eventsWithin_max_createdAt hevents]

/-- The seconds and the incidents of the three reports agree, when the database returns the rows in
an order. Up seconds count when there is something to divide by. -/
structure FiguresAgree (queryFails : Bool) (tables : Tables) (endpointIds : List EndpointId)
    (endpoint : Endpoint) (startDt endDt nowUtc : ℤ) (rows : List EndpointEvent) : Prop where
  upSeconds : 0 < denominatorOf tables endpoint startDt endDt nowUtc →
    secondsIn .up (fleetSeconds queryFails startDt endDt nowUtc)
        (fleetEvents queryFails (tables.reorder rows) endpoint startDt endDt) =
      secondsIn .up (clampedSeconds startDt endDt nowUtc)
        (eventsWithin tables.endpointEvents endpoint.id startDt endDt) ∧
    secondsIn .up (clampedOrRecordedSeconds startDt endDt nowUtc)
        (compiledEvents (tables.reorder rows) endpointIds endpoint startDt endDt) =
      secondsIn .up (clampedSeconds startDt endDt nowUtc)
        (eventsWithin tables.endpointEvents endpoint.id startDt endDt)
  incidents : countIncidents none
        (fleetEvents queryFails (tables.reorder rows) endpoint startDt endDt) =
      countIncidents none (eventsWithin tables.endpointEvents endpoint.id startDt endDt) ∧
    countIn .down (compiledEvents (tables.reorder rows) endpointIds endpoint startDt endDt) =
      countIncidents none (eventsWithin tables.endpointEvents endpoint.id startDt endDt)
  downSeconds : secondsIn .down (fleetSeconds queryFails startDt endDt nowUtc)
        (fleetEvents queryFails (tables.reorder rows) endpoint startDt endDt) =
      secondsIn .down (clampedSeconds startDt endDt nowUtc)
        (eventsWithin tables.endpointEvents endpoint.id startDt endDt) ∧
    secondsIn .down (clampedOrRecordedSeconds startDt endDt nowUtc)
        (compiledEvents (tables.reorder rows) endpointIds endpoint startDt endDt) =
      secondsIn .down (clampedSeconds startDt endDt nowUtc)
        (eventsWithin tables.endpointEvents endpoint.id startDt endDt)

/-- What agreement in an order of the rows comes to, however percentages are rounded. -/
theorem forall_reportsAgree_iff {rows : List EndpointEvent} (hrange : startDt ≤ endDt)
    (hlength : endDt - startDt ≤ 730 * 86400000000)
    (hendpoint : tables.endpoints.find? (·.id = endpoint.id) = some endpoint)
    (hstatus : endpoint.endpointStatus ≠ .deleted) (hdeleted : endpoint.deletedAt = none)
    (hids : endpoint.id ∈ endpointIds) (hrole : endpoint.deviceRole ≠ .flowExporter)
    (hevents : ∀ event ∈ tables.endpointEvents, event.endpointId = endpoint.id →
      endpoint.createdAt ≤ event.startTime ∧ ∀ finish ∈ event.endTime, event.startTime ≤ finish)
    (hdistinct : HasDistinctStarts tables.endpointEvents endpoint.id)
    (hperm : rows.Perm tables.endpointEvents) :
    (∀ roundedPercentage, ReportsAgree roundedPercentage queryFails (tables.reorder rows)
        endpointIds endpoint startDt endDt nowUtc) ↔
      FiguresAgree queryFails tables endpointIds endpoint startDt endDt nowUtc rows := by
  have hlifespan : loadedEvents (eventsWithin (tables.reorder rows).endpointEvents endpoint.id
      (max startDt endpoint.createdAt) endDt) =
        eventsWithin tables.endpointEvents endpoint.id startDt endDt :=
    loadedEvents_lifespan hdistinct hevents hperm
  have hfound : (tables.reorder rows).endpoints.find? (·.id = endpoint.id) = some endpoint :=
    hendpoint
  have hmade : ∀ roundedPercentage, ReportsAgree roundedPercentage queryFails
      (tables.reorder rows) endpointIds endpoint startDt endDt nowUtc ↔ _ :=
    fun _ ↦ (reportsAgree_iff_agree hrange hlength hfound hstatus hdeleted hids).trans
      (agree_iff hrole hlifespan rfl)
  simp only [hmade, forall_and, forall_percentageOf_eq_iff, forall_const]
  constructor
  · rintro ⟨⟨hfleet, hcompiled⟩, hincidents, hdown⟩
    exact ⟨fun hpos ↦ ⟨hfleet hpos, hcompiled hpos⟩, hincidents, hdown⟩
  · rintro ⟨hup, hincidents, hdown⟩
    exact ⟨⟨fun hpos ↦ (hup hpos).1, fun hpos ↦ (hup hpos).2⟩, hincidents, hdown⟩

/-- Figures that agree in every order of the rows are of events that are counted alike. -/
theorem countedAlike_of_figuresAgree
    (hdistinct : HasDistinctStarts tables.endpointEvents endpoint.id)
    (hids : endpoint.id ∈ endpointIds)
    (hfigures : ∀ rows : List EndpointEvent, rows.Perm tables.endpointEvents →
      FiguresAgree queryFails tables endpointIds endpoint startDt endDt nowUtc rows) :
    CountedAlike queryFails tables endpointIds endpoint startDt endDt nowUtc := by
  have hloads : decide (endpoint.id ∈ endpointIds) = true := decide_eq_true hids
  -- what the compiled report says about the events that do not start alone, and about all
  obtain ⟨hup, hcount⟩ := (forall_countIn_eventsOfEndpoint_iff hdistinct hloads).mp
    fun rows hperm ↦ (hfigures rows hperm).incidents.2
  have hcompiledUp := (forall_upSeconds_eventsOfEndpoint_iff hdistinct hloads).mp
    fun rows hperm hpos ↦ ((hfigures rows hperm).upSeconds hpos).2
  have hcompiledDown := (hdistinct.forall_secondsIn_eq_iff hloads).mp
    fun rows hperm ↦ (hfigures rows hperm).downSeconds.2
  have htaken : (∀ state, state = .down ∨ 0 < denominatorOf tables endpoint startDt endDt nowUtc →
      secondsIn state (fleetSeconds queryFails startDt endDt nowUtc)
          (eventsWithin tables.endpointEvents endpoint.id startDt endDt) =
        secondsIn state (clampedSeconds startDt endDt nowUtc)
          (eventsWithin tables.endpointEvents endpoint.id startDt endDt)) →
      ∀ event ∈ eventsWithin tables.endpointEvents endpoint.id startDt endDt,
        event.operationalState = .down ∨
            0 < denominatorOf tables endpoint startDt endDt nowUtc →
          TakenAlike queryFails startDt endDt nowUtc event := by
    intro hfleet event hevent hcounts
    refine secondsIn_alike_iff.mp ⟨hfleet event.operationalState hcounts, ?_⟩ event hevent rfl
    cases hstate : event.operationalState with
    | down => exact hcompiledDown.2
    | up => exact (hcompiledUp (hcounts.resolve_left (by simp [hstate]))).2
  cases queryFails with
  | false =>
    have hself := hfigures tables.endpointEvents (List.Perm.refl _)
    refine ⟨?_, fun event hevent halone ↦ ?_, htaken fun state hcounts ↦ ?_⟩
    · simpa using countIncidents_none_eq_iff.mp hcount.symm
    · refine ⟨hup event hevent halone, fun hpos ↦ ?_⟩
      have hzero := (hcompiledUp hpos).1 event hevent halone (hup event hevent halone)
      exact (clampedOrRecordedSeconds_eq_zero_iff.mp hzero).1
    · cases state with
      | down => exact hself.downSeconds.1
      | up => exact (hself.upSeconds (hcounts.resolve_left (by decide))).1
  | true =>
    have hfleetUp := (forall_upSeconds_eventsOfEndpoint_iff hdistinct rfl).mp
      fun rows hperm hpos ↦ ((hfigures rows hperm).upSeconds hpos).1
    have hfleetDown := (hdistinct.forall_secondsIn_eq_iff rfl).mp
      fun rows hperm ↦ (hfigures rows hperm).downSeconds.1
    obtain ⟨hupAll, hseparate⟩ := (forall_countIncidents_eventsOfEndpoint_iff hdistinct rfl
      hcount.symm).mp fun rows hperm ↦ (hfigures rows hperm).incidents.1
    refine ⟨hseparate, fun event hevent halone ↦ ?_, htaken fun state hcounts ↦ ?_⟩
    · refine ⟨hupAll event hevent halone, fun hpos ↦ ?_⟩
      have hzero := (hfleetUp hpos).1 event hevent halone (hupAll event hevent halone)
      exact (clampedOrRecordedSeconds_eq_zero_iff.mp hzero).1
    · cases state with
      | down => exact hfleetDown.2
      | up => exact (hfleetUp (hcounts.resolve_left (by decide))).2

/-- No down event follows another among all events either. -/
theorem CountedAlike.countIncidents_eq
    (hcounted : CountedAlike queryFails tables endpointIds endpoint startDt endDt nowUtc) :
    countIncidents none (eventsWithin tables.endpointEvents endpoint.id startDt endDt) =
      countIn .down (eventsWithin tables.endpointEvents endpoint.id startDt endDt) := by
  refine countIncidents_none_eq_iff.mpr (isChain_of_filter (fun event hevent hlost ↦ ?_)
    hcounted.separate)
  exact (hcounted.apart event hevent (Bool.or_eq_false_iff.mp hlost).2).1

/-- Events that do not start alone are up events, and have no seconds where these count. -/
theorem CountedAlike.seconds_eq_zero
    (hcounted : CountedAlike queryFails tables endpointIds endpoint startDt endDt nowUtc)
    (hpos : 0 < denominatorOf tables endpoint startDt endDt nowUtc) {event : EndpointEvent}
    (hevent : event ∈ eventsWithin tables.endpointEvents endpoint.id startDt endDt)
    (halone : startsAlone tables.endpointEvents (loadsWith queryFails endpointIds) startDt endDt
      event = false) :
    clampedOrRecordedSeconds startDt endDt nowUtc event = 0 := by
  have hless := (hcounted.apart event hevent halone).2 hpos
  exact clampedOrRecordedSeconds_eq_zero_iff.mpr
    ⟨hless, (hcounted.taken event hevent (Or.inr hpos)).notRecorded hless⟩

/-- The seconds of all events in a state that counts. -/
theorem CountedAlike.secondsIn_eq
    (hcounted : CountedAlike queryFails tables endpointIds endpoint startDt endDt nowUtc)
    {state : OperationalState}
    (hcounts : state = .down ∨ 0 < denominatorOf tables endpoint startDt endDt nowUtc) :
    secondsIn state (fleetSeconds queryFails startDt endDt nowUtc)
          (eventsWithin tables.endpointEvents endpoint.id startDt endDt) =
        secondsIn state (clampedSeconds startDt endDt nowUtc)
          (eventsWithin tables.endpointEvents endpoint.id startDt endDt) ∧
      secondsIn state (clampedOrRecordedSeconds startDt endDt nowUtc)
          (eventsWithin tables.endpointEvents endpoint.id startDt endDt) =
        secondsIn state (clampedSeconds startDt endDt nowUtc)
          (eventsWithin tables.endpointEvents endpoint.id startDt endDt) := by
  refine secondsIn_alike_iff.mpr fun event hevent hstate ↦ ?_
  subst hstate
  exact hcounted.taken event hevent hcounts

/-- Where some endpoints are loaded together, no down event and no second is lost or read twice. -/
theorem CountedAlike.eventsOfEndpoint
    (hcounted : CountedAlike queryFails tables endpointIds endpoint startDt endDt nowUtc)
    (hdistinct : HasDistinctStarts tables.endpointEvents endpoint.id)
    (hloads : loads endpoint.id = true)
    (hfewer : ∀ event, startsAlone tables.endpointEvents loads startDt endDt event = false →
      startsAlone tables.endpointEvents (loadsWith queryFails endpointIds) startDt endDt event =
        false)
    {rows : List EndpointEvent} (hperm : rows.Perm tables.endpointEvents) :
    (0 < denominatorOf tables endpoint startDt endDt nowUtc →
      secondsIn .up (clampedOrRecordedSeconds startDt endDt nowUtc)
          (eventsOfEndpoint rows loads endpoint.id startDt endDt) =
        secondsIn .up (clampedSeconds startDt endDt nowUtc)
          (eventsWithin tables.endpointEvents endpoint.id startDt endDt)) ∧
      countIn .down (eventsOfEndpoint rows loads endpoint.id startDt endDt) =
        countIncidents none (eventsWithin tables.endpointEvents endpoint.id startDt endDt) ∧
      secondsIn .down (clampedOrRecordedSeconds startDt endDt nowUtc)
          (eventsOfEndpoint rows loads endpoint.id startDt endDt) =
        secondsIn .down (clampedSeconds startDt endDt nowUtc)
          (eventsWithin tables.endpointEvents endpoint.id startDt endDt) := by
  have hup : ∀ event ∈ eventsWithin tables.endpointEvents endpoint.id startDt endDt,
      startsAlone tables.endpointEvents loads startDt endDt event = false →
        event.operationalState = .up := fun event hevent halone ↦
    (hcounted.apart event hevent (hfewer event halone)).1
  refine ⟨fun hpos ↦ ?_, ?_, ?_⟩
  · refine (hdistinct.forall_secondsIn_eq_iff hloads).mpr ⟨fun event hevent halone _ ↦ ?_,
      (hcounted.secondsIn_eq (Or.inr hpos)).2⟩ rows hperm
    exact hcounted.seconds_eq_zero hpos hevent (hfewer event halone)
  · exact (forall_countIn_eventsOfEndpoint_iff hdistinct hloads).mpr
      ⟨hup, hcounted.countIncidents_eq.symm⟩ rows hperm
  · refine (hdistinct.forall_secondsIn_eq_iff hloads).mpr ⟨fun event hevent halone hdown ↦ ?_,
      (hcounted.secondsIn_eq (Or.inl rfl)).2⟩ rows hperm
    exact absurd ((hup event hevent halone).symm.trans hdown) (by decide)

/-- Figures of events that are counted alike agree in every order of the rows. -/
theorem CountedAlike.figuresAgree
    (hcounted : CountedAlike queryFails tables endpointIds endpoint startDt endDt nowUtc)
    (hdistinct : HasDistinctStarts tables.endpointEvents endpoint.id)
    (hids : endpoint.id ∈ endpointIds) {rows : List EndpointEvent}
    (hperm : rows.Perm tables.endpointEvents) :
    FiguresAgree queryFails tables endpointIds endpoint startDt endDt nowUtc rows := by
  obtain ⟨hup, hincidents, hdown⟩ := hcounted.eventsOfEndpoint hdistinct
    (decide_eq_true hids : decide (endpoint.id ∈ endpointIds) = true)
    (fun event hlost ↦ Bool.eq_false_iff.mpr fun halone ↦
      Bool.eq_false_iff.mp hlost (startsAlone_of_loadsWith halone)) hperm
  cases queryFails with
  | false =>
    have hevents : fleetEvents false (tables.reorder rows) endpoint startDt endDt =
        eventsWithin tables.endpointEvents endpoint.id startDt endDt :=
      hdistinct.eventsWithin_of_perm hperm
    refine ⟨fun hpos ↦ ⟨?_, hup hpos⟩, ⟨?_, hincidents⟩, ?_, hdown⟩
    · rw [hevents]
      exact (hcounted.secondsIn_eq (Or.inr hpos)).1
    · rw [hevents]
    · rw [hevents]
      exact (hcounted.secondsIn_eq (Or.inl rfl)).1
  | true =>
    have hall : loadsWith true endpointIds = fun _ ↦ true := rfl
    obtain ⟨hfleetUp, -, hfleetDown⟩ := hcounted.eventsOfEndpoint hdistinct
      (rfl : (fun _ : EndpointId ↦ true) endpoint.id = true) (fun event halone ↦ halone) hperm
    refine ⟨fun hpos ↦ ⟨hfleetUp hpos, hup hpos⟩, ⟨?_, hincidents⟩, hfleetDown, hdown⟩
    exact (forall_countIncidents_eventsOfEndpoint_iff hdistinct rfl hcounted.countIncidents_eq).mpr
      ⟨fun event hevent halone ↦ (hcounted.apart event hevent halone).1, hcounted.separate⟩ rows
      hperm

end Orders

/-- The reports of an endpoint that is not a flow exporter agree in every order of the rows, however
percentages are rounded, exactly when its events are counted alike. None of its events starts before
it was created, and no two of them start together. -/
theorem reportsAgree_iff {queryFails : Bool} {tables : Tables} {endpoint : Endpoint}
    {endpointIds : List EndpointId} {startDt endDt nowUtc : ℤ} (hrange : startDt ≤ endDt)
    (hlength : endDt - startDt ≤ 730 * 86400000000)
    (hendpoint : tables.endpoints.find? (·.id = endpoint.id) = some endpoint)
    (hstatus : endpoint.endpointStatus ≠ .deleted) (hdeleted : endpoint.deletedAt = none)
    (hids : endpoint.id ∈ endpointIds) (hrole : endpoint.deviceRole ≠ .flowExporter)
    (hevents : ∀ event ∈ tables.endpointEvents, event.endpointId = endpoint.id →
      endpoint.createdAt ≤ event.startTime ∧
        ∀ finish ∈ event.endTime, event.startTime ≤ finish)
    (hdistinct : HasDistinctStarts tables.endpointEvents endpoint.id) :
    (∀ rows : List EndpointEvent, rows.Perm tables.endpointEvents → ∀ roundedPercentage,
        ReportsAgree roundedPercentage queryFails (tables.reorder rows) endpointIds endpoint startDt
          endDt nowUtc) ↔
      CountedAlike queryFails tables endpointIds endpoint startDt endDt nowUtc := by
  constructor
  · intro hagree
    exact countedAlike_of_figuresAgree hdistinct hids fun rows hperm ↦
      (forall_reportsAgree_iff hrange hlength hendpoint hstatus hdeleted hids hrole hevents
        hdistinct hperm).mp (hagree rows hperm)
  · intro hcounted rows hperm
    exact (forall_reportsAgree_iff hrange hlength hendpoint hstatus hdeleted hids hrole hevents
      hdistinct hperm).mpr (hcounted.figuresAgree hdistinct hids hperm)

/-- An event of a host, of half a minute. -/
def hostEvent (id : RowId) (operationalState : OperationalState) (startTime : ℤ)
    (endTime : Option ℤ) : EndpointEvent where
  id := id
  endpointId := 1
  operationalState := operationalState
  detailedState := if operationalState = .up then .up else .down
  successCount := 3
  failedCount := 0
  healthScore := 100
  avgRttMs := none
  isSplitEvent := false
  startTime := startTime
  endTime := endTime
  durationSeconds := 30
  monitoringCycleCount := 1

/-- A host. -/
def host : Endpoint where
  id := 1
  endpointStatus := .active
  deviceRole := .activeHost
  createdAt := 0
  deletedAt := none

/-- The tables of a host with some events. -/
def hostTables (events : List EndpointEvent) : Tables where
  endpoints := [host]
  endpointEvents := events
  serviceEvents := []

theorem reportsAgree_iff_upHost :
    ReportsAgree (fun seconds denominator ↦ 100 * seconds / denominator) false
      ((hostTables [hostEvent 0 .up 0 (some 30000000)]).reorder
        [hostEvent 0 .up 0 (some 30000000)]) [1] host 0 60000000 60000000 := by
  have hwindow : eventsWithin [hostEvent 0 .up 0 (some 30000000)] 1 0 60000000 =
      [hostEvent 0 .up 0 (some 30000000)] := by decide
  have halone : startsAlone [hostEvent 0 .up 0 (some 30000000)] (loadsWith false [1]) 0 60000000
      (hostEvent 0 .up 0 (some 30000000)) = true := by decide
  have hdistinct : HasDistinctStarts [hostEvent 0 .up 0 (some 30000000)] 1 :=
    (List.pairwise_singleton _ _).filter _
  refine (reportsAgree_iff (by decide) (by decide) rfl (by decide) rfl (by decide) (by decide)
    (by decide) hdistinct).mpr ⟨by decide, ?_, ?_⟩ _ (List.Perm.refl _) _
  · intro event hevent hlost
    obtain rfl := List.mem_singleton.mp (hwindow ▸ hevent)
    exact absurd (halone.symm.trans hlost) (by decide)
  · intro event hevent _
    obtain rfl := List.mem_singleton.mp (hwindow ▸ hevent)
    exact ⟨fun _ ↦ by decide, fun hlt ↦ absurd hlt (by decide)⟩

/-- Two down events, one after the other, are one incident for two of the reports. -/
theorem exists_not_reportsAgree :
    ∃ (tables : Tables) (endpoint : Endpoint) (startDt endDt nowUtc : ℤ),
      endpoint ∈ tables.endpoints ∧ endpoint.deviceRole = .activeHost ∧
      (∀ event ∈ tables.endpointEvents, 1000000 ∣ event.startTime ∧
        ∀ finish ∈ event.endTime, 1000000 ∣ finish) ∧
      (tables.endpointEvents.Pairwise fun first second ↦
        Disjoint first.span.instants second.span.instants) ∧
      (∀ event ∈ tables.endpointEvents, endpoint.createdAt ≤ event.startTime) ∧
      ∀ roundedPercentage, ¬ ReportsAgree roundedPercentage false tables [endpoint.id] endpoint
        startDt endDt nowUtc := by
  refine ⟨hostTables [hostEvent 0 .down 0 (some 30000000), hostEvent 1 .down 30000000 none], host,
    0, 60000000, 60000000, by decide, rfl, by decide, ?_, by decide, fun roundedPercentage ↦ ?_⟩
  · exact List.pairwise_pair.mpr (Span.Precedes.disjoint ⟨by decide, 30000000, rfl, le_rfl⟩)
  · have hwindow : eventsWithin [hostEvent 0 .down 0 (some 30000000),
        hostEvent 1 .down 30000000 none] 1 0 60000000 =
          [hostEvent 0 .down 0 (some 30000000), hostEvent 1 .down 30000000 none] := by decide
    have hlifespan : loadedEvents (eventsWithin [hostEvent 0 .down 0 (some 30000000),
        hostEvent 1 .down 30000000 none] 1 0 60000000) =
          [hostEvent 0 .down 0 (some 30000000), hostEvent 1 .down 30000000 none] := by
      rw [hwindow]
      decide
    rw [reportsAgree_iff_agree (by decide) (by decide) rfl (by decide) rfl (by decide),
      agree_iff (by decide) hlifespan rfl]
    rintro ⟨-, ⟨-, hincidents⟩, -⟩
    exact absurd hincidents (by decide)

end Lnmp.Reports
