import Lnmp.Reports.AvailabilityReports

/-!
# The events that a report finds for an endpoint

`eventsOfEndpoint` has the objects of the session that belong to an endpoint. An event of the
endpoint that starts alone among the rows that are loaded is there as it is. One that starts with
others is read once for each of them, or not at all.

`forall_secondsIn_eventsOfEndpoint_eq_iff` says when the seconds of the objects do not depend on the
order in which the database returns the rows: when rows that start together have the same seconds
for the endpoint.
-/

set_option autoImplicit false
set_option relaxedAutoImplicit false

namespace Lnmp.Reports

open Lnmp.Foundation Lnmp.Foundation.Eviction Lnmp.Foundation.IdentityMap Lnmp.Monitoring

/-- No other row that is loaded starts with the event. -/
def startsAlone (endpointEvents : List EndpointEvent) (loads : EndpointId → Bool)
    (startDt endDt : ℤ) (event : EndpointEvent) : Bool :=
  (rowsOf endpointEvents loads startDt endDt).all fun other ↦
    other.startTime = event.startTime → other = event

/-- What a row adds to the seconds of an endpoint in a state. -/
def secondsFor (endpointId : EndpointId) (state : OperationalState) (seconds : EndpointEvent → ℤ)
    (event : EndpointEvent) : ℤ :=
  if event.endpointId = endpointId ∧ event.operationalState = state then seconds event else 0

variable {endpointEvents rows : List EndpointEvent} {loads : EndpointId → Bool}
  {endpointId : EndpointId} {startDt endDt : ℤ} {event : EndpointEvent}

/-! ### Rows -/

theorem perm_selectedEvents (hperm : rows.Perm endpointEvents) :
    (selectedEvents rows startDt endDt).Perm (selectedEvents endpointEvents startDt endDt) :=
  hperm.filter _

theorem perm_rowsOf (hperm : rows.Perm endpointEvents) :
    (rowsOf rows loads startDt endDt).Perm (rowsOf endpointEvents loads startDt endDt) :=
  (perm_selectedEvents hperm).filter _

theorem eventsWithin_eq_filter (endpointEvents : List EndpointEvent) (endpointId : EndpointId)
    (startDt endDt : ℤ) :
    eventsWithin endpointEvents endpointId startDt endDt =
      (byAge EndpointEvent.startTime (selectedEvents endpointEvents startDt endDt)).filter
        (·.endpointId = endpointId) := by
  rw [← byAge_filter, selectedEvents, List.filter_filter, eventsWithin, byAge]
  refine congrArg (List.insertionSort _) (List.filter_congr fun event _ ↦ ?_)
  rw [← Bool.decide_and]
  exact decide_eq_decide.mpr (and_congr_right fun _ ↦ and_comm)

/-- The events of an endpoint are among the rows that are loaded for it. -/
theorem eventsWithin_eq_filter_rowsOf (hloads : loads endpointId = true) :
    eventsWithin endpointEvents endpointId startDt endDt =
      (byAge EndpointEvent.startTime (rowsOf endpointEvents loads startDt endDt)).filter
        (·.endpointId = endpointId) := by
  rw [eventsWithin_eq_filter, rowsOf, byAge_filter, List.filter_filter]
  refine List.filter_congr fun event _ ↦ ?_
  by_cases hendpoint : event.endpointId = endpointId
  · rw [hendpoint, hloads, Bool.and_true]
  · rw [decide_eq_false hendpoint, Bool.false_and]

theorem mem_eventsWithin_iff (hloads : loads endpointId = true) :
    event ∈ eventsWithin endpointEvents endpointId startDt endDt ↔
      event ∈ rowsOf endpointEvents loads startDt endDt ∧ event.endpointId = endpointId := by
  rw [eventsWithin_eq_filter_rowsOf hloads, List.mem_filter, (perm_byAge _ _).mem_iff,
    decide_eq_true_eq]

theorem mem_filter_of_eventsWithin
    (hevent : event ∈ eventsWithin endpointEvents endpointId startDt endDt) :
    event ∈ endpointEvents.filter (·.endpointId = endpointId) := by
  rw [eventsWithin, (List.perm_insertionSort _ _).mem_iff, List.mem_filter] at hevent
  exact List.mem_filter.mpr ⟨hevent.1, decide_eq_true (of_decide_eq_true hevent.2).1⟩

theorem startsAlone_iff : startsAlone endpointEvents loads startDt endDt event = true ↔
    ∀ other ∈ rowsOf endpointEvents loads startDt endDt, other.startTime = event.startTime →
      other = event := by
  rw [startsAlone, List.all_eq_true]
  simp only [decide_eq_true_eq]

theorem startsAlone_of_perm (hperm : rows.Perm endpointEvents) :
    startsAlone rows loads startDt endDt = startsAlone endpointEvents loads startDt endDt := by
  funext event
  rw [Bool.eq_iff_iff, startsAlone_iff, startsAlone_iff]
  simp only [(perm_rowsOf hperm).mem_iff]

/-- No two events of an endpoint start together. -/
def HasDistinctStarts (endpointEvents : List EndpointEvent) (endpointId : EndpointId) : Prop :=
  (endpointEvents.filter (·.endpointId = endpointId)).Pairwise fun first second ↦
    first.startTime ≠ second.startTime

theorem HasDistinctStarts.of_perm (hdistinct : HasDistinctStarts endpointEvents endpointId)
    (hperm : rows.Perm endpointEvents) : HasDistinctStarts rows endpointId :=
  ((hperm.filter _).pairwise_iff fun hne ↦ Ne.symm hne).mpr hdistinct

/-- Events of an endpoint that start together are one. -/
theorem HasDistinctStarts.eq_of_startTime (hdistinct : HasDistinctStarts endpointEvents endpointId)
    {first second : EndpointEvent}
    (hfirst : first ∈ eventsWithin endpointEvents endpointId startDt endDt)
    (hsecond : second ∈ eventsWithin endpointEvents endpointId startDt endDt)
    (hstart : first.startTime = second.startTime) : first = second :=
  List.inj_on_of_nodup_map (List.pairwise_map.mpr hdistinct) (mem_filter_of_eventsWithin hfirst)
    (mem_filter_of_eventsWithin hsecond) hstart

/-- Events that start apart have one order. -/
theorem HasDistinctStarts.eventsWithin_of_perm
    (hdistinct : HasDistinctStarts endpointEvents endpointId)
    (hperm : rows.Perm endpointEvents) :
    eventsWithin rows endpointId startDt endDt =
      eventsWithin endpointEvents endpointId startDt endDt := by
  have hsame : (eventsWithin rows endpointId startDt endDt).Perm
      (eventsWithin endpointEvents endpointId startDt endDt) := by
    rw [eventsWithin_eq_filter, eventsWithin_eq_filter]
    exact (((perm_byAge _ _).trans (perm_selectedEvents hperm)).trans
      (perm_byAge _ _).symm).filter _
  refine List.Perm.eq_of_pairwise (fun first second hfirst hsecond hle hge ↦ ?_)
    (eventsWithin_eq_filter rows endpointId startDt endDt ▸ (pairwise_byAge _ _).filter _)
    (eventsWithin_eq_filter endpointEvents endpointId startDt endDt ▸
      (pairwise_byAge _ _).filter _) hsame
  exact hdistinct.eq_of_startTime (hsame.mem_iff.mp hfirst) hsecond (le_antisymm hle hge)

/-- Events of one endpoint that start apart are objects of their own. -/
theorem HasDistinctStarts.loadedEvents_eventsWithin
    (hdistinct : HasDistinctStarts endpointEvents endpointId) :
    loadedEvents (eventsWithin endpointEvents endpointId startDt endDt) =
      eventsWithin endpointEvents endpointId startDt endDt := by
  refine (List.map_congr_left fun event hevent ↦ ?_).trans (List.map_id _)
  exact objectOf_eq_self hevent fun other hother hstart ↦
    hdistinct.eq_of_startTime hother hevent hstart

/-! ### Objects -/

/-- An object of the session is the first selected row with its start. -/
theorem loadedEvents_byAge (events : List EndpointEvent) :
    loadedEvents (byAge EndpointEvent.startTime events) =
      (byAge EndpointEvent.startTime events).map (objectOf EndpointEvent.startTime events) := by
  refine List.map_congr_left fun row _ ↦ ?_
  rw [objectOf, find?_byAge EndpointEvent.startTime, objectOf]

theorem eventsOfEndpoint_eq (endpointEvents : List EndpointEvent) (loads : EndpointId → Bool)
    (endpointId : EndpointId) (startDt endDt : ℤ) :
    eventsOfEndpoint endpointEvents loads endpointId startDt endDt =
      ((byAge EndpointEvent.startTime (rowsOf endpointEvents loads startDt endDt)).map
        (objectOf EndpointEvent.startTime (rowsOf endpointEvents loads startDt endDt))).filter
          (·.endpointId = endpointId) := by
  rw [eventsOfEndpoint, loadedEvents_byAge]

/-- The objects of an endpoint are its events. -/
theorem mem_eventsWithin_of_eventsOfEndpoint (hloads : loads endpointId = true)
    (hevent : event ∈ eventsOfEndpoint endpointEvents loads endpointId startDt endDt) :
    event ∈ eventsWithin endpointEvents endpointId startDt endDt := by
  rw [eventsOfEndpoint_eq, List.mem_filter, List.mem_map] at hevent
  obtain ⟨⟨row, hrow, rfl⟩, hendpoint⟩ := hevent
  exact (mem_eventsWithin_iff hloads).mpr
    ⟨objectOf_mem ((perm_byAge _ _).mem_iff.mp hrow), of_decide_eq_true hendpoint⟩

/-- Events that start alone are read as they are. -/
theorem filter_eventsOfEndpoint (hloads : loads endpointId = true) {selects : EndpointEvent → Bool}
    (halone : ∀ event ∈ eventsWithin endpointEvents endpointId startDt endDt,
      selects event = true → startsAlone endpointEvents loads startDt endDt event = true) :
    (eventsOfEndpoint endpointEvents loads endpointId startDt endDt).filter selects =
      (eventsWithin endpointEvents endpointId startDt endDt).filter selects := by
  rw [eventsOfEndpoint_eq, eventsWithin_eq_filter_rowsOf hloads, List.filter_filter,
    List.filter_filter]
  refine filter_map_objectOf (fun row hrow ↦ (perm_byAge _ _).mem_iff.mp hrow)
    fun row hrow hselects other hother hstart ↦ ?_
  rw [Bool.and_eq_true, decide_eq_true_eq] at hselects
  have hevent := (mem_eventsWithin_iff hloads).mpr ⟨hrow, hselects.2⟩
  exact startsAlone_iff.mp (halone row hevent hselects.1) other hother hstart

/-- Events that start alone are read as they are in every order of the rows. -/
theorem HasDistinctStarts.filter_eventsOfEndpoint_of_perm
    (hdistinct : HasDistinctStarts endpointEvents endpointId) (hloads : loads endpointId = true)
    (hperm : rows.Perm endpointEvents) {selects : EndpointEvent → Bool}
    (halone : ∀ event ∈ eventsWithin endpointEvents endpointId startDt endDt,
      selects event = true → startsAlone endpointEvents loads startDt endDt event = true) :
    (eventsOfEndpoint rows loads endpointId startDt endDt).filter selects =
      (eventsWithin endpointEvents endpointId startDt endDt).filter selects := by
  rw [← hdistinct.eventsWithin_of_perm hperm] at halone ⊢
  rw [← startsAlone_of_perm hperm] at halone
  exact filter_eventsOfEndpoint hloads halone

/-! ### Seconds -/

section Seconds

variable {state : OperationalState} {seconds : EndpointEvent → ℤ}

theorem secondsIn_filter_endpointId (events : List EndpointEvent) :
    secondsIn state seconds (events.filter (·.endpointId = endpointId)) =
      (events.map (secondsFor endpointId state seconds)).sum := by
  rw [secondsIn, List.filter_filter]
  induction events with
  | nil => rfl
  | cons event events ih =>
    rw [List.map_cons, List.sum_cons, ← ih, List.filter_cons, secondsFor]
    by_cases hboth : event.endpointId = endpointId ∧ event.operationalState = state
    · rw [if_pos (by simp [hboth.1, hboth.2]), if_pos hboth, List.map_cons, List.sum_cons]
    · rw [if_neg (by simpa [and_comm] using hboth), if_neg hboth, zero_add]

theorem secondsIn_eventsOfEndpoint :
    secondsIn state seconds (eventsOfEndpoint endpointEvents loads endpointId startDt endDt) =
      ((loaded EndpointEvent.startTime (rowsOf endpointEvents loads startDt endDt)).map
        (secondsFor endpointId state seconds)).sum := by
  rw [eventsOfEndpoint_eq, secondsIn_filter_endpointId, loaded]
  exact (((perm_byAge _ _).map _).map _).sum_eq

theorem secondsIn_eventsWithin_eq (hloads : loads endpointId = true) :
    secondsIn state seconds (eventsWithin endpointEvents endpointId startDt endDt) =
      ((rowsOf endpointEvents loads startDt endDt).map
        (secondsFor endpointId state seconds)).sum := by
  rw [eventsWithin_eq_filter_rowsOf hloads, secondsIn_filter_endpointId]
  exact ((perm_byAge _ _).map _).sum_eq

/-- The database can return the rows that are loaded in every order. -/
theorem exists_perm_rowsOf {order : List EndpointEvent}
    (hperm : order.Perm (rowsOf endpointEvents loads startDt endDt)) :
    ∃ rows : List EndpointEvent, rows.Perm endpointEvents ∧
      rowsOf rows loads startDt endDt = order := by
  let selects : EndpointEvent → Bool := fun event ↦
    decide (event.endTime.all (startDt ≤ ·) ∧ event.startTime ≤ endDt) && loads event.endpointId
  have hrowsOf : ∀ events, rowsOf events loads startDt endDt = events.filter selects := by
    intro events
    rw [rowsOf, selectedEvents, List.filter_filter]
    exact List.filter_congr fun event _ ↦ Bool.and_comm _ _
  rw [hrowsOf] at hperm
  refine ⟨order ++ endpointEvents.filter fun event ↦ !selects event,
    (hperm.append_right _).trans (List.filter_append_perm ..), ?_⟩
  rw [hrowsOf, List.filter_append, List.filter_filter]
  have horder : order.filter selects = order :=
    List.filter_eq_self.mpr fun event hevent ↦ (List.mem_filter.mp (hperm.subset hevent)).2
  have hrest : (endpointEvents.filter fun event ↦ selects event && !selects event) = [] :=
    List.filter_eq_nil_iff.mpr fun event _ ↦ by simp
  rw [horder, hrest, List.append_nil]

/-- The seconds that a report finds for an endpoint are the same in every order of the rows exactly
when rows that start together have the same seconds for it, and they are those of its events
then. -/
theorem forall_secondsIn_eventsOfEndpoint_eq_iff (hloads : loads endpointId = true) {total : ℤ} :
    (∀ rows : List EndpointEvent, rows.Perm endpointEvents →
        secondsIn state seconds (eventsOfEndpoint rows loads endpointId startDt endDt) = total) ↔
      (∀ first ∈ rowsOf endpointEvents loads startDt endDt,
        ∀ second ∈ rowsOf endpointEvents loads startDt endDt,
          first.startTime = second.startTime →
            secondsFor endpointId state seconds first =
              secondsFor endpointId state seconds second) ∧
        secondsIn state seconds (eventsWithin endpointEvents endpointId startDt endDt) = total := by
  rw [secondsIn_eventsWithin_eq hloads, ← forall_sum_map_loaded_eq_iff]
  simp only [secondsIn_eventsOfEndpoint]
  constructor
  · intro hsame order hperm
    obtain ⟨rows, hrows, rfl⟩ := exists_perm_rowsOf hperm
    exact hsame rows hrows
  · exact fun hsame rows hperm ↦ hsame _ (perm_rowsOf hperm)

/-- A row that starts with another one adds nothing, when an event of the endpoint that does has no
seconds. -/
theorem secondsFor_eq_zero (hloads : loads endpointId = true)
    (hzero : ∀ event ∈ eventsWithin endpointEvents endpointId startDt endDt,
      startsAlone endpointEvents loads startDt endDt event = false →
        event.operationalState = state → seconds event = 0)
    {row other : EndpointEvent} (hrow : row ∈ rowsOf endpointEvents loads startDt endDt)
    (hother : other ∈ rowsOf endpointEvents loads startDt endDt)
    (hstart : other.startTime = row.startTime) (hne : other ≠ row) :
    secondsFor endpointId state seconds row = 0 := by
  rw [secondsFor]
  split
  · rename_i hboth
    refine hzero row ((mem_eventsWithin_iff hloads).mpr ⟨hrow, hboth.1⟩) ?_ hboth.2
    exact Bool.eq_false_iff.mpr fun halone ↦ hne (startsAlone_iff.mp halone other hother hstart)
  · rfl

/-- Rows that start together have the same seconds for an endpoint exactly when its events that do
not start alone have none, where of two of its own events one has none. -/
theorem forall_secondsFor_eq_iff (hloads : loads endpointId = true)
    (hown : ∀ first ∈ eventsWithin endpointEvents endpointId startDt endDt,
      ∀ second ∈ eventsWithin endpointEvents endpointId startDt endDt, first ≠ second →
        first.startTime = second.startTime → seconds first = 0 ∨ seconds second = 0) :
    (∀ first ∈ rowsOf endpointEvents loads startDt endDt,
      ∀ second ∈ rowsOf endpointEvents loads startDt endDt, first.startTime = second.startTime →
        secondsFor endpointId state seconds first = secondsFor endpointId state seconds second) ↔
      ∀ event ∈ eventsWithin endpointEvents endpointId startDt endDt,
        startsAlone endpointEvents loads startDt endDt event = false →
          event.operationalState = state → seconds event = 0 := by
  constructor
  · intro halike event hevent halone hstate
    obtain ⟨hrow, hendpoint⟩ := (mem_eventsWithin_iff hloads).mp hevent
    rw [← Bool.not_eq_true, startsAlone_iff] at halone
    push Not at halone
    obtain ⟨other, hother, hstart, hne⟩ := halone
    have hsame := halike event hrow other hother hstart.symm
    rw [secondsFor, if_pos ⟨hendpoint, hstate⟩, secondsFor] at hsame
    split at hsame
    · rename_i hboth
      have hmem := (mem_eventsWithin_iff hloads).mpr ⟨hother, hboth.1⟩
      exact (hown event hevent other hmem hne.symm hstart.symm).elim id fun hzero ↦
        hsame.trans hzero
    · exact hsame
  · intro hzero first hfirst second hsecond hstart
    by_cases hne : first = second
    · rw [hne]
    · rw [secondsFor_eq_zero hloads hzero hfirst hsecond hstart.symm (Ne.symm hne),
        secondsFor_eq_zero hloads hzero hsecond hfirst hstart hne]

/-- The seconds for an endpoint whose events start apart. -/
theorem HasDistinctStarts.forall_secondsIn_eq_iff
    (hdistinct : HasDistinctStarts endpointEvents endpointId) (hloads : loads endpointId = true)
    {total : ℤ} :
    (∀ rows : List EndpointEvent, rows.Perm endpointEvents →
        secondsIn state seconds (eventsOfEndpoint rows loads endpointId startDt endDt) = total) ↔
      (∀ event ∈ eventsWithin endpointEvents endpointId startDt endDt,
        startsAlone endpointEvents loads startDt endDt event = false →
          event.operationalState = state → seconds event = 0) ∧
        secondsIn state seconds (eventsWithin endpointEvents endpointId startDt endDt) = total := by
  rw [forall_secondsIn_eventsOfEndpoint_eq_iff hloads, forall_secondsFor_eq_iff hloads]
  exact fun first hfirst second hsecond hne hstart ↦
    absurd (hdistinct.eq_of_startTime hfirst hsecond hstart) hne

end Seconds

/-! ### Events that are lost -/

/-- The rows of the other endpoints, and then those of one. -/
def othersFirst (endpointEvents : List EndpointEvent) (endpointId : EndpointId) :
    List EndpointEvent :=
  (endpointEvents.filter fun event ↦ !decide (event.endpointId = endpointId)) ++
    endpointEvents.filter fun event ↦ decide (event.endpointId = endpointId)

theorem perm_othersFirst (endpointEvents : List EndpointEvent) (endpointId : EndpointId) :
    (othersFirst endpointEvents endpointId).Perm endpointEvents :=
  List.perm_append_comm.trans (List.filter_append_perm ..)

/-- An object of an endpoint has no row of another endpoint before it. -/
theorem endpointId_ne_of_othersFirst {row other : EndpointEvent}
    (hother : other ∈ rowsOf (othersFirst endpointEvents endpointId) loads startDt endDt)
    (hendpoint : other.endpointId ≠ endpointId) (hstart : other.startTime = row.startTime) :
    (objectOf EndpointEvent.startTime
      (rowsOf (othersFirst endpointEvents endpointId) loads startDt endDt) row).endpointId ≠
        endpointId := by
  rw [othersFirst, rowsOf, selectedEvents, List.filter_append, List.filter_append] at hother ⊢
  rcases List.mem_append.mp hother with hfirst | hlast
  · rw [objectOf, List.find?_append]
    cases hfind : List.find? (fun first : EndpointEvent ↦ first.startTime = row.startTime) _ with
    | none => exact absurd (decide_eq_true hstart) (List.find?_eq_none.mp hfind other hfirst)
    | some first =>
      have hmem := List.mem_of_mem_filter (List.mem_of_mem_filter (List.mem_of_find?_eq_some hfind))
      simpa using (List.mem_filter.mp hmem).2
  · have hmem := List.mem_of_mem_filter (List.mem_of_mem_filter hlast)
    exact absurd (of_decide_eq_true (List.mem_filter.mp hmem).2) hendpoint

/-- When the database returns the rows of the other endpoints first, an endpoint keeps the events
that start alone. -/
theorem HasDistinctStarts.eventsOfEndpoint_othersFirst
    (hdistinct : HasDistinctStarts endpointEvents endpointId) (hloads : loads endpointId = true) :
    eventsOfEndpoint (othersFirst endpointEvents endpointId) loads endpointId startDt endDt =
      (eventsWithin endpointEvents endpointId startDt endDt).filter
        (startsAlone endpointEvents loads startDt endDt) := by
  have hperm := perm_othersFirst endpointEvents endpointId
  rw [← startsAlone_of_perm hperm, ← hdistinct.eventsWithin_of_perm hperm,
    ← filter_eventsOfEndpoint hloads fun _ _ halone ↦ halone]
  refine (List.filter_eq_self.mpr fun event hevent ↦ startsAlone_iff.mpr ?_).symm
  intro other hother hstart
  by_cases hendpoint : other.endpointId = endpointId
  · have hown := mem_eventsWithin_of_eventsOfEndpoint hloads hevent
    have hmem := (mem_eventsWithin_iff hloads).mpr ⟨hother, hendpoint⟩
    rw [hdistinct.eventsWithin_of_perm hperm] at hown hmem
    exact hdistinct.eq_of_startTime hmem hown hstart
  · rw [eventsOfEndpoint_eq, List.mem_filter, List.mem_map] at hevent
    obtain ⟨⟨row, -, rfl⟩, hsame⟩ := hevent
    have hrow := hstart.trans (key_objectOf _ row)
    exact absurd (of_decide_eq_true hsame) (endpointId_ne_of_othersFirst hother hendpoint hrow)

end Lnmp.Reports
