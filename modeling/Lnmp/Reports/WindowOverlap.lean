import Lnmp.Foundation.Cover
import Lnmp.Reports.ReportAgreement
import Mathlib.Data.Int.Interval

/-!
# The seconds of the compiled report

`compile_availability_report_data` adds up the seconds of the up events and of the down events in a
window. For an event that has no second there it takes the recorded duration instead, and an event
that was closed ahead of time counts up to its end.

`secondsExact_iff` says when the sums are the lengths of the overlaps of the events with the window
up to now, in whatever order the database returns the rows: when no event of the window is counted
in these ways, and one that starts with an event of another endpoint of the report has no second
there. The seconds of an overlap are its whole seconds, which are all of it when the window and now
have no fractions.
-/

set_option autoImplicit false
set_option relaxedAutoImplicit false

namespace Lnmp.Reports

open Lnmp.Foundation Lnmp.Monitoring

/-- `up_sec` and `down_sec`. -/
def compiledSeconds (tables : Tables) (endpointIds : List EndpointId) (endpoint : Endpoint)
    (startDt endDt nowUtc : ℤ) (state : OperationalState) : ℤ :=
  secondsIn state (clampedOrRecordedSeconds startDt endDt nowUtc)
    (compiledEvents tables endpointIds endpoint startDt endDt)

/-- The events of an endpoint in a state. -/
def eventsIn (tables : Tables) (endpoint : Endpoint) (state : OperationalState) :
    List EndpointEvent :=
  tables.endpointEvents.filter fun event ↦
    event.endpointId = endpoint.id ∧ event.operationalState = state

/-- The instants of an event in a window up to now. -/
def overlap (startDt endDt nowUtc : ℤ) (event : EndpointEvent) : Finset ℤ :=
  event.span.instantsWithin startDt (min endDt nowUtc)

/-- The seconds are those of the overlaps, to the instant when the window has no fractions of a
second, and are no more than the window has. -/
structure SecondsExact (tables : Tables) (endpointIds : List EndpointId) (endpoint : Endpoint)
    (startDt endDt nowUtc : ℤ) : Prop where
  seconds_eq : ∀ state, compiledSeconds tables endpointIds endpoint startDt endDt nowUtc state =
    ((eventsIn tables endpoint state).map fun event ↦
      (((overlap startDt endDt nowUtc event).card / 1000000 : ℕ) : ℤ)).sum
  exact : 1000000 ∣ startDt → 1000000 ∣ min endDt nowUtc →
    ∀ state, compiledSeconds tables endpointIds endpoint startDt endDt nowUtc state * 1000000 =
      ((eventsIn tables endpoint state).map fun event ↦
        ((overlap startDt endDt nowUtc event).card : ℤ)).sum
  le_window : (compiledSeconds tables endpointIds endpoint startDt endDt nowUtc .up +
    compiledSeconds tables endpointIds endpoint startDt endDt nowUtc .down) * 1000000 ≤
      max 0 (min endDt nowUtc - startDt)

/-- An event with less than a second in the window has no recorded duration, and one that was closed
ahead of time has no further second there after now. -/
structure CountedWithin (startDt endDt nowUtc : ℤ) (event : EndpointEvent) : Prop where
  notRecorded : timeWithin startDt endDt nowUtc event < 1000000 → event.durationSeconds ≤ 0
  notAhead : ∀ finish, event.endTime = some finish →
    max 0 (min endDt finish - max startDt event.startTime) / 1000000 =
      max 0 (min (min endDt nowUtc) finish - max startDt event.startTime) / 1000000

/-- The sums are a part of the row of the endpoint. -/
theorem endpointRow_eq (roundedPercentage : ℤ → ℤ → ℚ) (tables : Tables)
    (endpointIds : List EndpointId) (startDt endDt nowUtc : ℤ) {endpoint : Endpoint}
    (hrole : endpoint.deviceRole ≠ .flowExporter) :
    (endpointRow roundedPercentage tables endpointIds startDt endDt nowUtc
          endpoint).downtimeSeconds =
        compiledSeconds tables endpointIds endpoint startDt endDt nowUtc .down ∧
      (endpointRow roundedPercentage tables endpointIds startDt endDt nowUtc
          endpoint).uptimePercentage =
        percentageOf roundedPercentage (denominatorOf tables endpoint startDt endDt nowUtc)
          (compiledSeconds tables endpointIds endpoint startDt endDt nowUtc .up) := by
  rw [endpointRow_of_role hrole]
  exact ⟨rfl, rfl⟩

/-! ### Overlaps -/

section Overlap

variable {startDt endDt nowUtc : ℤ} {event : EndpointEvent}

theorem card_overlap : (overlap startDt endDt nowUtc event).card =
    (min (event.endTime.getD (min endDt nowUtc)) (min endDt nowUtc) -
      max event.startTime startDt).toNat := by
  rw [overlap, Span.instantsWithin, Int.card_Ico]
  rfl

/-- The whole seconds of an overlap are clamped seconds of the window up to now. -/
theorem card_overlap_div :
    (((overlap startDt endDt nowUtc event).card / 1000000 : ℕ) : ℤ) =
      max 0 (min (min endDt nowUtc) (event.endTime.getD nowUtc) - max startDt event.startTime) /
        1000000 := by
  rw [card_overlap]
  cases event.endTime <;> simp only [Option.getD_none, Option.getD_some] <;> omega

theorem card_overlap_div_le :
    (((overlap startDt endDt nowUtc event).card / 1000000 : ℕ) : ℤ) ≤
      clampedSeconds startDt endDt nowUtc event := by
  rw [card_overlap_div, clampedSeconds_eq, timeWithin]
  omega

/-- An event is counted with the seconds of its overlap exactly when nothing else is taken. -/
theorem countedWithin_iff :
    CountedWithin startDt endDt nowUtc event ↔
      (((overlap startDt endDt nowUtc event).card / 1000000 : ℕ) : ℤ) =
        clampedOrRecordedSeconds startDt endDt nowUtc event := by
  have hahead : (((overlap startDt endDt nowUtc event).card / 1000000 : ℕ) : ℤ) =
      clampedSeconds startDt endDt nowUtc event ↔
      ∀ finish, event.endTime = some finish →
        max 0 (min endDt finish - max startDt event.startTime) / 1000000 =
          max 0 (min (min endDt nowUtc) finish - max startDt event.startTime) / 1000000 := by
    rw [card_overlap_div, clampedSeconds_eq, timeWithin]
    cases hfinish : event.endTime with
    | none => simp [min_assoc]
    | some finish => simp [eq_comm]
  have hle : (((overlap startDt endDt nowUtc event).card / 1000000 : ℕ) : ℤ) ≤
      clampedSeconds startDt endDt nowUtc event := card_overlap_div_le
  have hrecorded : clampedSeconds startDt endDt nowUtc event ≤
      clampedOrRecordedSeconds startDt endDt nowUtc event :=
    clampedSeconds_le_clampedOrRecordedSeconds
  constructor
  · rintro ⟨hnot, hnone⟩
    rw [hahead.mpr hnone]
    rw [clampedSeconds_eq_clampedOrRecordedSeconds_iff]
    exact hnot
  · intro heq
    have hsame : clampedSeconds startDt endDt nowUtc event =
        clampedOrRecordedSeconds startDt endDt nowUtc event := by omega
    refine ⟨?_, hahead.mp (by omega)⟩
    rw [clampedSeconds_eq_clampedOrRecordedSeconds_iff] at hsame
    exact hsame

/-- Of two disjoint events that start together, one has no overlap with the window. -/
theorem overlap_eq_empty_or {first second : EndpointEvent}
    (hdisjoint : Disjoint first.span.instants second.span.instants)
    (hstart : first.startTime = second.startTime) :
    overlap startDt endDt nowUtc first = ∅ ∨ overlap startDt endDt nowUtc second = ∅ := by
  rw [or_iff_not_imp_left, ← ne_eq, ← Finset.nonempty_iff_ne_empty,
    Finset.eq_empty_iff_forall_notMem]
  rintro ⟨early, hearly⟩ late hlate
  obtain ⟨-, hfirst⟩ := Span.mem_instantsWithin_iff.mp hearly
  obtain ⟨-, hsecond⟩ := Span.mem_instantsWithin_iff.mp hlate
  rw [Span.mem_instants_iff] at hfirst hsecond
  -- the start itself is an instant of both
  have hstarts : first.startTime ∈ first.span.instants :=
    Span.mem_instants_iff.mpr ⟨le_rfl, fun finish hfinish ↦
      lt_of_le_of_lt hfirst.1 (hfirst.2 finish hfinish)⟩
  refine Set.disjoint_left.mp hdisjoint hstarts (Span.mem_instants_iff.mpr ⟨hstart.ge, ?_⟩)
  exact fun finish hfinish ↦
    hstart ▸ lt_of_le_of_lt hsecond.1 (hsecond.2 finish hfinish)

/-- Of two disjoint events that start together and are counted within the window, one counts
nothing. -/
theorem clampedOrRecordedSeconds_eq_zero_or {first second : EndpointEvent}
    (hfirst : CountedWithin startDt endDt nowUtc first)
    (hsecond : CountedWithin startDt endDt nowUtc second)
    (hdisjoint : Disjoint first.span.instants second.span.instants)
    (hstart : first.startTime = second.startTime) :
    clampedOrRecordedSeconds startDt endDt nowUtc first = 0 ∨
      clampedOrRecordedSeconds startDt endDt nowUtc second = 0 := by
  rw [countedWithin_iff] at hfirst hsecond
  rw [← hfirst, ← hsecond]
  rcases overlap_eq_empty_or hdisjoint hstart with hnone | hnone
  · exact Or.inl (by rw [hnone]; rfl)
  · exact Or.inr (by rw [hnone]; rfl)

end Overlap

/-! ### Sums -/

section Sums

variable {tables : Tables} {endpoint : Endpoint} {startDt endDt nowUtc : ℤ}
  {state : OperationalState}

/-- Items that weigh nothing may be left out of a sum. -/
theorem sum_map_filter {Item : Type*} {items : List Item} {selects : Item → Bool}
    {weight : Item → ℤ} (hzero : ∀ item, selects item = false → weight item = 0) :
    ((items.filter selects).map weight).sum = (items.map weight).sum := by
  induction items with
  | nil => rfl
  | cons item items ih =>
    rw [List.map_cons, List.sum_cons, ← ih, List.filter_cons]
    cases hselects : selects item with
    | true => rw [if_pos rfl, List.map_cons, List.sum_cons]
    | false => rw [if_neg Bool.false_ne_true, hzero item hselects, zero_add]

/-- A sum over the events of a window is one over all events, when those without an overlap add
nothing. -/
theorem secondsIn_eventsWithin {weight : EndpointEvent → ℤ}
    (hzero : ∀ event, overlap startDt endDt nowUtc event = ∅ → weight event = 0) :
    secondsIn state weight (eventsWithin tables.endpointEvents endpoint.id startDt endDt) =
      ((eventsIn tables endpoint state).map weight).sum := by
  have hperm : ((eventsWithin tables.endpointEvents endpoint.id startDt endDt).filter
      (·.operationalState = state)).Perm
        ((eventsIn tables endpoint state).filter fun event ↦
          event.startTime ≤ endDt ∧ event.endTime.all (startDt ≤ ·)) := by
    refine ((List.perm_insertionSort ..).filter _).trans (List.Perm.of_eq ?_)
    rw [eventsIn, List.filter_filter, List.filter_filter]
    refine List.filter_congr fun event _ ↦ ?_
    simp only [Bool.decide_and]
    grind
  rw [secondsIn, (hperm.map weight).sum_eq]
  refine sum_map_filter fun event hout ↦ hzero event ?_
  rw [← Finset.card_eq_zero, card_overlap]
  rw [decide_eq_false_iff_not, not_and_or] at hout
  cases hfinish : event.endTime with
  | none =>
    simp only [hfinish, Option.all_none, not_true_eq_false, or_false] at hout
    rw [Option.getD_none]
    omega
  | some finish =>
    simp only [hfinish, Option.all_some, decide_eq_true_eq] at hout
    rw [Option.getD_some]
    omega

theorem sum_overlap_eq_secondsIn :
    ((eventsIn tables endpoint state).map fun event ↦
      (((overlap startDt endDt nowUtc event).card / 1000000 : ℕ) : ℤ)).sum =
      secondsIn state (fun event ↦ ((overlap startDt endDt nowUtc event).card / 1000000 : ℕ))
        (eventsWithin tables.endpointEvents endpoint.id startDt endDt) := by
  have hzero : ∀ event, overlap startDt endDt nowUtc event = ∅ →
      (((overlap startDt endDt nowUtc event).card / 1000000 : ℕ) : ℤ) = 0 := by
    intro event hnone
    rw [hnone]
    rfl
  exact (secondsIn_eventsWithin hzero).symm

theorem perm_eventsIn {rows : List EndpointEvent} (hperm : rows.Perm tables.endpointEvents) :
    (eventsIn (tables.reorder rows) endpoint state).Perm (eventsIn tables endpoint state) :=
  hperm.filter _

/-- The sum of the events of an endpoint in a state is that of the overlaps exactly when they are
counted within the window. -/
theorem secondsIn_eq_sum_overlap_iff :
    secondsIn state (clampedOrRecordedSeconds startDt endDt nowUtc)
        (eventsWithin tables.endpointEvents endpoint.id startDt endDt) =
        ((eventsIn tables endpoint state).map fun event ↦
          (((overlap startDt endDt nowUtc event).card / 1000000 : ℕ) : ℤ)).sum ↔
      ∀ event ∈ eventsWithin tables.endpointEvents endpoint.id startDt endDt,
        event.operationalState = state → CountedWithin startDt endDt nowUtc event := by
  rw [sum_overlap_eq_secondsIn, eq_comm, secondsIn_eq_iff fun event ↦
    card_overlap_div_le.trans clampedSeconds_le_clampedOrRecordedSeconds]
  simp only [countedWithin_iff]

/-- The sum in a state is that of the overlaps in every order of the rows exactly when rows that
start together add the same to it, and the events are counted within the window. -/
theorem forall_compiledSeconds_eq_iff {endpointIds : List EndpointId}
    (hids : endpoint.id ∈ endpointIds) :
    (∀ rows : List EndpointEvent, rows.Perm tables.endpointEvents →
        compiledSeconds (tables.reorder rows) endpointIds endpoint startDt endDt nowUtc state =
          ((eventsIn (tables.reorder rows) endpoint state).map fun event ↦
            (((overlap startDt endDt nowUtc event).card / 1000000 : ℕ) : ℤ)).sum) ↔
      (∀ first ∈ rowsOf tables.endpointEvents (fun id ↦ id ∈ endpointIds) startDt endDt,
        ∀ second ∈ rowsOf tables.endpointEvents (fun id ↦ id ∈ endpointIds) startDt endDt,
          first.startTime = second.startTime →
            secondsFor endpoint.id state (clampedOrRecordedSeconds startDt endDt nowUtc) first =
              secondsFor endpoint.id state (clampedOrRecordedSeconds startDt endDt nowUtc)
                second) ∧
        ∀ event ∈ eventsWithin tables.endpointEvents endpoint.id startDt endDt,
          event.operationalState = state → CountedWithin startDt endDt nowUtc event := by
  have hloads : (fun id ↦ decide (id ∈ endpointIds)) endpoint.id = true := decide_eq_true hids
  rw [← secondsIn_eq_sum_overlap_iff, ← forall_secondsIn_eventsOfEndpoint_eq_iff hloads]
  refine forall₂_congr fun rows hperm ↦ ?_
  rw [((perm_eventsIn hperm).map _).sum_eq]
  rfl

/-- An overlap has whole seconds when the event and the window do. -/
theorem dvd_card_overlap {event : EndpointEvent} (hstart : 1000000 ∣ event.startTime)
    (hfinish : ∀ finish, event.endTime = some finish → 1000000 ∣ finish)
    (hlower : 1000000 ∣ startDt) (hupper : 1000000 ∣ min endDt nowUtc) :
    1000000 ∣ (overlap startDt endDt nowUtc event).card := by
  rw [card_overlap]
  cases hend : event.endTime with
  | none =>
    rw [Option.getD_none]
    omega
  | some finish =>
    have hdvd := hfinish finish hend
    rw [Option.getD_some]
    omega

end Sums

/-! ### The window -/

section Window

variable {tables : Tables} {endpoint : Endpoint} {startDt endDt nowUtc : ℤ}

/-- Every event of an endpoint is an up event or a down event. -/
theorem sum_eventsIn_up_add_down (weight : EndpointEvent → ℤ) :
    ((eventsIn tables endpoint .up).map weight).sum +
        ((eventsIn tables endpoint .down).map weight).sum =
      ((tables.endpointEvents.filter (·.endpointId = endpoint.id)).map weight).sum := by
  rw [eventsIn, eventsIn]
  induction tables.endpointEvents with
  | nil => rfl
  | cons event events ih =>
    by_cases hendpoint : event.endpointId = endpoint.id
    · cases hstate : event.operationalState <;>
        simp only [List.filter_cons, hendpoint, hstate, List.map_cons, List.sum_cons, ← ih,
          true_and, decide_true, reduceCtorEq, decide_false, Bool.false_eq_true, ↓reduceIte] <;>
        omega
    · simp only [List.filter_cons, hendpoint, false_and, decide_false, Bool.false_eq_true,
        ↓reduceIte]
      exact ih

/-- Disjoint events have no more time in a window than the window has. -/
theorem sum_card_overlap_le {events : List EndpointEvent}
    (hdisjoint : events.Pairwise fun first second ↦
      Disjoint first.span.instants second.span.instants) :
    (events.map fun event ↦ ((overlap startDt endDt nowUtc event).card : ℤ)).sum ≤
      max 0 (min endDt nowUtc - startDt) := by
  have hoverlaps : (events.map (overlap startDt endDt nowUtc)).Pairwise Disjoint := by
    rw [List.pairwise_map]
    refine hdisjoint.imp fun {first second} hspans ↦ Finset.disjoint_left.mpr ?_
    intro instant hfirst hsecond
    rw [overlap, Span.mem_instantsWithin_iff] at hfirst hsecond
    exact Set.disjoint_left.mp hspans hfirst.2 hsecond.2
  have hsubset : Cover.union (events.map (overlap startDt endDt nowUtc)) ⊆
      Finset.Ico startDt (min endDt nowUtc) := by
    intro instant hinstant
    obtain ⟨part, hpart, hmem⟩ := Cover.mem_union.mp hinstant
    obtain ⟨event, -, rfl⟩ := List.mem_map.mp hpart
    rw [overlap, Span.mem_instantsWithin_iff] at hmem
    exact Finset.mem_Ico.mpr hmem.1
  have hcard := Finset.card_le_card hsubset
  rw [Cover.card_union_of_pairwise hoverlaps, Int.card_Ico, List.map_map] at hcard
  have hsum : (events.map fun event ↦ ((overlap startDt endDt nowUtc event).card : ℤ)).sum =
      (((events.map (Finset.card ∘ overlap startDt endDt nowUtc)).sum : ℕ) : ℤ) := by
    rw [Nat.cast_list_sum, List.map_map]
    rfl
  omega

/-- Whole seconds are no more than the time they are of. -/
theorem sum_div_mul_le (events : List EndpointEvent) :
    (events.map fun event ↦
        (((overlap startDt endDt nowUtc event).card / 1000000 : ℕ) : ℤ)).sum * 1000000 ≤
      (events.map fun event ↦ ((overlap startDt endDt nowUtc event).card : ℤ)).sum := by
  rw [← List.sum_map_mul_right]
  exact List.sum_le_sum fun event _ ↦ by omega

theorem sum_div_mul_eq {events : List EndpointEvent}
    (hdvd : ∀ event ∈ events, 1000000 ∣ (overlap startDt endDt nowUtc event).card) :
    (events.map fun event ↦
        (((overlap startDt endDt nowUtc event).card / 1000000 : ℕ) : ℤ)).sum * 1000000 =
      (events.map fun event ↦ ((overlap startDt endDt nowUtc event).card : ℤ)).sum := by
  rw [← List.sum_map_mul_right]
  congr 1
  refine List.map_congr_left fun event hevent ↦ ?_
  have hevent := hdvd event hevent
  omega

end Window

/-- Sums that are those of the overlaps are exact. -/
theorem secondsExact_of_sums {tables : Tables} {endpointIds : List EndpointId}
    {endpoint : Endpoint} {startDt endDt nowUtc : ℤ}
    (hwhole : ∀ event ∈ tables.endpointEvents, event.endpointId = endpoint.id →
      1000000 ∣ event.startTime ∧ ∀ finish, event.endTime = some finish → 1000000 ∣ finish)
    (hdisjoint : (tables.endpointEvents.filter (·.endpointId = endpoint.id)).Pairwise
      fun first second ↦ Disjoint first.span.instants second.span.instants)
    (hsums : ∀ state, compiledSeconds tables endpointIds endpoint startDt endDt nowUtc state =
      ((eventsIn tables endpoint state).map fun event ↦
        (((overlap startDt endDt nowUtc event).card / 1000000 : ℕ) : ℤ)).sum) :
    SecondsExact tables endpointIds endpoint startDt endDt nowUtc := by
  refine ⟨hsums, fun hlower hupper state ↦ ?_, ?_⟩
  · rw [hsums]
    refine sum_div_mul_eq fun event hevent ↦ ?_
    obtain ⟨hmem, hselected⟩ := List.mem_filter.mp hevent
    obtain ⟨hstart, hfinish⟩ := hwhole event hmem (of_decide_eq_true hselected).1
    exact dvd_card_overlap hstart hfinish hlower hupper
  · rw [hsums, hsums, sum_eventsIn_up_add_down]
    exact (sum_div_mul_le _).trans (sum_card_overlap_le hdisjoint)

/-- Where the events of an endpoint are counted within the window and do not overlap, of two that
start together one counts nothing. -/
theorem eq_zero_or_of_startTime {endpointEvents : List EndpointEvent} {endpointId : EndpointId}
    {startDt endDt nowUtc : ℤ}
    (hdisjoint : (endpointEvents.filter (·.endpointId = endpointId)).Pairwise
      fun first second ↦ Disjoint first.span.instants second.span.instants)
    (hcounted : ∀ event ∈ eventsWithin endpointEvents endpointId startDt endDt,
      CountedWithin startDt endDt nowUtc event) :
    ∀ first ∈ eventsWithin endpointEvents endpointId startDt endDt,
      ∀ second ∈ eventsWithin endpointEvents endpointId startDt endDt, first ≠ second →
        first.startTime = second.startTime →
          clampedOrRecordedSeconds startDt endDt nowUtc first = 0 ∨
            clampedOrRecordedSeconds startDt endDt nowUtc second = 0 := by
  intro first hfirst second hsecond hne hstart
  refine clampedOrRecordedSeconds_eq_zero_or (hcounted first hfirst) (hcounted second hsecond)
    ?_ hstart
  have : Std.Symm fun first second : EndpointEvent ↦
      Disjoint first.span.instants second.span.instants := ⟨fun _ _ hspans ↦ hspans.symm⟩
  exact hdisjoint.forall (mem_filter_of_eventsWithin hfirst)
    (mem_filter_of_eventsWithin hsecond) hne

/-- The seconds are exact in every order of the rows exactly when every event of the window is
counted within it, and one that does not start alone has less than a second there. -/
theorem secondsExact_iff {tables : Tables} {endpointIds : List EndpointId} {endpoint : Endpoint}
    {startDt endDt nowUtc : ℤ} (hids : endpoint.id ∈ endpointIds)
    (hwhole : ∀ event ∈ tables.endpointEvents, event.endpointId = endpoint.id →
      1000000 ∣ event.startTime ∧ ∀ finish, event.endTime = some finish → 1000000 ∣ finish)
    (hdisjoint : (tables.endpointEvents.filter (·.endpointId = endpoint.id)).Pairwise
      fun first second ↦ Disjoint first.span.instants second.span.instants) :
    (∀ rows : List EndpointEvent, rows.Perm tables.endpointEvents →
        SecondsExact (tables.reorder rows) endpointIds endpoint startDt endDt nowUtc) ↔
      ∀ event ∈ eventsWithin tables.endpointEvents endpoint.id startDt endDt,
        CountedWithin startDt endDt nowUtc event ∧
          (startsAlone tables.endpointEvents (fun id ↦ id ∈ endpointIds) startDt endDt event =
            false → timeWithin startDt endDt nowUtc event < 1000000) := by
  have hloads : (fun id ↦ decide (id ∈ endpointIds)) endpoint.id = true := decide_eq_true hids
  constructor
  · intro hexact
    have hstate := fun state ↦ (forall_compiledSeconds_eq_iff hids).mp fun rows hperm ↦
      (hexact rows hperm).seconds_eq state
    have hcounted : ∀ event ∈ eventsWithin tables.endpointEvents endpoint.id startDt endDt,
        CountedWithin startDt endDt nowUtc event := fun event hevent ↦
      (hstate event.operationalState).2 event hevent rfl
    refine fun event hevent ↦ ⟨hcounted event hevent, fun halone ↦ ?_⟩
    have hzero := (forall_secondsFor_eq_iff hloads (eq_zero_or_of_startTime hdisjoint hcounted)).mp
      (hstate event.operationalState).1 event hevent halone rfl
    exact (clampedOrRecordedSeconds_eq_zero_iff.mp hzero).1
  · intro hevents rows hperm
    have hcounted : ∀ event ∈ eventsWithin tables.endpointEvents endpoint.id startDt endDt,
        CountedWithin startDt endDt nowUtc event := fun event hevent ↦ (hevents event hevent).1
    have hzero : ∀ event ∈ eventsWithin tables.endpointEvents endpoint.id startDt endDt,
        startsAlone tables.endpointEvents (fun id ↦ id ∈ endpointIds) startDt endDt event = false →
          clampedOrRecordedSeconds startDt endDt nowUtc event = 0 := by
      intro event hevent halone
      have hless := (hevents event hevent).2 halone
      exact clampedOrRecordedSeconds_eq_zero_iff.mpr
        ⟨hless, (hcounted event hevent).notRecorded hless⟩
    refine secondsExact_of_sums (fun event hevent ↦ hwhole event (hperm.subset hevent))
      (hdisjoint.perm (hperm.filter _).symm fun hspans ↦ hspans.symm) fun state ↦ ?_
    refine (forall_compiledSeconds_eq_iff hids).mpr
      ⟨?_, fun event hevent _ ↦ hcounted event hevent⟩ rows hperm
    exact (forall_secondsFor_eq_iff hloads (eq_zero_or_of_startTime hdisjoint hcounted)).mpr
      fun event hevent halone _ ↦ hzero event hevent halone

/-- Two events of half a minute, one after the other. -/
theorem disjoint_hostEvents :
    ((hostTables [hostEvent 0 .up 0 (some 30000000),
      hostEvent 1 .down 30000000 (some 60000000)]).endpointEvents.filter
        (·.endpointId = host.id)).Pairwise fun first second ↦
      Disjoint first.span.instants second.span.instants :=
  List.pairwise_pair.mpr (Span.Precedes.disjoint ⟨by decide, 30000000, rfl, le_rfl⟩)

theorem secondsExact_iff_hostEvents :
    SecondsExact ((hostTables [hostEvent 0 .up 0 (some 30000000),
      hostEvent 1 .down 30000000 (some 60000000)]).reorder [hostEvent 0 .up 0 (some 30000000),
        hostEvent 1 .down 30000000 (some 60000000)]) [1] host 0 60000000 60000000 := by
  refine (secondsExact_iff (by decide) (by decide) disjoint_hostEvents).mpr
    (fun event hevent ↦ ?_) _ (List.Perm.refl _)
  have hwindow : eventsWithin (hostTables [hostEvent 0 .up 0 (some 30000000),
      hostEvent 1 .down 30000000 (some 60000000)]).endpointEvents host.id 0 60000000 =
        [hostEvent 0 .up 0 (some 30000000), hostEvent 1 .down 30000000 (some 60000000)] := by
    decide
  rw [hwindow, List.mem_pair] at hevent
  rcases hevent with rfl | rfl <;>
    exact ⟨⟨by decide, fun finish hfinish ↦ by rw [← Option.some.inj hfinish]; decide⟩,
      fun hlost ↦ absurd hlost (by decide)⟩

/-- An event that ends where a window starts is counted with its recorded duration, and the seconds
are more than the window has. -/
theorem exists_not_secondsExact :
    ∃ tables endpoint startDt endDt nowUtc, startDt ≤ endDt ∧
      (∀ event ∈ tables.endpointEvents, event.endpointId = endpoint.id →
        1000000 ∣ event.startTime ∧ ∀ finish, event.endTime = some finish →
          1000000 ∣ finish ∧ event.durationSeconds * 1000000 = finish - event.startTime) ∧
      ((tables.endpointEvents.filter (·.endpointId = endpoint.id)).Pairwise fun first second ↦
        Disjoint first.span.instants second.span.instants) ∧
      ¬ SecondsExact tables [endpoint.id] endpoint startDt endDt nowUtc := by
  refine ⟨hostTables [hostEvent 0 .up 0 (some 30000000), hostEvent 1 .down 30000000
    (some 60000000)], host, 30000000, 60000000, 60000000, by decide, by decide,
    disjoint_hostEvents, ?_⟩
  rintro ⟨-, -, hle⟩
  exact absurd hle (by decide)

end Lnmp.Reports
