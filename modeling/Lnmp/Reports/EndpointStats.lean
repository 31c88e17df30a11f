import Lnmp.Foundation.GroupBy
import Lnmp.Monitoring.LatestEvents
import Lnmp.Reports.WindowOverlap
import Mathlib.Data.Set.Card

/-!
# The lists of endpoints

`list_with_stats` and `get_detail_with_stats` of `repositories/endpoint_repo.py`, and the routes of
`routers/endpoints.py` over them. The list groups the events of all endpoints, the detail selects
those of one.

In every reachable engine a row has the states that the task of its endpoint has confirmed
(`monitored_of_run`) and the seconds of the window in which an UP event covers it
(`uptimeSeconds_of_run`), and both routes show the same of an endpoint (`getEndpoint_eq_ok_iff`).

Times are microseconds. The columns of an endpoint that are only copied are left out. The order of
the hostnames is a parameter.
-/

set_option autoImplicit false
set_option relaxedAutoImplicit false

namespace Lnmp.Reports

open Lnmp.Foundation Lnmp.Foundation.Eviction Lnmp.Foundation.GroupBy Lnmp.Foundation.Runs
  Lnmp.Monitoring

/-- A row of `endpoints` with the columns that the lists read. -/
structure ListedEndpoint extends Endpoint where
  hostname : String
  monitoringEnabled : Bool
  deriving DecidableEq

/-- A state as the lists show it. -/
inductive ShownState (State : Type)
  | passive
  | monitored (state : State)
  deriving DecidableEq

/-- A row of either query. -/
structure EndpointStats where
  endpoint : ListedEndpoint
  currentOperationalState : ShownState OperationalState
  currentDetailedState : ShownState DetailedState
  currentHealthScore : ℚ
  avgRttMs : Option ℚ
  lastSeen : Option ℤ
  uptimeSeconds : ℤ
  upEventsCount : ℤ
  deriving DecidableEq

/-- The values of the status filter. The last two select no endpoint. -/
inductive StatusFilter
  | active
  | disabled
  | monitored
  | unmonitored
  deriving DecidableEq

/-- `Endpoint.endpoint_status == status`. -/
def StatusFilter.selects : StatusFilter → EndpointStatus → Bool
  | .active, status => status = .active
  | .disabled, status => status = .disabled
  | .monitored, _ | .unmonitored, _ => false

/-- The endpoint has no state of its own. -/
def ListedEndpoint.isPassive (endpoint : ListedEndpoint) : Bool :=
  endpoint.deviceRole = .flowExporter ∨ endpoint.monitoringEnabled = false

/-! ### The queries -/

/-- The condition of `up_counts_sub`, `up_count_sub` and `up_seconds_sub`. -/
def isUpWithin (sinceUtc nowUtc : ℤ) (event : EndpointEvent) : Bool :=
  event.operationalState = .up ∧ event.startTime < nowUtc ∧ event.endTime.all (sinceUtc < ·)

/-- `duration_expr`. -/
def durationWithin (sinceUtc nowUtc : ℤ) (event : EndpointEvent) : ℤ :=
  max 0 (min (event.endTime.getD nowUtc) nowUtc - max event.startTime sinceUtc)

/-- The columns that both queries select. -/
def endpointStats (endpoint : ListedEndpoint) (latest : Option EndpointEvent)
    (upEventsCount duration : ℤ) : EndpointStats where
  endpoint := endpoint
  currentOperationalState :=
    if endpoint.isPassive then .passive
    else .monitored ((latest.map EndpointEvent.operationalState).getD .down)
  currentDetailedState :=
    if endpoint.isPassive then .passive
    else .monitored ((latest.map EndpointEvent.detailedState).getD .down)
  currentHealthScore :=
    if endpoint.isPassive then 100 else (latest.map EndpointEvent.healthScore).getD 0
  avgRttMs := latest.bind EndpointEvent.avgRttMs
  lastSeen := latest.map EndpointEvent.startTime
  uptimeSeconds := totalSeconds duration
  upEventsCount := upEventsCount

/-- `latest_event_sub` of the list. -/
def latestEvents (rows : List EndpointEvent) : Dict EndpointId EndpointEvent :=
  distinctOn EndpointEvent.endpointId
    (byAge (fun event ↦ OrderDual.toDual event.startTime) rows)

/-- The group of an event in `up_counts_sub`. -/
def upGroup (sinceUtc nowUtc : ℤ) (event : EndpointEvent) : Option EndpointId :=
  if isUpWithin sinceUtc nowUtc event then some event.endpointId else none

/-- `up_counts_sub`: how many events an endpoint has, and how long they are. -/
def upCounts (rows : List EndpointEvent) (sinceUtc nowUtc : ℤ) : Dict EndpointId (ℤ × ℤ) :=
  totals (upGroup sinceUtc nowUtc)
    (rows.map fun event ↦ (event, ((1 : ℤ), durationWithin sinceUtc nowUtc event)))

/-- The endpoints that the list selects, in the order of their hostnames. -/
def selectedEndpoints {Rank : Type*} [LinearOrder Rank] (collate : String → Rank)
    (status : Option StatusFilter) (endpoints : List ListedEndpoint) : List ListedEndpoint :=
  byAge (fun endpoint ↦ collate endpoint.hostname)
    (endpoints.filter fun endpoint ↦ endpoint.endpointStatus ≠ .deleted ∧
      status.all (·.selects endpoint.endpointStatus))

/-- `OFFSET` and `LIMIT` of a page and its size. -/
def paginate {Item : Type*} (page : Option (ℕ × ℕ)) (items : List Item) : List Item :=
  match page with
  | none => items
  | some (page, pageSize) => (items.drop ((page - 1) * pageSize)).take pageSize

/-- A row of the list. -/
def listedStats (rows : List EndpointEvent) (sinceUtc nowUtc : ℤ) (endpoint : ListedEndpoint) :
    EndpointStats :=
  let up := ((upCounts rows sinceUtc nowUtc).get? endpoint.id).getD (0, 0)
  endpointStats endpoint ((latestEvents rows).get? endpoint.id) up.1 up.2

/-- `list_with_stats`. -/
def listWithStats {Rank : Type*} [LinearOrder Rank] (collate : String → Rank)
    (endpoints : List ListedEndpoint) (rows : List EndpointEvent) (status : Option StatusFilter)
    (sinceUtc nowUtc : ℤ) (page : Option (ℕ × ℕ)) : List EndpointStats :=
  (paginate page (selectedEndpoints collate status endpoints)).map
    (listedStats rows sinceUtc nowUtc)

/-- The UP events of an endpoint in the detail. -/
def upEvents (rows : List EndpointEvent) (endpointId : EndpointId) (sinceUtc nowUtc : ℤ) :
    List EndpointEvent :=
  rows.filter fun event ↦ event.endpointId = endpointId ∧ isUpWithin sinceUtc nowUtc event

/-- `latest_event_sub` of the detail. -/
def latestEventOf (rows : List EndpointEvent) (endpointId : EndpointId) : Option EndpointEvent :=
  (rows.filter fun event ↦ event.endpointId = endpointId).maxOn? EndpointEvent.startTime

/-- The row of the detail. -/
def detailedStats (rows : List EndpointEvent) (sinceUtc nowUtc : ℤ) (endpoint : ListedEndpoint) :
    EndpointStats :=
  let up := upEvents rows endpoint.id sinceUtc nowUtc
  endpointStats endpoint (latestEventOf rows endpoint.id) up.length
    (up.map (durationWithin sinceUtc nowUtc)).sum

/-- `get_detail_with_stats`. -/
def getDetailWithStats (endpoints : List ListedEndpoint) (rows : List EndpointEvent)
    (endpointId : EndpointId) (sinceUtc nowUtc : ℤ) : Option EndpointStats :=
  (endpoints.find? fun endpoint ↦
    endpoint.id = endpointId ∧ endpoint.endpointStatus ≠ .deleted).map
      (detailedStats rows sinceUtc nowUtc)

/-! ### The routes -/

/-- What both routes show of a row. -/
structure EndpointView where
  endpoint : ListedEndpoint
  currentOperationalState : ShownState OperationalState
  currentDetailedState : ShownState DetailedState
  currentHealthScore : ℚ
  avgRttMs : Option ℚ
  lastSeen : Option ℤ
  uptimePercentage24h : ℚ
  deriving DecidableEq

/-- The view of a row, with the availability in the window of the routes. -/
def endpointView (roundedPercentage : ℤ → ℤ → ℚ) (gapIntervals : List (ℤ × ℤ))
    (sinceUtc nowUtc : ℤ) (row : EndpointStats) : EndpointView where
  endpoint := row.endpoint
  currentOperationalState := row.currentOperationalState
  currentDetailedState := row.currentDetailedState
  currentHealthScore := row.currentHealthScore
  avgRttMs := row.avgRttMs
  lastSeen := row.lastSeen
  uptimePercentage24h := calculateUptimeDenominatorAndPercentage roundedPercentage
    row.endpoint.createdAt sinceUtc nowUtc nowUtc row.upEventsCount 0 (some gapIntervals)
    (some row.uptimeSeconds)

/-- Twenty-four hours. -/
def statsWindow : ℤ := 86400000000

/-- The page of a request, with the defaults for what it leaves out. -/
def requestedPage : Option ℕ → Option ℕ → Option (ℕ × ℕ)
  | none, none => none
  | some page, none => some (page, 50)
  | none, some pageSize => some (1, pageSize)
  | some page, some pageSize => some (page, pageSize)

/-- `list_endpoints`, with the parsed filter. -/
def listEndpoints {Rank : Type*} [LinearOrder Rank] (collate : String → Rank)
    (roundedPercentage : ℤ → ℤ → ℚ) (endpoints : List ListedEndpoint) (database : Database)
    (status : Option StatusFilter) (page pageSize : Option ℕ) (nowUtc : ℤ) : List EndpointView :=
  let sinceUtc := nowUtc - statsWindow
  let gapIntervals := getServiceGapIntervals database.serviceEvents sinceUtc nowUtc
  (listWithStats collate endpoints database.endpointEvents status sinceUtc nowUtc
    (requestedPage page pageSize)).map
      (endpointView roundedPercentage gapIntervals sinceUtc nowUtc)

/-- `get_endpoint`. -/
def getEndpoint (roundedPercentage : ℤ → ℤ → ℚ) (endpoints : List ListedEndpoint)
    (database : Database) (endpointId : EndpointId) (nowUtc : ℤ) : Except HttpError EndpointView :=
  let sinceUtc := nowUtc - statsWindow
  match getDetailWithStats endpoints database.endpointEvents endpointId sinceUtc nowUtc with
  | none => .error ⟨404, "Endpoint not found."⟩
  | some row =>
    let gapIntervals := getServiceGapIntervals database.serviceEvents sinceUtc nowUtc
    .ok (endpointView roundedPercentage gapIntervals sinceUtc nowUtc row)

/-! ### One endpoint of the list -/

section Queries

variable {rows : List EndpointEvent} {endpointId : EndpointId} {event : EndpointEvent}
  {sinceUtc nowUtc : ℤ}

/-- The counts of the list are those of the detail. -/
theorem getD_upCounts (rows : List EndpointEvent) (endpointId : EndpointId) (sinceUtc nowUtc : ℤ) :
    ((upCounts rows sinceUtc nowUtc).get? endpointId).getD (0, 0) =
      (((upEvents rows endpointId sinceUtc nowUtc).length : ℤ),
        ((upEvents rows endpointId sinceUtc nowUtc).map (durationWithin sinceUtc nowUtc)).sum) := by
  refine (getD_totals _ _ endpointId).trans ?_
  rw [List.map_map, upEvents]
  induction rows with
  | nil => rfl
  | cons event rest ih =>
    rw [List.map_cons, List.sum_cons, ih, List.filter_cons, Function.comp_apply, upGroup]
    by_cases hup : isUpWithin sinceUtc nowUtc event
    · by_cases hendpoint : event.endpointId = endpointId
      · simp [hup, hendpoint, add_comm]
      · simp [hup, hendpoint]
    · simp [hup]

theorem isLatest_of_latestEventOf (hlatest : latestEventOf rows endpointId = some event) :
    IsLatest rows endpointId event := by
  obtain ⟨hmem, hsame⟩ := List.mem_filter.mp (List.maxOn?_mem hlatest)
  refine ⟨hmem, of_decide_eq_true hsame, fun other hother hendpoint ↦ ?_⟩
  have hfiltered : other ∈ rows.filter fun event ↦ event.endpointId = endpointId :=
    List.mem_filter.mpr ⟨hother, decide_eq_true hendpoint⟩
  have hle := List.le_apply_get_maxOn?_of_mem (f := EndpointEvent.startTime) hfiltered
  rw [latestEventOf] at hlatest
  simpa [hlatest] using hle

theorem latestEventOf_eq_none_iff :
    latestEventOf rows endpointId = none ↔ ∀ event ∈ rows, event.endpointId ≠ endpointId := by
  rw [latestEventOf, ← Option.not_isSome_iff_eq_none, List.isSome_maxOn?_iff, not_not,
    List.filter_eq_nil_iff]
  simp only [decide_eq_true_eq, ne_eq]

theorem get?_latestEvents (rows : List EndpointEvent) (endpointId : EndpointId) :
    (latestEvents rows).get? endpointId =
      (byAge (fun event ↦ OrderDual.toDual event.startTime)
        (rows.filter fun event ↦ event.endpointId = endpointId)).head? := by
  rw [latestEvents, get?_distinctOn, byAge_filter, List.head?_filter]

theorem isLatest_of_latestEvents (hlatest : (latestEvents rows).get? endpointId = some event) :
    IsLatest rows endpointId event := by
  rw [get?_latestEvents] at hlatest
  obtain ⟨rest, hsorted⟩ := List.head?_eq_some_iff.mp hlatest
  have hmem : ∀ other, other ∈ event :: rest ↔ other ∈ rows ∧ other.endpointId = endpointId := by
    intro other
    rw [← hsorted, (perm_byAge _ _).mem_iff, List.mem_filter, decide_eq_true_eq]
  have horder := pairwise_byAge (fun event : EndpointEvent ↦ OrderDual.toDual event.startTime)
    (rows.filter fun event ↦ event.endpointId = endpointId)
  rw [hsorted, List.pairwise_cons] at horder
  obtain ⟨hrow, howner⟩ := (hmem event).mp (List.mem_cons_self ..)
  refine ⟨hrow, howner, fun other hother hendpoint ↦ ?_⟩
  rcases List.mem_cons.mp ((hmem other).mpr ⟨hother, hendpoint⟩) with rfl | hrest
  · exact le_rfl
  · exact OrderDual.toDual_le_toDual.mp (horder.1 other hrest)

theorem get?_latestEvents_eq_none_iff :
    (latestEvents rows).get? endpointId = none ↔
      ∀ event ∈ rows, event.endpointId ≠ endpointId := by
  rw [get?_latestEvents, List.head?_eq_none_iff, ← List.length_eq_zero_iff,
    (perm_byAge _ _).length_eq, List.length_eq_zero_iff, List.filter_eq_nil_iff]
  simp only [decide_eq_true_eq, ne_eq]

/-- Both queries find the same latest event, as it is unique. -/
theorem get?_latestEvents_eq {database : Database} {now : ℤ}
    (hcoherent : Coherent database now) (endpointId : EndpointId) :
    (latestEvents database.endpointEvents).get? endpointId =
      latestEventOf database.endpointEvents endpointId := by
  cases hlatest : latestEventOf database.endpointEvents endpointId with
  | none => exact get?_latestEvents_eq_none_iff.mpr (latestEventOf_eq_none_iff.mp hlatest)
  | some event =>
    have hevent := isLatest_of_latestEventOf hlatest
    cases hfound : (latestEvents database.endpointEvents).get? endpointId with
    | none =>
      exact absurd hevent.owner (get?_latestEvents_eq_none_iff.mp hfound event hevent.mem)
    | some found =>
      rw [(isLatest_of_latestEvents hfound).unique hcoherent hevent]

/-- The latest event of the queries. -/
theorem latestEventOf_eq_some {database : Database} {now : ℤ} (hcoherent : Coherent database now)
    (hlatest : IsLatest database.endpointEvents endpointId event) :
    latestEventOf database.endpointEvents endpointId = some event := by
  cases hfound : latestEventOf database.endpointEvents endpointId with
  | none => exact absurd hlatest.owner (latestEventOf_eq_none_iff.mp hfound event hlatest.mem)
  | some found => rw [(isLatest_of_latestEventOf hfound).unique hcoherent hlatest]

/-! ### The seconds of a window -/

/-- The instants of a window in which an UP event of the endpoint covers. -/
def upInstants (rows : List EndpointEvent) (endpointId : EndpointId) (sinceUtc nowUtc : ℤ) :
    Set ℤ :=
  {instant | (sinceUtc ≤ instant ∧ instant < nowUtc) ∧ ∃ event ∈ rows,
    event.endpointId = endpointId ∧ event.operationalState = .up ∧ instant ∈ event.span.instants}

theorem durationWithin_eq_card (sinceUtc nowUtc : ℤ) (event : EndpointEvent) :
    durationWithin sinceUtc nowUtc event =
      ((event.span.instantsWithin sinceUtc nowUtc).card : ℤ) := by
  rw [Span.instantsWithin, Int.card_Ico, Int.toNat_eq_max, max_comm]
  rfl

/-- An event that covers an instant of the window is selected. -/
theorem isUpWithin_of_mem {instant : ℤ} (hup : event.operationalState = .up)
    (hmem : instant ∈ event.span.instantsWithin sinceUtc nowUtc) :
    isUpWithin sinceUtc nowUtc event = true := by
  obtain ⟨⟨hsince, hnow⟩, hinstant⟩ := Span.mem_instantsWithin_iff.mp hmem
  obtain ⟨hstart, hfinish⟩ := Span.mem_instants_iff.mp hinstant
  refine decide_eq_true ⟨hup, lt_of_le_of_lt hstart hnow, ?_⟩
  rw [Option.all_eq_true]
  exact fun finish hclosed ↦ decide_eq_true (lt_of_le_of_lt hsince (hfinish finish hclosed))

/-- The instants of the window are those of the selected events. -/
theorem coe_union_instantsWithin (rows : List EndpointEvent) (endpointId : EndpointId)
    (sinceUtc nowUtc : ℤ) :
    (Cover.union ((upEvents rows endpointId sinceUtc nowUtc).map fun event ↦
      event.span.instantsWithin sinceUtc nowUtc) : Set ℤ) =
        upInstants rows endpointId sinceUtc nowUtc := by
  ext instant
  rw [Finset.mem_coe, Cover.mem_union]
  constructor
  · rintro ⟨part, hpart, hmem⟩
    obtain ⟨event, hevent, rfl⟩ := List.mem_map.mp hpart
    obtain ⟨hrow, hselects⟩ := List.mem_filter.mp hevent
    obtain ⟨hendpoint, hup⟩ := of_decide_eq_true hselects
    obtain ⟨hwindow, hinstant⟩ := Span.mem_instantsWithin_iff.mp hmem
    exact ⟨hwindow, event, hrow, hendpoint, (of_decide_eq_true hup).1, hinstant⟩
  · rintro ⟨hwindow, event, hrow, hendpoint, hup, hinstant⟩
    have hmem : instant ∈ event.span.instantsWithin sinceUtc nowUtc :=
      Span.mem_instantsWithin_iff.mpr ⟨hwindow, hinstant⟩
    refine ⟨_, List.mem_map_of_mem (List.mem_filter.mpr ⟨hrow, ?_⟩), hmem⟩
    exact decide_eq_true ⟨hendpoint, isUpWithin_of_mem hup hmem⟩

/-- The durations of the events add up to the instants, as no instant is covered twice. -/
theorem sum_durationWithin {database : Database} {now : ℤ} (hcoherent : Coherent database now)
    (endpointId : EndpointId) (sinceUtc nowUtc : ℤ) :
    ((upEvents database.endpointEvents endpointId sinceUtc nowUtc).map
      (durationWithin sinceUtc nowUtc)).sum =
        ((upInstants database.endpointEvents endpointId sinceUtc nowUtc).ncard : ℤ) := by
  have hdisjoint : ((upEvents database.endpointEvents endpointId sinceUtc nowUtc).map fun event ↦
      event.span.instantsWithin sinceUtc nowUtc).Pairwise Disjoint := by
    rw [List.pairwise_map]
    refine List.Pairwise.imp_of_mem (fun {first second} hfirst hsecond hbefore ↦ ?_)
      (hcoherent.ordered.sublist List.filter_sublist)
    have hsame : first.endpointId = second.endpointId :=
      (of_decide_eq_true (List.mem_filter.mp hfirst).2).1.trans
        (of_decide_eq_true (List.mem_filter.mp hsecond).2).1.symm
    rw [Finset.disjoint_left]
    intro instant hone htwo
    exact Set.disjoint_left.mp (hbefore.precedes hsame).disjoint
      (Span.mem_instantsWithin_iff.mp hone).2 (Span.mem_instantsWithin_iff.mp htwo).2
  rw [← coe_union_instantsWithin, Set.ncard_coe_finset, Cover.card_union_of_pairwise hdisjoint,
    List.map_map, Nat.cast_list_sum, List.map_map]
  exact congrArg List.sum (List.map_congr_left fun event _ ↦ durationWithin_eq_card ..)

end Queries

/-! ### Reachable engines -/

section Runs

variable {Rank : Type*} [LinearOrder Rank] {collate : String → Rank} {threshold numWorkers : ℕ}
  {start : ℤ} {events : List Event} {finish : Engine} {endpoints : List ListedEndpoint}
  {endpoint : ListedEndpoint} {status : Option StatusFilter} {sinceUtc nowUtc : ℤ}
  {page : Option (ℕ × ℕ)} {row : EndpointStats}

/-- A row of the list is that of the detail for its endpoint. -/
theorem listedStats_eq (hcoherent : finish.Coherent) (endpoint : ListedEndpoint)
    (sinceUtc nowUtc : ℤ) :
    listedStats finish.database.endpointEvents sinceUtc nowUtc endpoint =
      detailedStats finish.database.endpointEvents sinceUtc nowUtc endpoint := by
  rw [listedStats, getD_upCounts, get?_latestEvents_eq hcoherent.database, detailedStats]

/-- The rows of the list. -/
theorem mem_listWithStats (hcoherent : finish.Coherent)
    (hrow : row ∈ listWithStats collate endpoints finish.database.endpointEvents status sinceUtc
      nowUtc page) :
    row.endpoint ∈ paginate page (selectedEndpoints collate status endpoints) ∧
      row = detailedStats finish.database.endpointEvents sinceUtc nowUtc row.endpoint := by
  obtain ⟨endpoint, hendpoint, rfl⟩ := List.mem_map.mp hrow
  exact ⟨hendpoint, listedStats_eq hcoherent endpoint sinceUtc nowUtc⟩

/-- In every reachable engine, the seconds of a listed endpoint are the whole seconds of the window
in which it has an UP event. -/
theorem uptimeSeconds_of_run
    (hrun : run (step threshold numWorkers) (Engine.start start) events = some finish)
    (hrow : row ∈ listWithStats collate endpoints finish.database.endpointEvents status sinceUtc
      nowUtc page) :
    row.uptimeSeconds = ((upInstants finish.database.endpointEvents row.endpoint.id sinceUtc
      nowUtc).ncard / 1000000 : ℕ) := by
  have hcoherent := coherent_of_run hrun
  rw [(mem_listWithStats hcoherent hrow).2]
  show totalSeconds ((upEvents finish.database.endpointEvents row.endpoint.id sinceUtc nowUtc).map
    (durationWithin sinceUtc nowUtc)).sum = _
  rw [sum_durationWithin hcoherent.database]
  exact totalSeconds_natCast _

/-- In every reachable engine, a listed endpoint that has a task is shown with the states that the
task has confirmed, unless it is passive. -/
theorem monitored_of_run
    (hrun : run (step threshold numWorkers) (Engine.start start) events = some finish)
    (hrow : row ∈ listWithStats collate endpoints finish.database.endpointEvents status sinceUtc
      nowUtc page) {state : EndpointState}
    (htask : finish.tasks row.endpoint.id = some (some state))
    (hactive : row.endpoint.isPassive = false) :
    row.currentOperationalState = .monitored state.confirmedOperationalState ∧
      row.currentDetailedState = .monitored state.confirmedDetailedState := by
  have hcoherent := coherent_of_run hrun
  obtain ⟨event, hlatest, hshows⟩ := latestShown_of_run hrun row.endpoint.id state htask
  have hevent := latestEventOf_eq_some hcoherent.database hlatest
  rw [(mem_listWithStats hcoherent hrow).2, detailedStats, hevent, endpointStats, hactive,
    ← hshows.operationalState, ← hshows.detailedState]
  exact ⟨rfl, rfl⟩

/-- The list without a filter has the endpoints that are not deleted. -/
theorem mem_selectedEndpoints : endpoint ∈ selectedEndpoints collate none endpoints ↔
    endpoint ∈ endpoints ∧ endpoint.endpointStatus ≠ .deleted := by
  rw [selectedEndpoints, (perm_byAge _ _).mem_iff, List.mem_filter, decide_eq_true_eq]
  exact and_congr_right fun _ ↦ and_iff_left rfl

/-- The endpoint of an id is unique. -/
theorem find?_endpoint_iff (hids : (endpoints.map (·.id)).Nodup) {endpointId : EndpointId} :
    (endpoints.find? fun endpoint ↦
        endpoint.id = endpointId ∧ endpoint.endpointStatus ≠ .deleted) = some endpoint ↔
      endpoint ∈ endpoints ∧ endpoint.id = endpointId ∧ endpoint.endpointStatus ≠ .deleted := by
  constructor
  · intro hfind
    have hselects := List.find?_some hfind
    exact ⟨List.mem_of_find?_eq_some hfind, of_decide_eq_true hselects⟩
  · rintro ⟨hmem, hid, hstatus⟩
    cases hfind : endpoints.find? fun endpoint ↦
        endpoint.id = endpointId ∧ endpoint.endpointStatus ≠ .deleted with
    | none =>
      exact absurd (decide_eq_true ⟨hid, hstatus⟩) (List.find?_eq_none.mp hfind endpoint hmem)
    | some found =>
      have hselects := List.find?_some hfind
      rw [List.inj_on_of_nodup_map hids (List.mem_of_find?_eq_some hfind) hmem
        ((of_decide_eq_true hselects).1.trans hid.symm)]

/-- In every reachable engine, the detail shows of an endpoint what the list does. -/
theorem getEndpoint_eq_ok_iff
    (hrun : run (step threshold numWorkers) (Engine.start start) events = some finish)
    (hids : (endpoints.map (·.id)).Nodup) (collate : String → Rank)
    (roundedPercentage : ℤ → ℤ → ℚ) (endpointId : EndpointId) (view : EndpointView) :
    getEndpoint roundedPercentage endpoints finish.database endpointId nowUtc = .ok view ↔
      view ∈ listEndpoints collate roundedPercentage endpoints finish.database none none none
        nowUtc ∧ view.endpoint.id = endpointId := by
  have hcoherent := coherent_of_run hrun
  rw [getEndpoint, getDetailWithStats]
  dsimp only
  constructor
  · intro hview
    split at hview
    · cases hview
    · rename_i found hfound
      obtain ⟨endpoint, hfind, rfl⟩ := Option.map_eq_some_iff.mp hfound
      obtain ⟨hmem, rfl, hstatus⟩ := (find?_endpoint_iff hids).mp hfind
      obtain rfl := Except.ok.inj hview
      refine ⟨List.mem_map_of_mem (List.mem_map.mpr ⟨endpoint, ?_, ?_⟩), rfl⟩
      · exact mem_selectedEndpoints.mpr ⟨hmem, hstatus⟩
      · exact listedStats_eq hcoherent endpoint _ _
  · rintro ⟨hview, rfl⟩
    obtain ⟨row, hrow, rfl⟩ := List.mem_map.mp hview
    obtain ⟨hlisted, hsame⟩ := mem_listWithStats hcoherent hrow
    obtain ⟨hmem, hstatus⟩ := mem_selectedEndpoints.mp hlisted
    have hfind := (find?_endpoint_iff hids).mpr ⟨hmem, rfl, hstatus⟩
    rw [endpointView, hfind, Option.map_some, ← hsame]
    rfl

end Runs

/-- An endpoint of the lists. -/
def listedEndpoint (id : EndpointId) (hostname : String) (deviceRole : DeviceRole) :
    ListedEndpoint where
  id := id
  endpointStatus := .active
  deviceRole := deviceRole
  createdAt := 0
  deletedAt := none
  hostname := hostname
  monitoringEnabled := true

/-- A host and an exporter. -/
def listedEndpoints : List ListedEndpoint :=
  [listedEndpoint 7 "web-01" .activeHost, listedEndpoint 8 "core-gw" .flowExporter]

/-- The host answers at three seconds and then no more, and a gap begins later. -/
def outageEvents : List Event :=
  [⟨1000000, .restart 0⟩, ⟨2000000, .spawn Environment.empty 7⟩,
    ⟨3000000, .createInitial Environment.empty 7 ⟨5, 0, some 2⟩ none⟩,
    ⟨30000000, .processCycle Environment.empty 7 ⟨0, 5, none⟩ none 30⟩,
    ⟨60000000, .processCycle Environment.empty 7 ⟨0, 5, none⟩ none 60⟩,
    ⟨90000000, .openGap .databaseDisconnect none⟩]

theorem isSome_run_outageEvents : (run (step 1 1) (Engine.start 0) outageEvents).isSome := by
  decide +kernel

/-- The engine in the gap. -/
def outageEngine : Engine :=
  (run (step 1 1) (Engine.start 0) outageEvents).get isSome_run_outageEvents

theorem run_outageEvents : run (step 1 1) (Engine.start 0) outageEvents = some outageEngine :=
  (Option.some_get _).symm

/-- The row of the host. -/
def outageRow : EndpointStats where
  endpoint := listedEndpoint 7 "web-01" .activeHost
  currentOperationalState := .monitored .down
  currentDetailedState := .monitored .down
  currentHealthScore := 0
  avgRttMs := none
  lastSeen := some 60000000
  uptimeSeconds := 57
  upEventsCount := 1

theorem outageRow_mem : outageRow ∈ listWithStats String.length listedEndpoints
    outageEngine.database.endpointEvents none 0 100000000 none := by
  decide +kernel

theorem uptimeSeconds_of_run_outage :
    outageRow.uptimeSeconds = ((upInstants outageEngine.database.endpointEvents
      outageRow.endpoint.id 0 100000000).ncard / 1000000 : ℕ) :=
  uptimeSeconds_of_run run_outageEvents outageRow_mem

theorem isSome_outageTask : ((outageEngine.tasks 7).bind id).isSome := by decide +kernel

/-- The state of the task of the host. -/
def outageState : EndpointState := ((outageEngine.tasks 7).bind id).get isSome_outageTask

theorem outageTask : outageEngine.tasks outageRow.endpoint.id = some (some outageState) := by
  decide +kernel

theorem monitored_of_run_outage :
    outageRow.currentOperationalState = .monitored outageState.confirmedOperationalState ∧
      outageRow.currentDetailedState = .monitored outageState.confirmedDetailedState :=
  monitored_of_run run_outageEvents outageRow_mem outageTask (by decide)

/-- The view of the host. -/
def outageView : EndpointView :=
  endpointView (fun seconds total ↦ seconds * 100 / total) [(90000000, 100000000)]
    (100000000 - statsWindow) 100000000 outageRow

theorem getEndpoint_eq_ok_iff_outage :
    getEndpoint (fun seconds total ↦ seconds * 100 / total) listedEndpoints outageEngine.database 7
        100000000 = .ok outageView ↔
      outageView ∈ listEndpoints String.length (fun seconds total ↦ seconds * 100 / total)
          listedEndpoints outageEngine.database none none none 100000000 ∧
        outageView.endpoint.id = 7 :=
  getEndpoint_eq_ok_iff run_outageEvents (by decide) ..

end Lnmp.Reports
