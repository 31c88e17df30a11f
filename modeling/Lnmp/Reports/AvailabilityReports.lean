import Lnmp.Foundation.Eviction
import Lnmp.Foundation.Http
import Lnmp.Foundation.IdentityMap
import Lnmp.Foundation.Uuid
import Lnmp.Reports.UptimeCalculator

/-!
# The availability reports

The three reports that give the availability of an endpoint within a window: `get_uptime_report` and
`get_fleet_summary` of `routers/reports.py`, and `compile_availability_report_data` of
`services/report_compiler.py`. Each reads the events of the endpoint and adds up their seconds and
incidents in its own way.

The compiled report, and the fleet summary when its query fails, load the events of several
endpoints at once. The events are then objects of the session, which has one object for a primary
key. The only key of `EndpointEvent` is `start_time`, so that events of several endpoints that start
together are all read as the first of them.

Times are microseconds, and all reports are made at one time. Events with the same start keep the
order of the table.
-/

set_option autoImplicit false
set_option relaxedAutoImplicit false

namespace Lnmp.Reports

open Lnmp.Foundation Lnmp.Foundation.Eviction Lnmp.Monitoring

/-- The values of `endpoint_status` that the table admits. -/
inductive EndpointStatus
  | active
  | disabled
  | deleted
  deriving DecidableEq

/-- The values of `device_role` that the table admits. -/
inductive DeviceRole
  | activeHost
  | flowExporter
  | hybridGateway
  | l2Switch
  deriving DecidableEq

/-- A row of `endpoints`. -/
structure Endpoint where
  id : EndpointId
  endpointStatus : EndpointStatus
  deviceRole : DeviceRole
  createdAt : ℤ
  deletedAt : Option ℤ
  deriving DecidableEq

/-- The tables that the reports read. -/
structure Tables where
  endpoints : List Endpoint
  endpointEvents : List EndpointEvent
  serviceEvents : List ServiceEvent

/-- The tables with the events in another order. -/
def Tables.reorder (tables : Tables) (endpointEvents : List EndpointEvent) : Tables :=
  { tables with endpointEvents := endpointEvents }

/-! ### Events within a window -/

/-- The events of an endpoint that start by the end of a window and do not end before its start, in
the order of their starts. -/
def eventsWithin (endpointEvents : List EndpointEvent) (endpointId : EndpointId)
    (startDt endDt : ℤ) : List EndpointEvent :=
  (endpointEvents.filter fun event ↦ event.endpointId = endpointId ∧ event.startTime ≤ endDt ∧
    event.endTime.all (startDt ≤ ·)).insertionSort
      fun first second ↦ first.startTime ≤ second.startTime

/-- The rows of a window. -/
def selectedEvents (endpointEvents : List EndpointEvent) (startDt endDt : ℤ) :
    List EndpointEvent :=
  endpointEvents.filter fun event ↦ event.endTime.all (startDt ≤ ·) ∧ event.startTime ≤ endDt

/-- The objects of the session for some rows: of the rows with one start, the first. -/
def loadedEvents (rows : List EndpointEvent) : List EndpointEvent :=
  IdentityMap.loaded EndpointEvent.startTime rows

/-- The rows of a window that belong to certain endpoints. -/
def rowsOf (endpointEvents : List EndpointEvent) (loads : EndpointId → Bool) (startDt endDt : ℤ) :
    List EndpointEvent :=
  (selectedEvents endpointEvents startDt endDt).filter fun event ↦ loads event.endpointId

/-- The events that a report finds for an endpoint (`evs`), which loads those of certain
endpoints in the order of their starts. -/
def eventsOfEndpoint (endpointEvents : List EndpointEvent) (loads : EndpointId → Bool)
    (endpointId : EndpointId) (startDt endDt : ℤ) : List EndpointEvent :=
  (loadedEvents (byAge EndpointEvent.startTime
    (rowsOf endpointEvents loads startDt endDt))).filter (·.endpointId = endpointId)

/-- How long an event is within a window. An open event lasts until now. -/
def timeWithin (startDt endDt nowUtc : ℤ) (event : EndpointEvent) : ℤ :=
  min endDt (event.endTime.getD nowUtc) - max startDt event.startTime

/-- The seconds of an event for `get_uptime_report`. -/
def clampedSeconds (startDt endDt nowUtc : ℤ) (event : EndpointEvent) : ℤ :=
  max 0 (totalSeconds (timeWithin startDt endDt nowUtc event))

/-- The seconds of an event for `compile_availability_report_data`, which takes the recorded
duration where there are none. -/
def clampedOrRecordedSeconds (startDt endDt nowUtc : ℤ) (event : EndpointEvent) : ℤ :=
  let dur := clampedSeconds startDt endDt nowUtc event
  if dur = 0 ∧ 0 < event.durationSeconds then event.durationSeconds else dur

/-- `clamped_duration`, the seconds of an event in the query of `get_fleet_summary`. -/
def clampedDuration (startDt endDt nowUtc : ℤ) (event : EndpointEvent) : ℤ :=
  epochSeconds (max 0 (timeWithin startDt endDt nowUtc event))

/-- The seconds of the events in a state. -/
def secondsIn (state : OperationalState) (seconds : EndpointEvent → ℤ)
    (events : List EndpointEvent) : ℤ :=
  ((events.filter (·.operationalState = state)).map seconds).sum

/-- The number of events in a state. -/
def countIn (state : OperationalState) (events : List EndpointEvent) : ℕ :=
  events.countP (·.operationalState = state)

/-- The loops over the events that count those that begin an incident. -/
def countIncidents (prevState : Option OperationalState) :
    List EndpointEvent → ℕ
  | [] => 0
  | event :: events =>
    countIncidents (some event.operationalState) events +
      if event.operationalState = .down ∧ prevState ≠ some .down then 1 else 0

/-- `LAG(operational_state)` for each of the events. -/
def prevStates (events : List EndpointEvent) : List (Option OperationalState) :=
  none :: events.map fun event ↦ some event.operationalState

/-! ### The uptime report -/

/-- `_validate_date_range`. -/
def validateDateRange (startDt endDt : ℤ) : Except HttpError Unit :=
  if endDt < startDt then .error ⟨400, "start_date must be before or equal to end_date."⟩
  else if 730 * 86400000000 < endDt - startDt then
    .error ⟨400, "Date range cannot exceed 730 days."⟩
  else .ok ()

/-- The answer of `get_uptime_report`. -/
structure UptimeReport where
  endpointId : EndpointId
  periodStart : ℤ
  periodEnd : ℤ
  totalSeconds : ℤ
  uptimeSeconds : ℤ
  downtimeSeconds : ℤ
  unknownSeconds : ℤ
  uptimePercentage : ℚ
  incidentCount : ℕ

/-- What `get_uptime_report` answers for an endpoint that it found. -/
def uptimeReport (roundedPercentage : ℤ → ℤ → ℚ) (tables : Tables) (endpoint : Endpoint)
    (startDt endDt nowUtc : ℤ) : UptimeReport :=
  let effectiveStart := max startDt endpoint.createdAt
  let effectiveEnd := min endDt nowUtc
  let gapIntervals := getServiceGapIntervals tables.serviceEvents startDt endDt
  let unknownSeconds := calculateDeviceGapSeconds effectiveStart effectiveEnd gapIntervals
  let events :=
    loadedEvents (eventsWithin tables.endpointEvents endpoint.id effectiveStart endDt)
  let uptimeSeconds := secondsIn .up (clampedSeconds startDt endDt nowUtc) events
  { endpointId := endpoint.id
    periodStart := startDt
    periodEnd := endDt
    totalSeconds := max 0 (totalSeconds (effectiveEnd - effectiveStart))
    uptimeSeconds := uptimeSeconds
    downtimeSeconds := secondsIn .down (clampedSeconds startDt endDt nowUtc) events
    unknownSeconds := unknownSeconds
    uptimePercentage := calculateUptimeDenominatorAndPercentage roundedPercentage
      endpoint.createdAt startDt endDt nowUtc (uptimeSeconds / 60) unknownSeconds
      (some gapIntervals) (some uptimeSeconds)
    incidentCount := countIncidents none events }

/-- `get_uptime_report`. -/
def getUptimeReport (roundedPercentage : ℤ → ℤ → ℚ) (tables : Tables) (endpointId : EndpointId)
    (startDt endDt nowUtc : ℤ) : Except HttpError UptimeReport :=
  match validateDateRange startDt endDt with
  | .error error => .error error
  | .ok _ =>
    match tables.endpoints.find? fun endpoint ↦
        endpoint.id = endpointId ∧ endpoint.endpointStatus ≠ .deleted with
    | none => .error ⟨404, "Endpoint not found."⟩
    | some endpoint => .ok (uptimeReport roundedPercentage tables endpoint startDt endDt nowUtc)

/-! ### The fleet summary -/

/-- A row of `stats_map`. -/
structure FleetStats where
  upSeconds : ℤ
  downSeconds : ℤ
  upCount : ℕ
  downCount : ℕ
  incidentCount : ℕ

/-- The row that the query with `ranked_events` gives an endpoint, if it has events. -/
def rankedStats (startDt endDt nowUtc : ℤ) (events : List EndpointEvent) : Option FleetStats :=
  if events = [] then none
  else some {
    upSeconds := secondsIn .up (clampedDuration startDt endDt nowUtc) events
    downSeconds := secondsIn .down (clampedDuration startDt endDt nowUtc) events
    upCount := countIn .up events
    downCount := countIn .down events
    incidentCount := ((prevStates events).zip events).countP fun ranked ↦
      ranked.2.operationalState = .down ∧ (ranked.1 = none ∨ ranked.1 ≠ some .down) }

/-- The row that the manual fallback gives an endpoint, if it has events. -/
def groupedStats (startDt endDt nowUtc : ℤ) (events : List EndpointEvent) : Option FleetStats :=
  if events = [] then none
  else some {
    upSeconds := secondsIn .up (clampedOrRecordedSeconds startDt endDt nowUtc) events
    downSeconds := secondsIn .down (clampedOrRecordedSeconds startDt endDt nowUtc) events
    upCount := countIn .up events
    downCount := countIn .down events
    incidentCount := countIncidents none events }

/-- A `FleetEndpointSummary`. -/
structure FleetEndpointSummary where
  id : EndpointId
  uptimePercentage : ℚ
  incidentCount : ℕ
  uptimeSeconds : ℤ
  downtimeSeconds : ℤ
  totalSeconds : ℤ
  deviceRole : DeviceRole

/-- The summary of an endpoint. The query may have failed. -/
def fleetEndpointSummary (roundedPercentage : ℤ → ℤ → ℚ) (queryFails : Bool) (tables : Tables)
    (startDt endDt nowUtc : ℤ) (endpoint : Endpoint) : FleetEndpointSummary :=
  let stats :=
    if queryFails then
      groupedStats startDt endDt nowUtc
        (eventsOfEndpoint tables.endpointEvents (fun _ ↦ true) endpoint.id startDt endDt)
    else
      rankedStats startDt endDt nowUtc
        (eventsWithin tables.endpointEvents endpoint.id startDt endDt)
  let upCount := (stats.map (·.upCount)).getD 0
  let downCount := (stats.map (·.downCount)).getD 0
  let incidentCount := (stats.map (·.incidentCount)).getD 0
  let effectiveStart := max startDt endpoint.createdAt
  let effectiveEnd := min endDt nowUtc
  let seconds := max 0 (totalSeconds (effectiveEnd - effectiveStart))
  let gapIntervals := getServiceGapIntervals tables.serviceEvents startDt endDt
  let unknownSeconds := calculateDeviceGapSeconds effectiveStart effectiveEnd gapIntervals
  let upSec := (stats.map (·.upSeconds)).getD (upCount * 60)
  let downSec := (stats.map (·.downSeconds)).getD (downCount * 60)
  let isExporter := decide (endpoint.deviceRole = .flowExporter)
  { id := endpoint.id
    uptimePercentage :=
      if isExporter then 100
      else calculateUptimeDenominatorAndPercentage roundedPercentage endpoint.createdAt startDt
        endDt nowUtc upCount unknownSeconds (some gapIntervals) (some upSec)
    incidentCount := if isExporter then 0 else incidentCount
    uptimeSeconds := if isExporter then seconds else upSec
    downtimeSeconds := if isExporter then 0 else downSec
    totalSeconds := seconds
    deviceRole := endpoint.deviceRole }

/-- The endpoints of `get_fleet_summary`. -/
def getFleetSummary (roundedPercentage : ℤ → ℤ → ℚ) (queryFails : Bool) (tables : Tables)
    (startDt endDt nowUtc : ℤ) : Except HttpError (List FleetEndpointSummary) :=
  match validateDateRange startDt endDt with
  | .error error => .error error
  | .ok _ => .ok ((tables.endpoints.filter (·.endpointStatus ≠ .deleted)).map
      (fleetEndpointSummary roundedPercentage queryFails tables startDt endDt nowUtc))

/-! ### The compiled report -/

/-- A row of the compiled report. -/
structure EndpointRow where
  id : EndpointId
  uptimePercentage : ℚ
  incidentCount : ℕ
  downtimeSeconds : ℤ

/-- The row of an endpoint. -/
def endpointRow (roundedPercentage : ℤ → ℤ → ℚ) (tables : Tables) (endpointIds : List EndpointId)
    (startDt endDt nowUtc : ℤ) (endpoint : Endpoint) : EndpointRow :=
  let events :=
    eventsOfEndpoint tables.endpointEvents (fun id ↦ id ∈ endpointIds) endpoint.id startDt endDt
  let upSec := secondsIn .up (clampedOrRecordedSeconds startDt endDt nowUtc) events
  let downSec := secondsIn .down (clampedOrRecordedSeconds startDt endDt nowUtc) events
  let gapIntervals := getServiceGapIntervals tables.serviceEvents startDt endDt
  let unknownSec := calculateDeviceGapSeconds (max startDt endpoint.createdAt) (min endDt nowUtc)
    gapIntervals
  let isExporter := decide (endpoint.deviceRole = .flowExporter)
  { id := endpoint.id
    uptimePercentage :=
      if isExporter then 100
      else calculateUptimeDenominatorAndPercentage roundedPercentage endpoint.createdAt startDt
        endDt nowUtc (countIn .up events) unknownSec (some gapIntervals) (some upSec)
    incidentCount := if isExporter then 0 else countIn .down events
    downtimeSeconds := if isExporter then 0 else downSec }

/-- The endpoint rows of `compile_availability_report_data`. -/
def compileAvailabilityReportData (roundedPercentage : ℤ → ℤ → ℚ) (tables : Tables)
    (endpointIds : List EndpointId) (startDt endDt nowUtc : ℤ) : List EndpointRow :=
  (tables.endpoints.filter fun endpoint ↦
    endpoint.id ∈ endpointIds ∧ endpoint.deletedAt = none).map
      (endpointRow roundedPercentage tables endpointIds startDt endDt nowUtc)

end Lnmp.Reports
