import Lnmp.Flow.Rollups
import Lnmp.Foundation.GroupBy

/-!
# The charts of the bandwidth page

`get_traffic_series` and `get_interfaces_telemetry` (`routers/bandwidth.py`), as functions of the
rollup tables. The rates, computations with floats, are a parameter; a time is in microseconds, as
in the tables.

The hourly and the daily rollups are continuous aggregates of the minute table. They have the rows
of their queries as these were at a refresh, so that they are given beside the tables.
-/

set_option autoImplicit false
set_option relaxedAutoImplicit false

namespace Lnmp.Flow

open Lnmp.Foundation Lnmp.Foundation.GroupBy
open Lnmp.Foundation.PythonText (stripChars)

/-! ### Windows -/

/-- `window.lower().strip()`. No character outside ASCII has one of a window as its lower case. -/
def windowText (window : String) : List Char := stripChars (window.toList.map Char.toLower)

/-- `_get_window_delta`, in seconds. -/
def getWindowDelta (window : String) : ℤ :=
  let w := windowText window
  if w = "1h".toList then 3600
  else if w = "6h".toList then 6 * 3600
  else if w = "24h".toList then 24 * 3600
  else if w = "7d".toList then 7 * 24 * 3600
  else if w = "30d".toList then 30 * 24 * 3600
  else if w = "1y".toList then 365 * 24 * 3600
  else 3600

/-- Microseconds in a second. -/
def microseconds : ℤ := 1000000

/-- `now - delta`. -/
def startTime (now : ℤ) (window : String) : ℤ := now - getWindowDelta window * microseconds

/-! ### The series of an exporter -/

/-- The bytes of a point in both directions, before they become rates. -/
structure SeriesBytes where
  bucket : ℤ
  inBytes : ℤ
  egBytes : ℤ
  deriving DecidableEq

/-- The interfaces of a query: one, or all. -/
def showsInterface (interfaceIdx : Option ℤ) (index : ℤ) : Bool :=
  interfaceIdx = none ∨ interfaceIdx = some index

/-- `WHERE` and `GROUP BY` of the series of an exporter. -/
def seriesBucket (exporterId : UUID) (interfaceIdx : Option ℤ) (start : ℤ) (key : InterfaceKey) :
    Option ℤ :=
  if key.exporterId = exporterId ∧ start ≤ key.bucket ∧ showsInterface interfaceIdx key.interfaceIdx
  then some key.bucket
  else none

variable {Inet : Type*} [DecidableEq Inet]

/-- The series of an exporter: its interface rollups by minute. -/
def exporterSeries (tables : Tables Inet) (exporterId : UUID) (interfaceIdx : Option ℤ)
    (start : ℤ) : List SeriesBytes :=
  (ordered (totals (seriesBucket exporterId interfaceIdx start)
    tables.flowInterfaceMinuteRollups.entries)).map fun row ↦ ⟨row.1, row.2.inBytes, row.2.outBytes⟩

/-! ### The series of all traffic -/

/-- The columns of a rollup that the series read. -/
structure RollupView where
  bucket : ℤ
  exporterId : UUID
  srcEndpointId : Option UUID
  dstEndpointId : Option UUID
  protocol : ℤ
  dstPort : ℤ
  deriving DecidableEq

/-- The three rollup tables. -/
inductive RollupModel
  | flowMinuteRollup
  | flowHourlyRollup
  | flowDailyRollup
  deriving DecidableEq

/-- The model of `_select_rollup_model_and_bucket_seconds`. -/
def selectRollupModel (window : String) (endpointId : Option UUID) : RollupModel :=
  let w := windowText window
  if w = "1h".toList ∨ w = "6h".toList then .flowMinuteRollup
  else if w = "24h".toList ∨ w = "7d".toList then .flowHourlyRollup
  else if w = "30d".toList ∨ w = "1y".toList then
    if endpointId = none then .flowDailyRollup else .flowHourlyRollup
  else .flowMinuteRollup

namespace RollupModel

/-- The seconds of `_select_rollup_model_and_bucket_seconds`. -/
def bucketSeconds : RollupModel → ℤ
  | .flowMinuteRollup => 60
  | .flowHourlyRollup => 3600
  | .flowDailyRollup => 86400

/-- `hasattr(model, "src_endpoint_id")`. -/
def hasEndpoints : RollupModel → Bool
  | .flowDailyRollup => false
  | .flowMinuteRollup | .flowHourlyRollup => true

/-- `date_trunc` to the bucket of the model. A minute is one already. -/
def truncate (model : RollupModel) (bucket : ℤ) : ℤ :=
  match model with
  | .flowMinuteRollup => bucket
  | .flowHourlyRollup | .flowDailyRollup =>
    bucket / (model.bucketSeconds * microseconds) * (model.bucketSeconds * microseconds)

/-- The row of the view that a row of the minute table belongs to. -/
def viewOf (model : RollupModel) (row : RollupView) : RollupView where
  bucket := model.truncate row.bucket
  exporterId := row.exporterId
  srcEndpointId := if model.hasEndpoints then row.srcEndpointId else none
  dstEndpointId := if model.hasEndpoints then row.dstEndpointId else none
  protocol := row.protocol
  dstPort := row.dstPort

end RollupModel

/-- The rows of the minute table. -/
def minuteRows (tables : Tables Inet) : List (RollupView × FlowCounters) :=
  tables.flowMinuteRollups.entries.map fun entry ↦
    (⟨entry.1.bucket, entry.1.exporterId, entry.2.srcEndpointId, entry.2.dstEndpointId,
      entry.1.protocol, entry.1.dstPort⟩, entry.2.counters)

/-- The query of an aggregate. -/
def RollupModel.query (model : RollupModel) (tables : Tables Inet) :
    List (RollupView × FlowCounters) :=
  (totals (fun row ↦ some (model.viewOf row)) (minuteRows tables)).entries

/-- The rows of the continuous aggregates. -/
structure RollupAggregates where
  flowHourlyRollups : List (RollupView × FlowCounters)
  flowDailyRollups : List (RollupView × FlowCounters)

/-- The rows of a model. -/
def RollupModel.rows (model : RollupModel) (tables : Tables Inet) (aggregates : RollupAggregates) :
    List (RollupView × FlowCounters) :=
  match model with
  | .flowMinuteRollup => minuteRows tables
  | .flowHourlyRollup => aggregates.flowHourlyRollups
  | .flowDailyRollup => aggregates.flowDailyRollups

/-- The filters of a series. -/
structure SeriesQuery where
  start : ℤ
  exporterId : Option UUID
  endpointId : Option UUID

/-- `WHERE` of the series. -/
def SeriesQuery.selects (query : SeriesQuery) (model : RollupModel) (row : RollupView) : Bool :=
  query.start ≤ row.bucket ∧ (query.exporterId = none ∨ query.exporterId = some row.exporterId) ∧
    (query.endpointId = none ∨ model.hasEndpoints = false ∨ row.srcEndpointId = query.endpointId ∨
      row.dstEndpointId = query.endpointId)

/-- `GROUP BY` of the series. -/
def SeriesQuery.bucketOf (query : SeriesQuery) (model : RollupModel) (row : RollupView) :
    Option ℤ :=
  if query.selects model row then some row.bucket else none

/-- The traffic of a row is attributed to an endpoint. -/
def SeriesQuery.attributes (query : SeriesQuery) (endpoint : Option UUID) : Bool :=
  if query.endpointId = none then endpoint.isSome else endpoint = query.endpointId

/-- The columns that are summed: the bytes, those to an endpoint, and those from one. -/
def SeriesQuery.columns (query : SeriesQuery) (row : RollupView) (counters : FlowCounters) :
    ℤ × ℤ × ℤ :=
  (counters.bytes, if query.attributes row.dstEndpointId then counters.bytes else 0,
    if query.attributes row.srcEndpointId then counters.bytes else 0)

theorem SeriesQuery.columns_add (query : SeriesQuery) (row : RollupView)
    (first second : FlowCounters) :
    query.columns row (first + second) = query.columns row first + query.columns row second := by
  rw [columns, columns, columns, Prod.mk_add_mk, Prod.mk_add_mk]
  split_ifs <;> rfl

/-- The columns as an additive map of the counters. -/
def SeriesQuery.amounts (query : SeriesQuery) (row : RollupView) : FlowCounters →+ ℤ × ℤ × ℤ :=
  AddMonoidHom.mk' (query.columns row) (query.columns_add row)

/-- The bytes of a point from the three sums. Transit traffic goes half to each direction. -/
def pointBytes (model : RollupModel) (sums : ℤ × ℤ × ℤ) : ℤ × ℤ :=
  let byteSum := sums.1
  let inBytes := if model.hasEndpoints then sums.2.1 else byteSum.tdiv 2
  let egBytes := if model.hasEndpoints then sums.2.2 else byteSum.tdiv 2
  let transitBytes := max 0 (byteSum - (inBytes + egBytes))
  if 0 < transitBytes then
    (inBytes + transitBytes / 2, egBytes + (transitBytes - transitBytes / 2))
  else if inBytes = 0 ∧ egBytes = 0 ∧ 0 < byteSum then (byteSum / 2, byteSum - byteSum / 2)
  else (inBytes, egBytes)

/-- The sums of the series by bucket. -/
def seriesSums (rows : List (RollupView × FlowCounters)) (model : RollupModel)
    (query : SeriesQuery) : Dict ℤ (ℤ × ℤ × ℤ) :=
  totals (query.bucketOf model) (weigh (fun row counters ↦ query.amounts row counters) rows)

/-- The series of all traffic, or of an endpoint. -/
def fleetSeries (rows : List (RollupView × FlowCounters)) (model : RollupModel)
    (query : SeriesQuery) : List SeriesBytes :=
  (ordered (seriesSums rows model query)).map fun row ↦
    ⟨row.1, (pointBytes model row.2).1, (pointBytes model row.2).2⟩

section Answers

variable {Rate : Type*} (bps : ℤ → ℤ → Rate)

/-- A point of a series. -/
structure TrafficSeriesPoint (Rate : Type*) where
  timestamp : ℤ
  ingressBps : Rate
  egressBps : Rate

/-- The rates of a point over the seconds of its bucket. -/
def SeriesBytes.point (row : SeriesBytes) (seconds : ℤ) : TrafficSeriesPoint Rate :=
  ⟨row.bucket, bps row.inBytes seconds, bps row.egBytes seconds⟩

/-- `get_traffic_series`. -/
def getTrafficSeries (tables : Tables Inet) (aggregates : RollupAggregates) (now : ℤ)
    (window : String) (exporterId endpointId : Option UUID) (interfaceIdx : Option ℤ) :
    List (TrafficSeriesPoint Rate) :=
  match exporterId, endpointId with
  | some exporter, none =>
    (exporterSeries tables exporter interfaceIdx (startTime now window)).map (·.point bps 60)
  | _, _ =>
    let model := selectRollupModel window endpointId
    (fleetSeries (model.rows tables aggregates) model
      ⟨startTime now window, exporterId, endpointId⟩).map (·.point bps model.bucketSeconds)

/-! ### Interfaces -/

/-- A configured interface: a name with a speed, or a name alone. -/
inductive InterfaceAlias
  | config (name : Option String) (speedMbps : Option ℤ)
  | text (name : String)

/-- An interface of the answer. -/
structure InterfaceTelemetryItem (Rate : Type*) where
  interfaceIdx : ℤ
  name : String
  speedMbps : ℤ
  counters : InterfaceCounters
  inBps : Rate
  outBps : Rate
  utilizationPercentage : Rate
  isActive : Bool

/-- `WHERE` and `GROUP BY` of the interfaces of an exporter. -/
def interfaceGroup (exporterId : UUID) (start : ℤ) (key : InterfaceKey) : Option ℤ :=
  if key.exporterId = exporterId ∧ start ≤ key.bucket then some key.interfaceIdx else none

/-- An interface that is configured and has no row gets one without traffic. -/
def addConfigured (allIfIndices : Dict ℤ InterfaceCounters) (text : String) :
    Dict ℤ InterfaceCounters :=
  match PythonText.parseInt text with
  | none => allIfIndices
  | some index => if index ∈ allIfIndices.keys then allIfIndices else allIfIndices.set index 0

/-- `all_if_indices`: the interfaces with rows, and those that are configured. -/
def allIfIndices (tables : Tables Inet) (exporterId : UUID) (start : ℤ)
    (aliases : Dict String InterfaceAlias) : Dict ℤ InterfaceCounters :=
  aliases.keys.foldl addConfigured
    (totals (interfaceGroup exporterId start) tables.flowInterfaceMinuteRollups.entries)

/-- The name and the speed of an interface. -/
def resolveAlias (aliases : Dict String InterfaceAlias) (index : ℤ) : String × ℤ :=
  let indexText := (PythonText.formatInt index).getD ""
  let unnamed := "Interface " ++ indexText
  match aliases.get? indexText with
  | some (.config name speedMbps) => (name.getD unnamed, speedMbps.getD 1000)
  | some (.text name) => (name, 1000)
  | none => (unnamed, 1000)

/-- `get_interfaces_telemetry`, with the indexes that Redis has for the exporter. -/
def getInterfacesTelemetry (utilization : ℤ → ℤ → ℤ → ℤ → Rate) (tables : Tables Inet) (now : ℤ)
    (window : String) (exporterId : UUID) (aliases : Dict String InterfaceAlias)
    (activeRedisIndices : Finset ℤ) : List (InterfaceTelemetryItem Rate) :=
  let windowSeconds := max 1 (getWindowDelta window)
  (ordered (allIfIndices tables exporterId (startTime now window) aliases)).map fun entry ↦
    let stats := entry.2
    let speedMbps := max 1 (resolveAlias aliases entry.1).2
    { interfaceIdx := entry.1
      name := (resolveAlias aliases entry.1).1
      speedMbps := speedMbps
      counters := stats
      inBps := bps stats.inBytes windowSeconds
      outBps := bps stats.outBytes windowSeconds
      utilizationPercentage := utilization stats.inBytes stats.outBytes windowSeconds speedMbps
      isActive := entry.1 ∈ activeRedisIndices ∨ 0 < stats.flowCount ∨
        0 < stats.inBytes + stats.outBytes }

end Answers

end Lnmp.Flow
