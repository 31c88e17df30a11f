import Lnmp.Foundation.Http
import Lnmp.Foundation.Uuid
import Lnmp.Flow.ExporterMap

/-!
# Requests that map exporters

`map_unmatched_exporter` and `enroll_flow_exporter` (`routers/bandwidth.py`). The first one reads
the aliases of an endpoint, appends an address, and writes the whole list back. The second one
inserts an endpoint with the address as its primary address and as an alias. Requests run side by
side, and each of their statements sees what is committed when it runs.

The database has addresses as values. What it gives back, and whether a list of such addresses
contains a text, is up to the driver (`InetDriver`).
-/

set_option autoImplicit false
set_option relaxedAutoImplicit false

namespace Lnmp.Flow

open Lnmp.Foundation Lnmp.Foundation.PythonText Lnmp.Foundation.IpAddress

/-- A row of `endpoints`, with the columns that the correlator and the requests read. A row has its
status changed and its time of deletion set together. -/
structure EndpointRow extends Endpoint where
  hostname : String
  status_eq_iff : endpointStatus = "DELETED" ↔ deletedAt.isSome = true
  deriving DecidableEq

/-- A row with the status of a new endpoint is not deleted. -/
theorem active_eq_deleted_iff : "ACTIVE" = "DELETED" ↔ (none : Option ℤ).isSome = true :=
  iff_of_false (by decide) Bool.false_ne_true

namespace EndpointRow

/-- `flow_exporter_ips or []`. -/
def aliases (row : EndpointRow) : List String := row.flowExporterIps.getD []

/-- The row with other aliases. -/
def setAliases (row : EndpointRow) (aliases : List String) : EndpointRow :=
  { row with flowExporterIps := some aliases }

end EndpointRow

/-- How the driver reads addresses: the text of the address that was written as a text, and whether
a list that was read contains a text. A list of address objects contains none. -/
structure InetDriver where
  toText : String → String
  contains : List String → String → Bool
  cleanIp_toText_ne_empty : ∀ ip, cleanIp (toText ip) ≠ ""
  mem_of_contains : ∀ ips ip, contains ips ip = true → toText ip ∈ ips

/-- A request: it has read the aliases of an endpoint, or has found no endpoint with its address and
host name, or has an endpoint for its address and is about to answer. -/
inductive ExporterRequest
  | mapping (endpointId : UUID) (existingIps : List String) (ip : String)
  | enrolling (ip hostname : String)
  | mapped (ip : String) (endpointId : UUID)
  deriving DecidableEq

/-- The table, the requests under way, and what was answered: the addresses with their endpoints,
the latest answer last. -/
structure ExporterService where
  table : List EndpointRow
  requests : Dict ℕ ExporterRequest
  acknowledged : List (String × UUID)
  deriving DecidableEq

/-- What happens next. -/
inductive ExporterEvent
  | map (request : ℕ) (ip : String) (endpointId : UUID)
  | enroll (request : ℕ) (ipAddress hostname : String)
  | commit (request : ℕ)
  | insert (request : ℕ) (endpointId : UUID)
  | acknowledge (request : ℕ)
  | fail (request : ℕ)
  deriving DecidableEq

/-- The address of a request. -/
def checkIp (ip : String) : Except HttpError String :=
  match ipAddress (strip ip) with
  | none =>
    let cleanIp := strip ip
    .error ⟨400, s!"'{cleanIp}' is not a valid IP address."⟩
  | some _ => .ok (strip ip)

/-- The host name of a request that enrolls an address. -/
def cleanHostname (hostname ip : String) : String :=
  if strip hostname = "" then
    "flow-exporter-" ++ String.ofList (ip.toList.map fun char ↦ if char = '.' then '-' else char)
  else strip hostname

namespace ExporterService

variable (driver : InetDriver) (service : ExporterService)

/-- The endpoint of a request that maps an address. -/
def findEndpoint (endpointId : UUID) : Except HttpError EndpointRow :=
  match service.table.find? fun row ↦ row.id = endpointId ∧ row.deletedAt = none with
  | none =>
    let text := Uuid.text endpointId
    .error ⟨404, s!"Endpoint {text} not found."⟩
  | some row => .ok row

/-- The check for an endpoint that has the address or the host name. Of several,
`scalar_one_or_none` makes an error that nothing catches. -/
def checkDuplicate (ip hostname : String) : Except HttpError Unit :=
  match service.table.filter fun row ↦
      (row.ipAddress = driver.toText ip ∨ row.hostname = hostname) ∧ row.deletedAt = none with
  | [] => .ok ()
  | [_] =>
    .error ⟨409, s!"An endpoint with IP '{ip}' or hostname '{hostname}' already exists."⟩
  | _ => .error ⟨500, "Internal Server Error"⟩

/-- What a request that maps an address has to do after it has read the endpoint. -/
def startMapping (ip : String) (endpointId : UUID) : Except HttpError ExporterRequest := do
  let ip ← checkIp ip
  let row ← service.findEndpoint endpointId
  return if driver.contains row.aliases ip then .mapped ip endpointId
    else .mapping endpointId row.aliases ip

/-- What a request that enrolls an address has to do after its check. -/
def startEnrolling (ip hostname : String) : Except HttpError ExporterRequest := do
  let ip ← checkIp ip
  service.checkDuplicate driver ip (cleanHostname hostname ip)
  return .enrolling ip (cleanHostname hostname ip)

/-- A request goes on. -/
def proceed (request : ℕ) (state : ExporterRequest) : ExporterService :=
  { service with requests := service.requests.set request state }

/-- A new request, whose checks may refuse it. -/
def receive (request : ℕ) (result : Except HttpError ExporterRequest) : Option ExporterService :=
  if service.requests.get? request = none then
    some (HttpError.orSame service (result.map fun state ↦ service.proceed request state))
  else none

/-- Write the aliases of an endpoint. -/
def writeAliases (endpointId : UUID) (aliases : List String) : ExporterService :=
  { service with
    table := service.table.map fun row ↦
      if row.id = endpointId then row.setAliases aliases else row }

/-- Primary addresses are unique, those of deleted endpoints too. -/
def hasPrimaryIp (ip : String) : Bool := service.table.any (·.ipAddress = driver.toText ip)

/-- The row of an enrolled exporter. -/
def exporterRow (endpointId : UUID) (ip hostname : String) : EndpointRow where
  id := endpointId
  ipAddress := driver.toText ip
  flowExporterIps := some [driver.toText ip]
  endpointStatus := "ACTIVE"
  deletedAt := none
  hostname := hostname
  status_eq_iff := active_eq_deleted_iff

/-- The state after an event, `none` when it cannot happen. -/
def step : ExporterEvent → Option ExporterService
  | .map request ip endpointId =>
    service.receive request (service.startMapping driver ip endpointId)
  | .enroll request ipAddress hostname =>
    service.receive request (service.startEnrolling driver ipAddress hostname)
  | .commit request =>
    match service.requests.get? request with
    | some (.mapping endpointId existingIps ip) =>
      some ((service.writeAliases endpointId (existingIps ++ [driver.toText ip])).proceed request
        (.mapped ip endpointId))
    | _ => none
  | .insert request endpointId =>
    match service.requests.get? request with
    | some (.enrolling ip hostname) =>
      if endpointId ∈ service.table.map (·.id) then none
      else if service.hasPrimaryIp driver ip then
        some { service with requests := service.requests.erase request }
      else
        some ({ service with table := service.table ++ [exporterRow driver endpointId ip hostname]
          }.proceed request (.mapped ip endpointId))
    | _ => none
  | .acknowledge request =>
    match service.requests.get? request with
    | some (.mapped ip endpointId) =>
      some
        { service with
          requests := service.requests.erase request
          acknowledged := service.acknowledged ++ [(driver.toText ip, endpointId)] }
    | _ => none
  | .fail request =>
    match service.requests.get? request with
    | some _ => some { service with requests := service.requests.erase request }
    | none => none

/-- A table, and no requests. -/
def start (table : List EndpointRow) : ExporterService where
  table := table
  requests := Dict.empty
  acknowledged := []

end ExporterService

end Lnmp.Flow
