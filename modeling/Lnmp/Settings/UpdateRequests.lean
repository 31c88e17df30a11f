import Lnmp.Foundation.Dict
import Lnmp.Foundation.Http
import Lnmp.Foundation.PythonText

/-!
# Requests that update the settings

`PATCH /settings` (`routers/settings.py`): a request reads the settings, checks its rules, writes
its keys one after the other, and commits. Requests run side by side on a database whose isolation
level is READ COMMITTED: a statement sees what is committed when it runs, and what its own request
has written, and a write waits for a request that has written the same key.

An upsert is a SELECT and a flush. The flush of a row that has the value already sends no UPDATE.
-/

set_option autoImplicit false
set_option relaxedAutoImplicit false

namespace Lnmp.Settings

open Lnmp.Foundation Lnmp.Foundation.PythonText

/-! ### Settings -/

/-- The table `app_settings`: values by their keys, which are unique. -/
abbrev AppSettings := Dict String String

/-- What the configuration file says for keys that the table does not have. -/
structure AppConfig where
  redisPerformanceMode : Bool
  flowEnabled : Bool
  deriving DecidableEq

/-- The settings that the rules are about. -/
structure SettingsPayload where
  performanceMode : Bool
  flowIngestionEnabled : Bool
  deriving DecidableEq

/-- The value of `performance_mode` means that it is on. -/
def isPerformanceMode (value : String) : Bool :=
  (strip value).toLower ∈ ["true", "1", "redis", "yes"]

/-- The value of a switch means that it is on. -/
def isEnabled (value : String) : Bool := (strip value).toLower ∈ ["true", "1", "yes"]

/-- `_read_settings_dict`. -/
def readSettings (appCfg : AppConfig) (table : AppSettings) : SettingsPayload where
  performanceMode :=
    ((table.get? "performance_mode").map isPerformanceMode).getD appCfg.redisPerformanceMode
  flowIngestionEnabled :=
    ((table.get? "flow_ingestion_enabled").map isEnabled).getD appCfg.flowEnabled

/-- The body of a request. Some settings have two names in it. -/
structure SettingsUpdate where
  performanceMode : Option Bool
  l2AutoBypass : Option Bool
  sessionTimeout : Option ℕ
  lockoutThreshold : Option ℕ
  alertingEnabled : Option Bool
  flowIngestionEnabled : Option Bool
  flowIngestionEnabledCamel : Option Bool
  flowNetflowPort : Option ℕ
  flowNetflowPortCamel : Option ℕ
  flowIpfixPort : Option ℕ
  flowIpfixPortCamel : Option ℕ
  flowSamplingMultiplier : Option ℕ
  flowSamplingMultiplierCamel : Option ℕ
  deriving DecidableEq

/-- A switch as it is written. -/
def switchText (enabled : Bool) : String := if enabled then "true" else "false"

namespace SettingsUpdate

variable (payload : SettingsUpdate)

/-- A body that sets nothing. -/
def empty : SettingsUpdate :=
  ⟨none, none, none, none, none, none, none, none, none, none, none, none, none⟩

/-- `flow_ingestion_val`. -/
def flowIngestionVal : Option Bool :=
  payload.flowIngestionEnabled.or payload.flowIngestionEnabledCamel

/-- `effective_perf_mode`. -/
def effectivePerfMode (current : SettingsPayload) : Bool :=
  payload.performanceMode.getD current.performanceMode

/-- `effective_flow_enabled`. -/
def effectiveFlowEnabled (current : SettingsPayload) : Bool :=
  payload.flowIngestionVal.getD current.flowIngestionEnabled

/-- The rules C and A. -/
def checkRules (current : SettingsPayload) : Except HttpError Unit :=
  if current.flowIngestionEnabled = true ∧ payload.performanceMode = some false ∧
      payload.flowIngestionVal ≠ some false then
    .error ⟨400, "Cannot disable Redis while Network Flow Telemetry is enabled. Please disable " ++
      "Flow Ingestion first."⟩
  else if payload.effectiveFlowEnabled current && !payload.effectivePerfMode current then
    .error ⟨400, "Cannot enable Network Flow Telemetry: Redis Memory Acceleration must be " ++
      "activated first."⟩
  else .ok ()

/-- The keys that a request writes, in this order, with their values. -/
def writes : List (String × String) :=
  [("performance_mode", payload.performanceMode.map switchText),
    ("l2_auto_bypass", payload.l2AutoBypass.map switchText),
    ("session_timeout", payload.sessionTimeout.map toString),
    ("lockout_threshold", payload.lockoutThreshold.map toString),
    ("alerting_enabled", payload.alertingEnabled.map switchText),
    ("flow_ingestion_enabled", payload.flowIngestionVal.map switchText),
    ("flow_netflow_port", (payload.flowNetflowPort.or payload.flowNetflowPortCamel).map toString),
    ("flow_ipfix_port", (payload.flowIpfixPort.or payload.flowIpfixPortCamel).map toString),
    ("flow_sampling_multiplier",
      (payload.flowSamplingMultiplier.or payload.flowSamplingMultiplierCamel).map toString)
  ].filterMap fun entry ↦ entry.2.map fun value ↦ (entry.1, value)

end SettingsUpdate

/-- Rule B: what `check_redis_flow_prerequisites` has found. -/
def checkRedis (ready : Bool) (errMsg : String) : Except HttpError Unit :=
  if ready then .ok ()
  else
    .error ⟨400, s!"Cannot enable Network Flow Telemetry: Redis prerequisite check failed " ++
      s!"({errMsg}). Please ensure the Redis 6.0+ service is running."⟩

/-! ### Requests -/

/-- Where a request is: it waits for the check of Redis, has keys to write, or is about to flush
one, with the value that its SELECT has found. -/
inductive PatchPhase
  | checkingRedis
  | writing (pending : List (String × String))
  | flushing (key value : String) (found : Option String) (pending : List (String × String))
  deriving DecidableEq

/-- A request whose rules A and C have passed: its body, the settings that it has read, and what it
has written. -/
structure PatchRequest where
  payload : SettingsUpdate
  current : SettingsPayload
  phase : PatchPhase
  written : AppSettings
  deriving DecidableEq

/-- The committed table, and the requests that are under way. -/
structure SettingsService where
  committed : AppSettings
  requests : Dict ℕ PatchRequest
  deriving DecidableEq

/-- What happens next: a request comes and reads the settings, or goes on, or ends without a
commit. -/
inductive SettingsEvent
  | read (id : ℕ) (payload : SettingsUpdate)
  | redis (id : ℕ) (ready : Bool) (errMsg : String)
  | select (id : ℕ)
  | flush (id : ℕ)
  | commit (id : ℕ)
  | rollback (id : ℕ)
  deriving DecidableEq

namespace SettingsService

variable (appCfg : AppConfig) (service : SettingsService)

/-- Another request has written the key. -/
def isLocked (id : ℕ) (key : String) : Bool :=
  service.requests.entries.any fun entry ↦ entry.1 ≠ id ∧ (entry.2.written.get? key).isSome

/-- A request goes on. -/
def proceed (id : ℕ) (request : PatchRequest) : SettingsService :=
  { service with requests := service.requests.set id request }

/-- A request ends, and what it has not committed is gone. -/
def finish (id : ℕ) : SettingsService :=
  { service with requests := service.requests.erase id }

/-- A request reads the settings and checks the rules A and C. -/
def read (id : ℕ) (payload : SettingsUpdate) : SettingsService :=
  let current := readSettings appCfg service.committed
  match payload.checkRules current with
  | .error _ => service
  | .ok _ => service.proceed id
    { payload := payload
      current := current
      phase :=
        if payload.effectiveFlowEnabled current then .checkingRedis else .writing payload.writes
      written := Dict.empty }

/-- The flush of a key. A row that has appeared since the SELECT makes the INSERT fail. -/
def flush (id : ℕ) (request : PatchRequest) (key value : String) (found : Option String)
    (pending : List (String × String)) : Option SettingsService :=
  if found = some value then some (service.proceed id { request with phase := .writing pending })
  else if service.isLocked id key then none
  else if found = none ∧ service.committed.get? key ≠ none then some (service.finish id)
  else
    some (service.proceed id
      { request with phase := .writing pending, written := request.written.set key value })

/-- The state after an event, `none` when it cannot happen. -/
def step : SettingsEvent → Option SettingsService
  | .read id payload =>
    if service.requests.get? id = none then some (service.read appCfg id payload) else none
  | .redis id ready errMsg =>
    match service.requests.get? id with
    | none => none
    | some request =>
      match request.phase with
      | .checkingRedis =>
        match checkRedis ready errMsg with
        | .error _ => some (service.finish id)
        | .ok _ =>
          some (service.proceed id { request with phase := .writing request.payload.writes })
      | _ => none
  | .select id =>
    match service.requests.get? id with
    | none => none
    | some request =>
      match request.phase with
      | .writing ((key, value) :: pending) =>
        let found := (request.written.get? key).or (service.committed.get? key)
        some (service.proceed id { request with phase := .flushing key value found pending })
      | _ => none
  | .flush id =>
    match service.requests.get? id with
    | none => none
    | some request =>
      match request.phase with
      | .flushing key value found pending => service.flush id request key value found pending
      | _ => none
  | .commit id =>
    match service.requests.get? id with
    | none => none
    | some request =>
      match request.phase with
      | .writing [] =>
        some
          { service.finish id with committed := service.committed.update request.written.entries }
      | _ => none
  | .rollback id =>
    match service.requests.get? id with
    | none => none
    | some _ => some (service.finish id)

/-- A committed table, and no requests. -/
def start (committed : AppSettings) : SettingsService where
  committed := committed
  requests := Dict.empty

end SettingsService

end Lnmp.Settings
