import Lnmp.Monitoring.Ping

/-!
# The endpoint state machine

`monitoring/state_machine.py`. `confirm` is the in-memory half of a cycle: a new detailed state is
confirmed after it has been seen in as many cycles in a row as the threshold says. `recordCycle` is
the database half: it extends the open event of the endpoint, splits it after a day, opens one
where it finds none, or closes it and opens another when a transition was confirmed.
`processCycle` does both, and spawns the notifications of a transition in between.

Times are microseconds. A statement that raises makes the whole cycle raise, and its transaction is
rolled back; the tasks spawned before are not. A new row gets an id that no row had before.
-/

set_option autoImplicit false
set_option relaxedAutoImplicit false

namespace Lnmp.Monitoring

/-- The UUID of an endpoint. -/
abbrev EndpointId := BitVec 128

/-- The UUID of a row, by the order of creation. -/
abbrev RowId := ℕ

/-! ### Tables -/

/-- A row of `endpoint_events`. -/
structure EndpointEvent where
  id : RowId
  endpointId : EndpointId
  operationalState : OperationalState
  detailedState : DetailedState
  successCount : ℤ
  failedCount : ℤ
  healthScore : ℚ
  avgRttMs : Option ℚ
  isSplitEvent : Bool
  startTime : ℤ
  endTime : Option ℤ
  durationSeconds : ℤ
  monitoringCycleCount : ℤ
  deriving DecidableEq

/-- The event has no end time. -/
def EndpointEvent.isOpen (event : EndpointEvent) : Bool := event.endTime.isNone

/-- The types of monitoring service events that the table admits. -/
inductive ServiceEventType
  | serviceRestart
  | databaseDisconnect
  | serverReboot
  | monitoringUnavailable
  deriving DecidableEq

/-- A row of `monitoring_service_events`. -/
structure ServiceEvent where
  id : RowId
  eventType : ServiceEventType
  description : Option String
  startTime : ℤ
  endTime : Option ℤ
  durationSeconds : Option ℤ
  deriving DecidableEq

/-- The tables that the engine writes, and the next id. Retention, which drops rows after two years,
is left out. -/
structure Database where
  endpointEvents : List EndpointEvent
  serviceEvents : List ServiceEvent
  nextId : RowId
  deriving DecidableEq

/-- Tables without rows. -/
def Database.empty : Database where
  endpointEvents := []
  serviceEvents := []
  nextId := 0

/-- `EXTRACT(EPOCH FROM interval)` cast to an integer type: rounded half away from zero. -/
def epochSeconds (interval : ℤ) : ℤ :=
  if 0 ≤ interval then (interval + 500000) / 1000000 else -((-interval + 500000) / 1000000)

/-- The values of the type `integer`. -/
def isInteger (value : ℤ) : Bool := -2147483648 ≤ value ∧ value ≤ 2147483647

/-- The length of an event up to a time. -/
def EndpointEvent.secondsUntil (event : EndpointEvent) (time : ℤ) : ℤ :=
  epochSeconds (time - event.startTime)

/-- Close an event. -/
def EndpointEvent.close (event : EndpointEvent) (time : ℤ) : EndpointEvent :=
  { event with endTime := some time, durationSeconds := event.secondsUntil time }

/-- Add a cycle to an event. -/
def EndpointEvent.extend (event : EndpointEvent) (time : ℤ) (result : PingResult) :
    EndpointEvent :=
  { event with
    durationSeconds := event.secondsUntil time
    monitoringCycleCount := event.monitoringCycleCount + 1
    successCount := event.successCount + result.successCount
    failedCount := event.failedCount + result.failedCount
    avgRttMs := result.avgRttMs
    healthScore := result.healthScore }

/-- `UPDATE endpoint_events SET .. WHERE ..`, for an update that changes the duration at a time. -/
def Database.updateEvents (database : Database) (selects : EndpointEvent → Bool)
    (update : EndpointEvent → EndpointEvent) : Database :=
  { database with
    endpointEvents := database.endpointEvents.map fun event ↦
      if selects event then update event else event }

/-- The cast of a duration to `integer` raises in one of the rows. -/
def Database.castRaises (database : Database) (selects : EndpointEvent → Bool) (time : ℤ) : Bool :=
  database.endpointEvents.any fun event ↦
    selects event && !isInteger (event.secondsUntil time)

/-- The columns of a row admit its values: `integer` counts, a checked `numeric(5, 2)` score and a
`numeric(10, 2)` average. -/
def fitsColumns (successCount failedCount : ℤ) (healthScore : ℚ) (avgRttMs : Option ℚ)
    (monitoringCycleCount : ℤ) : Bool :=
  isInteger successCount && isInteger failedCount && isInteger monitoringCycleCount &&
    0 ≤ healthScore && healthScore ≤ 100 &&
    avgRttMs.all fun average ↦ |average| + 1 / 200 < 100000000

/-- The columns of the table admit the values of the row. -/
def EndpointEvent.fits (event : EndpointEvent) : Bool :=
  fitsColumns event.successCount event.failedCount event.healthScore event.avgRttMs
    event.monitoringCycleCount

/-- The table admits a new row with the counts of a ping result. -/
def PingResult.fits (result : PingResult) : Bool :=
  fitsColumns result.successCount result.failedCount result.healthScore result.avgRttMs 1

/-- An update raises in one of the rows. -/
def Database.updateRaises (database : Database) (selects : EndpointEvent → Bool)
    (update : EndpointEvent → EndpointEvent) : Bool :=
  database.endpointEvents.any fun event ↦ selects event && !(update event).fits

/-- `INSERT INTO endpoint_events .. RETURNING id`. -/
def Database.insertEvent (database : Database) (endpointId : EndpointId)
    (operational : OperationalState) (detailed : DetailedState) (result : PingResult)
    (isSplitEvent : Bool) (startTime : ℤ) : RowId × Database :=
  (database.nextId,
    { database with
      endpointEvents := database.endpointEvents ++
        [{ id := database.nextId
           endpointId := endpointId
           operationalState := operational
           detailedState := detailed
           successCount := result.successCount
           failedCount := result.failedCount
           healthScore := result.healthScore
           avgRttMs := result.avgRttMs
           isSplitEvent := isSplitEvent
           startTime := startTime
           endTime := none
           durationSeconds := 0
           monitoringCycleCount := 1 }]
      nextId := database.nextId + 1 })

/-! ### Identities -/

/-- What the topology knows of an endpoint. -/
structure TopologyNode where
  label : Option String
  hostname : Option String
  ipAddress : Option String

/-- The columns of `endpoints` that the state machine reads. -/
structure EndpointRow where
  hostname : Option String
  ipAddress : Option String
  enableRca : Bool

/-- What the state machine looks up elsewhere. -/
structure Environment where
  topologyNode : EndpointId → Option TopologyNode
  endpointRow : EndpointId → Option EndpointRow
  hasEventBroker : Bool

/-- Lookups that find nothing. -/
def Environment.empty : Environment where
  topologyNode := fun _ ↦ none
  endpointRow := fun _ ↦ none
  hasEventBroker := false

/-- A text that is present and not empty. -/
def isTruthy (text : Option String) : Bool := text.isSome && text != some ""

/-- `first or second`. -/
def orElseText (first second : Option String) : Option String :=
  if isTruthy first then first else second

/-- `_resolve_endpoint_identity`: host name and address, from the topology where it has them. -/
def resolveEndpointIdentity (environment : Environment) (endpointId : EndpointId) :
    Option String × Option String :=
  let known : Option String × Option String :=
    match environment.topologyNode endpointId with
    | none => (none, none)
    | some node => (orElseText node.label node.hostname, node.ipAddress)
  if isTruthy known.1 ∧ isTruthy known.2 then known
  else
    match environment.endpointRow endpointId with
    | none => known
    | some row => (orElseText known.1 row.hostname, orElseText known.2 row.ipAddress)

/-! ### Endpoint states -/

/-- The state of an endpoint in the memory of the engine. -/
structure EndpointState where
  endpointId : EndpointId
  activeEventId : RowId
  confirmedOperationalState : OperationalState
  confirmedDetailedState : DetailedState
  pendingDetailedState : Option DetailedState
  pendingCycleCount : ℕ
  hostname : Option String
  ipAddress : Option String
  deriving DecidableEq

/-- `initialize_endpoint`: the state of the latest event of the endpoint. -/
def initializeEndpoint (environment : Environment) (endpointId : EndpointId)
    (database : Database) : Option EndpointState :=
  let rows := database.endpointEvents.filter fun event ↦ event.endpointId = endpointId
  (rows.maxOn? EndpointEvent.startTime).map fun row ↦
    let identity := resolveEndpointIdentity environment endpointId
    { endpointId := endpointId
      activeEventId := row.id
      confirmedOperationalState := row.operationalState
      confirmedDetailedState := row.detailedState
      pendingDetailedState := none
      pendingCycleCount := 0
      hostname := identity.1
      ipAddress := identity.2 }

/-- The Z-score factor that `classify_ping_result` defaults to. -/
def defaultK : ℚ := 3

/-- The classification of a cycle with the baseline of its endpoint. -/
def classifyCycle (result : PingResult) (baseline : Option (ℚ × ℚ)) :
    OperationalState × DetailedState :=
  classifyPingResult result (baseline.map Prod.fst) (baseline.map Prod.snd) defaultK

/-- `create_initial_event`, `none` when the insert raises. -/
def createInitialEvent (environment : Environment) (endpointId : EndpointId) (result : PingResult)
    (baseline : Option (ℚ × ℚ)) (startTime : ℤ) (database : Database) :
    Option (EndpointState × Database) :=
  let states := classifyCycle result baseline
  let inserted := database.insertEvent endpointId states.1 states.2 result false startTime
  let identity := resolveEndpointIdentity environment endpointId
  if result.fits then
    some
      ({ endpointId := endpointId
         activeEventId := inserted.1
         confirmedOperationalState := states.1
         confirmedDetailedState := states.2
         pendingDetailedState := none
         pendingCycleCount := 0
         hostname := identity.1
         ipAddress := identity.2 }, inserted.2)
  else none

/-! ### Confirmation -/

/-- The cycle confirms a transition: its detailed state is the pending one, for the last time that
the threshold asks for. -/
def confirmsTransition (threshold : ℕ) (state : EndpointState) (detailed : DetailedState) : Bool :=
  detailed ≠ state.confirmedDetailedState ∧ some detailed = state.pendingDetailedState ∧
    threshold ≤ state.pendingCycleCount + 1

/-- The identity under which a transition is announced: the one in the state where it is complete,
and resolved anew where it is not. -/
def announcedIdentity (environment : Environment) (state : EndpointState) :
    Option String × Option String :=
  if isTruthy state.hostname ∧ isTruthy state.ipAddress then (state.hostname, state.ipAddress)
  else resolveEndpointIdentity environment state.endpointId

/-- The next in-memory state of a cycle, still with the active event of the last one. -/
def confirm (threshold : ℕ) (environment : Environment) (state : EndpointState)
    (operational : OperationalState) (detailed : DetailedState) : EndpointState :=
  if detailed = state.confirmedDetailedState then
    { state with pendingDetailedState := none, pendingCycleCount := 0 }
  else if some detailed = state.pendingDetailedState then
    if state.pendingCycleCount + 1 < threshold then
      { state with
        pendingDetailedState := some detailed
        pendingCycleCount := state.pendingCycleCount + 1 }
    else
      { state with
        confirmedOperationalState := operational
        confirmedDetailedState := detailed
        pendingDetailedState := none
        pendingCycleCount := 0
        hostname := (announcedIdentity environment state).1
        ipAddress := (announcedIdentity environment state).2 }
  else
    -- No transition was pending, or the pending state has changed to a third state.
    { state with pendingDetailedState := some detailed, pendingCycleCount := 1 }

/-- The payload of a `STATE_TRANSITION` message. -/
structure TransitionPayload where
  endpointId : EndpointId
  hostname : Option String
  ipAddress : Option String
  operationalState : OperationalState
  detailedState : DetailedState
  avgRttMs : Option ℚ
  healthScore : ℚ
  timestamp : ℤ
  deriving DecidableEq

/-- The background tasks that a cycle spawns. -/
inductive Effect
  | updateNodeStatus (endpointId : EndpointId) (newState : DetailedState)
  | broadcastNodeStateChange (endpointId : EndpointId) (newState : DetailedState)
  | broadcastStateTransition (payload : TransitionPayload)
  | publishNodeStateChange (endpointId : EndpointId) (newState : DetailedState)
  | publishStateTransition (payload : TransitionPayload)
  | runDifferentialRca (endpointId : EndpointId)
  | handleEndpointRecovery (endpointId : EndpointId) (ipAddress : String)
  deriving DecidableEq

/-- The payload that announces a transition. -/
def transitionPayload (environment : Environment) (state : EndpointState) (result : PingResult)
    (operational : OperationalState) (detailed : DetailedState) (nowIso : ℤ) :
    TransitionPayload where
  endpointId := state.endpointId
  hostname := (announcedIdentity environment state).1
  ipAddress := (announcedIdentity environment state).2
  operationalState := operational
  detailedState := detailed
  avgRttMs := result.avgRttMs
  healthScore := result.healthScore
  timestamp := nowIso

/-- The hooks of a change of the operational state. -/
def transitionHooks (environment : Environment) (state : EndpointState)
    (operational : OperationalState) : List Effect :=
  if state.confirmedOperationalState = operational then []
  else
    match operational with
    | .down =>
      match environment.endpointRow state.endpointId with
      | some row => if row.enableRca then [.runDifferentialRca state.endpointId] else []
      | none => []
    | .up =>
      match (environment.endpointRow state.endpointId).bind EndpointRow.ipAddress with
      | some address =>
        if address ≠ "" then [.handleEndpointRecovery state.endpointId address] else []
      | none => []

/-- The tasks that a confirmed transition spawns, in order. -/
def transitionEffects (environment : Environment) (state : EndpointState) (result : PingResult)
    (operational : OperationalState) (detailed : DetailedState) (nowIso : ℤ) : List Effect :=
  let payload := transitionPayload environment state result operational detailed nowIso
  [.updateNodeStatus state.endpointId detailed,
    .broadcastNodeStateChange state.endpointId detailed, .broadcastStateTransition payload] ++
    (if environment.hasEventBroker then
      [.publishNodeStateChange state.endpointId detailed, .publishStateTransition payload]
    else []) ++
    transitionHooks environment state operational

/-! ### The event lifecycle -/

/-- The active event of the state, while it is open. -/
def EndpointState.isActiveEvent (state : EndpointState) (event : EndpointEvent) : Bool :=
  event.id = state.activeEventId ∧ event.isOpen

/-- The open events of the endpoint. -/
def EndpointState.isOpenEvent (state : EndpointState) (event : EndpointEvent) : Bool :=
  event.endpointId = state.endpointId ∧ event.isOpen

/-- Insert an event for the confirmed state of an endpoint, and make it the active one. -/
def openEvent (next : EndpointState) (result : PingResult) (isSplitEvent : Bool) (time : ℤ)
    (database : Database) : EndpointState × Database :=
  let inserted := database.insertEvent next.endpointId next.confirmedOperationalState
    next.confirmedDetailedState result isSplitEvent time
  ({ next with activeEventId := inserted.1 }, inserted.2)

/-- The database half of a cycle, `none` when a statement raises. -/
def recordCycle (state next : EndpointState) (result : PingResult) (time : ℤ)
    (database : Database) : Option (EndpointState × Database) :=
  if state.confirmedDetailedState = next.confirmedDetailedState then
    if database.castRaises state.isActiveEvent time then none
    else
      match database.endpointEvents.find? state.isActiveEvent with
      | none => if result.fits then some (openEvent next result false time database) else none
      | some event =>
        if database.updateRaises state.isActiveEvent (EndpointEvent.extend · time result) then none
        else if 86400 ≤ event.secondsUntil time then
          -- Close the event that exceeds 24 hours and continue it in a split event.
          if result.fits then
            some (openEvent next result true time
              (database.updateEvents state.isActiveEvent fun event ↦
                (event.extend time result).close time))
          else none
        else
          some (next, database.updateEvents state.isActiveEvent fun event ↦
            event.extend time result)
  else if database.castRaises state.isOpenEvent time then none
  else if result.fits then
    some (openEvent next result false time
      (database.updateEvents state.isOpenEvent fun event ↦ event.close time))
  else none

/-- The ways in which a cycle is recorded. -/
inductive Recorded (state next : EndpointState) (result : PingResult) (time : ℤ)
    (database : Database) : EndpointState × Database → Prop
  | fallback (hsame : state.confirmedDetailedState = next.confirmedDetailedState)
      (hnone : database.endpointEvents.find? state.isActiveEvent = none) :
    Recorded state next result time database (openEvent next result false time database)
  | rollover {event : EndpointEvent}
      (hsame : state.confirmedDetailedState = next.confirmedDetailedState)
      (hevent : database.endpointEvents.find? state.isActiveEvent = some event)
      (hday : 86400 ≤ event.secondsUntil time) :
    Recorded state next result time database
      (openEvent next result true time
        (database.updateEvents state.isActiveEvent fun event ↦
          (event.extend time result).close time))
  | extension {event : EndpointEvent}
      (hsame : state.confirmedDetailedState = next.confirmedDetailedState)
      (hevent : database.endpointEvents.find? state.isActiveEvent = some event)
      (hday : event.secondsUntil time < 86400) :
    Recorded state next result time database
      (next, database.updateEvents state.isActiveEvent fun event ↦ event.extend time result)
  | transition (hchange : state.confirmedDetailedState ≠ next.confirmedDetailedState) :
    Recorded state next result time database
      (openEvent next result false time
        (database.updateEvents state.isOpenEvent fun event ↦ event.close time))

/-- A cycle that does not raise is recorded in one of these ways. -/
theorem recorded_of_recordCycle {state next : EndpointState} {result : PingResult} {time : ℤ}
    {database : Database} {recorded : EndpointState × Database}
    (hrecord : recordCycle state next result time database = some recorded) :
    Recorded state next result time database recorded := by
  unfold recordCycle at hrecord
  by_cases hsame : state.confirmedDetailedState = next.confirmedDetailedState
  · rw [if_pos hsame, Option.ite_none_left_eq_some] at hrecord
    replace hrecord := hrecord.2
    cases hevent : database.endpointEvents.find? state.isActiveEvent with
    | none =>
      rw [hevent, Option.ite_none_right_eq_some] at hrecord
      exact Option.some.inj hrecord.2 ▸ .fallback hsame hevent
    | some event =>
      rw [hevent] at hrecord
      dsimp only at hrecord
      rw [Option.ite_none_left_eq_some] at hrecord
      replace hrecord := hrecord.2
      by_cases hday : 86400 ≤ event.secondsUntil time
      · rw [if_pos hday, Option.ite_none_right_eq_some] at hrecord
        exact Option.some.inj hrecord.2 ▸ .rollover hsame hevent hday
      · rw [if_neg hday, Option.some_inj] at hrecord
        exact hrecord ▸ .extension hsame hevent (not_le.mp hday)
  · rw [if_neg hsame, Option.ite_none_left_eq_some, Option.ite_none_right_eq_some] at hrecord
    exact Option.some.inj hrecord.2.2 ▸ .transition hsame

/-- What a cycle does: the tasks it spawns, and its result unless it raises. -/
structure CycleOutcome where
  effects : List Effect
  result : Option (EndpointState × Database)

/-- `process_cycle`. -/
def processCycle (threshold : ℕ) (environment : Environment) (state : EndpointState)
    (result : PingResult) (baseline : Option (ℚ × ℚ)) (nowIso executionTime : ℤ)
    (database : Database) : CycleOutcome :=
  let states := classifyCycle result baseline
  let next := confirm threshold environment state states.1 states.2
  { effects :=
      if confirmsTransition threshold state states.2 then
        transitionEffects environment state result states.1 states.2 nowIso
      else []
    result := recordCycle state next result executionTime database }

end Lnmp.Monitoring
