import Lnmp.Alerts.ChannelFilters

/-!
# The delivery log

A dispatch reads the channels and writes a row of the delivery log for each channel that an alert
passes (`_dispatch_event`, `_evaluate_and_send_channel` and `_record_delivery_log` of
`services/alert_dispatcher.py`). Rows are written while other dispatches go on; a row whose writing
fails is lost. An alert that a root cause suppresses has a row for every channel.

The log is a second state beside the one of the dispatcher, whose steps it takes. The parsing of an
endpoint's id as a UUID is left out.
-/

set_option autoImplicit false
set_option relaxedAutoImplicit false

namespace Lnmp.Alerts

open Lnmp.Foundation

/-! ### Rows -/

/-- The column `status`. -/
inductive DeliveryStatus
  | delivered
  | failed
  | throttled
  deriving DecidableEq

/-- A row of `alert_delivery_logs`. -/
structure AlertDeliveryLog where
  channelId : String
  channelName : String
  endpointId : Option String
  endpointName : String
  eventType : String
  status : DeliveryStatus
  statusCode : Option ℕ
  responseMessage : Option String
  deriving DecidableEq

/-- What a dispatch knows of its alert. -/
structure Alert where
  event : StateEvent
  timestamp : ℤ
  ipAddress : String
  deriving DecidableEq

/-- `response_message[:1000] if response_message else None`. -/
def clipMessage (message : String) : Option String :=
  if message = "" then none else some (String.ofList (message.toList.take 1000))

/-- The row of `_record_delivery_log`. -/
def Alert.logEntry (alert : Alert) (channel : DispatchedChannel) (status : DeliveryStatus)
    (statusCode : Option ℕ) (message : String) : AlertDeliveryLog where
  channelId := channel.id
  channelName := channel.name
  endpointId := alert.event.endpoint
  endpointName := alert.event.endpointName
  eventType := alert.event.eventType
  status := status
  statusCode := statusCode
  responseMessage := clipMessage message

/-- The row of a channel when a root cause suppresses the alert. -/
def Alert.suppressedEntry (alert : Alert) (channel : DispatchedChannel) : AlertDeliveryLog :=
  alert.logEntry channel .throttled none "Suppressed by upstream root cause"

/-- The row of a channel whose provider is not called. -/
def Alert.throttledEntry (alert : Alert) (channel : DispatchedChannel) (isFlapping : Bool) :
    AlertDeliveryLog :=
  alert.logEntry channel .throttled none <|
    if isFlapping then
      "Suppressed: Endpoint is flapping (>= 4 transitions in 10 minutes). " ++
        "Alerts quarantined for 15 minutes."
    else "Throttled by rate limiter (max 1 alert / 5 minutes per severity)."

/-- A sending is reported as delivered. -/
def isDelivered : Except String SendReply → Bool
  | .ok reply => reply.delivered
  | .error _ => false

/-- The row of a channel whose provider was called. An exception is a failure. -/
def Alert.sentEntry (alert : Alert) (channel : DispatchedChannel) :
    Except String SendReply → AlertDeliveryLog
  | .ok reply => alert.logEntry channel (if reply.delivered then .delivered else .failed)
      reply.statusCode reply.message
  | .error error => alert.logEntry channel .failed none error

/-! ### Dispatches and their rows -/

/-- The enabled channels, with distinct ids. -/
structure ChannelRows where
  rows : List DispatchedChannel
  nodup_ids : (rows.map DispatchedChannel.id).Nodup
  deriving DecidableEq

/-- The ids of the channels. -/
def ChannelRows.ids (channels : ChannelRows) : List String := channels.rows.map DispatchedChannel.id

/-- The channel with an id. -/
def ChannelRows.find? (channels : ChannelRows) (channelId : String) : Option DispatchedChannel :=
  channels.rows.find? fun channel ↦ channel.id = channelId

/-- The channels that an alert is for. -/
inductive Audience
  | undecided
  | suppressing
  | suppressed (channels : ChannelRows)
  | loaded (channels : ChannelRows)
  deriving DecidableEq

/-- A dispatch that has started, and perhaps ended. -/
structure AlertRecord where
  alert : Alert
  audience : Audience
  deriving DecidableEq

/-- The filters of the loaded channels. -/
def AlertRecord.passesFilters (record : AlertRecord) (channelId : String) (event : StateEvent) :
    Bool :=
  match record.audience with
  | .loaded channels =>
    (channels.find? channelId).any (·.passes event record.alert.ipAddress)
  | _ => false

/-- A row on its way to the table, with the dispatch that writes it. -/
structure LogWrite where
  task : ℕ
  alert : Alert
  row : AlertDeliveryLog
  deriving DecidableEq

/-- The dispatcher, its dispatches so far, and the rows that are being written, that are in the
table, and that were lost. -/
structure DeliveryLog where
  dispatcher : Dispatcher
  alerts : Dict ℕ AlertRecord
  writing : List LogWrite
  written : List LogWrite
  lost : List LogWrite

/-- What happens next. -/
inductive DeliveryEvent
  | prune (now : ℤ)
  | start (task : ℕ) (message : Message) (ipAddress : String) (now : ℤ)
  | toggle (task : ℕ) (enabled : Bool)
  | suppress (task : ℕ) (channels : ChannelRows)
  | load (task : ℕ) (channels : ChannelRows)
  | evaluate (task : ℕ) (channelId : String)
  | provide (task : ℕ) (channelId : String) (result : Except String SendReply)
  | write (index : ℕ) (succeeds : Bool)
  | finish (task : ℕ)

namespace Dispatcher

/-- The dispatch has nothing to do but to end. -/
def isLogging (dispatcher : Dispatcher) (task : ℕ) : Bool :=
  (dispatcher.dispatches.get? task).any (·.phase = .logging)

/-- `is_flapping` of a dispatch that evaluates its channels. -/
def isFlapping (dispatcher : Dispatcher) (task : ℕ) : Bool :=
  match (dispatcher.dispatches.get? task).map Dispatch.phase with
  | some (.evaluating isFlapping _) => isFlapping
  | _ => false

/-- Where a dispatch is with a channel. -/
def stage? (dispatcher : Dispatcher) (task : ℕ) (channelId : String) : Option Stage :=
  match (dispatcher.dispatches.get? task).map Dispatch.phase with
  | some (.evaluating _ stages) => stages.get? channelId
  | _ => none

end Dispatcher

namespace DeliveryLog

/-- The log at the start. -/
def init (origin : ℤ) : DeliveryLog where
  dispatcher := Dispatcher.init origin
  alerts := Dict.empty
  writing := []
  written := []
  lost := []

/-- All rows that were made: those in the table, those that were lost, and those that are being
written. -/
def rows (log : DeliveryLog) : List LogWrite := log.written ++ log.lost ++ log.writing

/-- A dispatch has a next record. -/
def proceed (log : DeliveryLog) (dispatcher : Dispatcher) (task : ℕ) (record : AlertRecord)
    (entries : List AlertDeliveryLog) : DeliveryLog :=
  { log with
    dispatcher := dispatcher
    alerts := log.alerts.set task record
    writing := log.writing ++ entries.map fun row ↦ ⟨task, record.alert, row⟩ }

/-- What `_evaluate_and_send_channel` logs before the provider is called. -/
def throttledEntries (record : AlertRecord) (channel : DispatchedChannel) (isFlapping : Bool)
    (stage : Option Stage) : List AlertDeliveryLog :=
  if channel.passes record.alert.event record.alert.ipAddress ∧ stage = some .done then
    [record.alert.throttledEntry channel isFlapping]
  else []

/-- The log after an event, `none` when the event cannot happen. -/
def step (log : DeliveryLog) : DeliveryEvent → Option DeliveryLog
  | .prune now =>
    (log.dispatcher.step (fun _ _ ↦ false) (.prune now)).map fun dispatcher ↦
      { log with dispatcher := dispatcher }
  | .start task message ipAddress now =>
    if task ∈ log.alerts.keys then none
    else
      (log.dispatcher.step (fun _ _ ↦ false) (.start task message now)).map fun dispatcher ↦
        match message with
        | .rca _ => { log with dispatcher := dispatcher }
        | .state event => log.proceed dispatcher task ⟨⟨event, now, ipAddress⟩, .undecided⟩ []
  | .toggle task enabled =>
    (log.alerts.get? task).bind fun record ↦
      (log.dispatcher.step (fun _ _ ↦ false) (.toggle task enabled)).map fun dispatcher ↦
        let audience := if enabled ∧ dispatcher.isLogging task then .suppressing else .undecided
        log.proceed dispatcher task ⟨record.alert, audience⟩ []
  | .suppress task channels =>
    match log.alerts.get? task with
    | some ⟨alert, .suppressing⟩ =>
      some (log.proceed log.dispatcher task ⟨alert, .suppressed channels⟩
        (channels.rows.map alert.suppressedEntry))
    | _ => none
  | .load task channels =>
    (log.alerts.get? task).bind fun record ↦
      (log.dispatcher.step (fun _ _ ↦ false) (.load task channels.ids)).map fun dispatcher ↦
        log.proceed dispatcher task ⟨record.alert, .loaded channels⟩ []
  | .evaluate task channelId =>
    match log.alerts.get? task with
    | some ⟨alert, .loaded channels⟩ =>
      (channels.find? channelId).bind fun channel ↦
        (log.dispatcher.step (AlertRecord.passesFilters ⟨alert, .loaded channels⟩)
          (.evaluate task channelId)).map fun dispatcher ↦
            log.proceed dispatcher task ⟨alert, .loaded channels⟩
              (throttledEntries ⟨alert, .loaded channels⟩ channel (log.dispatcher.isFlapping task)
                (dispatcher.stage? task channelId))
    | _ => none
  | .provide task channelId result =>
    match log.alerts.get? task with
    | some ⟨alert, .loaded channels⟩ =>
      (channels.find? channelId).bind fun channel ↦
        (log.dispatcher.step (fun _ _ ↦ false)
          (.provide task channelId (isDelivered result))).map fun dispatcher ↦
            log.proceed dispatcher task ⟨alert, .loaded channels⟩ [alert.sentEntry channel result]
    | _ => none
  | .write index succeeds =>
    log.writing[index]?.map fun write ↦
      { log with
        writing := log.writing.eraseIdx index
        written := if succeeds then log.written ++ [write] else log.written
        lost := if succeeds then log.lost else log.lost ++ [write] }
  | .finish task =>
    if (log.alerts.get? task).any (·.audience = .suppressing) ∨
        log.writing.any (·.task = task) then none
    else
      (log.dispatcher.step (fun _ _ ↦ false) (.finish task)).map fun dispatcher ↦
        { log with dispatcher := dispatcher }

end DeliveryLog

/-! ### What the dispatcher does in a step -/

namespace Dispatcher

/-- A dispatch goes on in another phase, and the others stay. -/
structure Advances (dispatcher next : Dispatcher) (task : ℕ) (dispatch : Dispatch) (phase : Phase) :
    Prop where
  get?_eq : dispatcher.dispatches.get? task = some dispatch
  dispatches_eq : next.dispatches = dispatcher.dispatches.set task { dispatch with phase := phase }

variable {passesFilters : String → StateEvent → Bool} {dispatcher next : Dispatcher} {task : ℕ}
  {dispatch : Dispatch} {phase : Phase} {channelId : String}

theorem Advances.get?_next (hadvances : Advances dispatcher next task dispatch phase) :
    next.dispatches.get? task = some { dispatch with phase := phase } := by
  rw [hadvances.dispatches_eq, Dict.get?_set, if_pos rfl]

theorem Advances.get?_other (hadvances : Advances dispatcher next task dispatch phase) {other : ℕ}
    (hother : other ≠ task) : next.dispatches.get? other = dispatcher.dispatches.get? other := by
  rw [hadvances.dispatches_eq, Dict.get?_set, if_neg hother]

theorem advances_proceed (hget : dispatcher.dispatches.get? task = some dispatch) (phase : Phase) :
    Advances dispatcher (dispatcher.proceed task dispatch phase) task dispatch phase :=
  ⟨hget, rfl⟩

theorem dispatches_prune {now : ℤ}
    (hstep : step passesFilters dispatcher (.prune now) = some next) :
    next.dispatches = dispatcher.dispatches ∧ next.delivered = dispatcher.delivered := by
  rw [step, Option.ite_none_right_eq_some] at hstep
  obtain rfl := Option.some.inj hstep.2
  exact ⟨rfl, rfl⟩

theorem dispatches_start_rca {event : RcaEvent} {now : ℤ}
    (hstep : step passesFilters dispatcher (.start task (.rca event) now) = some next) :
    next.dispatches = dispatcher.dispatches ∧ next.delivered = dispatcher.delivered := by
  rw [step, Option.ite_none_right_eq_some] at hstep
  obtain rfl := Option.some.inj hstep.2
  exact ⟨rfl, rfl⟩

theorem dispatches_start_state {event : StateEvent} {now : ℤ}
    (hstep : step passesFilters dispatcher (.start task (.state event) now) = some next) :
    next.dispatches = dispatcher.dispatches.set task ⟨event, now, .toggling⟩ ∧
      next.delivered = dispatcher.delivered := by
  rw [step, Option.ite_none_right_eq_some] at hstep
  obtain rfl := Option.some.inj hstep.2
  exact ⟨rfl, rfl⟩

/-- A dispatch that knows the toggle is at its end, or loads the channels. -/
theorem advances_toggle {enabled : Bool}
    (hstep : step passesFilters dispatcher (.toggle task enabled) = some next) :
    ∃ dispatch phase, Advances dispatcher next task dispatch phase ∧
      next.delivered = dispatcher.delivered ∧ dispatch.phase = .toggling ∧
      (phase = .logging ∨ ∃ isFlapping, phase = .loading isFlapping) := by
  simp only [step] at hstep
  split at hstep
  · rename_i event timestamp hget
    split at hstep
    · obtain rfl := Option.some.inj hstep
      refine ⟨_, _, ⟨hget, rfl⟩, rfl, rfl, ?_⟩
      cases (dispatcher.caches.transition event timestamp).1 with
      | none => exact Or.inl rfl
      | some isFlapping => exact Or.inr ⟨isFlapping, rfl⟩
    · obtain rfl := Option.some.inj hstep
      exact ⟨_, _, advances_proceed hget _, rfl, rfl, Or.inl rfl⟩
  · exact absurd hstep.symm (Option.some_ne_none next)

theorem advances_load {channels : List String}
    (hstep : step passesFilters dispatcher (.load task channels) = some next) :
    ∃ dispatch isFlapping, Advances dispatcher next task dispatch (.evaluating isFlapping
        (Dict.empty.update (channels.map fun channel ↦ (channel, .ready)))) ∧
      next.delivered = dispatcher.delivered ∧ dispatch.phase = .loading isFlapping := by
  simp only [step] at hstep
  split at hstep
  · rename_i hget
    obtain rfl := Option.some.inj hstep
    exact ⟨_, _, advances_proceed hget _, rfl, rfl⟩
  · exact absurd hstep.symm (Option.some_ne_none next)

/-- A channel that does not pass is done. One whose provider is called has passed. -/
theorem advances_evaluate
    (hstep : step passesFilters dispatcher (.evaluate task channelId) = some next) :
    ∃ dispatch isFlapping stages stage, Advances dispatcher next task dispatch
        (.evaluating isFlapping (stages.set channelId stage)) ∧
      next.delivered = dispatcher.delivered ∧ dispatch.phase = .evaluating isFlapping stages ∧
      stages.get? channelId = some .ready ∧
      (stage = .done ∨ stage = .sending ∧ passesFilters channelId dispatch.event = true) := by
  simp only [step] at hstep
  split at hstep
  · rename_i event timestamp isFlapping stages hget
    rw [Option.ite_none_right_eq_some] at hstep
    obtain ⟨hready, hstep⟩ := hstep
    obtain rfl := Option.some.inj hstep
    refine ⟨_, _, stages, _, advances_proceed hget _, rfl, rfl, hready, ?_⟩
    unfold evaluateChannel
    split_ifs with hskip
    · exact Or.inl rfl
    · have hpasses := not_not.mp (not_or.mp hskip).1
      split
      · exact Or.inr ⟨rfl, hpasses⟩
      · split_ifs
        · exact Or.inl rfl
        · exact Or.inr ⟨rfl, hpasses⟩
  · exact absurd hstep.symm (Option.some_ne_none next)

theorem advances_provide {delivered : Bool}
    (hstep : step passesFilters dispatcher (.provide task channelId delivered) = some next) :
    ∃ dispatch isFlapping stages, Advances dispatcher next task dispatch
        (.evaluating isFlapping (stages.set channelId .done)) ∧
      next.delivered = dispatcher.delivered ++
        (if delivered then [(dispatch.event.rateKey channelId, dispatch.timestamp)] else []) ∧
      dispatch.phase = .evaluating isFlapping stages ∧ stages.get? channelId = some .sending := by
  simp only [step] at hstep
  split at hstep
  · rename_i event timestamp isFlapping stages hget
    rw [Option.ite_none_right_eq_some] at hstep
    obtain ⟨hsending, hstep⟩ := hstep
    obtain rfl := Option.some.inj hstep
    cases delivered with
    | false => exact ⟨_, _, stages, ⟨hget, rfl⟩, (List.append_nil _).symm, rfl, hsending⟩
    | true => exact ⟨_, _, stages, ⟨hget, rfl⟩, rfl, rfl, hsending⟩
  · exact absurd hstep.symm (Option.some_ne_none next)

/-- A dispatch ends when it has nothing more to do. -/
theorem dispatches_finish (hstep : step passesFilters dispatcher (.finish task) = some next) :
    ∃ dispatch, dispatcher.dispatches.get? task = some dispatch ∧
      next.dispatches = dispatcher.dispatches.erase task ∧
      next.delivered = dispatcher.delivered ∧
      (dispatch.phase = .logging ∨ ∃ isFlapping stages,
        dispatch.phase = .evaluating isFlapping stages ∧
          ∀ stage ∈ stages.values, stage = .done) := by
  simp only [step] at hstep
  split at hstep
  · rename_i hget
    obtain rfl := Option.some.inj hstep
    exact ⟨_, hget, rfl, rfl, Or.inl rfl⟩
  · rename_i isFlapping stages hget
    rw [Option.ite_none_right_eq_some] at hstep
    obtain ⟨hdone, hstep⟩ := hstep
    obtain rfl := Option.some.inj hstep
    exact ⟨_, hget, rfl, rfl, Or.inr ⟨isFlapping, stages, rfl, hdone⟩⟩
  · exact absurd hstep.symm (Option.some_ne_none next)

end Dispatcher

end Lnmp.Alerts
