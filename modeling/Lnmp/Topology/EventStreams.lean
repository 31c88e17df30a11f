import Lnmp.Foundation.JsonLines
import Lnmp.Foundation.Runs
import Lnmp.Topology.TelemetryRelay

/-!
# Live events from the broker to the browsers

The way of an event: a notification of the broker waits in the queue of a subscription
(`PostgresEventBroker.subscribe`), the telemetry relay takes it and broadcasts it, and
`broadcast_sse_event` (`routers/events.py`) puts it on the queue of every connected client, whose
generator writes it as a line of JSON. Clients connect, disconnect and fall behind on their own.

`stream_of_run` says what a client has been sent in any interleaving: the greeting and behind it the
first of the events broadcast since it connected, of which the others wait in its queue; and the
events of a channel are broadcast in the order in which they were notified, with none left out.

The connection of a subscription that listens does not break. What would be notified while it is
lost and made again is not received, and has no place here.
-/

set_option autoImplicit false
set_option relaxedAutoImplicit false

namespace Lnmp.Topology

open Lnmp.Foundation Lnmp.Foundation.Runs Lnmp.Foundation.JsonSyntax
open Lnmp.Foundation.JsonText (PyString ofText)
open Lnmp.Foundation.JsonScan (IsDecoded isHighSurrogate forall_mem_of_all)
open Lnmp.Foundation.PythonText (splitLines splitLines_append)

/-! ### Events -/

/-- The data of an event, a JSON object. -/
structure EventObject (F : Type) where
  members : List (PyString × Json F)
  isValue : (Json.object members).IsValue

/-- An event that is broadcast. -/
structure SseEvent (F : Type) where
  eventType : PyString
  data : EventObject F
  decoded : IsDecoded eventType

/-- The key `type`. -/
def typeKey : PyString := ofText "type"

/-- `{"type": event_type, **data}`: a type in the data replaces that of the event. -/
def SseEvent.payload {F : Type} (event : SseEvent F) : Json F :=
  .object ((typeKey, (event.data.members.lookup typeKey).getD (.string event.eventType)) ::
    event.data.members.filter (·.1 ≠ typeKey))

/-- The text of a channel. -/
def Channel.eventType : Channel → PyString
  | .stateTransition => ofText "STATE_TRANSITION"
  | .nodeStateChange => ofText "NODE_STATE_CHANGE"
  | .rcaIncident => ofText "RCA_INCIDENT"

/-- A text without surrogates is decoded. -/
theorem isDecoded_of_all {text : PyString} (htext : (text.all (!isHighSurrogate ·)) = true) :
    IsDecoded text := by
  induction text with
  | nil => exact List.IsChain.nil
  | cons code rest ih =>
    rw [List.all_cons, Bool.and_eq_true, Bool.not_eq_true'] at htext
    cases rest with
    | nil => exact List.IsChain.singleton code
    | cons next rest =>
      refine List.IsChain.cons_cons (fun hpair ↦ ?_) (ih htext.2)
      rw [htext.1] at hpair
      exact Bool.false_ne_true hpair.1

theorem isDecoded_eventType (channel : Channel) : IsDecoded channel.eventType := by
  cases channel <;> exact isDecoded_of_all (by decide)

/-- The payload of the greeting. -/
def greeting {F : Type} : Json F :=
  .object [(typeKey, .string (ofText "CONNECTED")),
    (ofText "message", .string (ofText "LNMP v3.3.0 SSE stream established."))]

section Chunks

variable {F : Type} (codec : FloatCodec F)

/-- `f"data: {json_str}\n\n"`, `none` where `json.dumps` raises an error. -/
def dataChunk (json : Json F) : Option (List Char) :=
  (JsonSyntax.dumps codec json).map fun text ↦ "data: ".toList ++ text ++ ['\n', '\n']

/-- The heartbeat that keeps a connection alive. -/
def heartbeatChunk : List Char := ": heartbeat".toList ++ ['\n', '\n']

/-- The data in the lines of a stream. -/
def readStream (text : List Char) : List (Option (Json F)) :=
  ((splitLines text).filter ("data: ".toList.isPrefixOf ·)).map fun line ↦
    loads codec (line.drop "data: ".toList.length)

end Chunks

/-! ### The hub -/

/-- A broadcast event, and the channel that it came from. -/
structure Broadcast (F : Type) where
  origin : Option Channel
  event : SseEvent F

/-- The phases of a generator: it is registered, it has greeted the client, it is done. -/
inductive StreamPhase
  | registered
  | streaming
  | closed
  deriving DecidableEq

/-- The stream of a client: its queue, and the chunks that it was sent. The number of broadcasts
before it was registered is kept for the statements only. -/
structure SseStream (F : Type) where
  phase : StreamPhase
  queue : List (Broadcast F)
  sent : List (List Char)
  joined : ℕ

/-- The queues of the subscriptions and of the streams, and what has been notified and broadcast so
far. -/
structure EventHub (F : Type) where
  notifications : Channel → List (EventObject F)
  streams : ℕ → Option (SseStream F)
  notified : Channel → List (EventObject F)
  broadcasts : List (Broadcast F)

/-- What happens. An event that does not come from the broker is broadcast by the server itself. -/
inductive HubEvent (F : Type)
  | notify (channel : Channel) (data : EventObject F)
  | relay (channel : Channel)
  | broadcast (event : SseEvent F)
  | connect (client : ℕ)
  | greet (client : ℕ)
  | deliver (client : ℕ)
  | heartbeat (client : ℕ)
  | disconnect (client : ℕ)

section Hub

variable {F : Type} (codec : FloatCodec F)

/-- `q.put_nowait(payload)`, for the queues that are registered. -/
def SseStream.put (stream : SseStream F) (broadcast : Broadcast F) : SseStream F :=
  if stream.phase = .closed then stream
  else { stream with queue := stream.queue ++ [broadcast] }

/-- `broadcast_sse_event`. -/
def EventHub.broadcast (hub : EventHub F) (broadcast : Broadcast F) : EventHub F :=
  { hub with
    streams := fun client ↦ (hub.streams client).map fun stream ↦ stream.put broadcast
    broadcasts := hub.broadcasts ++ [broadcast] }

/-- Another state of the stream of a client. -/
def EventHub.setStream (hub : EventHub F) (client : ℕ) (stream : SseStream F) : EventHub F :=
  { hub with streams := Function.update hub.streams client (some stream) }

/-- The first yield of `sse_event_generator`. -/
def SseStream.greet (stream : SseStream F) : Option (SseStream F) :=
  if stream.phase = .registered then
    (dataChunk codec greeting).map fun chunk ↦
      { stream with phase := .streaming, sent := stream.sent ++ [chunk] }
  else none

/-- A round of the loop with an event. An error in `json.dumps` ends the generator. -/
def SseStream.deliver (stream : SseStream F) : Option (SseStream F) :=
  if stream.phase = .streaming then
    match stream.queue with
    | [] => none
    | broadcast :: rest =>
      match dataChunk codec broadcast.event.payload with
      | some chunk => some { stream with queue := rest, sent := stream.sent ++ [chunk] }
      | none => some { stream with phase := .closed, queue := rest }
  else none

/-- A round of the loop without one. -/
def SseStream.heartbeat (stream : SseStream F) : Option (SseStream F) :=
  if stream.phase = .streaming then some { stream with sent := stream.sent ++ [heartbeatChunk] }
  else none

/-- The client has gone, or the task was cancelled. -/
def SseStream.disconnect (stream : SseStream F) : Option (SseStream F) :=
  if stream.phase = .closed then none else some { stream with phase := .closed }

/-- A step of the stream of a client. -/
def EventHub.onStream (hub : EventHub F) (client : ℕ)
    (step : SseStream F → Option (SseStream F)) : Option (EventHub F) :=
  ((hub.streams client).bind step).map (hub.setStream client)

/-- One step. -/
def EventHub.next (hub : EventHub F) : HubEvent F → Option (EventHub F)
  | .notify channel data =>
    some { hub with
      notifications := Function.update hub.notifications channel (hub.notifications channel ++ [data])
      notified := Function.update hub.notified channel (hub.notified channel ++ [data]) }
  | .relay channel =>
    match hub.notifications channel with
    | [] => none
    | data :: rest =>
      some ({ hub with notifications := Function.update hub.notifications channel rest }.broadcast
        ⟨some channel, channel.eventType, data, isDecoded_eventType channel⟩)
  | .broadcast event => some (hub.broadcast ⟨none, event⟩)
  | .connect client =>
    match hub.streams client with
    | some _ => none
    | none => some (hub.setStream client ⟨.registered, [], [], hub.broadcasts.length⟩)
  | .greet client => hub.onStream client (SseStream.greet codec)
  | .deliver client => hub.onStream client (SseStream.deliver codec)
  | .heartbeat client => hub.onStream client SseStream.heartbeat
  | .disconnect client => hub.onStream client SseStream.disconnect

/-- A server without clients. -/
def EventHub.start : EventHub F where
  notifications := fun _ ↦ []
  streams := fun _ ↦ none
  notified := fun _ ↦ []
  broadcasts := []

/-- The data of a broadcast that came from a channel. -/
def Broadcast.dataOf (channel : Channel) (broadcast : Broadcast F) : Option (EventObject F) :=
  if broadcast.origin = some channel then some broadcast.event.data else none

end Hub

/-! ### Chunks -/

section Reading

variable {F : Type} {codec : FloatCodec F} {json : Json F} {chunk : List Char}

theorem isDecoded_typeKey : IsDecoded typeKey := isDecoded_of_all (by decide)

theorem isValue_payload (event : SseEvent F) : event.payload.IsValue := by
  obtain ⟨eventType, ⟨members, hvalue⟩, hdecoded⟩ := event
  cases hvalue with
  | object members hkeys htexts hvalues =>
    refine Json.IsValue.object _ ?_ ?_ ?_
    · rw [List.map_cons, List.nodup_cons]
      refine ⟨fun hmem ↦ ?_, (hkeys.sublist (List.filter_sublist.map _))⟩
      obtain ⟨member, hmember, hkey⟩ := List.mem_map.mp hmem
      exact of_decide_eq_true (List.mem_filter.mp hmember).2 hkey
    · exact List.forall_mem_cons.mpr ⟨isDecoded_typeKey, fun member hmember ↦
        htexts member (List.mem_of_mem_filter hmember)⟩
    · refine List.forall_mem_cons.mpr ⟨?_, fun member hmember ↦
        hvalues member (List.mem_of_mem_filter hmember)⟩
      cases hlookup : members.lookup typeKey with
      | none => exact Json.IsValue.string _ hdecoded
      | some value =>
        obtain ⟨before, behind, rfl, -⟩ := List.lookup_eq_some_iff.mp hlookup
        exact hvalues (typeKey, value) (by simp)

theorem isValue_greeting : (greeting : Json F).IsValue := by
  have hnone : ∀ property : PyString × Json F → Prop, ∀ member ∈ [], property member :=
    fun _ _ hmember ↦ absurd hmember List.not_mem_nil
  have hmessage : IsDecoded (ofText "message") := isDecoded_of_all (by decide)
  refine Json.IsValue.object _ (by decide : [typeKey, ofText "message"].Nodup) ?_ ?_
  · exact List.forall_mem_cons.mpr ⟨isDecoded_typeKey,
      List.forall_mem_cons.mpr ⟨hmessage, hnone _⟩⟩
  · exact List.forall_mem_cons.mpr ⟨Json.IsValue.string _ (isDecoded_of_all (by decide)),
      List.forall_mem_cons.mpr ⟨Json.IsValue.string _ (isDecoded_of_all (by decide)), hnone _⟩⟩

/-- A chunk is a line and an empty line. -/
def IsChunk (chunk : List Char) : Prop :=
  ∃ line, PrintableText line ∧ chunk = line ++ ['\n', '\n']

theorem isChunk_heartbeatChunk : IsChunk heartbeatChunk :=
  ⟨_, forall_mem_of_all (by decide), rfl⟩

theorem isChunk_of_dataChunk (hjson : json.IsValue) (hchunk : dataChunk codec json = some chunk) :
    IsChunk chunk := by
  obtain ⟨text, htext, rfl⟩ := Option.map_eq_some_iff.mp hchunk
  exact ⟨_, printableText_append.mpr
    ⟨forall_mem_of_all (by decide), printableText_dumps hjson htext⟩, rfl⟩

/-- The lines of a chunk are read in front of those behind it. -/
theorem readStream_append (hchunk : IsChunk chunk) (rest : List Char) :
    readStream codec (chunk ++ rest) = readStream codec chunk ++ readStream codec rest := by
  obtain ⟨line, hline, rfl⟩ := hchunk
  have hbreak : ∀ char ∈ line, PythonText.isLineBreak char = false := fun char hchar ↦
    (hline char hchar).isLineBreak
  have hlines : ∀ behind, splitLines (line ++ ['\n', '\n'] ++ behind) =
      [line, []] ++ splitLines behind := by
    intro behind
    rw [List.append_assoc]
    exact (splitLines_append hbreak _).trans
      (congrArg _ (splitLines_append (fun _ hchar ↦ absurd hchar List.not_mem_nil) behind))
  have hself := hlines []
  rw [List.append_nil, show splitLines [] = [] from rfl, List.append_nil] at hself
  rw [readStream, hlines, readStream, hself, readStream, List.filter_append, List.map_append]

theorem readStream_heartbeatChunk : readStream codec heartbeatChunk = [] := by
  have hlines : (splitLines heartbeatChunk).filter ("data: ".toList.isPrefixOf ·) = [] := by decide
  rw [readStream, hlines, List.map_nil]

/-- What a data chunk says. -/
theorem readStream_dataChunk (hjson : json.IsValue)
    (hchunk : dataChunk codec json = some chunk) : readStream codec chunk = [some json] := by
  obtain ⟨text, htext, rfl⟩ := Option.map_eq_some_iff.mp hchunk
  have hlines : splitLines ("data: ".toList ++ text ++ ['\n', '\n']) =
      ["data: ".toList ++ text, []] :=
    splitLines_dumps hjson htext (forall_mem_of_all (by decide)) ['\n']
  rw [readStream, hlines, List.filter_cons_of_pos
    (List.isPrefixOf_iff_prefix.mpr (List.prefix_append ..)), List.filter_cons_of_neg (by decide),
    List.filter_nil, List.map_singleton, List.drop_left' rfl, loads_dumps hjson htext]

/-- The chunks of a stream are read one by one. -/
theorem readStream_flatten {sent : List (List Char)} (hsent : ∀ chunk ∈ sent, IsChunk chunk) :
    readStream codec sent.flatten = sent.flatMap (readStream codec) := by
  induction sent with
  | nil => rfl
  | cons chunk sent ih =>
    rw [List.forall_mem_cons] at hsent
    rw [List.flatten_cons, readStream_append hsent.1, ih hsent.2, List.flatMap_cons]

end Reading

/-! ### What a client is sent -/

section Delivery

variable {F : Type} {codec : FloatCodec F} {hub next : EventHub F} {stream : SseStream F}
  {broadcasts delivered : List (Broadcast F)}

/-- What the client reads: nothing before the greeting, and the payloads behind it. -/
def shown (delivered : List (Broadcast F)) : List (Option (Json F)) :=
  some greeting :: delivered.map fun broadcast ↦ some broadcast.event.payload

/-- The stream has delivered the first of the events broadcast since it was registered. The others
are in its queue until it is closed. -/
structure SseStream.Delivered (codec : FloatCodec F) (broadcasts : List (Broadcast F))
    (stream : SseStream F) (delivered : List (Broadcast F)) : Prop where
  chunks : ∀ chunk ∈ stream.sent, IsChunk chunk
  reads : stream.sent.flatMap (readStream codec) = if stream.sent = [] then [] else shown delivered
  greeted : stream.sent = [] → delivered = []
  registered : stream.phase = .registered → stream.sent = []
  streaming : stream.phase = .streaming → stream.sent ≠ []
  joined : stream.joined ≤ broadcasts.length
  front : delivered <+: broadcasts.drop stream.joined
  waiting : stream.phase ≠ .closed → delivered ++ stream.queue = broadcasts.drop stream.joined

theorem delivered_registered (broadcasts : List (Broadcast F)) :
    (SseStream.mk .registered [] [] broadcasts.length).Delivered codec broadcasts [] where
  chunks := fun _ hchunk ↦ absurd hchunk List.not_mem_nil
  reads := rfl
  greeted := fun _ ↦ rfl
  registered := fun _ ↦ rfl
  streaming := fun hphase ↦ absurd hphase (by decide : StreamPhase.registered ≠ .streaming)
  joined := le_rfl
  front := List.nil_prefix
  waiting := fun _ ↦ by rw [List.drop_length]; rfl

/-- A broadcast waits in the queue. -/
theorem SseStream.Delivered.put (hstream : stream.Delivered codec broadcasts delivered)
    (broadcast : Broadcast F) :
    (stream.put broadcast).Delivered codec (broadcasts ++ [broadcast]) delivered := by
  have hdrop : (broadcasts ++ [broadcast]).drop stream.joined =
      broadcasts.drop stream.joined ++ [broadcast] := List.drop_append_of_le_length hstream.joined
  have hjoined : stream.joined ≤ (broadcasts ++ [broadcast]).length := by
    rw [List.length_append]
    exact hstream.joined.trans (Nat.le_add_right _ _)
  have hfront : delivered <+: (broadcasts ++ [broadcast]).drop stream.joined := by
    rw [hdrop]
    exact hstream.front.trans (List.prefix_append ..)
  rw [SseStream.put]
  split_ifs with hclosed
  · exact { hstream with
      joined := hjoined
      front := hfront
      waiting := fun hphase ↦ absurd hclosed hphase }
  · exact { hstream with
      joined := hjoined
      front := hfront
      waiting := fun hphase ↦ by
        rw [hdrop, ← hstream.waiting hphase, List.append_assoc] }

theorem SseStream.Delivered.greet (hstream : stream.Delivered codec broadcasts delivered)
    {greeted : SseStream F} (hgreet : stream.greet codec = some greeted) :
    greeted.Delivered codec broadcasts delivered := by
  rw [SseStream.greet] at hgreet
  split_ifs at hgreet with hphase
  obtain ⟨chunk, hchunk, rfl⟩ := Option.map_eq_some_iff.mp hgreet
  have hnone := hstream.registered hphase
  exact { hstream with
    chunks := fun other hother ↦ by
      rw [hnone, List.nil_append, List.mem_singleton] at hother
      exact hother ▸ isChunk_of_dataChunk isValue_greeting hchunk
    reads := by
      rw [hnone, hstream.greeted hnone, List.nil_append, if_neg (List.cons_ne_nil _ _),
        List.flatMap_singleton, readStream_dataChunk isValue_greeting hchunk]
      rfl
    greeted := fun hnil ↦ absurd hnil (List.append_ne_nil_of_right_ne_nil _ (List.cons_ne_nil _ _))
    registered := fun hregistered ↦
      absurd hregistered (by decide : StreamPhase.streaming ≠ .registered)
    streaming := fun _ ↦ List.append_ne_nil_of_right_ne_nil _ (List.cons_ne_nil _ _)
    waiting := fun _ ↦ hstream.waiting (by rw [hphase]; decide) }

theorem SseStream.Delivered.deliver (hstream : stream.Delivered codec broadcasts delivered)
    {moved : SseStream F} (hdeliver : stream.deliver codec = some moved) :
    ∃ delivered, moved.Delivered codec broadcasts delivered := by
  rw [SseStream.deliver] at hdeliver
  split_ifs at hdeliver with hphase
  split at hdeliver
  · exact absurd hdeliver (Option.some_ne_none _).symm
  · rename_i broadcast rest hqueue
    have hwaiting := hstream.waiting (by rw [hphase]; decide)
    rw [hqueue, List.append_cons] at hwaiting
    split at hdeliver
    · rename_i chunk hchunk
      obtain rfl := Option.some.inj hdeliver
      have hsent := hstream.streaming hphase
      refine ⟨delivered ++ [broadcast], ?_⟩
      exact { hstream with
        chunks := fun other hother ↦ (List.mem_append.mp hother).elim (hstream.chunks other)
          fun hlast ↦ List.mem_singleton.mp hlast ▸
            isChunk_of_dataChunk (isValue_payload broadcast.event) hchunk
        reads := by
          rw [List.flatMap_append, hstream.reads, if_neg hsent, List.flatMap_singleton,
            readStream_dataChunk (isValue_payload broadcast.event) hchunk,
            if_neg (List.append_ne_nil_of_left_ne_nil hsent _), shown, shown, List.map_append,
            List.cons_append]
          rfl
        greeted := fun hnil ↦ absurd hnil (List.append_ne_nil_of_left_ne_nil hsent _)
        registered := fun hregistered ↦ by
          rw [hphase] at hregistered
          exact absurd hregistered (by decide)
        streaming := fun _ ↦ List.append_ne_nil_of_left_ne_nil hsent _
        front := by
          rw [← hwaiting]
          exact List.prefix_append ..
        waiting := fun _ ↦ hwaiting }
    · obtain rfl := Option.some.inj hdeliver
      exact ⟨delivered, { hstream with
        registered := fun hregistered ↦
          absurd hregistered (by decide : StreamPhase.closed ≠ .registered)
        streaming := fun hstreaming ↦
          absurd hstreaming (by decide : StreamPhase.closed ≠ .streaming)
        waiting := fun hopen ↦ absurd rfl hopen }⟩

theorem SseStream.Delivered.heartbeat (hstream : stream.Delivered codec broadcasts delivered)
    {moved : SseStream F} (hheartbeat : stream.heartbeat = some moved) :
    moved.Delivered codec broadcasts delivered := by
  rw [SseStream.heartbeat] at hheartbeat
  split_ifs at hheartbeat with hphase
  obtain rfl := Option.some.inj hheartbeat
  have hsent := hstream.streaming hphase
  exact { hstream with
    chunks := fun other hother ↦ (List.mem_append.mp hother).elim (hstream.chunks other)
      fun hlast ↦ List.mem_singleton.mp hlast ▸ isChunk_heartbeatChunk
    reads := by
      rw [List.flatMap_append, hstream.reads, if_neg hsent, List.flatMap_singleton,
        readStream_heartbeatChunk, List.append_nil,
        if_neg (List.append_ne_nil_of_left_ne_nil hsent _)]
    greeted := fun hnil ↦ absurd hnil (List.append_ne_nil_of_left_ne_nil hsent _)
    registered := fun hregistered ↦ by
      rw [hphase] at hregistered
      exact absurd hregistered (by decide)
    streaming := fun _ ↦ List.append_ne_nil_of_left_ne_nil hsent _ }

theorem SseStream.Delivered.disconnect (hstream : stream.Delivered codec broadcasts delivered)
    {moved : SseStream F} (hdisconnect : stream.disconnect = some moved) :
    moved.Delivered codec broadcasts delivered := by
  rw [SseStream.disconnect] at hdisconnect
  split_ifs at hdisconnect
  obtain rfl := Option.some.inj hdisconnect
  exact { hstream with
    registered := fun hregistered ↦
      absurd hregistered (by decide : StreamPhase.closed ≠ .registered)
    streaming := fun hstreaming ↦
      absurd hstreaming (by decide : StreamPhase.closed ≠ .streaming)
    waiting := fun hopen ↦ absurd rfl hopen }

/-- Every stream has delivered the first of its events. -/
def EventHub.AllDelivered (codec : FloatCodec F) (hub : EventHub F) : Prop :=
  ∀ client stream, hub.streams client = some stream →
    ∃ delivered, stream.Delivered codec hub.broadcasts delivered

/-- The events of every channel have been broadcast in their order, up to those that still wait. -/
def EventHub.Relayed (hub : EventHub F) : Prop :=
  ∀ channel, hub.notified channel =
    hub.broadcasts.filterMap (Broadcast.dataOf channel) ++ hub.notifications channel

theorem EventHub.AllDelivered.broadcast (hall : hub.AllDelivered codec)
    (broadcast : Broadcast F) : (hub.broadcast broadcast).AllDelivered codec := by
  intro client stream hstream
  obtain ⟨before, hbefore, rfl⟩ := Option.map_eq_some_iff.mp hstream
  obtain ⟨delivered, hdelivered⟩ := hall client before hbefore
  exact ⟨delivered, hdelivered.put broadcast⟩

theorem EventHub.AllDelivered.setStream (hall : hub.AllDelivered codec) {client : ℕ}
    (hstream : ∃ delivered, stream.Delivered codec hub.broadcasts delivered) :
    (hub.setStream client stream).AllDelivered codec := by
  intro other found hfound
  by_cases hsame : other = client
  · have hself : (hub.setStream client stream).streams other = some stream := by
      rw [hsame]
      exact Function.update_self ..
    obtain rfl := Option.some.inj (hself.symm.trans hfound)
    exact hstream
  · have hother : (hub.setStream client stream).streams other = hub.streams other :=
      Function.update_of_ne hsame ..
    exact hall other found (hother.symm.trans hfound)

/-- A step of one stream. -/
theorem EventHub.AllDelivered.onStream (hall : hub.AllDelivered codec) {client : ℕ}
    {step : SseStream F → Option (SseStream F)}
    (hstep : ∀ before after delivered, before.Delivered codec hub.broadcasts delivered →
      step before = some after → ∃ delivered, after.Delivered codec hub.broadcasts delivered)
    (hnext : hub.onStream client step = some next) :
    next.AllDelivered codec ∧ next.broadcasts = hub.broadcasts ∧ next.notified = hub.notified ∧
      next.notifications = hub.notifications := by
  obtain ⟨after, hafter, rfl⟩ := Option.map_eq_some_iff.mp hnext
  obtain ⟨before, hbefore, hstepped⟩ := Option.bind_eq_some_iff.mp hafter
  obtain ⟨delivered, hdelivered⟩ := hall client before hbefore
  exact ⟨hall.setStream (hstep before after delivered hdelivered hstepped), rfl, rfl, rfl⟩

theorem EventHub.AllDelivered.step (hall : hub.AllDelivered codec) {event : HubEvent F}
    (hnext : hub.next codec event = some next) : next.AllDelivered codec := by
  cases event with
  | notify channel data =>
    obtain rfl := Option.some.inj hnext
    exact hall
  | relay channel =>
    rw [EventHub.next] at hnext
    split at hnext
    · exact absurd hnext (Option.some_ne_none next).symm
    · obtain rfl := Option.some.inj hnext
      exact EventHub.AllDelivered.broadcast hall _
  | broadcast event =>
    obtain rfl := Option.some.inj hnext
    exact hall.broadcast _
  | connect client =>
    rw [EventHub.next] at hnext
    split at hnext
    · exact absurd hnext (Option.some_ne_none next).symm
    · obtain rfl := Option.some.inj hnext
      exact hall.setStream ⟨[], delivered_registered hub.broadcasts⟩
  | greet client =>
    exact (hall.onStream (fun _ _ delivered hdelivered hstep ↦
      ⟨delivered, hdelivered.greet hstep⟩) hnext).1
  | deliver client =>
    exact (hall.onStream (fun _ _ _ hdelivered hstep ↦ hdelivered.deliver hstep) hnext).1
  | heartbeat client =>
    exact (hall.onStream (fun _ _ delivered hdelivered hstep ↦
      ⟨delivered, hdelivered.heartbeat hstep⟩) hnext).1
  | disconnect client =>
    exact (hall.onStream (fun _ _ delivered hdelivered hstep ↦
      ⟨delivered, hdelivered.disconnect hstep⟩) hnext).1

/-- The data of the channels, after a broadcast. -/
theorem filterMap_dataOf_concat (channel : Channel) (broadcast : Broadcast F) :
    (broadcasts ++ [broadcast]).filterMap (Broadcast.dataOf channel) =
      broadcasts.filterMap (Broadcast.dataOf channel) ++
        if broadcast.origin = some channel then [broadcast.event.data] else [] := by
  rw [List.filterMap_append]
  congr 1
  rw [List.filterMap_cons, Broadcast.dataOf]
  split_ifs <;> rfl

theorem EventHub.Relayed.step (hrelayed : hub.Relayed) (hall : hub.AllDelivered codec)
    {event : HubEvent F} (hnext : hub.next codec event = some next) : next.Relayed := by
  have hsame : next.broadcasts = hub.broadcasts ∧ next.notified = hub.notified ∧
      next.notifications = hub.notifications → next.Relayed := by
    rintro ⟨hbroadcasts, hnotified, hnotifications⟩ channel
    rw [hbroadcasts, hnotified, hnotifications]
    exact hrelayed channel
  cases event with
  | notify channel data =>
    obtain rfl := Option.some.inj hnext
    intro other
    dsimp only
    by_cases hother : other = channel
    · subst hother
      rw [Function.update_self, Function.update_self, hrelayed other, List.append_assoc]
    · rw [Function.update_of_ne hother, Function.update_of_ne hother]
      exact hrelayed other
  | relay channel =>
    rw [EventHub.next] at hnext
    split at hnext
    · exact absurd hnext (Option.some_ne_none next).symm
    · rename_i data rest hnotifications
      obtain rfl := Option.some.inj hnext
      intro other
      have hbefore := hrelayed other
      rw [EventHub.broadcast]
      dsimp only
      rw [filterMap_dataOf_concat]
      by_cases hother : other = channel
      · subst hother
        rw [hnotifications] at hbefore
        rw [if_pos rfl, Function.update_self, hbefore, List.append_assoc, List.singleton_append]
      · rw [if_neg fun horigin ↦ hother (Option.some.inj horigin).symm,
          Function.update_of_ne hother, List.append_nil, hbefore]
  | broadcast event =>
    obtain rfl := Option.some.inj hnext
    intro other
    rw [EventHub.broadcast]
    dsimp only
    rw [filterMap_dataOf_concat, if_neg (Option.some_ne_none other).symm, List.append_nil]
    exact hrelayed other
  | connect client =>
    rw [EventHub.next] at hnext
    split at hnext
    · exact absurd hnext (Option.some_ne_none next).symm
    · obtain rfl := Option.some.inj hnext
      exact hsame ⟨rfl, rfl, rfl⟩
  | greet client =>
    exact hsame (hall.onStream (fun _ _ delivered hdelivered hstep ↦
      ⟨delivered, hdelivered.greet hstep⟩) hnext).2
  | deliver client =>
    exact hsame (hall.onStream (fun _ _ _ hdelivered hstep ↦ hdelivered.deliver hstep) hnext).2
  | heartbeat client =>
    exact hsame (hall.onStream (fun _ _ delivered hdelivered hstep ↦
      ⟨delivered, hdelivered.heartbeat hstep⟩) hnext).2
  | disconnect client =>
    exact hsame (hall.onStream (fun _ _ delivered hdelivered hstep ↦
      ⟨delivered, hdelivered.disconnect hstep⟩) hnext).2

theorem allDelivered_and_relayed_of_run {events : List (HubEvent F)}
    (hrun : run (EventHub.next codec) EventHub.start events = some hub) :
    hub.AllDelivered codec ∧ hub.Relayed :=
  invariant_of_forall_mem (fun hub ↦ EventHub.AllDelivered codec hub ∧ hub.Relayed)
    (fun _ _ _ hkept _ hnext ↦ ⟨hkept.1.step hnext, hkept.2.step hkept.1 hnext⟩)
    ⟨fun _ _ hstream ↦ absurd hstream (Option.some_ne_none _).symm, fun _ ↦ rfl⟩
    (fun _ _ ↦ trivial : ∀ event ∈ events, True) hrun

/-- A client whose stream is open has read the greeting and the first of the events broadcast since
it connected, each once and in their order; the others are in its queue. -/
theorem stream_of_run {events : List (HubEvent F)}
    (hrun : run (EventHub.next codec) EventHub.start events = some hub) {client : ℕ}
    (hstream : hub.streams client = some stream) (hopen : stream.phase = .streaming) :
    ∃ delivered, readStream codec stream.sent.flatten = shown delivered ∧
      delivered ++ stream.queue = hub.broadcasts.drop stream.joined := by
  obtain ⟨delivered, hdelivered⟩ := (allDelivered_and_relayed_of_run hrun).1 client stream hstream
  refine ⟨delivered, ?_, hdelivered.waiting (by rw [hopen]; decide)⟩
  rw [readStream_flatten hdelivered.chunks, hdelivered.reads, if_neg (hdelivered.streaming hopen)]

end Delivery

/-- An empty event of a transition. -/
def emptyObject : EventObject FloatText :=
  ⟨[], Json.IsValue.object [] List.nodup_nil (fun _ hmember ↦ absurd hmember List.not_mem_nil)
    fun _ hmember ↦ absurd hmember List.not_mem_nil⟩

/-- A client connects, and is sent the second of two events. -/
def lateClient : List (HubEvent FloatText) :=
  [.notify .stateTransition emptyObject, .relay .stateTransition, .connect 0, .greet 0,
    .notify .stateTransition emptyObject, .relay .stateTransition, .heartbeat 0, .deliver 0]

theorem exists_lateClient :
    ∃ hub stream, run (EventHub.next textCodec) EventHub.start lateClient = some hub ∧
      hub.streams 0 = some stream ∧ stream.phase = .streaming ∧ stream.queue = [] := by
  have hlast : ((run (EventHub.next textCodec) EventHub.start lateClient).any fun hub ↦
      (hub.streams 0).any fun stream ↦
        stream.phase = .streaming ∧ stream.queue.isEmpty = true) = true := by decide +kernel
  obtain ⟨hub, hrun, hhub⟩ := (Option.any_eq_true _ _).mp hlast
  obtain ⟨stream, hstream, hdone⟩ := (Option.any_eq_true _ _).mp hhub
  obtain ⟨hopen, hqueue⟩ := of_decide_eq_true hdone
  exact ⟨hub, stream, hrun, hstream, hopen, List.isEmpty_iff.mp hqueue⟩

theorem stream_of_run_lateClient :
    ∃ hub stream delivered, run (EventHub.next textCodec) EventHub.start lateClient = some hub ∧
      hub.streams 0 = some stream ∧
      readStream textCodec stream.sent.flatten = shown delivered ∧
      delivered ++ stream.queue = hub.broadcasts.drop stream.joined := by
  obtain ⟨hub, stream, hrun, hstream, hopen, -⟩ := exists_lateClient
  obtain ⟨delivered, hdelivered⟩ := stream_of_run hrun hstream hopen
  exact ⟨hub, stream, delivered, hrun, hstream, hdelivered⟩

end Lnmp.Topology
