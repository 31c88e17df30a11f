import Lnmp.Flow.Rollups
import Lnmp.Foundation.Runs

/-!
# The flow aggregator

`monitoring/flow/aggregator.py`, the process around the accumulators, as a transition system. A
`World` is the memory of one aggregator process, the Redis stream with its consumer group, and the
rollup tables. The process runs two coroutines that interleave only where they await: the consumer,
which reads the stream and accumulates what it is handed, and the flush, which takes a snapshot,
writes it, deducts it from the accumulators and acknowledges the messages behind it. A `FlushPoint`
is the await at which the flush in flight is suspended, with the local variables that it still
needs there.

The database applies a commit as a whole or not at all. Leaving the session after a commit that
succeeded does not raise. Redis hands out with `>` only entries that it has never handed out, and
keeps the entries handed out pending until they are acknowledged; entries can be trimmed away. A
message id is the position of its entry in the stream.

The `History` of a world is read by no step. It records every flow that was accumulated, which of
them have been committed, which of them the memory holds, and how many of these the snapshot in
flight took.
-/

set_option autoImplicit false
set_option relaxedAutoImplicit false

namespace Lnmp.Flow

open Lnmp.Foundation Lnmp.Foundation.PythonText Lnmp.Foundation.IpAddress

/-! ### Messages -/

/-- The fields of a stream entry. -/
abbrev Fields := Dict String String

/-- The id of a stream entry: its position. -/
abbrev MessageId := ℕ

/-- `int(fields.get(name, 0))`. -/
def intField (fields : Fields) (name : String) : Option ℤ :=
  match fields.get? name with
  | none => some 0
  | some text => parseInt text

/-- `float(fields.get(name, now))`. -/
def floatField (fields : Fields) (name : String) (now : PyFloat) : Option PyFloat :=
  match fields.get? name with
  | none => some now
  | some text => parseFloat text

/-- The interface index, zero unless it is positive and fits 32 bits. -/
def boundedInterface (index : ℤ) : ℤ := if 0 < index ∧ index ≤ 2147483647 then index else 0

/-- The call of `accumulate_flow` that `_consume_stream` makes for a message read at `now`, `none`
when the message is skipped or does not parse. -/
def decodeMessage (now : PyFloat) (fields : Fields) : Option FlowArguments := do
  let expIp := (fields.get? "exp").getD ""
  let srcIp := (fields.get? "src").getD ""
  let dstIp := (fields.get? "dst").getD ""
  guard (validAddresses srcIp dstIp)
  let sport ← intField fields "sport"
  let dport ← intField fields "dport"
  let proto ← intField fields "proto"
  let fBytes ← intField fields "b"
  let fPkts ← intField fields "p"
  let tsStart ← floatField fields "ts_start" now
  let rawInIf ← intField fields "in_if"
  let rawOutIf ← intField fields "out_if"
  pure
    { exporterIp := expIp
      srcIp := srcIp
      dstIp := dstIp
      srcPort := sport
      dstPort := dport
      protocol := proto
      flowBytes := fBytes
      flowPackets := fPkts
      startTimeUnix := tsStart
      inIf := boundedInterface rawInIf
      outIf := boundedInterface rawOutIf }

/-- The flow that a message contributes when it is read at `now`. -/
def contribution (correlator : FlowCorrelator) (now : PyFloat) (fields : Fields) :
    Option ResolvedFlow :=
  (decodeMessage now fields).bind (resolveFlow correlator)

/-- The accumulators after a message: unchanged when it does not decode, and when
`accumulate_flow` raises. -/
def accumulateMessage (correlator : FlowCorrelator) (now : PyFloat) (accumulators : Accumulators)
    (fields : Fields) : Accumulators :=
  match decodeMessage now fields with
  | none => accumulators
  | some flow => (accumulateFlow correlator accumulators flow).getD accumulators

/-! ### The stream -/

/-- The stream and its consumer group: all entries ever added, the bound below which they have been
trimmed, the position up to which they have been handed out, the ids handed out and not
acknowledged, and the ids acknowledged. -/
structure Stream where
  entries : List Fields
  minId : MessageId
  nextDelivered : MessageId
  pending : List MessageId
  acknowledged : List MessageId

/-- A stream without entries. -/
def Stream.empty : Stream where
  entries := []
  minId := 0
  nextDelivered := 0
  pending := []
  acknowledged := []

/-- The first entry that a read can hand out. -/
def Stream.firstUndelivered (stream : Stream) : MessageId :=
  max stream.nextDelivered stream.minId

/-- The entries that `XREADGROUP .. COUNT 2000` with `>` hands out. -/
def Stream.undelivered (stream : Stream) : List (MessageId × Fields) :=
  ((stream.entries.drop stream.firstUndelivered).take 2000).zipIdx stream.firstUndelivered |>.map
    fun entry ↦ (entry.2, entry.1)

/-- The stream after its undelivered entries have been handed out. -/
def Stream.deliver (stream : Stream) : Stream :=
  { stream with
    nextDelivered := stream.firstUndelivered + stream.undelivered.length
    pending := stream.pending ++ stream.undelivered.map Prod.fst }

/-- `XACK`. -/
def Stream.acknowledge (stream : Stream) (ids : List MessageId) : Stream :=
  { stream with
    pending := stream.pending.filter (· ∉ ids)
    acknowledged := stream.acknowledged ++ ids }

/-! ### The world -/

/-- The local variables of a flush: copies of the accumulators, of the set of active interfaces and
of the list of pending message ids. -/
structure Snapshot where
  snapshot : Dict FlowKey FlowCounters
  ifSnapshot : Dict InterfaceKey InterfaceCounters
  activeIfSnapshot : Finset (UUID × ℤ)
  pendingAck : List MessageId

/-- The batches that a flush writes. -/
def Snapshot.batches (snapshot : Snapshot) : List Batch :=
  batchesOf snapshot.snapshot snapshot.ifSnapshot

/-- Where the flush is suspended. `executing`: before the commit, with the batches executed and
those left. `exiting`: the commit has been applied and nothing deducted. `recording`: in the Redis
pipeline. `acking`: before the next `xack`, with the number of ids to drop at the end and the
chunks left. -/
inductive FlushPoint
  | idle
  | executing (snapshot : Snapshot) (executed remaining : List Batch)
  | exiting (snapshot : Snapshot)
  | recording (snapshot : Snapshot)
  | acking (count : ℕ) (chunks : List (List MessageId))

/-- The flush is between its commit and its deduction. -/
def FlushPoint.isExiting : FlushPoint → Bool
  | .exiting _ => true
  | _ => false

/-- A flow that was accumulated, and the message it came from when it came from the stream. -/
structure Record where
  source : Option MessageId
  flow : ResolvedFlow

/-- What happened to the flows that were accumulated: all of them, those committed, those the
memory holds, and how many of the latter the snapshot in flight took. -/
structure History where
  accumulated : List Record
  durable : List Record
  held : List Record
  taken : ℕ

/-- The aggregator process, the stream, the tables, and the history. -/
structure World (Inet : Type*) where
  correlator : FlowCorrelator
  accumulators : Accumulators
  pendingMsgIds : List MessageId
  flush : FlushPoint
  reply : Option (List (MessageId × Fields))
  stream : Stream
  tables : Tables Inet
  history : History

/-- The maps of a correlator that has not been refreshed yet. -/
def FlowCorrelator.empty : FlowCorrelator where
  exporterMap := Dict.empty
  participantMap := Dict.empty

/-- A first start, with nothing in the stream and in the tables. -/
def World.initial (Inet : Type*) : World Inet where
  correlator := FlowCorrelator.empty
  accumulators := Accumulators.empty
  pendingMsgIds := []
  flush := .idle
  reply := none
  stream := Stream.empty
  tables := Tables.empty
  history := ⟨[], [], [], 0⟩

/-- What can happen next. The first group is done by others: the correlator is refreshed, the
collector adds an entry, the stream is trimmed. -/
inductive Event
  | refreshMaps (correlator : FlowCorrelator)
  | xadd (fields : Fields)
  | xtrim (minId : MessageId)
  | accumulate (flow : FlowArguments)
  | xreadgroup
  | receive (clock : MessageId → PyFloat)
  | beginFlush
  | execute
  | executeFails
  | commit
  | commitFails
  | exitSession
  | recordInterfaces
  | recordInterfacesFails
  | xack
  | xackFails (applied : Bool)
  | cancel
  | restart

variable {Inet : Type*} [DecidableEq Inet] (castInet : String → Option Inet)

/-- The history after a flow that was accumulated. -/
def History.accumulate (history : History) (source : Option MessageId)
    (flow : Option ResolvedFlow) : History :=
  { history with
    accumulated := history.accumulated ++ (flow.map (Record.mk source)).toList
    held := history.held ++ (flow.map (Record.mk source)).toList }

/-- One message of a reply: its id is pending from now on, and its flow is accumulated. -/
def World.receiveMessage (clock : MessageId → PyFloat) (world : World Inet)
    (message : MessageId × Fields) : World Inet :=
  { world with
    pendingMsgIds := world.pendingMsgIds ++ [message.1]
    accumulators :=
      accumulateMessage world.correlator (clock message.1) world.accumulators message.2
    history := world.history.accumulate (some message.1)
      (contribution world.correlator (clock message.1) message.2) }

/-- The point of a flush that has nothing left to do but to acknowledge. -/
def FlushPoint.startAcking (pendingAck : List MessageId) : FlushPoint :=
  if pendingAck = [] then .idle else .acking pendingAck.length (slices 500 pendingAck)

/-- A snapshot of the memory. -/
def World.takeSnapshot (world : World Inet) : Snapshot where
  snapshot := world.accumulators.accumulator
  ifSnapshot := world.accumulators.interfaceAccumulator
  activeIfSnapshot := world.accumulators.activeInterfacesSet
  pendingAck := world.pendingMsgIds

/-- `flush_to_timescaledb` up to its first await. -/
def World.beginFlush (world : World Inet) : World Inet :=
  if world.accumulators.accumulator.isEmpty ∧ world.accumulators.interfaceAccumulator.isEmpty ∧
      world.pendingMsgIds = [] then world
  else if world.takeSnapshot.batches = [] then
    { world with flush := .startAcking world.pendingMsgIds }
  else
    { world with
      flush := .executing world.takeSnapshot [] world.takeSnapshot.batches
      history := { world.history with taken := world.history.held.length } }

/-- The accumulators after the committed quantities have been deducted. -/
def Accumulators.deduct (accumulators : Accumulators) (snapshot : Snapshot) : Accumulators :=
  { accumulators with
    accumulator := Ledger.settle FlowCounters.count accumulators.accumulator snapshot.snapshot
    interfaceAccumulator :=
      Ledger.settle InterfaceCounters.count accumulators.interfaceAccumulator snapshot.ifSnapshot }

/-- The deduction, and on to the next await. -/
def World.deduct (world : World Inet) (snapshot : Snapshot) : World Inet :=
  { world with
    accumulators := world.accumulators.deduct snapshot
    flush := if snapshot.activeIfSnapshot = ∅ then .startAcking snapshot.pendingAck
      else .recording snapshot
    history := { world.history with
      held := world.history.held.drop world.history.taken
      taken := 0 } }

/-- One step of the system, `none` when the event cannot happen. -/
def step (world : World Inet) : Event → Option (World Inet)
  | .refreshMaps correlator => some { world with correlator := correlator }
  | .xadd fields =>
    some { world with stream := { world.stream with entries := world.stream.entries ++ [fields] } }
  | .xtrim minId =>
    some { world with stream := { world.stream with minId := max world.stream.minId minId } }
  | .accumulate flow =>
    some { world with
      accumulators :=
        (accumulateFlow world.correlator world.accumulators flow).getD world.accumulators
      history := world.history.accumulate none (resolveFlow world.correlator flow) }
  | .xreadgroup =>
    match world.reply with
    | none =>
      if world.stream.undelivered = [] then some world
      else some { world with
        reply := some world.stream.undelivered
        stream := world.stream.deliver }
    | some _ => none
  | .receive clock =>
    match world.reply with
    | none => none
    | some messages =>
      -- The consumer reads the clock for a message without a start time.
      if messages.all fun message ↦ (fromTimestamp (clock message.1)).isSome then
        some (messages.foldl (World.receiveMessage clock) { world with reply := none })
      else none
  | .beginFlush =>
    match world.flush with
    | .idle => some world.beginFlush
    | _ => none
  | .execute =>
    match world.flush with
    | .executing snapshot executed (batch :: remaining) =>
      if batch.fits castInet then
        some { world with flush := .executing snapshot (executed ++ [batch]) remaining }
      else none
    | _ => none
  | .executeFails =>
    match world.flush with
    | .executing _ _ (_ :: _) => some { world with flush := .idle }
    | _ => none
  | .commit =>
    match world.flush with
    | .executing snapshot executed [] =>
      some { world with
        flush := .exiting snapshot
        tables := applyBatches castInet world.tables executed
        history := { world.history with
          durable := world.history.durable ++ world.history.held.take world.history.taken } }
    | _ => none
  | .commitFails =>
    match world.flush with
    | .executing _ _ [] => some { world with flush := .idle }
    | _ => none
  | .exitSession =>
    match world.flush with
    | .exiting snapshot => some (world.deduct snapshot)
    | _ => none
  | .recordInterfaces =>
    match world.flush with
    | .recording snapshot =>
      some { world with
        accumulators := { world.accumulators with
          activeInterfacesSet :=
            world.accumulators.activeInterfacesSet \ snapshot.activeIfSnapshot }
        flush := .startAcking snapshot.pendingAck }
    | _ => none
  | .recordInterfacesFails =>
    match world.flush with
    | .recording snapshot => some { world with flush := .startAcking snapshot.pendingAck }
    | _ => none
  | .xack =>
    match world.flush with
    | .acking count (chunk :: chunks) =>
      if chunks = [] then
        some { world with
          stream := world.stream.acknowledge chunk
          pendingMsgIds := world.pendingMsgIds.drop count
          flush := .idle }
      else
        some { world with
          stream := world.stream.acknowledge chunk
          flush := .acking count chunks }
    | _ => none
  | .xackFails applied =>
    match world.flush with
    | .acking _ (chunk :: _) =>
      some { world with
        stream := if applied then world.stream.acknowledge chunk else world.stream
        flush := .idle }
    | _ => none
  | .cancel =>
    -- `stop` cancels the consumer and the flush; neither catches the cancellation on its way out.
    some { world with flush := .idle, reply := none }
  | .restart =>
    -- The memory of the process is lost, and the consumer group is found in place.
    some { world with
      correlator := FlowCorrelator.empty
      accumulators := Accumulators.empty
      pendingMsgIds := []
      flush := .idle
      reply := none
      history := { world.history with held := [] } }

/-! ### The transitions -/

/-- The steps of the system, one constructor an event and outcome. -/
inductive Transition : World Inet → Event → World Inet → Prop
  | refreshMaps (world : World Inet) (correlator : FlowCorrelator) :
    Transition world (.refreshMaps correlator) { world with correlator := correlator }
  | xadd (world : World Inet) (fields : Fields) :
    Transition world (.xadd fields)
      { world with stream := { world.stream with entries := world.stream.entries ++ [fields] } }
  | xtrim (world : World Inet) (minId : MessageId) :
    Transition world (.xtrim minId)
      { world with stream := { world.stream with minId := max world.stream.minId minId } }
  | accumulate (world : World Inet) (flow : FlowArguments) :
    Transition world (.accumulate flow)
      { world with
        accumulators :=
          (accumulateFlow world.correlator world.accumulators flow).getD world.accumulators
        history := world.history.accumulate none (resolveFlow world.correlator flow) }
  | readNothing {world : World Inet} (hreply : world.reply = none)
      (hundelivered : world.stream.undelivered = []) :
    Transition world .xreadgroup world
  | xreadgroup {world : World Inet} (hreply : world.reply = none) :
    Transition world .xreadgroup
      { world with reply := some world.stream.undelivered, stream := world.stream.deliver }
  | receive {world : World Inet} {messages : List (MessageId × Fields)}
      {clock : MessageId → PyFloat} (hreply : world.reply = some messages)
      (hclock : ∀ message ∈ messages, (fromTimestamp (clock message.1)).isSome) :
    Transition world (.receive clock)
      (messages.foldl (World.receiveMessage clock) { world with reply := none })
  | beginFlush {world : World Inet} (hflush : world.flush = .idle) :
    Transition world .beginFlush world.beginFlush
  | execute {world : World Inet} {snapshot : Snapshot} {executed remaining : List Batch}
      {batch : Batch} (hflush : world.flush = .executing snapshot executed (batch :: remaining))
      (hfits : batch.fits castInet) :
    Transition world .execute
      { world with flush := .executing snapshot (executed ++ [batch]) remaining }
  | executeFails {world : World Inet} {snapshot : Snapshot} {executed remaining : List Batch}
      (hflush : world.flush = .executing snapshot executed remaining) :
    Transition world .executeFails { world with flush := .idle }
  | commit {world : World Inet} {snapshot : Snapshot} {executed : List Batch}
      (hflush : world.flush = .executing snapshot executed []) :
    Transition world .commit
      { world with
        flush := .exiting snapshot
        tables := applyBatches castInet world.tables executed
        history := { world.history with
          durable := world.history.durable ++ world.history.held.take world.history.taken } }
  | commitFails {world : World Inet} {snapshot : Snapshot} {executed : List Batch}
      (hflush : world.flush = .executing snapshot executed []) :
    Transition world .commitFails { world with flush := .idle }
  | exitSession {world : World Inet} {snapshot : Snapshot}
      (hflush : world.flush = .exiting snapshot) :
    Transition world .exitSession (world.deduct snapshot)
  | recordInterfaces {world : World Inet} {snapshot : Snapshot}
      (hflush : world.flush = .recording snapshot) :
    Transition world .recordInterfaces
      { world with
        accumulators := { world.accumulators with
          activeInterfacesSet :=
            world.accumulators.activeInterfacesSet \ snapshot.activeIfSnapshot }
        flush := .startAcking snapshot.pendingAck }
  | recordInterfacesFails {world : World Inet} {snapshot : Snapshot}
      (hflush : world.flush = .recording snapshot) :
    Transition world .recordInterfacesFails
      { world with flush := .startAcking snapshot.pendingAck }
  | xackLast {world : World Inet} {count : ℕ} {chunk : List MessageId}
      (hflush : world.flush = .acking count [chunk]) :
    Transition world .xack
      { world with
        stream := world.stream.acknowledge chunk
        pendingMsgIds := world.pendingMsgIds.drop count
        flush := .idle }
  | xack {world : World Inet} {count : ℕ} {chunk : List MessageId}
      {chunks : List (List MessageId)} (hflush : world.flush = .acking count (chunk :: chunks)) :
    Transition world .xack
      { world with
        stream := world.stream.acknowledge chunk
        flush := .acking count chunks }
  | xackFails {world : World Inet} {count : ℕ} {chunk : List MessageId}
      {chunks : List (List MessageId)} (applied : Bool)
      (hflush : world.flush = .acking count (chunk :: chunks)) :
    Transition world (.xackFails applied)
      { world with
        stream := if applied then world.stream.acknowledge chunk else world.stream
        flush := .idle }
  | cancel (world : World Inet) :
    Transition world .cancel { world with flush := .idle, reply := none }
  | restart (world : World Inet) :
    Transition world .restart
      { world with
        correlator := FlowCorrelator.empty
        accumulators := Accumulators.empty
        pendingMsgIds := []
        flush := .idle
        reply := none
        history := { world.history with held := [] } }

/-- Every step is one of the transitions. -/
theorem transition_of_step {world next : World Inet} {event : Event}
    (hstep : step castInet world event = some next) : Transition castInet world event next := by
  cases event with
  | refreshMaps correlator => exact Option.some.inj hstep ▸ .refreshMaps world correlator
  | xadd fields => exact Option.some.inj hstep ▸ .xadd world fields
  | xtrim minId => exact Option.some.inj hstep ▸ .xtrim world minId
  | accumulate flow => exact Option.some.inj hstep ▸ .accumulate world flow
  | xreadgroup =>
    cases hreply : world.reply with
    | some messages => simp [step, hreply] at hstep
    | none =>
      by_cases hundelivered : world.stream.undelivered = []
      · simp only [step, hreply, if_pos hundelivered, Option.some_inj] at hstep
        exact hstep ▸ .readNothing hreply hundelivered
      · simp only [step, hreply, if_neg hundelivered, Option.some_inj] at hstep
        exact hstep ▸ .xreadgroup hreply
  | receive clock =>
    cases hreply : world.reply with
    | none => simp [step, hreply] at hstep
    | some messages =>
      simp only [step, hreply, Option.ite_none_right_eq_some, Option.some_inj] at hstep
      obtain ⟨hclock, rfl⟩ := hstep
      exact .receive hreply (by simpa using hclock)
  | beginFlush =>
    cases hflush : world.flush with
    | idle =>
      simp only [step, hflush, Option.some_inj] at hstep
      exact hstep ▸ .beginFlush hflush
    | _ => simp [step, hflush] at hstep
  | execute =>
    cases hflush : world.flush with
    | executing snapshot executed remaining =>
      cases remaining with
      | nil => simp [step, hflush] at hstep
      | cons batch remaining =>
        simp only [step, hflush, Option.ite_none_right_eq_some, Option.some_inj] at hstep
        obtain ⟨hfits, rfl⟩ := hstep
        exact .execute hflush hfits
    | _ => simp [step, hflush] at hstep
  | executeFails =>
    cases hflush : world.flush with
    | executing snapshot executed remaining =>
      cases remaining with
      | nil => simp [step, hflush] at hstep
      | cons batch remaining =>
        simp only [step, hflush, Option.some_inj] at hstep
        exact hstep ▸ .executeFails hflush
    | _ => simp [step, hflush] at hstep
  | commit =>
    cases hflush : world.flush with
    | executing snapshot executed remaining =>
      cases remaining with
      | nil =>
        simp only [step, hflush, Option.some_inj] at hstep
        exact hstep ▸ .commit hflush
      | cons batch remaining => simp [step, hflush] at hstep
    | _ => simp [step, hflush] at hstep
  | commitFails =>
    cases hflush : world.flush with
    | executing snapshot executed remaining =>
      cases remaining with
      | nil =>
        simp only [step, hflush, Option.some_inj] at hstep
        exact hstep ▸ .commitFails hflush
      | cons batch remaining => simp [step, hflush] at hstep
    | _ => simp [step, hflush] at hstep
  | exitSession =>
    cases hflush : world.flush with
    | exiting snapshot =>
      simp only [step, hflush, Option.some_inj] at hstep
      exact hstep ▸ .exitSession hflush
    | _ => simp [step, hflush] at hstep
  | recordInterfaces =>
    cases hflush : world.flush with
    | recording snapshot =>
      simp only [step, hflush, Option.some_inj] at hstep
      exact hstep ▸ .recordInterfaces hflush
    | _ => simp [step, hflush] at hstep
  | recordInterfacesFails =>
    cases hflush : world.flush with
    | recording snapshot =>
      simp only [step, hflush, Option.some_inj] at hstep
      exact hstep ▸ .recordInterfacesFails hflush
    | _ => simp [step, hflush] at hstep
  | xack =>
    cases hflush : world.flush with
    | acking count chunks =>
      cases chunks with
      | nil => simp [step, hflush] at hstep
      | cons chunk chunks =>
        by_cases hlast : chunks = []
        · simp only [step, hflush, if_pos hlast, Option.some_inj] at hstep
          exact hstep ▸ .xackLast (hlast ▸ hflush)
        · simp only [step, hflush, if_neg hlast, Option.some_inj] at hstep
          exact hstep ▸ .xack hflush
    | _ => simp [step, hflush] at hstep
  | xackFails applied =>
    cases hflush : world.flush with
    | acking count chunks =>
      cases chunks with
      | nil => simp [step, hflush] at hstep
      | cons chunk chunks =>
        simp only [step, hflush, Option.some_inj] at hstep
        exact hstep ▸ .xackFails applied hflush
    | _ => simp [step, hflush] at hstep
  | cancel => exact Option.some.inj hstep ▸ .cancel world
  | restart => exact Option.some.inj hstep ▸ .restart world

end Lnmp.Flow
