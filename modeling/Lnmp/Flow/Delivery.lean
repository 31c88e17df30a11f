import Lnmp.Flow.Conservation

/-!
# Delivery of messages

What the aggregator does with the ids of the messages it is handed. They are appended to
`_pending_msg_ids`, a flush remembers the prefix of the list that it found, acknowledges it in
chunks once its rows are committed, and drops it by its length. `Tracked` relates the list, the
flush in flight and the consumer group; every step keeps it.

A message is valid (`validMessage`) when it contributes a flow. That depends neither on the maps of
the correlator nor on the clock (`isSome_contribution`).
-/

set_option autoImplicit false
set_option relaxedAutoImplicit false

namespace Lnmp.Flow

open Lnmp.Foundation Lnmp.Foundation.Runs Lnmp.Foundation.PythonText Lnmp.Foundation.IpAddress

/-! ### Valid messages -/

/-- The message decodes and its start time, when it has one, is a datetime. -/
def validMessage (fields : Fields) : Bool :=
  (decodeMessage (.finite 0) fields).any fun flow ↦ (fromTimestamp flow.startTimeUnix).isSome

/-- The clock only matters to a message without a start time. -/
theorem decodeMessage_eq (now : PyFloat) (fields : Fields) :
    decodeMessage now fields = (decodeMessage (.finite 0) fields).map fun flow ↦
      { flow with
        startTimeUnix := if fields.get? "ts_start" = none then now else flow.startTimeUnix } := by
  unfold decodeMessage floatField
  cases fields.get? "ts_start" with
  | none => simp [Option.map_bind]
  | some text => simp [Option.map_bind]

theorem validAddresses_of_decodeMessage {now : PyFloat} {fields : Fields} {flow : FlowArguments}
    (hdecode : decodeMessage now fields = some flow) :
    validAddresses flow.srcIp flow.dstIp = true := by
  unfold decodeMessage at hdecode
  simp only [Option.bind_eq_bind, Option.bind_eq_some_iff, Option.pure_def,
    Option.some_inj] at hdecode
  obtain ⟨_, hguard, _, _, _, _, _, _, _, _, _, _, _, _, _, _, _, _, rfl⟩ := hdecode
  simpa [guard] using hguard

theorem isSome_resolveFlow (correlator : FlowCorrelator) (flow : FlowArguments) :
    (resolveFlow correlator flow).isSome =
      (validAddresses flow.srcIp flow.dstIp && (fromTimestamp flow.startTimeUnix).isSome) := by
  unfold resolveFlow
  by_cases hvalid : validAddresses flow.srcIp flow.dstIp
  · simp [hvalid]
  · simp [hvalid]

/-- A message contributes a flow exactly when it is valid, whatever the maps of the correlator and
the clock. Assumes: the clock shows a datetime. -/
theorem isSome_contribution (correlator : FlowCorrelator) {now : PyFloat}
    (hnow : (fromTimestamp now).isSome) (fields : Fields) :
    (contribution correlator now fields).isSome = validMessage fields := by
  unfold contribution validMessage
  have hself := decodeMessage_eq (.finite 0) fields
  rw [decodeMessage_eq now]
  cases hdecode : decodeMessage (.finite 0) fields with
  | none => rfl
  | some flow =>
    have hvalid := validAddresses_of_decodeMessage hdecode
    rw [hdecode, Option.map_some, Option.some_inj] at hself
    simp only [Option.map_some, Option.bind_some, Option.any_some, isSome_resolveFlow, hvalid,
      Bool.true_and]
    by_cases hstart : fields.get? "ts_start" = none
    · rw [if_pos hstart] at hself
      rw [if_pos hstart, hself, hnow]
      exact (by decide +kernel : (fromTimestamp (.finite 0)).isSome = true).symm
    · rw [if_neg hstart]

/-! ### What the stream hands out -/

/-- The ids of a reply. -/
def idsOf (messages : List (MessageId × Fields)) : List MessageId := messages.map Prod.fst

theorem idsOf_undelivered (stream : Stream) :
    idsOf stream.undelivered =
      List.range' stream.firstUndelivered stream.undelivered.length := by
  unfold idsOf Stream.undelivered
  rw [List.map_map]
  exact (List.zipIdx_map_snd ..).trans (by simp)

/-- What is handed out is in the stream. -/
theorem getElem?_of_mem_undelivered {stream : Stream} {message : MessageId × Fields}
    (hmessage : message ∈ stream.undelivered) :
    stream.entries[message.1]? = some message.2 := by
  unfold Stream.undelivered at hmessage
  obtain ⟨entry, hentry, rfl⟩ := List.mem_map.mp hmessage
  obtain ⟨hle, hget⟩ := List.mem_zipIdx_iff_le_and_getElem?_sub.mp hentry
  rw [List.getElem?_take] at hget
  split at hget
  · rw [List.getElem?_drop, Nat.add_sub_cancel' hle] at hget
    exact hget
  · exact absurd hget.symm (Option.some_ne_none _)

/-! ### Tracking the ids -/

variable {Inet : Type*} [DecidableEq Inet] {castInet : String → Option Inet}
  {world next : World Inet}

/-- The messages handed out and not received yet. -/
def World.inFlight (world : World Inet) : List (MessageId × Fields) := world.reply.getD []

/-- The ids that the flush in flight will acknowledge are the first of the list: until it
acknowledges them it has a copy of them, then it counts them, and all that are still to be
acknowledged are in the chunks left. -/
def FlushPoint.Tracks (pendingMsgIds unacknowledged : List MessageId) : FlushPoint → Prop
  | .idle => True
  | .executing snapshot _ _ | .exiting snapshot | .recording snapshot =>
    snapshot.pendingAck <+: pendingMsgIds
  | .acking count chunks =>
    count ≤ pendingMsgIds.length ∧ (∀ id ∈ chunks.flatten, id ∈ pendingMsgIds.take count) ∧
      ∀ id ∈ pendingMsgIds.take count, id ∈ unacknowledged → id ∈ chunks.flatten

/-- The list of pending ids, followed by the ids in flight, is in the order of the stream and
contains only ids handed out; what is in flight is not acknowledged. -/
structure Tracked (world : World Inet) (inFlight : List (MessageId × Fields)) : Prop where
  order : (world.pendingMsgIds ++ idsOf inFlight).Pairwise (· < ·)
  delivered : ∀ id ∈ world.pendingMsgIds ++ idsOf inFlight, id < world.stream.nextDelivered
  acknowledged : ∀ id ∈ world.stream.acknowledged, id < world.stream.nextDelivered
  disjoint : ∀ id ∈ world.stream.acknowledged, id ∉ idsOf inFlight
  entries : ∀ message ∈ inFlight, world.stream.entries[message.1]? = some message.2
  flush : world.flush.Tracks world.pendingMsgIds world.stream.pending

omit [DecidableEq Inet] in
theorem tracked_initial : Tracked (World.initial Inet) (World.initial Inet).inFlight where
  order := List.Pairwise.nil
  delivered := by simp [World.initial, World.inFlight, idsOf]
  acknowledged := by simp [World.initial, Stream.empty]
  disjoint := by simp [World.initial, Stream.empty]
  entries := by simp [World.initial, World.inFlight]
  flush := trivial

/-- A flush that starts to acknowledge has all of its ids left. -/
theorem tracks_startAcking {pendingAck pendingMsgIds : List MessageId}
    (hfront : pendingAck <+: pendingMsgIds) (unacknowledged : List MessageId) :
    (FlushPoint.startAcking pendingAck).Tracks pendingMsgIds unacknowledged := by
  unfold FlushPoint.startAcking
  split_ifs
  · trivial
  · have htake := List.prefix_iff_eq_take.mp hfront
    refine ⟨hfront.length_le, fun id hid ↦ ?_, fun id hid _ ↦ ?_⟩
    · rw [flatten_slices (by decide)] at hid
      rwa [← htake]
    · rw [flatten_slices (by decide)]
      rwa [← htake] at hid

/-- Ids appended to the list leave the flush in flight on track. -/
theorem FlushPoint.Tracks.append {point : FlushPoint}
    {pendingMsgIds unacknowledged : List MessageId}
    (hpoint : point.Tracks pendingMsgIds unacknowledged) (later : List MessageId) :
    point.Tracks (pendingMsgIds ++ later) unacknowledged := by
  cases point with
  | idle => trivial
  | executing | exiting | recording => exact List.IsPrefix.trans hpoint (List.prefix_append _ _)
  | acking count chunks =>
    obtain ⟨hle, hchunks, hleft⟩ := hpoint
    refine ⟨?_, ?_, ?_⟩
    · rw [List.length_append]
      omega
    · rwa [List.take_append_of_le_length hle]
    · rwa [List.take_append_of_le_length hle]

/-- Ids handed out that are not in the list leave the flush in flight on track. -/
theorem FlushPoint.Tracks.deliver {point : FlushPoint}
    {pendingMsgIds unacknowledged more : List MessageId}
    (hpoint : point.Tracks pendingMsgIds unacknowledged) (hmore : ∀ id ∈ pendingMsgIds, id ∉ more) :
    point.Tracks pendingMsgIds (unacknowledged ++ more) := by
  cases point with
  | idle => trivial
  | executing | exiting | recording => exact hpoint
  | acking count chunks =>
    obtain ⟨hle, hchunks, hleft⟩ := hpoint
    refine ⟨hle, hchunks, fun id hid hunacknowledged ↦ ?_⟩
    rcases List.mem_append.mp hunacknowledged with hbefore | hnew
    · exact hleft id hid hbefore
    · exact absurd hnew (hmore id (List.mem_of_mem_take hid))

/-- Acknowledging a chunk leaves the other chunks to be acknowledged. -/
theorem FlushPoint.Tracks.xack {count : ℕ} {chunk : List MessageId}
    {chunks : List (List MessageId)} {pendingMsgIds unacknowledged : List MessageId}
    (hpoint : (FlushPoint.acking count (chunk :: chunks)).Tracks pendingMsgIds unacknowledged) :
    (FlushPoint.acking count chunks).Tracks pendingMsgIds
      (unacknowledged.filter (· ∉ chunk)) := by
  obtain ⟨hle, hchunks, hleft⟩ := hpoint
  refine ⟨hle, fun id hid ↦ ?_, fun id hid hunacknowledged ↦ ?_⟩
  · exact hchunks id (by rw [List.flatten_cons]; exact List.mem_append_right _ hid)
  · obtain ⟨hbefore, hfresh⟩ := List.mem_filter.mp hunacknowledged
    have hflatten := hleft id hid hbefore
    rw [List.flatten_cons, List.mem_append] at hflatten
    exact hflatten.resolve_left (by simpa using hfresh)

omit [DecidableEq Inet] in
theorem Tracked.receiveMessage {message : MessageId × Fields} {rest : List (MessageId × Fields)}
    (htracked : Tracked world (message :: rest)) (clock : MessageId → PyFloat) :
    Tracked (world.receiveMessage clock message) rest := by
  have hlist : world.pendingMsgIds ++ [message.1] ++ idsOf rest =
      world.pendingMsgIds ++ idsOf (message :: rest) := by
    rw [List.append_assoc]
    rfl
  refine ⟨?_, ?_, htracked.acknowledged, ?_, ?_, htracked.flush.append _⟩
  · exact hlist ▸ htracked.order
  · exact hlist ▸ htracked.delivered
  · exact fun id hid hrest ↦ htracked.disjoint id hid (List.mem_cons_of_mem _ hrest)
  · exact fun other hother ↦ htracked.entries other (List.mem_cons_of_mem _ hother)

omit [DecidableEq Inet] in
theorem Tracked.receive (clock : MessageId → PyFloat) (messages : List (MessageId × Fields))
    (hreply : world.reply = none) (htracked : Tracked world messages) :
    Tracked (messages.foldl (World.receiveMessage clock) world)
      (messages.foldl (World.receiveMessage clock) world).inFlight := by
  induction messages generalizing world with
  | nil =>
    rw [List.foldl_nil, World.inFlight, hreply]
    exact htracked
  | cons message rest ih => exact ih hreply (htracked.receiveMessage clock)

omit [DecidableEq Inet] in
theorem Tracked.deliver (htracked : Tracked world []) :
    Tracked { world with reply := some world.stream.undelivered, stream := world.stream.deliver }
      world.stream.undelivered := by
  have hfirst : world.stream.nextDelivered ≤ world.stream.firstUndelivered := le_max_left _ _
  have hnew : ∀ id ∈ idsOf world.stream.undelivered, world.stream.firstUndelivered ≤ id ∧
      id < world.stream.deliver.nextDelivered := by
    intro id hid
    rw [idsOf_undelivered, List.mem_range'_1] at hid
    exact hid
  have hbefore : ∀ id, id < world.stream.nextDelivered →
      id < world.stream.deliver.nextDelivered := fun id hid ↦
    Nat.lt_of_lt_of_le hid (Nat.le_trans hfirst (Nat.le_add_right _ _))
  have hold : ∀ id ∈ world.pendingMsgIds, id < world.stream.nextDelivered := fun id hid ↦
    htracked.delivered id (List.mem_append_left _ hid)
  have hseparate : ∀ id, id < world.stream.nextDelivered →
      id ∉ idsOf world.stream.undelivered := fun id hid hmem ↦ by
    exact absurd (Nat.lt_of_lt_of_le hid (Nat.le_trans hfirst (hnew id hmem).1)) (Nat.lt_irrefl id)
  refine ⟨?_, ?_, ?_, ?_, fun _ ↦ getElem?_of_mem_undelivered, ?_⟩
  · refine List.pairwise_append.mpr ⟨?_, ?_, fun first hmem second hnext ↦ ?_⟩
    · exact (List.pairwise_append.mp htracked.order).1
    · rw [idsOf_undelivered]
      exact List.pairwise_lt_range'
    · exact Nat.lt_of_lt_of_le (hold first hmem) (Nat.le_trans hfirst (hnew second hnext).1)
  · intro id hid
    rcases List.mem_append.mp hid with hmem | hmem
    · exact hbefore id (hold id hmem)
    · exact (hnew id hmem).2
  · exact fun id hid ↦ hbefore id (htracked.acknowledged id hid)
  · exact fun id hid ↦ hseparate id (htracked.acknowledged id hid)
  · exact htracked.flush.deliver fun id hid ↦ hseparate id (hold id hid)

omit [DecidableEq Inet] in
/-- Acknowledging ids of the list keeps what is in flight apart from what is acknowledged. -/
theorem Tracked.acknowledged_append {inFlight : List (MessageId × Fields)}
    (htracked : Tracked world inFlight) {chunk : List MessageId}
    (hchunk : ∀ id ∈ chunk, id ∈ world.pendingMsgIds) :
    ∀ id ∈ world.stream.acknowledged ++ chunk,
      id < world.stream.nextDelivered ∧ id ∉ idsOf inFlight := by
  intro id hid
  rcases List.mem_append.mp hid with hbefore | hnew
  · exact ⟨htracked.acknowledged id hbefore, htracked.disjoint id hbefore⟩
  · have hmem := hchunk id hnew
    refine ⟨htracked.delivered id (List.mem_append_left _ hmem), fun hflight ↦ ?_⟩
    exact absurd ((List.pairwise_append.mp htracked.order).2.2 id hmem id hflight) (lt_irrefl id)

/-- The ids of the next chunk are in the list. -/
theorem FlushPoint.Tracks.chunk_mem {count : ℕ} {chunk : List MessageId}
    {chunks : List (List MessageId)} {pendingMsgIds unacknowledged : List MessageId}
    (hpoint : (FlushPoint.acking count (chunk :: chunks)).Tracks pendingMsgIds unacknowledged) :
    ∀ id ∈ chunk, id ∈ pendingMsgIds.take count := fun id hid ↦
  hpoint.2.1 id (by rw [List.flatten_cons]; exact List.mem_append_left _ hid)

/-- With the last chunk the list is dropped up to what is not acknowledged. -/
theorem FlushPoint.Tracks.mem_drop_of_last {count : ℕ} {chunk : List MessageId}
    {pendingMsgIds unacknowledged : List MessageId} {id : MessageId}
    (hpoint : (FlushPoint.acking count [chunk]).Tracks pendingMsgIds unacknowledged)
    (hlist : id ∈ pendingMsgIds) (hbefore : id ∈ unacknowledged) (hfresh : id ∉ chunk) :
    id ∈ pendingMsgIds.drop count := by
  rw [← List.take_append_drop count pendingMsgIds, List.mem_append] at hlist
  refine hlist.resolve_left fun htake ↦ hfresh ?_
  have hchunk := hpoint.2.2 id htake hbefore
  rwa [List.flatten_singleton] at hchunk

omit [DecidableEq Inet] in
/-- After the next chunk the acknowledged messages are still ones handed out and not in flight. -/
theorem Tracked.acknowledged_chunk {inFlight : List (MessageId × Fields)} {count : ℕ}
    {chunk : List MessageId} {chunks : List (List MessageId)} (htracked : Tracked world inFlight)
    (hpoint : world.flush = .acking count (chunk :: chunks)) :
    ∀ id ∈ world.stream.acknowledged ++ chunk,
      id < world.stream.nextDelivered ∧ id ∉ idsOf inFlight := by
  have hflush := htracked.flush
  rw [hpoint] at hflush
  exact htracked.acknowledged_append fun id hid ↦ List.mem_of_mem_take (hflush.chunk_mem id hid)

omit [DecidableEq Inet] in
/-- A step of the flush that leaves the stream and the list of ids alone. -/
theorem Tracked.of_flush {next : World Inet} {inFlight : List (MessageId × Fields)}
    (htracked : Tracked world inFlight) (hstream : next.stream = world.stream)
    (hlist : next.pendingMsgIds = world.pendingMsgIds)
    (hflush : next.flush.Tracks next.pendingMsgIds next.stream.pending) :
    Tracked next inFlight where
  order := hlist ▸ htracked.order
  delivered := hlist ▸ hstream ▸ htracked.delivered
  acknowledged := hstream ▸ htracked.acknowledged
  disjoint := hstream ▸ htracked.disjoint
  entries := hstream ▸ htracked.entries
  flush := hflush

/-- Every step keeps the ids tracked. -/
theorem tracked_step {event : Event} (htracked : Tracked world world.inFlight)
    (hstep : step castInet world event = some next) : Tracked next next.inFlight := by
  have hflush := htracked.flush
  cases transition_of_step castInet hstep with
  | refreshMaps | accumulate => exact htracked.of_flush rfl rfl hflush
  | xtrim =>
    exact ⟨htracked.order, htracked.delivered, htracked.acknowledged, htracked.disjoint,
      htracked.entries, hflush⟩
  | readNothing => exact htracked
  | xadd fields =>
    refine ⟨htracked.order, htracked.delivered, htracked.acknowledged, htracked.disjoint,
      fun message hmessage ↦ ?_, hflush⟩
    have hget := htracked.entries message hmessage
    dsimp only
    rw [List.getElem?_append_left (List.getElem?_eq_some_iff.mp hget).1]
    exact hget
  | xreadgroup hreply =>
    rw [World.inFlight, hreply] at htracked
    exact htracked.deliver
  | receive hreply _ =>
    rw [World.inFlight, hreply] at htracked
    exact Tracked.receive _ _ rfl (htracked.of_flush rfl rfl htracked.flush)
  | beginFlush _ =>
    unfold World.beginFlush
    split_ifs
    · exact htracked
    · exact htracked.of_flush rfl rfl (tracks_startAcking List.prefix_rfl _)
    · exact htracked.of_flush rfl rfl List.prefix_rfl
  | execute hpoint _ =>
    rw [hpoint] at hflush
    exact htracked.of_flush rfl rfl hflush
  | commit hpoint =>
    rw [hpoint] at hflush
    exact htracked.of_flush rfl rfl hflush
  | executeFails | commitFails => exact htracked.of_flush rfl rfl trivial
  | exitSession hpoint =>
    rw [hpoint] at hflush
    refine htracked.of_flush rfl rfl ?_
    unfold World.deduct
    dsimp only
    split_ifs
    · exact tracks_startAcking hflush _
    · exact hflush
  | recordInterfaces hpoint | recordInterfacesFails hpoint =>
    rw [hpoint] at hflush
    exact htracked.of_flush rfl rfl (tracks_startAcking hflush _)
  | xackLast hpoint =>
    rename_i count chunk
    have hacknowledged := htracked.acknowledged_chunk hpoint
    have hsublist := (List.drop_sublist count world.pendingMsgIds).append
      (List.Sublist.refl (idsOf world.inFlight))
    exact ⟨htracked.order.sublist hsublist,
      fun id hid ↦ htracked.delivered id (hsublist.subset hid),
      fun id hid ↦ (hacknowledged id hid).1, fun id hid ↦ (hacknowledged id hid).2,
      htracked.entries, trivial⟩
  | xack hpoint =>
    rw [hpoint] at hflush
    have hacknowledged := htracked.acknowledged_chunk hpoint
    exact ⟨htracked.order, htracked.delivered, fun id hid ↦ (hacknowledged id hid).1,
      fun id hid ↦ (hacknowledged id hid).2, htracked.entries, hflush.xack⟩
  | xackFails applied hpoint =>
    have hacknowledged := htracked.acknowledged_chunk hpoint
    cases applied with
    | false => exact htracked.of_flush rfl rfl trivial
    | true =>
      exact ⟨htracked.order, htracked.delivered, fun id hid ↦ (hacknowledged id hid).1,
        fun id hid ↦ (hacknowledged id hid).2, htracked.entries, trivial⟩
  | cancel =>
    have hsublist := (List.Sublist.refl world.pendingMsgIds).append
      (List.nil_sublist (idsOf world.inFlight))
    exact ⟨htracked.order.sublist hsublist,
      fun id hid ↦ htracked.delivered id (hsublist.subset hid),
      htracked.acknowledged, fun _ _ ↦ List.not_mem_nil, fun _ hmem ↦ absurd hmem List.not_mem_nil,
      trivial⟩
  | restart =>
    exact ⟨List.Pairwise.nil, fun _ hmem ↦ absurd hmem List.not_mem_nil, htracked.acknowledged,
      fun _ _ ↦ List.not_mem_nil, fun _ hmem ↦ absurd hmem List.not_mem_nil, trivial⟩

end Lnmp.Flow
