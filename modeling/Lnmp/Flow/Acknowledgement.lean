import Lnmp.Flow.Delivery

/-!
# Acknowledgement of messages

When the aggregator acknowledges a message, its flow is in the tables, and as long as it has not
acknowledged one, it remembers its id. Both hold whatever fails: a flush whose commit fails
acknowledges nothing, and one that fails between two chunks leaves all of its ids in the list, those
acknowledged included.

The invariant is `AcknowledgedSafely`. Its core is `spared`: the records that the flush in flight
will still hold when it acknowledges come from messages that it will not acknowledge, because it
copied the list of ids together with the accumulators.
-/

set_option autoImplicit false
set_option relaxedAutoImplicit false

namespace Lnmp.Flow

open Lnmp.Foundation Lnmp.Foundation.Runs Lnmp.Foundation.PythonText Lnmp.Foundation.IpAddress

variable {Inet : Type*} [DecidableEq Inet] {castInet : String → Option Inet}
  {world next : World Inet}

/-! ### The invariant -/

/-- The ids that the flush in flight will have acknowledged. -/
def FlushPoint.ackIds (pendingMsgIds : List MessageId) : FlushPoint → List MessageId
  | .idle => []
  | .executing snapshot _ _ | .exiting snapshot | .recording snapshot => snapshot.pendingAck
  | .acking count _ => pendingMsgIds.take count

/-- The records that the memory will still hold when the flush in flight acknowledges. -/
def World.spared (world : World Inet) : List Record :=
  match world.flush with
  | .executing _ _ _ | .exiting _ => world.history.held.drop world.history.taken
  | _ => world.history.held

/-- None of the records comes from one of the messages. -/
def NoneFrom (records : List Record) (ids : List MessageId) : Prop :=
  ∀ record ∈ records, ∀ id ∈ record.source, id ∉ ids

/-- The entry has been received: when it is valid, the flow it contributed has been accumulated. -/
def World.Received (world : World Inet) (id : MessageId) : Prop :=
  ∃ fields, world.stream.entries[id]? = some fields ∧
    (validMessage fields → ∃ flow, ⟨some id, flow⟩ ∈ world.history.accumulated ∧
      ∃ correlator now, contribution correlator now fields = some flow)

/-- An id handed out and not acknowledged is in the list or in flight, records held come from
messages that are neither acknowledged nor about to be, and every id in the list or acknowledged
was received. -/
structure AcknowledgedSafely (world : World Inet) (inFlight : List (MessageId × Fields)) :
    Prop where
  kept : ∀ id ∈ world.stream.pending, id ∈ world.pendingMsgIds ∨ id ∈ idsOf inFlight
  held : NoneFrom world.history.held world.stream.acknowledged
  spared : NoneFrom world.spared (world.flush.ackIds world.pendingMsgIds)
  received : ∀ id, id ∈ world.pendingMsgIds ∨ id ∈ world.stream.acknowledged → world.Received id

theorem NoneFrom.subset {records fewer : List Record} {ids less : List MessageId}
    (hnone : NoneFrom records ids) (hrecords : fewer ⊆ records) (hids : less ⊆ ids) :
    NoneFrom fewer less := fun record hrecord id hid hmem ↦
  hnone record (hrecords hrecord) id hid (hids hmem)

theorem NoneFrom.append {records : List Record} {ids more : List MessageId}
    (hnone : NoneFrom records ids) (hmore : NoneFrom records more) :
    NoneFrom records (ids ++ more) := fun record hrecord id hid hmem ↦
  (List.mem_append.mp hmem).elim (hnone record hrecord id hid) (hmore record hrecord id hid)

omit [DecidableEq Inet] in
theorem World.Received.mono {id : MessageId} (hreceived : world.Received id)
    (hentries : world.stream.entries <+: next.stream.entries)
    (haccumulated : world.history.accumulated ⊆ next.history.accumulated) : next.Received id := by
  obtain ⟨fields, hget, hvalid⟩ := hreceived
  obtain ⟨later, hlater⟩ := hentries
  refine ⟨fields, ?_, fun h ↦ ?_⟩
  · rw [← hlater, List.getElem?_append_left (List.getElem?_eq_some_iff.mp hget).1]
    exact hget
  · obtain ⟨flow, hflow, hcontribution⟩ := hvalid h
    exact ⟨flow, haccumulated hflow, hcontribution⟩

omit [DecidableEq Inet] in
theorem acknowledgedSafely_initial :
    AcknowledgedSafely (World.initial Inet) (World.initial Inet).inFlight where
  kept := by simp [World.initial, Stream.empty]
  held := by simp [World.initial, NoneFrom]
  spared := by simp [World.initial, NoneFrom, World.spared]
  received := by simp [World.initial, Stream.empty]

/-- The ids that the flush in flight will acknowledge are in the list. -/
theorem ackIds_subset {point : FlushPoint} {pendingMsgIds unacknowledged : List MessageId}
    (hpoint : point.Tracks pendingMsgIds unacknowledged) :
    point.ackIds pendingMsgIds ⊆ pendingMsgIds := by
  cases point with
  | idle => exact List.nil_subset _
  | executing | exiting | recording => exact List.IsPrefix.subset hpoint
  | acking count chunks => exact List.take_subset _ _

/-- Ids appended to the list are not acknowledged by the flush in flight. -/
theorem ackIds_append {point : FlushPoint} {pendingMsgIds unacknowledged : List MessageId}
    (hpoint : point.Tracks pendingMsgIds unacknowledged) (later : List MessageId) :
    point.ackIds (pendingMsgIds ++ later) = point.ackIds pendingMsgIds := by
  cases point with
  | acking count chunks => exact List.take_append_of_le_length hpoint.1
  | _ => rfl

theorem ackIds_startAcking {pendingAck pendingMsgIds : List MessageId}
    (hfront : pendingAck <+: pendingMsgIds) :
    (FlushPoint.startAcking pendingAck).ackIds pendingMsgIds ⊆ pendingAck := by
  unfold FlushPoint.startAcking
  split_ifs
  · exact List.nil_subset _
  · show pendingMsgIds.take pendingAck.length ⊆ pendingAck
    rw [← List.prefix_iff_eq_take.mp hfront]
    exact List.Subset.refl _

/-! ### Its preservation -/

omit [DecidableEq Inet] in
/-- A flow that is accumulated is spared by the flush in flight. -/
theorem spared_accumulate {source : Option MessageId} {flow : Option ResolvedFlow}
    (hhistory : next.history = world.history.accumulate source flow)
    (hpoint : next.flush = world.flush) :
    next.spared ⊆ world.spared ++ (flow.map (Record.mk source)).toList := by
  have hdrop : (world.history.held ++ (flow.map (Record.mk source)).toList).drop
      world.history.taken ⊆
      world.history.held.drop world.history.taken ++ (flow.map (Record.mk source)).toList := by
    rw [List.drop_append]
    exact fun record hrecord ↦ (List.mem_append.mp hrecord).elim (List.mem_append_left _)
      fun hlast ↦ List.mem_append_right _ (List.mem_of_mem_drop hlast)
  unfold World.spared
  rw [hpoint, hhistory]
  cases world.flush with
  | executing | exiting => exact hdrop
  | _ => exact List.Subset.refl _

omit [DecidableEq Inet] in
theorem AcknowledgedSafely.receiveMessage {message : MessageId × Fields}
    {rest : List (MessageId × Fields)} (hsafe : AcknowledgedSafely world (message :: rest))
    (htracked : Tracked world (message :: rest)) {clock : MessageId → PyFloat}
    (hclock : (fromTimestamp (clock message.1)).isSome) :
    AcknowledgedSafely (world.receiveMessage clock message) rest := by
  have hfresh : message.1 ∉ world.pendingMsgIds := fun hmem ↦
    absurd ((List.pairwise_append.mp htracked.order).2.2 message.1 hmem message.1
      (List.mem_cons_self ..)) (lt_irrefl _)
  have hnew : ∀ ids : List MessageId, message.1 ∉ ids →
      NoneFrom (((contribution world.correlator (clock message.1) message.2).map
        (Record.mk (some message.1))).toList) ids := by
    intro ids hids record hrecord id hid
    cases hcontribution : contribution world.correlator (clock message.1) message.2 with
    | none =>
      rw [hcontribution] at hrecord
      exact absurd hrecord List.not_mem_nil
    | some flow =>
      rw [hcontribution, Option.map_some, Option.toList_some, List.mem_singleton] at hrecord
      subst hrecord
      exact (Option.mem_some.mp hid) ▸ hids
  have hboth : ∀ {records : List Record} {ids : List MessageId}, NoneFrom records ids →
      message.1 ∉ ids → NoneFrom (records ++
        ((contribution world.correlator (clock message.1) message.2).map
          (Record.mk (some message.1))).toList) ids := by
    intro records ids hrecords hids record hrecord
    exact (List.mem_append.mp hrecord).elim (hrecords record) (hnew ids hids record)
  refine ⟨fun id hid ↦ ?_, ?_, ?_, fun id hid ↦ ?_⟩
  · rcases hsafe.kept id hid with hlist | hflight
    · exact Or.inl (List.mem_append_left _ hlist)
    · rcases List.mem_cons.mp hflight with rfl | hrest
      · exact Or.inl (List.mem_append_right _ (List.mem_singleton_self _))
      · exact Or.inr hrest
  · exact hboth hsafe.held fun hmem ↦ htracked.disjoint _ hmem (List.mem_cons_self ..)
  · have hids : (world.receiveMessage clock message).flush.ackIds
        (world.receiveMessage clock message).pendingMsgIds =
        world.flush.ackIds world.pendingMsgIds := ackIds_append htracked.flush _
    rw [hids]
    refine NoneFrom.subset (hboth hsafe.spared fun hmem ↦ ?_) (spared_accumulate rfl rfl)
      (List.Subset.refl _)
    exact hfresh (ackIds_subset htracked.flush hmem)
  · have hbefore : ∀ id, world.Received id → (world.receiveMessage clock message).Received id :=
      fun id hreceived ↦ hreceived.mono (List.prefix_refl _) (List.subset_append_left _ _)
    rcases hid with hlist | hacknowledged
    · rcases List.mem_append.mp hlist with hlist | hlast
      · exact hbefore id (hsafe.received id (Or.inl hlist))
      · obtain rfl := List.mem_singleton.mp hlast
        refine ⟨message.2, htracked.entries message (List.mem_cons_self ..), fun hvalid ↦ ?_⟩
        rw [← isSome_contribution world.correlator hclock] at hvalid
        obtain ⟨flow, hflow⟩ := Option.isSome_iff_exists.mp hvalid
        refine ⟨flow, List.mem_append_right _ ?_, _, _, hflow⟩
        rw [hflow]
        exact List.mem_singleton_self _
    · exact hbefore id (hsafe.received id (Or.inr hacknowledged))

omit [DecidableEq Inet] in
theorem AcknowledgedSafely.receive {clock : MessageId → PyFloat}
    {messages : List (MessageId × Fields)} (hreply : world.reply = none)
    (hsafe : AcknowledgedSafely world messages) (htracked : Tracked world messages)
    (hclock : ∀ message ∈ messages, (fromTimestamp (clock message.1)).isSome) :
    AcknowledgedSafely (messages.foldl (World.receiveMessage clock) world)
      (messages.foldl (World.receiveMessage clock) world).inFlight := by
  induction messages generalizing world with
  | nil =>
    rw [List.foldl_nil, World.inFlight, hreply]
    exact hsafe
  | cons message rest ih =>
    have hhere := hclock message (List.mem_cons_self ..)
    exact ih hreply (hsafe.receiveMessage htracked hhere) (htracked.receiveMessage clock)
      fun other hother ↦ hclock other (List.mem_cons_of_mem _ hother)

omit [DecidableEq Inet] in
/-- A step that touches neither the stream nor the list, and spares at least the records held. -/
theorem AcknowledgedSafely.of_flush {inFlight : List (MessageId × Fields)}
    (hsafe : AcknowledgedSafely world inFlight) (hstream : next.stream = world.stream)
    (hlist : next.pendingMsgIds = world.pendingMsgIds)
    (haccumulated : next.history.accumulated = world.history.accumulated)
    (hheld : next.history.held ⊆ world.history.held)
    (hspared : NoneFrom next.spared (next.flush.ackIds next.pendingMsgIds)) :
    AcknowledgedSafely next inFlight := by
  refine ⟨?_, ?_, hspared, fun id hid ↦ ?_⟩
  · rw [hstream, hlist]
    exact hsafe.kept
  · rw [hstream]
    exact hsafe.held.subset hheld (List.Subset.refl _)
  · rw [hstream, hlist] at hid
    exact (hsafe.received id hid).mono (hstream ▸ List.prefix_refl _)
      (haccumulated ▸ List.Subset.refl _)

omit [DecidableEq Inet] in
/-- A flush that starts to acknowledge spares the records held. -/
theorem noneFrom_startAcking {pendingAck : List MessageId}
    (hpoint : world.flush = .startAcking pendingAck) (hfront : pendingAck <+: world.pendingMsgIds)
    (hheld : NoneFrom world.history.held pendingAck) :
    NoneFrom world.spared (world.flush.ackIds world.pendingMsgIds) := by
  have hspared : world.spared = world.history.held := by
    rw [World.spared, hpoint, FlushPoint.startAcking]
    split_ifs <;> rfl
  rw [hspared, hpoint]
  exact hheld.subset (List.Subset.refl _) (ackIds_startAcking hfront)

theorem noneFrom_nil (records : List Record) : NoneFrom records [] :=
  fun _ _ _ _ ↦ List.not_mem_nil

omit [DecidableEq Inet] in
/-- The chunk that is acknowledged next comes from no record held. -/
theorem AcknowledgedSafely.chunk {inFlight : List (MessageId × Fields)} {count : ℕ}
    {chunk : List MessageId} {chunks : List (List MessageId)}
    (hsafe : AcknowledgedSafely world inFlight) (htracked : Tracked world inFlight)
    (hpoint : world.flush = .acking count (chunk :: chunks)) :
    NoneFrom world.history.held (world.stream.acknowledged ++ chunk) := by
  have hspared := hsafe.spared
  have hflush := htracked.flush
  rw [World.spared, hpoint] at hspared
  rw [hpoint] at hflush
  exact hsafe.held.append (hspared.subset (List.Subset.refl _) hflush.chunk_mem)

omit [DecidableEq Inet] in
/-- Acknowledging the next chunk acknowledges only what was received. -/
theorem AcknowledgedSafely.received_xack {inFlight : List (MessageId × Fields)} {count : ℕ}
    {chunk : List MessageId} {chunks : List (List MessageId)}
    (hsafe : AcknowledgedSafely world inFlight) (htracked : Tracked world inFlight)
    (hpoint : world.flush = .acking count (chunk :: chunks)) :
    ∀ id, id ∈ world.pendingMsgIds ∨ id ∈ world.stream.acknowledged ++ chunk →
      world.Received id := by
  have hflush := htracked.flush
  rw [hpoint] at hflush
  rintro id (hlist | hacknowledged)
  · exact hsafe.received id (Or.inl hlist)
  · rcases List.mem_append.mp hacknowledged with hbefore | hchunk
    · exact hsafe.received id (Or.inr hbefore)
    · exact hsafe.received id (Or.inl (List.mem_of_mem_take (hflush.chunk_mem id hchunk)))

omit [DecidableEq Inet] in
/-- After the deduction the records held are those that the snapshot did not take. -/
theorem AcknowledgedSafely.deduct {inFlight : List (MessageId × Fields)} {snapshot : Snapshot}
    (hsafe : AcknowledgedSafely world inFlight) (htracked : Tracked world inFlight)
    (hpoint : world.flush = .exiting snapshot) :
    AcknowledgedSafely (world.deduct snapshot) inFlight := by
  have hspared := hsafe.spared
  have hflush := htracked.flush
  rw [World.spared, hpoint] at hspared
  rw [hpoint] at hflush
  refine hsafe.of_flush rfl rfl rfl (List.drop_subset _ _) ?_
  by_cases hactive : snapshot.activeIfSnapshot = ∅
  · exact noneFrom_startAcking (if_pos hactive) hflush hspared
  · have hrecording : (world.deduct snapshot).flush = .recording snapshot := if_neg hactive
    rw [World.spared, hrecording]
    exact hspared

/-- Every step of a process that is neither cancelled nor restarted acknowledges safely. -/
theorem acknowledgedSafely_step {event : Event} (hsafe : AcknowledgedSafely world world.inFlight)
    (htracked : Tracked world world.inFlight) (hworld : Consistent castInet world)
    (hevent : event.keepsRunning) (hstep : step castInet world event = some next) :
    AcknowledgedSafely next next.inFlight := by
  have hspared := hsafe.spared
  have hflush := htracked.flush
  cases transition_of_step castInet hstep with
  | refreshMaps => exact hsafe.of_flush rfl rfl rfl (List.Subset.refl _) hspared
  | readNothing => exact hsafe
  | xadd fields =>
    exact ⟨hsafe.kept, hsafe.held, hspared, fun id hid ↦
      (hsafe.received id hid).mono (List.prefix_append _ _) (List.Subset.refl _)⟩
  | xtrim =>
    exact ⟨hsafe.kept, hsafe.held, hspared, fun id hid ↦
      (hsafe.received id hid).mono (List.prefix_refl _) (List.Subset.refl _)⟩
  | accumulate flow =>
    have hdirect : ∀ {records : List Record} {ids : List MessageId}, NoneFrom records ids →
        NoneFrom (records ++ ((resolveFlow world.correlator flow).map
          (Record.mk none)).toList) ids := by
      intro records ids hrecords record hrecord id hid
      rcases List.mem_append.mp hrecord with hbefore | hlast
      · exact hrecords record hbefore id hid
      · obtain ⟨resolved, -, rfl⟩ := Option.map_eq_some_iff.mp (Option.mem_toList.mp hlast)
        exact absurd hid.symm (Option.some_ne_none id)
    exact ⟨hsafe.kept, hdirect hsafe.held,
      (hdirect hspared).subset (spared_accumulate rfl rfl) (List.Subset.refl _), fun id hid ↦
        (hsafe.received id hid).mono (List.prefix_refl _) (List.subset_append_left _ _)⟩
  | xreadgroup hreply =>
    refine ⟨fun id hid ↦ ?_, hsafe.held, hspared, fun id hid ↦
      (hsafe.received id hid).mono (List.prefix_refl _) (List.Subset.refl _)⟩
    rcases List.mem_append.mp hid with hbefore | hnew
    · have hkept := hsafe.kept id hbefore
      rw [World.inFlight, hreply] at hkept
      exact Or.inl (hkept.resolve_right List.not_mem_nil)
    · exact Or.inr hnew
  | receive hreply hclock =>
    rw [World.inFlight, hreply] at hsafe htracked
    refine AcknowledgedSafely.receive rfl ?_ ?_ hclock
    · exact hsafe.of_flush rfl rfl rfl (List.Subset.refl _) hspared
    · exact htracked.of_flush rfl rfl htracked.flush
  | beginFlush hpoint =>
    unfold World.beginFlush
    split_ifs with hempty hbatches
    · exact hsafe
    · have hnil := hworld.memory.eq_nil (isEmpty_of_batches_eq_nil hbatches)
      refine hsafe.of_flush rfl rfl rfl (List.Subset.refl _) ?_
      refine noneFrom_startAcking rfl List.prefix_rfl fun record hrecord ↦ ?_
      exact absurd (hnil ▸ hrecord : record ∈ []) List.not_mem_nil
    · refine hsafe.of_flush rfl rfl rfl (List.Subset.refl _) fun record hrecord ↦ ?_
      have hnone : world.history.held.drop world.history.held.length = [] := List.drop_length
      exact absurd (hnone ▸ hrecord : record ∈ []) List.not_mem_nil
  | execute hpoint _ =>
    rw [World.spared, hpoint] at hspared
    exact hsafe.of_flush rfl rfl rfl (List.Subset.refl _) hspared
  | commit hpoint =>
    rw [World.spared, hpoint] at hspared
    exact hsafe.of_flush rfl rfl rfl (List.Subset.refl _) hspared
  | executeFails | commitFails =>
    exact hsafe.of_flush rfl rfl rfl (List.Subset.refl _) (noneFrom_nil _)
  | exitSession hpoint => exact hsafe.deduct htracked hpoint
  | recordInterfaces hpoint | recordInterfacesFails hpoint =>
    rw [World.spared, hpoint] at hspared
    rw [hpoint] at hflush
    exact hsafe.of_flush rfl rfl rfl (List.Subset.refl _)
      (noneFrom_startAcking rfl hflush hspared)
  | xackLast hpoint =>
    have hheld := hsafe.chunk htracked hpoint
    have hreceived := hsafe.received_xack htracked hpoint
    rw [hpoint] at hflush
    refine ⟨fun id hid ↦ ?_, hheld, noneFrom_nil _, fun id hid ↦ ?_⟩
    · obtain ⟨hbefore, hfresh⟩ := List.mem_filter.mp hid
      refine (hsafe.kept id hbefore).imp_left fun hlist ↦ ?_
      exact hflush.mem_drop_of_last hlist hbefore (of_decide_eq_true hfresh)
    · exact (hreceived id (hid.imp_left List.mem_of_mem_drop)).mono (List.prefix_refl _)
        (List.Subset.refl _)
  | xack hpoint =>
    have hheld := hsafe.chunk htracked hpoint
    have hreceived := hsafe.received_xack htracked hpoint
    rw [World.spared, hpoint] at hspared
    exact ⟨fun id hid ↦ hsafe.kept id (List.mem_filter.mp hid).1, hheld, hspared, fun id hid ↦
      (hreceived id hid).mono (List.prefix_refl _) (List.Subset.refl _)⟩
  | xackFails applied hpoint =>
    have hheld := hsafe.chunk htracked hpoint
    have hreceived := hsafe.received_xack htracked hpoint
    cases applied with
    | false => exact hsafe.of_flush rfl rfl rfl (List.Subset.refl _) (noneFrom_nil _)
    | true =>
      exact ⟨fun id hid ↦ hsafe.kept id (List.mem_filter.mp hid).1, hheld, noneFrom_nil _,
        fun id hid ↦ (hreceived id hid).mono (List.prefix_refl _) (List.Subset.refl _)⟩
  | cancel => exact hevent.elim
  | restart => exact hevent.elim

/-! ### Runs -/

/-- Messages are acknowledged safely in every state that a process that is neither cancelled nor
restarted reaches. -/
theorem acknowledgedSafely_of_run {events : List Event}
    (hevents : ∀ event ∈ events, event.keepsRunning)
    (hrun : run (step castInet) (World.initial Inet) events = some world) :
    AcknowledgedSafely world world.inFlight := by
  have hall : Consistent castInet world ∧ Tracked world world.inFlight ∧
      AcknowledgedSafely world world.inFlight := by
    refine invariant_of_forall_mem (fun state ↦ Consistent castInet state ∧
      Tracked state state.inFlight ∧ AcknowledgedSafely state state.inFlight) ?_
      ⟨consistent_initial castInet, tracked_initial, acknowledgedSafely_initial⟩ hevents hrun
    rintro state event next ⟨hstate, htracked, hsafe⟩ hkind hstep
    exact ⟨consistent_step hstate hstep, tracked_step htracked hstep,
      acknowledgedSafely_step hsafe htracked hstate hkind hstep⟩
  exact hall.2.2

omit [DecidableEq Inet] in
/-- The records accumulated and not held are committed. -/
theorem Balanced.mem_durable (hbalanced : Balanced world) {record : Record}
    (hrecord : record ∈ world.history.accumulated) (hheld : record ∉ world.history.held) :
    record ∈ world.history.durable := by
  rw [hbalanced, List.mem_append] at hrecord
  refine hrecord.resolve_right fun huncommitted ↦ hheld ?_
  unfold World.uncommitted at huncommitted
  split_ifs at huncommitted
  · exact List.mem_of_mem_drop huncommitted
  · exact huncommitted

/-- Acknowledgement safety. In every state, the tables hold exactly the flows committed, which are
the first of the flows accumulated; every valid message that has been acknowledged has its flow
among them; and every message handed to the consumer and not acknowledged is in the list of pending
ids. Assumes: the process is neither cancelled nor restarted. -/
theorem acknowledged_of_run {events : List Event} (hevents : ∀ event ∈ events, event.keepsRunning)
    (hrun : run (step castInet) (World.initial Inet) events = some world) :
    world.tables.Hold castInet world.history.durable ∧
      world.history.durable <+: world.history.accumulated ∧
      (∀ id ∈ world.stream.acknowledged, ∃ fields, world.stream.entries[id]? = some fields ∧
        (validMessage fields → ∃ flow, ⟨some id, flow⟩ ∈ world.history.durable ∧
          ∃ correlator now, contribution correlator now fields = some flow)) ∧
      ∀ id ∈ world.stream.pending, id ∉ idsOf world.inFlight → id ∈ world.pendingMsgIds := by
  have hbalanced := balanced_of_run hevents hrun
  have hsafe := acknowledgedSafely_of_run hevents hrun
  refine ⟨(consistent_of_run hrun).tables, ⟨_, hbalanced.symm⟩, fun id hid ↦ ?_,
    fun id hid hflight ↦ (hsafe.kept id hid).resolve_right hflight⟩
  obtain ⟨fields, hget, hvalid⟩ := hsafe.received id (Or.inr hid)
  refine ⟨fields, hget, fun h ↦ ?_⟩
  obtain ⟨flow, hflow, hcontribution⟩ := hvalid h
  refine ⟨flow, hbalanced.mem_durable hflow fun hheld ↦ ?_, hcontribution⟩
  exact hsafe.held _ hheld id rfl hid

/-- The message of the sample flow. -/
def sampleFields : Fields :=
  ((((((Dict.empty.set "exp" "10.0.0.1").set "src" "10.0.0.2").set "dst" "10.0.0.3").set
    "dport" "443").set "proto" "6").set "b" "1500").set "in_if" "1"

/-- The sample message is delivered and its flow committed. -/
def sampleDelivery : List Event :=
  [.refreshMaps sampleCorrelator, .xadd sampleFields, .xreadgroup,
    .receive fun _ ↦ .finite 1767225600, .beginFlush, .execute, .execute, .commit]

theorem isSome_run_sampleDelivery :
    (run (step ipAddress) (World.initial Address) sampleDelivery).isSome := by decide +kernel

/-- The state after the commit. -/
def sampleDelivered : World Address :=
  (run (step ipAddress) (World.initial Address) sampleDelivery).get isSome_run_sampleDelivery

theorem isSome_run_sampleAcknowledgement :
    (run (step ipAddress) (World.initial Address)
      (sampleDelivery ++ [.exitSession, .recordInterfaces, .xack])).isSome := by decide +kernel

/-- The state after the acknowledgement. -/
def sampleAcknowledged : World Address :=
  (run (step ipAddress) (World.initial Address)
    (sampleDelivery ++ [.exitSession, .recordInterfaces, .xack])).get
      isSome_run_sampleAcknowledgement

theorem acknowledged_sampleAcknowledged :
    sampleAcknowledged.tables.Hold ipAddress sampleAcknowledged.history.durable ∧
      sampleAcknowledged.history.durable <+: sampleAcknowledged.history.accumulated ∧
      (∀ id ∈ sampleAcknowledged.stream.acknowledged, ∃ fields,
        sampleAcknowledged.stream.entries[id]? = some fields ∧
        (validMessage fields → ∃ flow, ⟨some id, flow⟩ ∈ sampleAcknowledged.history.durable ∧
          ∃ correlator now, contribution correlator now fields = some flow)) ∧
      ∀ id ∈ sampleAcknowledged.stream.pending, id ∉ idsOf sampleAcknowledged.inFlight →
        id ∈ sampleAcknowledged.pendingMsgIds := by
  have hevents : ∀ event ∈ sampleDelivery ++ [.exitSession, .recordInterfaces, .xack],
      event.keepsRunning := by
    simp [sampleDelivery, Event.keepsRunning]
  exact acknowledged_of_run hevents (Option.some_get _).symm

end Lnmp.Flow
