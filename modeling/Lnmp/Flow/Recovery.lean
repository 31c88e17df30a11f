import Lnmp.Flow.Acknowledgement

/-!
# Recovery after a restart

What becomes of the messages that a process was handed and had not acknowledged when it crashed.
The consumer group keeps them pending, so that they can be handed out again, but the restarted
consumer reads with `>` only, and never asks for what is pending. A message survives a crash only
when its flow is in the tables already.

`recovered_of_everyStep` proves the delivery guarantee for the runs in which every crash finds
nothing else (`Recoverable`), and `lost_after_restart` is a run in which one message is lost.
-/

set_option autoImplicit false
set_option relaxedAutoImplicit false

namespace Lnmp.Flow

open Lnmp.Foundation Lnmp.Foundation.Runs Lnmp.Foundation.PythonText Lnmp.Foundation.IpAddress

variable {Inet : Type*} [DecidableEq Inet] {castInet : String → Option Inet}
  {world next : World Inet}

/-- The flow of the message is committed. -/
def World.Committed (world : World Inet) (id : MessageId) : Prop :=
  ∃ flow, ⟨some id, flow⟩ ∈ world.history.durable

/-- The id is in the list of pending ids, and the flow of the message, when it is valid, is held. -/
def World.Represented (world : World Inet) (id : MessageId) : Prop :=
  id ∈ world.pendingMsgIds ∧ ∃ fields, world.stream.entries[id]? = some fields ∧
    (validMessage fields → ∃ flow, ⟨some id, flow⟩ ∈ world.history.held ∧
      ∃ correlator now, contribution correlator now fields = some flow)

/-- A restart finds every message that was handed out and not acknowledged committed, and a
cancellation finds no reply in flight. -/
def Recoverable (world : World Inet) : Event → Prop
  | .restart => ∀ id ∈ world.stream.pending, world.Committed id
  | .cancel => world.reply = none
  | _ => True

/-! ### The invariant -/

/-- A message handed out and not acknowledged is committed, in flight, or represented; a flush
after its commit has committed what it took. -/
structure Accounted (world : World Inet) (inFlight : List (MessageId × Fields)) : Prop where
  pending : ∀ id ∈ world.stream.pending,
    world.Committed id ∨ id ∈ idsOf inFlight ∨ world.Represented id
  taken : world.flush.isExiting = true →
    world.history.held.take world.history.taken ⊆ world.history.durable

omit [DecidableEq Inet] in
theorem accounted_initial : Accounted (World.initial Inet) (World.initial Inet).inFlight where
  pending := by simp [World.initial, Stream.empty]
  taken := fun hexiting ↦ absurd hexiting Bool.false_ne_true

omit [DecidableEq Inet] in
theorem World.Represented.mono {id : MessageId} (hrepresented : world.Represented id)
    (hlist : world.pendingMsgIds ⊆ next.pendingMsgIds)
    (hentries : world.stream.entries <+: next.stream.entries)
    (hheld : world.history.held ⊆ next.history.held) : next.Represented id := by
  obtain ⟨hmem, fields, hget, hvalid⟩ := hrepresented
  obtain ⟨later, hlater⟩ := hentries
  refine ⟨hlist hmem, fields, ?_, fun h ↦ ?_⟩
  · rw [← hlater, List.getElem?_append_left (List.getElem?_eq_some_iff.mp hget).1]
    exact hget
  · obtain ⟨flow, hflow, hcontribution⟩ := hvalid h
    exact ⟨flow, hheld hflow, hcontribution⟩

omit [DecidableEq Inet] in
/-- A step that hands out nothing, forgets nothing and commits nothing. -/
theorem Accounted.mono {inFlight : List (MessageId × Fields)}
    (haccounted : Accounted world inFlight)
    (hpending : next.stream.pending ⊆ world.stream.pending)
    (hentries : world.stream.entries <+: next.stream.entries)
    (hlist : next.pendingMsgIds = world.pendingMsgIds)
    (hdurable : world.history.durable ⊆ next.history.durable)
    (hheld : world.history.held ⊆ next.history.held)
    (htaken : next.flush.isExiting = true →
      next.history.held.take next.history.taken ⊆ next.history.durable) :
    Accounted next inFlight := by
  refine ⟨fun id hid ↦ ?_, htaken⟩
  rcases haccounted.pending id (hpending hid) with ⟨flow, hflow⟩ | hflight | hrepresented
  · exact Or.inl ⟨flow, hdurable hflow⟩
  · exact Or.inr (Or.inl hflight)
  · exact Or.inr (Or.inr (hrepresented.mono (hlist ▸ List.Subset.refl _) hentries hheld))

omit [DecidableEq Inet] in
/-- A flow that is accumulated is not among those that the flush in flight took. -/
theorem take_accumulate_subset (hflush : world.flush.Faithful castInet world.history)
    (htaken : world.flush.isExiting = true →
      world.history.held.take world.history.taken ⊆ world.history.durable)
    (later : List Record) (hexiting : world.flush.isExiting = true) :
    (world.history.held ++ later).take world.history.taken ⊆ world.history.durable := by
  cases hpoint : world.flush with
  | exiting snapshot =>
    rw [hpoint] at hflush
    rw [List.take_append_of_le_length hflush.2.2.1]
    exact htaken hexiting
  | _ => rw [hpoint] at hexiting; exact absurd hexiting Bool.false_ne_true

omit [DecidableEq Inet] in
theorem Accounted.receiveMessage {message : MessageId × Fields}
    {rest : List (MessageId × Fields)} (haccounted : Accounted world (message :: rest))
    (htracked : Tracked world (message :: rest))
    (hflush : world.flush.Faithful castInet world.history) {clock : MessageId → PyFloat}
    (hclock : (fromTimestamp (clock message.1)).isSome) :
    Accounted (world.receiveMessage clock message) rest := by
  refine ⟨fun id hid ↦ ?_, take_accumulate_subset hflush haccounted.taken _⟩
  rcases haccounted.pending id hid with hcommitted | hflight | hrepresented
  · exact Or.inl hcommitted
  · rcases List.mem_cons.mp hflight with rfl | hrest
    · refine Or.inr (Or.inr ⟨List.mem_append_right _ (List.mem_singleton_self _), message.2,
        htracked.entries message (List.mem_cons_self ..), fun hvalid ↦ ?_⟩)
      rw [← isSome_contribution world.correlator hclock] at hvalid
      obtain ⟨flow, hflow⟩ := Option.isSome_iff_exists.mp hvalid
      refine ⟨flow, List.mem_append_right _ ?_, _, _, hflow⟩
      rw [hflow]
      exact List.mem_singleton_self _
    · exact Or.inr (Or.inl hrest)
  · exact Or.inr (Or.inr (hrepresented.mono (List.subset_append_left _ _) (List.prefix_refl _)
      (List.subset_append_left _ _)))

omit [DecidableEq Inet] in
theorem Accounted.receive {clock : MessageId → PyFloat}
    {messages : List (MessageId × Fields)} (hreply : world.reply = none)
    (haccounted : Accounted world messages) (htracked : Tracked world messages)
    (hflush : world.flush.Faithful castInet world.history)
    (hclock : ∀ message ∈ messages, (fromTimestamp (clock message.1)).isSome) :
    Accounted (messages.foldl (World.receiveMessage clock) world)
      (messages.foldl (World.receiveMessage clock) world).inFlight := by
  induction messages generalizing world with
  | nil =>
    rw [List.foldl_nil, World.inFlight, hreply]
    exact haccounted
  | cons message rest ih =>
    have hhere := hclock message (List.mem_cons_self ..)
    exact ih hreply (haccounted.receiveMessage htracked hflush hhere)
      (htracked.receiveMessage clock) (hflush.accumulate _ _)
      fun other hother ↦ hclock other (List.mem_cons_of_mem _ hother)

omit [DecidableEq Inet] in
/-- The deduction drops only records that are committed. -/
theorem Accounted.deduct {inFlight : List (MessageId × Fields)} {snapshot : Snapshot}
    (haccounted : Accounted world inFlight) (hpoint : world.flush = .exiting snapshot) :
    Accounted (world.deduct snapshot) inFlight := by
  have htaken := haccounted.taken (by rw [hpoint]; rfl)
  refine ⟨fun id hid ↦ ?_, fun hexiting ↦ ?_⟩
  · rcases haccounted.pending id hid with hcommitted | hflight | hrepresented
    · exact Or.inl hcommitted
    · exact Or.inr (Or.inl hflight)
    · obtain ⟨hmem, fields, hget, hvalid⟩ := hrepresented
      by_cases h : validMessage fields
      · obtain ⟨flow, hflow, hcontribution⟩ := hvalid h
        rw [← List.take_append_drop world.history.taken world.history.held,
          List.mem_append] at hflow
        rcases hflow with htake | hdrop
        · exact Or.inl ⟨flow, htaken htake⟩
        · exact Or.inr (Or.inr ⟨hmem, fields, hget, fun _ ↦ ⟨flow, hdrop, hcontribution⟩⟩)
      · exact Or.inr (Or.inr ⟨hmem, fields, hget, fun hvalid ↦ absurd hvalid h⟩)
  · rw [isExiting_deduct] at hexiting
    exact absurd hexiting Bool.false_ne_true

/-- Every step that meets the condition keeps the messages accounted for. -/
theorem accounted_step {event : Event} (haccounted : Accounted world world.inFlight)
    (htracked : Tracked world world.inFlight) (hworld : Consistent castInet world)
    (hevent : Recoverable world event) (hstep : step castInet world event = some next) :
    Accounted next next.inFlight := by
  have hflush := htracked.flush
  have hidle : ∀ {next : World Inet}, next.flush.isExiting = false → next.flush.isExiting = true →
      next.history.held.take next.history.taken ⊆ next.history.durable := fun hnot hexiting ↦
    absurd (hnot.symm.trans hexiting) Bool.false_ne_true
  cases transition_of_step castInet hstep with
  | refreshMaps | xtrim =>
    exact haccounted.mono (List.Subset.refl _) (List.prefix_refl _) rfl (List.Subset.refl _)
      (List.Subset.refl _) haccounted.taken
  | readNothing => exact haccounted
  | xadd fields =>
    exact haccounted.mono (List.Subset.refl _) (List.prefix_append _ _) rfl (List.Subset.refl _)
      (List.Subset.refl _) haccounted.taken
  | accumulate flow =>
    exact haccounted.mono (List.Subset.refl _) (List.prefix_refl _) rfl (List.Subset.refl _)
      (List.subset_append_left _ _) (take_accumulate_subset hworld.flush haccounted.taken _)
  | xreadgroup hreply =>
    refine ⟨fun id hid ↦ ?_, haccounted.taken⟩
    rcases List.mem_append.mp hid with hbefore | hnew
    · have hcase := haccounted.pending id hbefore
      rw [World.inFlight, hreply] at hcase
      exact hcase.imp_right fun h ↦ Or.inr (h.resolve_left List.not_mem_nil)
    · exact Or.inr (Or.inl hnew)
  | receive hreply hclock =>
    rw [World.inFlight, hreply] at haccounted htracked
    refine Accounted.receive rfl ?_ ?_ hworld.flush hclock
    · exact ⟨haccounted.pending, haccounted.taken⟩
    · exact htracked.of_flush rfl rfl htracked.flush
  | beginFlush hpoint =>
    have hnot := hidle (isExiting_beginFlush hpoint)
    unfold World.beginFlush at hnot ⊢
    split_ifs at hnot ⊢
    · exact haccounted
    · exact haccounted.mono (List.Subset.refl _) (List.prefix_refl _) rfl (List.Subset.refl _)
        (List.Subset.refl _) hnot
    · exact haccounted.mono (List.Subset.refl _) (List.prefix_refl _) rfl (List.Subset.refl _)
        (List.Subset.refl _) hnot
  | execute | executeFails | commitFails =>
    exact haccounted.mono (List.Subset.refl _) (List.prefix_refl _) rfl (List.Subset.refl _)
      (List.Subset.refl _) (hidle rfl)
  | commit hpoint =>
    exact haccounted.mono (List.Subset.refl _) (List.prefix_refl _) rfl
      (List.subset_append_left _ _) (List.Subset.refl _) fun _ ↦ List.subset_append_right _ _
  | exitSession hpoint => exact haccounted.deduct hpoint
  | recordInterfaces | recordInterfacesFails =>
    exact haccounted.mono (List.Subset.refl _) (List.prefix_refl _) rfl (List.Subset.refl _)
      (List.Subset.refl _) (hidle (isExiting_startAcking _))
  | xackLast hpoint =>
    rw [hpoint] at hflush
    refine ⟨fun id hid ↦ ?_, hidle rfl⟩
    obtain ⟨hbefore, hfresh⟩ := List.mem_filter.mp hid
    refine (haccounted.pending id hbefore).imp_right fun h ↦ h.imp_right ?_
    rintro ⟨hlist, hfields⟩
    exact ⟨hflush.mem_drop_of_last hlist hbefore (of_decide_eq_true hfresh), hfields⟩
  | xack hpoint =>
    exact haccounted.mono (List.filter_subset_self _) (List.prefix_refl _) rfl (List.Subset.refl _)
      (List.Subset.refl _) (hidle rfl)
  | xackFails applied hpoint =>
    refine haccounted.mono ?_ ?_ rfl (List.Subset.refl _) (List.Subset.refl _) (hidle rfl)
    · cases applied with
      | false => exact List.Subset.refl _
      | true => exact List.filter_subset_self _
    · cases applied with
      | false => exact List.prefix_refl _
      | true => exact List.prefix_refl _
  | cancel =>
    have hreply : world.reply = none := hevent
    rw [World.inFlight, hreply] at haccounted
    exact haccounted.mono (List.Subset.refl _) (List.prefix_refl _) rfl (List.Subset.refl _)
      (List.Subset.refl _) (hidle rfl)
  | restart => exact ⟨fun id hid ↦ Or.inl (hevent id hid), hidle rfl⟩

/-! ### Runs -/

/-- Delivery across restarts. When every crash finds the messages handed out and not acknowledged
already committed, and every cancellation finds no reply in flight, then in every state in which
the consumer waits for no reply, so also once it has drained the stream, every message handed out
and not acknowledged is committed or represented in memory, where the tables hold exactly the
flows committed and the accumulators exactly the flows held. -/
theorem recovered_of_everyStep {events : List Event}
    (hevents : EveryStep (step castInet) (World.initial Inet) events Recoverable)
    (hrun : run (step castInet) (World.initial Inet) events = some world)
    (hreply : world.reply = none) :
    world.tables.Hold castInet world.history.durable ∧
      world.accumulators.Hold world.history.held ∧
      ∀ id ∈ world.stream.pending, world.Committed id ∨ world.Represented id := by
  have hall : Consistent castInet world ∧ Tracked world world.inFlight ∧
      Accounted world world.inFlight := by
    refine invariant_of_everyStep (fun state ↦ Consistent castInet state ∧
      Tracked state state.inFlight ∧ Accounted state state.inFlight) ?_
      ⟨consistent_initial castInet, tracked_initial, accounted_initial⟩ hevents hrun
    rintro state event next ⟨hstate, htracked, haccounted⟩ hcondition hstep
    exact ⟨consistent_step hstate hstep, tracked_step htracked hstep,
      accounted_step haccounted htracked hstate hcondition hstep⟩
  obtain ⟨hworld, -, haccounted⟩ := hall
  refine ⟨hworld.tables, hworld.memory, fun id hid ↦ ?_⟩
  have hcase := haccounted.pending id hid
  rw [World.inFlight, hreply] at hcase
  exact hcase.imp_right fun h ↦ h.resolve_left List.not_mem_nil

/-- The sample message is committed and the process crashes before it deducts. -/
def crashEvents : List Event := sampleDelivery ++ [.restart]

theorem isSome_run_crashEvents :
    (run (step ipAddress) (World.initial Address) crashEvents).isSome := by decide +kernel

/-- The state after the crash. -/
def crashWorld : World Address :=
  (run (step ipAddress) (World.initial Address) crashEvents).get isSome_run_crashEvents

omit [DecidableEq Inet] in
theorem recoverable_of_keepsRunning {event : Event} (hevent : event.keepsRunning) :
    Recoverable world event := by
  cases event with
  | cancel => exact hevent.elim
  | restart => exact hevent.elim
  | _ => trivial

theorem everyStep_crashEvents :
    EveryStep (step ipAddress) (World.initial Address) crashEvents Recoverable := by
  have hkind : ∀ event ∈ sampleDelivery, event.keepsRunning := by
    simp [sampleDelivery, Event.keepsRunning]
  refine EveryStep.concat ((everyStep_of_forall_mem hkind).mono fun _ _ ↦
    recoverable_of_keepsRunning) fun state hrun ↦ ?_
  have hstate : state = sampleDelivered := by
    rw [← Option.some_inj, ← hrun]
    exact (Option.some_get _).symm
  subst hstate
  have hcommitted : (sampleDelivered.stream.pending.all fun id ↦
      sampleDelivered.history.durable.any fun record ↦ record.source = some id) = true := by
    decide +kernel
  intro id hid
  obtain ⟨⟨source, flow⟩, hrecord, hsource⟩ :=
    List.any_eq_true.mp (List.all_eq_true.mp hcommitted id hid)
  exact ⟨flow, of_decide_eq_true hsource ▸ hrecord⟩

theorem recovered_crashWorld :
    crashWorld.tables.Hold ipAddress crashWorld.history.durable ∧
      crashWorld.accumulators.Hold crashWorld.history.held ∧
      ∀ id ∈ crashWorld.stream.pending, crashWorld.Committed id ∨ crashWorld.Represented id :=
  recovered_of_everyStep everyStep_crashEvents (Option.some_get _).symm (by decide +kernel)

/-- The sample message is received, the process crashes and is restarted, and reads the stream until
it is drained. -/
def lostEvents : List Event :=
  [.refreshMaps sampleCorrelator, .xadd sampleFields, .xreadgroup, .receive fun _ ↦ .finite 0,
    .restart, .xreadgroup]

theorem isSome_run_lostEvents :
    (run (step ipAddress) (World.initial Address) lostEvents).isSome := by decide +kernel

/-- The state in which the restarted process has drained the stream. -/
def lostWorld : World Address :=
  (run (step ipAddress) (World.initial Address) lostEvents).get isSome_run_lostEvents

/-- A message lost in a crash: it is valid, it was handed out and is not acknowledged, the stream is
drained, and neither the tables nor the memory of the restarted process have its flow. -/
theorem lost_after_restart :
    run (step ipAddress) (World.initial Address) lostEvents = some lostWorld ∧
      lostWorld.reply.isNone ∧ lostWorld.stream.undelivered.isEmpty ∧
      lostWorld.stream.entries[0]? = some sampleFields ∧ validMessage sampleFields ∧
      0 ∈ lostWorld.stream.pending ∧ lostWorld.tables.flowMinuteRollups.isEmpty ∧
      ¬ lostWorld.Committed 0 ∧ ¬ lostWorld.Represented 0 := by
  have hdurable : lostWorld.history.durable.isEmpty = true := by decide +kernel
  have hlist : lostWorld.pendingMsgIds = [] := by decide +kernel
  rw [List.isEmpty_iff] at hdurable
  refine ⟨(Option.some_get _).symm, by decide +kernel, by decide +kernel, by decide +kernel,
    by decide +kernel, by decide +kernel, by decide +kernel, ?_, ?_⟩
  · rintro ⟨flow, hflow⟩
    rw [hdurable] at hflow
    exact absurd hflow List.not_mem_nil
  · rintro ⟨hmem, -⟩
    rw [hlist] at hmem
    exact absurd hmem List.not_mem_nil

end Lnmp.Flow
