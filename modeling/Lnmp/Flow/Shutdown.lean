import Lnmp.Flow.Conservation

/-!
# Stopping the aggregator

`FlowAggregator.stop` cancels the consumer and the flush at whatever await they are suspended at,
and then flushes once more. A cancellation is no `Exception`, so it passes the handlers of the flush
by: before the commit nothing has been written, and after the deduction nothing is held, so that the
final flush writes each flow once. Between the commit and the deduction, at the exit of the session,
the flush leaves behind accumulators that still hold what it has committed, and the final flush
commits it again.

`exactlyOnce_after_stop_iff` says that this window is the only one.
-/

set_option autoImplicit false
set_option relaxedAutoImplicit false

namespace Lnmp.Flow

open Lnmp.Foundation Lnmp.Foundation.Runs Lnmp.Foundation.IpAddress

variable {Inet : Type*} [DecidableEq Inet] {castInet : String → Option Inet}
  {world next final : World Inet}

/-! ### The final flush -/

/-- The flush has not committed yet. -/
def FlushPoint.isExecuting : FlushPoint → Bool
  | .executing .. => true
  | _ => false

/-- The flush has returned, or none has begun. -/
def FlushPoint.isIdle : FlushPoint → Bool
  | .idle => true
  | _ => false

/-- What can happen during the final flush, from its first await on, when it does not fail before
its commit: the steps of the flush, and those of others. The consumer has stopped. -/
def Event.finishesFlush : Event → Prop
  | .refreshMaps _ | .xadd _ | .xtrim _ => True
  | .execute | .commit | .exitSession => True
  | .recordInterfaces | .recordInterfacesFails | .xack | .xackFails _ => True
  | _ => False

/-- The final flush of a process that had committed some records and held others: before its
commit nothing has changed, and after it the records held are committed. -/
def FinalFlush (durable held : List Record) (world : World Inet) : Prop :=
  if world.flush.isExecuting then
    world.history.durable = durable ∧ world.history.held = held ∧
      world.history.taken = held.length
  else world.history.durable = durable ++ held

omit [DecidableEq Inet] in
theorem FinalFlush.of_history {durable held : List Record} (hflush : FinalFlush durable held world)
    (hhistory : next.history = world.history)
    (hpoint : next.flush.isExecuting = world.flush.isExecuting) :
    FinalFlush durable held next := by
  unfold FinalFlush at *
  rw [hhistory, hpoint]
  exact hflush

@[simp] theorem isExecuting_startAcking (pendingAck : List MessageId) :
    (FlushPoint.startAcking pendingAck).isExecuting = false := by
  unfold FlushPoint.startAcking
  split <;> rfl

omit [DecidableEq Inet] in
theorem isExecuting_deduct (snapshot : Snapshot) :
    (world.deduct snapshot).flush.isExecuting = false := by
  unfold World.deduct
  dsimp only
  split_ifs
  · exact isExecuting_startAcking _
  · rfl

/-- A step of the final flush. -/
theorem finalFlush_step {durable held : List Record} {event : Event}
    (hflush : FinalFlush durable held world) (hevent : event.finishesFlush)
    (hstep : step castInet world event = some next) : FinalFlush durable held next := by
  cases transition_of_step castInet hstep with
  | refreshMaps | xadd | xtrim => exact hflush.of_history rfl rfl
  | execute hpoint _ =>
    refine hflush.of_history rfl ?_
    rw [hpoint]
    rfl
  | commit hpoint =>
    unfold FinalFlush at *
    rw [hpoint, FlushPoint.isExecuting, if_pos rfl] at hflush
    obtain ⟨hdurable, hheld, htaken⟩ := hflush
    show world.history.durable ++ world.history.held.take world.history.taken = durable ++ held
    rw [hdurable, hheld, htaken, List.take_length]
  | exitSession hpoint =>
    unfold FinalFlush at *
    rw [hpoint] at hflush
    rw [isExecuting_deduct]
    exact hflush
  | recordInterfaces hpoint | recordInterfacesFails hpoint =>
    refine hflush.of_history rfl ?_
    rw [hpoint]
    exact isExecuting_startAcking _
  | xackLast hpoint | xack hpoint | xackFails _ hpoint =>
    refine hflush.of_history rfl ?_
    rw [hpoint]
    rfl
  | _ => exact hevent.elim

/-- The final flush begins. -/
theorem finalFlush_beginFlush (hworld : Consistent castInet world) (hidle : world.flush = .idle) :
    FinalFlush world.history.durable world.history.held world.beginFlush := by
  have hnone : world.accumulators.accumulator.isEmpty = true →
      world.history.durable = world.history.durable ++ world.history.held := by
    intro hempty
    rw [hworld.memory.eq_nil hempty, List.append_nil]
  unfold World.beginFlush
  split_ifs with hempty hbatches
  · rw [FinalFlush, hidle]
    exact hnone hempty.1
  · rw [FinalFlush, isExecuting_startAcking]
    exact hnone (isEmpty_of_batches_eq_nil hbatches)
  · exact ⟨rfl, rfl, rfl⟩

/-- What the tables hold once `stop` has returned: what was committed before it, and everything
that the memory held when the flush was cancelled. -/
theorem tables_after_stop {rest : List Event} (hworld : Consistent castInet world)
    (hrest : ∀ event ∈ rest, event.finishesFlush)
    (hstop : run (step castInet) world (.cancel :: .beginFlush :: rest) = some final)
    (hidle : final.flush.isIdle) :
    final.tables.Hold castInet (world.history.durable ++ world.history.held) := by
  rw [run_cons, Option.bind_eq_some_iff] at hstop
  obtain ⟨cancelled, hcancelled, hstop⟩ := hstop
  have hconsistent := consistent_step hworld hcancelled
  obtain rfl := Option.some.inj hcancelled
  rw [run_cons, Option.bind_eq_some_iff] at hstop
  obtain ⟨begun, hbegun, hfinish⟩ := hstop
  have hbegin := finalFlush_beginFlush hconsistent rfl
  have hconsistent := consistent_step hconsistent hbegun
  obtain rfl := Option.some.inj hbegun
  have hboth : Consistent castInet final ∧
      FinalFlush world.history.durable world.history.held final := by
    refine invariant_of_forall_mem (fun state ↦ Consistent castInet state ∧
      FinalFlush world.history.durable world.history.held state) ?_ ⟨hconsistent, hbegin⟩ hrest
      hfinish
    rintro state event next ⟨hstate, hflush⟩ hkind hstep
    exact ⟨consistent_step hstate hstep, finalFlush_step hflush hkind hstep⟩
  obtain ⟨hfinal, hflush⟩ := hboth
  have hexecuting : final.flush.isExecuting = false := by
    cases hpoint : final.flush <;> rw [hpoint] at hidle <;>
      first | rfl | exact absurd hidle Bool.false_ne_true
  rw [FinalFlush, hexecuting, if_neg Bool.false_ne_true] at hflush
  rw [← hflush]
  exact hfinal.tables

/-! ### Exactly once -/

theorem flowCount_flowTotal (flows : List ResolvedFlow) (key : RollupKey Inet) :
    (flowTotal castInet flows key).flowCount =
      (flows.countP fun flow ↦ flow.key.primaryKey.cast castInet = some key : ℕ) := by
  induction flows with
  | nil => rfl
  | cons flow rest ih =>
    have hcons : flowTotal castInet (flow :: rest) key =
        (if flow.key.primaryKey.cast castInet = some key then flow.counters else 0) +
          flowTotal castInet rest key := List.sum_cons
    rw [hcons, FlowCounters.flowCount_add, ih, List.countP_cons]
    by_cases hkey : flow.key.primaryKey.cast castInet = some key
    · simp [hkey, ResolvedFlow.counters, add_comm]
    · simp [hkey]

/-- A flush between its commit and its deduction has counted a flow in some table row. -/
theorem exists_flowCount_pos (hworld : Consistent castInet world)
    (hexiting : world.flush.isExiting = true) :
    ∃ key : RollupKey Inet,
      0 < (flowTotal castInet (flowsOf (world.history.held.take world.history.taken))
        key).flowCount := by
  have hflush := hworld.flush
  cases hpoint : world.flush with
  | exiting snapshot =>
    rw [hpoint] at hflush
    obtain ⟨hne, hfits, -, hhold⟩ := hflush
    cases htaken : world.history.held.take world.history.taken with
    | nil =>
      -- Nothing was taken, so there was nothing to write.
      rw [htaken] at hhold
      have hflows : ∀ key, snapshot.snapshot.get? key = none := hhold.flows.get?_eq_none
      have hinterfaces : ∀ key, snapshot.ifSnapshot.get? key = none :=
        hhold.interfaces.get?_eq_none
      rw [← Dict.isEmpty_iff_get?, Dict.isEmpty, List.isEmpty_iff] at hflows hinterfaces
      refine absurd ?_ hne
      rw [Snapshot.batches, batchesOf, rollupRows, interfaceRows, Dict.values, Ledger.collect,
        Ledger.collect, hflows, hinterfaces]
      rfl
    | cons record rest =>
      rw [htaken] at hhold
      -- The key of a record taken is in the snapshot, its row was written, and so it casts.
      have hmem : ∃ counters, (record.flow.key, counters) ∈ snapshot.snapshot.entries := by
        cases hget : snapshot.snapshot.get? record.flow.key with
        | some counters => exact ⟨counters, (Dict.get?_eq_some_iff ..).mp hget⟩
        | none =>
          have hposting : record.flow.key ∈
              ((flowsOf (record :: rest)).map ResolvedFlow.posting).map Prod.fst :=
            List.mem_map.mpr ⟨record.flow.posting, List.mem_cons_self .., rfl⟩
          exact absurd ((hhold.flows _).symm.trans hget) (Ledger.get?_post_ne_none hposting)
      obtain ⟨counters, hentry⟩ := hmem
      obtain ⟨row, hrow, hkey⟩ := exists_mem_rollupRows snapshot.snapshot hentry
      rw [← flatMap_rollupRows_batchesOf snapshot.snapshot snapshot.ifSnapshot] at hrow
      obtain ⟨batch, hbatch, hrow⟩ := List.mem_flatMap.mp hrow
      have hcast : (row.key.cast castInet).isSome := by
        have hbatchFits := hfits batch hbatch
        cases batch with
        | interfaces rows => exact absurd hrow List.not_mem_nil
        | rollups rows =>
          have hrowFits := List.all_eq_true.mp hbatchFits row hrow
          simp only [RollupRow.fits, decide_eq_true_eq] at hrowFits
          exact hrowFits.1
      obtain ⟨key, hsome⟩ := Option.isSome_iff_exists.mp hcast
      refine ⟨key, ?_⟩
      rw [flowCount_flowTotal]
      refine Int.natCast_pos.mpr (List.countP_pos_iff.mpr ⟨record.flow, List.mem_cons_self .., ?_⟩)
      rw [hkey] at hsome
      exact decide_eq_true hsome
  | _ => rw [hpoint] at hexiting; exact absurd hexiting Bool.false_ne_true

/-- Exactly once across a shutdown: after `stop` has run its final flush with a successful commit,
the tables hold every flow accumulated before it once, if and only if the cancellation did not
land between the commit and the deduction of the flush in flight. Assumes: the process has been
neither cancelled nor restarted before. -/
theorem exactlyOnce_after_stop_iff {events rest : List Event}
    (hevents : ∀ event ∈ events, event.keepsRunning)
    (hrun : run (step castInet) (World.initial Inet) events = some world)
    (hrest : ∀ event ∈ rest, event.finishesFlush)
    (hstop : run (step castInet) world (.cancel :: .beginFlush :: rest) = some final)
    (hidle : final.flush.isIdle) :
    final.tables.Hold castInet world.history.accumulated ↔ world.flush.isExiting = false := by
  have hworld := consistent_of_run hrun
  have hbalanced := balanced_of_run hevents hrun
  have htables := tables_after_stop hworld hrest hstop hidle
  unfold Balanced at hbalanced
  constructor
  · intro hhold
    by_contra hexiting
    rw [Bool.not_eq_false] at hexiting
    rw [uncommitted_of_exiting hexiting] at hbalanced
    obtain ⟨key, hpos⟩ := exists_flowCount_pos hworld hexiting
    have hsame := (htables.flows key).symm.trans (hhold.flows key)
    rw [hbalanced, flowsOf_append, flowsOf_append, flowTotal_append, flowTotal_append] at hsame
    have hheld := add_left_cancel hsame
    rw [← List.take_append_drop world.history.taken world.history.held, flowsOf_append,
      flowTotal_append] at hheld
    have htwice := congrArg FlowCounters.flowCount hheld
    rw [List.take_append_drop, FlowCounters.flowCount_add] at htwice
    omega
  · intro hpoint
    rw [uncommitted_of_not_exiting hpoint] at hbalanced
    rw [hbalanced]
    exact htables

/-- The final flush of the sample runs, after its first await. -/
def sampleFinalFlush : List Event :=
  [.execute, .execute, .commit, .exitSession, .recordInterfaces]

theorem isSome_run_sampleFinalFlush :
    (run (step ipAddress) sampleWorld (.cancel :: .beginFlush :: sampleFinalFlush)).isSome := by
  decide +kernel

/-- The sample run is stopped while its flush records the active interfaces. -/
def sampleStopped : World Address :=
  (run (step ipAddress) sampleWorld (.cancel :: .beginFlush :: sampleFinalFlush)).get
    isSome_run_sampleFinalFlush

theorem exactlyOnce_sampleStopped :
    sampleStopped.tables.Hold ipAddress sampleWorld.history.accumulated := by
  have hevents : ∀ event ∈ sampleEvents, event.keepsRunning := by
    simp [sampleEvents, Event.keepsRunning]
  have hrest : ∀ event ∈ sampleFinalFlush, event.finishesFlush := by
    simp [sampleFinalFlush, Event.finishesFlush]
  exact (exactlyOnce_after_stop_iff hevents (Option.some_get _).symm hrest
    (Option.some_get _).symm (by decide +kernel)).mpr (by decide +kernel)

/-- One flow, committed and not deducted yet. -/
def windowEvents : List Event :=
  [.refreshMaps sampleCorrelator, .accumulate sampleFlow, .beginFlush, .execute, .execute, .commit]

theorem isSome_run_windowEvents :
    (run (step ipAddress) (World.initial Address) windowEvents).isSome := by decide +kernel

/-- The flush of the sample flow is between its commit and its deduction. -/
def windowWorld : World Address :=
  (run (step ipAddress) (World.initial Address) windowEvents).get isSome_run_windowEvents

theorem isSome_run_windowWorld :
    (run (step ipAddress) windowWorld (.cancel :: .beginFlush :: sampleFinalFlush)).isSome := by
  decide +kernel

/-- The aggregator stopped in the window. -/
def windowStopped : World Address :=
  (run (step ipAddress) windowWorld (.cancel :: .beginFlush :: sampleFinalFlush)).get
    isSome_run_windowWorld

/-- The row of the sample flow. -/
def sampleRollupKey : RollupKey Address where
  bucket := 1767225600000000
  exporterId := 7
  srcIp := .v4 0x0A000002
  dstIp := .v4 0x0A000003
  protocol := 6
  dstPort := 443

/-- A cancellation in the window: one flow was accumulated before the stop, and its row counts two
of them after the final flush. -/
theorem counted_twice_after_stop_in_window :
    run (step ipAddress) (World.initial Address) windowEvents = some windowWorld ∧
      run (step ipAddress) windowWorld (.cancel :: .beginFlush :: sampleFinalFlush) =
        some windowStopped ∧
      windowStopped.flush.isIdle ∧
      (flowTotal ipAddress (flowsOf windowWorld.history.accumulated)
        sampleRollupKey).flowCount = 1 ∧
      (windowStopped.tables.committed sampleRollupKey).flowCount = 2 ∧
      ¬ windowStopped.tables.Hold ipAddress windowWorld.history.accumulated := by
  have htotal : (flowTotal ipAddress (flowsOf windowWorld.history.accumulated)
      sampleRollupKey).flowCount = 1 := by decide +kernel
  have hcommitted : (windowStopped.tables.committed sampleRollupKey).flowCount = 2 := by
    decide +kernel
  refine ⟨(Option.some_get _).symm, (Option.some_get _).symm, by decide +kernel, htotal,
    hcommitted, fun hhold ↦ ?_⟩
  rw [hhold.flows, htotal] at hcommitted
  exact absurd hcommitted (by decide)

end Lnmp.Flow
