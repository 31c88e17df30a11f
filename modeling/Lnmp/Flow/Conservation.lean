import Lnmp.Flow.Aggregator

/-!
# Conservation of traffic

What the tables and the memory of the aggregator hold, in terms of the flows that were accumulated.
`Consistent` says that the tables hold the totals of the flows committed, the accumulators exactly
the postings of the flows held, and the snapshot in flight those of the flows it took; every step
keeps it. `Balanced` says that a flow accumulated is either committed or held, and not both unless
the flush is between its commit and its deduction; a process that is neither cancelled nor restarted
keeps it.

Both together give `conserved_of_run`: outside the window between commit and deduction, every table
row and the accumulator entries that project to its key add up to the flows accumulated under it.

A cancellation inside the window leaves flows both committed and held, and the flush that `stop`
runs at the end commits them again: `exactlyOnce_after_stop_iff`.
-/

set_option autoImplicit false
set_option relaxedAutoImplicit false

namespace Lnmp.Flow

open Lnmp.Foundation Lnmp.Foundation.Runs Lnmp.Foundation.IpAddress

/-- The flows of a list of records. -/
def flowsOf (records : List Record) : List ResolvedFlow := records.map Record.flow

theorem flowsOf_append (first second : List Record) :
    flowsOf (first ++ second) = flowsOf first ++ flowsOf second := List.map_append

/-! ### What the memory holds -/

/-- The two accumulators hold exactly the postings of the records. -/
structure HoldRecords (accumulator : Dict FlowKey FlowCounters)
    (interfaceAccumulator : Dict InterfaceKey InterfaceCounters) (records : List Record) :
    Prop where
  flows : Ledger.Holds accumulator ((flowsOf records).map ResolvedFlow.posting)
  interfaces : Ledger.Holds interfaceAccumulator
    ((flowsOf records).flatMap ResolvedFlow.interfacePostings)

/-- The accumulators hold exactly the postings of the records. -/
def Accumulators.Hold (accumulators : Accumulators) (records : List Record) : Prop :=
  HoldRecords accumulators.accumulator accumulators.interfaceAccumulator records

/-- The snapshot holds exactly the postings of the records. -/
def Snapshot.Hold (snapshot : Snapshot) (records : List Record) : Prop :=
  HoldRecords snapshot.snapshot snapshot.ifSnapshot records

theorem hold_empty : Accumulators.empty.Hold [] where
  flows := Ledger.holds_empty
  interfaces := Ledger.holds_empty

/-- `accumulate_flow` adds the flow it resolves to. -/
theorem Accumulators.Hold.accumulateFlow {accumulators : Accumulators} {records : List Record}
    (hhold : accumulators.Hold records) (correlator : FlowCorrelator) (flow : FlowArguments)
    (source : Option MessageId) :
    ((accumulateFlow correlator accumulators flow).getD accumulators).Hold
      (records ++ ((resolveFlow correlator flow).map (Record.mk source)).toList) := by
  cases hresolve : resolveFlow correlator flow with
  | none =>
    rw [accumulateFlow_of_resolveFlow_eq_none accumulators hresolve]
    simpa using hhold
  | some resolved =>
    obtain ⟨next, hnext, hflows, hinterfaces⟩ :=
      accumulateFlow_of_resolveFlow accumulators hresolve
    rw [hnext, Option.getD_some]
    constructor
    · rw [hflows, Option.map_some, Option.toList_some, flowsOf_append, List.map_append]
      exact hhold.flows.credit resolved.key resolved.counters
    · intro key
      rw [hinterfaces key, Option.map_some, Option.toList_some, flowsOf_append,
        List.flatMap_append]
      have hpost := hhold.interfaces.post resolved.interfacePostings key
      simpa [flowsOf] using hpost

/-- A message adds the flow it contributes. -/
theorem Accumulators.Hold.accumulateMessage {accumulators : Accumulators} {records : List Record}
    (hhold : accumulators.Hold records) (correlator : FlowCorrelator) (now : PythonText.PyFloat)
    (fields : Fields) (source : Option MessageId) :
    (accumulateMessage correlator now accumulators fields).Hold
      (records ++ ((contribution correlator now fields).map (Record.mk source)).toList) := by
  unfold Flow.accumulateMessage contribution
  cases decodeMessage now fields with
  | none => simpa using hhold
  | some flow => exact hhold.accumulateFlow correlator flow source

/-- Deducting a snapshot leaves the records accumulated since. -/
theorem Accumulators.Hold.deduct {accumulators : Accumulators} {snapshot : Snapshot}
    {records : List Record} {taken : ℕ} (hhold : accumulators.Hold records)
    (hsnapshot : snapshot.Hold (records.take taken)) :
    (accumulators.deduct snapshot).Hold (records.drop taken) := by
  have hsplit : flowsOf records = flowsOf (records.take taken) ++ flowsOf (records.drop taken) := by
    rw [← flowsOf_append, List.take_append_drop]
  constructor
  · refine Ledger.holds_settle hsnapshot.flows ?_ ?_
    · rw [← List.map_append, ← hsplit]
      exact hhold.flows
    · intro posting hposting
      obtain ⟨flow, -, rfl⟩ := List.mem_map.mp hposting
      exact flow.count_posting
  · refine Ledger.holds_settle hsnapshot.interfaces ?_ ?_
    · rw [← List.flatMap_append, ← hsplit]
      exact hhold.interfaces
    · intro posting hposting
      obtain ⟨flow, -, hflow⟩ := List.mem_flatMap.mp hposting
      exact flow.count_interfacePostings posting hflow

/-- Accumulators without entries hold no records. -/
theorem Accumulators.Hold.eq_nil {accumulators : Accumulators} {records : List Record}
    (hhold : accumulators.Hold records) (hempty : accumulators.accumulator.isEmpty) :
    records = [] := by
  rw [Dict.isEmpty_iff_get?] at hempty
  have hnil := hhold.flows.eq_nil hempty
  rwa [List.map_eq_nil_iff, flowsOf, List.map_eq_nil_iff] at hnil

/-! ### What the tables hold -/

variable {Inet : Type*} [DecidableEq Inet] (castInet : String → Option Inet)

/-- The tables hold exactly the totals of the records. -/
structure Tables.Hold (tables : Tables Inet) (records : List Record) : Prop where
  flows : ∀ key, tables.committed key = flowTotal castInet (flowsOf records) key
  interfaces : ∀ key, tables.committedInterface key = interfaceTotal (flowsOf records) key

/-- Committing a snapshot adds the records it holds to the tables. -/
theorem Tables.Hold.commit {tables : Tables Inet} {records flushed : List Record}
    {snapshot : Snapshot} (hhold : tables.Hold castInet records)
    (hsnapshot : snapshot.Hold flushed) :
    (applyBatches castInet tables snapshot.batches).Hold castInet (records ++ flushed) := by
  constructor
  · intro key
    have hheld := heldTotal_eq castInet hsnapshot.flows key
    simp only [heldTotal, ← rollupWeight_apply] at hheld
    rw [Snapshot.batches, committed_applyBatches, hhold.flows, hheld, flowsOf_append,
      flowTotal_append]
  · intro key
    rw [Snapshot.batches, committedInterface_applyBatches, hhold.interfaces,
      sumBy_interfaceWeight hsnapshot.interfaces, flowsOf_append, interfaceTotal_append]

/-- A snapshot without batches is a snapshot of empty accumulators. -/
theorem isEmpty_of_batches_eq_nil {snapshot : Snapshot} (hbatches : snapshot.batches = []) :
    snapshot.snapshot.isEmpty := by
  rw [Dict.isEmpty, List.isEmpty_iff, List.eq_nil_iff_forall_not_mem]
  intro entry hentry
  obtain ⟨row, hrow, -⟩ := exists_mem_rollupRows snapshot.snapshot hentry
  rw [← flatMap_rollupRows_batchesOf snapshot.snapshot snapshot.ifSnapshot] at hrow
  rw [Snapshot.batches] at hbatches
  rw [hbatches] at hrow
  exact absurd hrow List.not_mem_nil

/-! ### Consistency -/

/-- The snapshot of the flush in flight holds the records that it took from the memory, the batches
executed and left are its batches, and what has been executed fits the tables. -/
def FlushPoint.Faithful (history : History) : FlushPoint → Prop
  | .executing snapshot executed remaining =>
    executed ++ remaining = snapshot.batches ∧ snapshot.batches ≠ [] ∧
      (∀ batch ∈ executed, batch.fits castInet) ∧ history.taken ≤ history.held.length ∧
        snapshot.Hold (history.held.take history.taken)
  | .exiting snapshot =>
    snapshot.batches ≠ [] ∧ (∀ batch ∈ snapshot.batches, batch.fits castInet) ∧
      history.taken ≤ history.held.length ∧ snapshot.Hold (history.held.take history.taken)
  | _ => True

/-- Tables, memory and snapshot hold what the history says. -/
structure Consistent (world : World Inet) : Prop where
  memory : world.accumulators.Hold world.history.held
  tables : world.tables.Hold castInet world.history.durable
  flush : world.flush.Faithful castInet world.history

theorem consistent_initial : Consistent castInet (World.initial Inet) where
  memory := hold_empty
  tables := ⟨fun _ ↦ rfl, fun _ ↦ rfl⟩
  flush := trivial

omit [DecidableEq Inet] in
@[simp] theorem faithful_startAcking (history : History) (pendingAck : List MessageId) :
    (FlushPoint.startAcking pendingAck).Faithful castInet history := by
  unfold FlushPoint.startAcking
  split <;> trivial

variable {castInet} {world next : World Inet}

omit [DecidableEq Inet] in
/-- Records accumulated while a flush is in flight are not in its snapshot. -/
theorem FlushPoint.Faithful.accumulate {point : FlushPoint} {history : History}
    (hpoint : point.Faithful castInet history) (source : Option MessageId)
    (flow : Option ResolvedFlow) : point.Faithful castInet (history.accumulate source flow) := by
  have htake : ∀ later : List Record, history.taken ≤ history.held.length →
      (history.held ++ later).take history.taken = history.held.take history.taken :=
    fun later hle ↦ List.take_append_of_le_length hle
  have hlength : ∀ later : List Record, history.taken ≤ history.held.length →
      history.taken ≤ (history.held ++ later).length := fun later hle ↦ by
    rw [List.length_append]
    omega
  cases point with
  | executing snapshot executed remaining =>
    obtain ⟨hbatches, hne, hfits, hle, hhold⟩ := hpoint
    refine ⟨hbatches, hne, hfits, hlength _ hle, ?_⟩
    rw [← htake _ hle] at hhold
    exact hhold
  | exiting snapshot =>
    obtain ⟨hne, hfits, hle, hhold⟩ := hpoint
    refine ⟨hne, hfits, hlength _ hle, ?_⟩
    rw [← htake _ hle] at hhold
    exact hhold
  | idle => trivial
  | recording snapshot => trivial
  | acking count chunks => trivial

theorem Consistent.receiveMessage (hworld : Consistent castInet world)
    (clock : MessageId → PythonText.PyFloat) (message : MessageId × Fields) :
    Consistent castInet (world.receiveMessage clock message) where
  memory := hworld.memory.accumulateMessage world.correlator (clock message.1) message.2
    (some message.1)
  tables := hworld.tables
  flush := hworld.flush.accumulate _ _

theorem Consistent.receive (clock : MessageId → PythonText.PyFloat)
    (messages : List (MessageId × Fields)) (hworld : Consistent castInet world) :
    Consistent castInet (messages.foldl (World.receiveMessage clock) world) := by
  induction messages generalizing world with
  | nil => exact hworld
  | cons message rest ih => exact ih (hworld.receiveMessage clock message)

theorem Consistent.beginFlush (hworld : Consistent castInet world) :
    Consistent castInet world.beginFlush := by
  unfold World.beginFlush
  split_ifs with hempty hbatches
  · exact hworld
  · exact ⟨hworld.memory, hworld.tables, faithful_startAcking castInet _ _⟩
  · refine ⟨hworld.memory, hworld.tables, ?_⟩
    refine ⟨List.nil_append _, hbatches, by simp, le_rfl, ?_⟩
    show Snapshot.Hold _ (world.history.held.take world.history.held.length)
    rw [List.take_length]
    exact hworld.memory

theorem Consistent.deduct {snapshot : Snapshot} (hworld : Consistent castInet world)
    (hexiting : world.flush = .exiting snapshot) :
    Consistent castInet (world.deduct snapshot) := by
  have hflush := hworld.flush
  rw [hexiting] at hflush
  refine ⟨hworld.memory.deduct hflush.2.2.2, hworld.tables, ?_⟩
  unfold World.deduct
  dsimp only
  split_ifs
  · exact faithful_startAcking castInet _ _
  · trivial

/-- Every step keeps tables, memory and snapshot consistent with the history. -/
theorem consistent_step {event : Event} (hworld : Consistent castInet world)
    (hstep : step castInet world event = some next) : Consistent castInet next := by
  have hflush := hworld.flush
  cases transition_of_step castInet hstep with
  | refreshMaps | xadd | xtrim | xreadgroup => exact ⟨hworld.memory, hworld.tables, hflush⟩
  | readNothing => exact hworld
  | accumulate flow =>
    exact ⟨hworld.memory.accumulateFlow _ _ _, hworld.tables, hflush.accumulate _ _⟩
  | receive _ _ => exact Consistent.receive _ _ ⟨hworld.memory, hworld.tables, hflush⟩
  | beginFlush _ => exact hworld.beginFlush
  | execute hpoint hbatch =>
    rw [hpoint] at hflush
    obtain ⟨hbatches, hne, hfits, hhold⟩ := hflush
    refine ⟨hworld.memory, hworld.tables, ?_, hne, ?_, hhold⟩
    · rw [List.append_assoc]
      exact hbatches
    · intro batch hmem
      rcases List.mem_append.mp hmem with hbefore | hlast
      · exact hfits batch hbefore
      · exact List.mem_singleton.mp hlast ▸ hbatch
  | commit hpoint =>
    rw [hpoint] at hflush
    obtain ⟨hbatches, hne, hfits, hle, hhold⟩ := hflush
    rw [List.append_nil] at hbatches
    rw [hbatches] at hfits
    refine ⟨hworld.memory, ?_, hne, hfits, hle, hhold⟩
    rw [hbatches]
    exact hworld.tables.commit castInet hhold
  | exitSession hpoint => exact hworld.deduct hpoint
  | recordInterfaces _ | recordInterfacesFails _ =>
    exact ⟨hworld.memory, hworld.tables, faithful_startAcking castInet _ _⟩
  | executeFails | commitFails | xackLast | xack | xackFails | cancel =>
    exact ⟨hworld.memory, hworld.tables, trivial⟩
  | restart => exact ⟨hold_empty, hworld.tables, trivial⟩

/-! ### Balance -/

/-- The records held and not committed: in the window between a commit and its deduction the
records taken by the snapshot are both. -/
def World.uncommitted (world : World Inet) : List Record :=
  if world.flush.isExiting then world.history.held.drop world.history.taken else world.history.held

/-- Every record accumulated is committed or held, and none is counted in both. -/
def Balanced (world : World Inet) : Prop :=
  world.history.accumulated = world.history.durable ++ world.uncommitted

/-- The steps of a process that is neither cancelled nor restarted. -/
def Event.keepsRunning : Event → Prop
  | .cancel => False
  | .restart => False
  | _ => True

@[simp] theorem isExiting_startAcking (pendingAck : List MessageId) :
    (FlushPoint.startAcking pendingAck).isExiting = false := by
  unfold FlushPoint.startAcking
  split <;> rfl

omit [DecidableEq Inet] in
/-- A flow that is accumulated is held and not committed. -/
theorem Balanced.accumulate (hbalanced : Balanced world) (hflush : world.flush.Faithful
    castInet world.history) (source : Option MessageId) (flow : Option ResolvedFlow)
    (hhistory : next.history = world.history.accumulate source flow)
    (hpoint : next.flush = world.flush) : Balanced next := by
  unfold Balanced World.uncommitted at *
  rw [hhistory, hpoint]
  unfold History.accumulate
  dsimp only
  rw [hbalanced]
  cases hexiting : world.flush with
  | exiting snapshot =>
    rw [hexiting] at hflush
    simp only [FlushPoint.isExiting, ↓reduceIte, List.drop_append_of_le_length hflush.2.2.1,
      List.append_assoc]
  | _ => simp only [FlushPoint.isExiting, Bool.false_eq_true, ↓reduceIte, List.append_assoc]

omit [DecidableEq Inet] in
theorem Balanced.receive (clock : MessageId → PythonText.PyFloat)
    (messages : List (MessageId × Fields)) (hbalanced : Balanced world)
    (hflush : world.flush.Faithful castInet world.history) :
    Balanced (messages.foldl (World.receiveMessage clock) world) := by
  induction messages generalizing world with
  | nil => exact hbalanced
  | cons message rest ih =>
    exact ih (hbalanced.accumulate hflush _ _ rfl rfl) (hflush.accumulate _ _)

omit [DecidableEq Inet] in
theorem uncommitted_of_not_exiting (hpoint : world.flush.isExiting = false) :
    world.uncommitted = world.history.held := by
  rw [World.uncommitted, hpoint]
  rfl

omit [DecidableEq Inet] in
theorem uncommitted_of_exiting (hpoint : world.flush.isExiting = true) :
    world.uncommitted = world.history.held.drop world.history.taken := by
  rw [World.uncommitted, hpoint]
  rfl

omit [DecidableEq Inet] in
/-- A step that moves no record keeps the balance. -/
theorem Balanced.of_history (hbalanced : Balanced world) (hhistory : next.history = world.history)
    (hpoint : next.flush.isExiting = world.flush.isExiting) : Balanced next := by
  unfold Balanced World.uncommitted at *
  rw [hhistory, hpoint]
  exact hbalanced

omit [DecidableEq Inet] in
theorem isExiting_beginFlush (hpoint : world.flush = .idle) :
    world.beginFlush.flush.isExiting = false := by
  unfold World.beginFlush
  split_ifs
  · rw [hpoint]
    rfl
  · exact isExiting_startAcking _
  · rfl

omit [DecidableEq Inet] in
theorem isExiting_deduct (snapshot : Snapshot) :
    (world.deduct snapshot).flush.isExiting = false := by
  unfold World.deduct
  dsimp only
  split_ifs
  · exact isExiting_startAcking _
  · rfl

/-- Every step but a cancellation and a restart keeps the balance; a cancellation outside the
window keeps it too. -/
theorem balanced_step {event : Event} (hworld : Consistent castInet world)
    (hbalanced : Balanced world) (hrestart : event ≠ .restart)
    (hcancel : event = .cancel → world.flush.isExiting = false)
    (hstep : step castInet world event = some next) : Balanced next := by
  have hflush := hworld.flush
  cases transition_of_step castInet hstep with
  | refreshMaps | xadd | xtrim | xreadgroup => exact hbalanced.of_history rfl rfl
  | readNothing => exact hbalanced
  | accumulate flow => exact hbalanced.accumulate hflush _ _ rfl rfl
  | receive _ _ => exact Balanced.receive _ _ (hbalanced.of_history rfl rfl) hflush
  | beginFlush hpoint =>
    unfold Balanced at *
    rw [uncommitted_of_not_exiting (isExiting_beginFlush hpoint)]
    rw [uncommitted_of_not_exiting (by rw [hpoint]; rfl)] at hbalanced
    unfold World.beginFlush
    split_ifs <;> exact hbalanced
  | commit hpoint =>
    unfold Balanced at *
    rw [uncommitted_of_not_exiting (by rw [hpoint]; rfl)] at hbalanced
    rw [uncommitted_of_exiting rfl, List.append_assoc, List.take_append_drop]
    exact hbalanced
  | exitSession hpoint =>
    unfold Balanced at *
    rw [uncommitted_of_exiting (by rw [hpoint]; rfl)] at hbalanced
    rw [uncommitted_of_not_exiting (isExiting_deduct _)]
    exact hbalanced
  | cancel => exact hbalanced.of_history rfl (hcancel rfl).symm
  | restart => exact absurd rfl hrestart
  | recordInterfaces hpoint | recordInterfacesFails hpoint =>
    refine hbalanced.of_history rfl ?_
    rw [hpoint]
    exact isExiting_startAcking _
  | execute hpoint | executeFails hpoint | commitFails hpoint | xackLast hpoint | xack hpoint
  | xackFails _ hpoint =>
    refine hbalanced.of_history rfl ?_
    rw [hpoint]
    rfl

/-! ### Runs -/

/-- Tables, memory and snapshot agree with the history in every state that is reached. -/
theorem consistent_of_run {events : List Event}
    (hrun : run (step castInet) (World.initial Inet) events = some world) :
    Consistent castInet world := by
  refine invariant_of_forall_mem (Consistent castInet) ?_ (consistent_initial castInet)
    (fun _ _ ↦ trivial) hrun
  exact fun _ _ _ hstate _ hstep ↦ consistent_step hstate hstep

/-- The books balance in every state that a process that is neither cancelled nor restarted
reaches. -/
theorem balanced_of_run {events : List Event} (hevents : ∀ event ∈ events, event.keepsRunning)
    (hrun : run (step castInet) (World.initial Inet) events = some world) : Balanced world := by
  have hboth : Consistent castInet world ∧ Balanced world := by
    refine invariant_of_forall_mem (fun state ↦ Consistent castInet state ∧ Balanced state) ?_
      ⟨consistent_initial castInet, rfl⟩ hevents hrun
    rintro state event next ⟨hstate, hbalanced⟩ hkind hstep
    refine ⟨consistent_step hstate hstep, balanced_step hstate hbalanced ?_ ?_ hstep⟩
    · rintro rfl
      exact hkind
    · rintro rfl
      exact hkind.elim
  exact hboth.2

/-- Conservation of traffic. Whatever the interleaving of arrivals, changes of the correlator's
maps, failed and successful commits, outside the window between a commit and its deduction the
committed counters of every table key and the accumulator entries that project to it add up to the
flows accumulated under it. Assumes: the process is neither cancelled nor restarted. -/
theorem conserved_of_run {events : List Event} (hevents : ∀ event ∈ events, event.keepsRunning)
    (hrun : run (step castInet) (World.initial Inet) events = some world)
    (hpoint : world.flush.isExiting = false) :
    (∀ key, world.tables.committed key + heldTotal castInet world.accumulators.accumulator key =
        flowTotal castInet (flowsOf world.history.accumulated) key) ∧
      ∀ key, world.tables.committedInterface key +
          (world.accumulators.interfaceAccumulator.get? key).getD 0 =
        interfaceTotal (flowsOf world.history.accumulated) key := by
  have hworld := consistent_of_run hrun
  have hbalanced := balanced_of_run hevents hrun
  unfold Balanced at hbalanced
  rw [uncommitted_of_not_exiting hpoint] at hbalanced
  rw [hbalanced, flowsOf_append]
  constructor
  · intro key
    rw [hworld.tables.flows, heldTotal_eq castInet hworld.memory.flows, flowTotal_append]
  · intro key
    rw [hworld.tables.interfaces, ← sumBy_interfaceWeight_eq_get?,
      sumBy_interfaceWeight hworld.memory.interfaces, interfaceTotal_append]

/-- A flow between two hosts, in at interface 1 of its exporter and out at interface 2. -/
def sampleFlow : FlowArguments where
  exporterIp := "10.0.0.1"
  srcIp := "10.0.0.2"
  dstIp := "10.0.0.3"
  srcPort := 40000
  dstPort := 443
  protocol := 6
  flowBytes := 1500
  flowPackets := 3
  startTimeUnix := .finite 1767225600
  inIf := 1
  outIf := 2

/-- Maps in which the exporter of the sample flow is known. -/
def sampleCorrelator : FlowCorrelator where
  exporterMap := Dict.empty.set "10.0.0.1" 7
  participantMap := Dict.empty

/-- One flow is committed while a second one arrives. -/
def sampleEvents : List Event :=
  [.refreshMaps sampleCorrelator, .accumulate sampleFlow, .beginFlush, .execute,
    .accumulate sampleFlow, .execute, .commit, .exitSession]

theorem isSome_run_sampleEvents :
    (run (step ipAddress) (World.initial Address) sampleEvents).isSome := by decide +kernel

/-- The state that the sample events lead to. -/
def sampleWorld : World Address :=
  (run (step ipAddress) (World.initial Address) sampleEvents).get isSome_run_sampleEvents

theorem conserved_sampleWorld :
    (∀ key, sampleWorld.tables.committed key +
        heldTotal ipAddress sampleWorld.accumulators.accumulator key =
          flowTotal ipAddress (flowsOf sampleWorld.history.accumulated) key) ∧
      ∀ key, sampleWorld.tables.committedInterface key +
          (sampleWorld.accumulators.interfaceAccumulator.get? key).getD 0 =
        interfaceTotal (flowsOf sampleWorld.history.accumulated) key := by
  have hkind : ∀ event ∈ sampleEvents, event.keepsRunning := by
    simp [sampleEvents, Event.keepsRunning]
  exact conserved_of_run hkind (Option.some_get _).symm (by decide +kernel)

end Lnmp.Flow
