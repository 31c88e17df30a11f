import Lnmp.Flow.FlushTasks

/-!
# What becomes of accepted flows

A flow that `handle_packet` accepts should end up in one place: it waits in the queue, it has been
added to the stream once, or the failure of its batch was logged. The stream should have the flows
in the order in which they were accepted.

`conserved_iff_undisturbed` says which runs keep that. Two things break it. `stop` cancels the flush
loop while its pipeline is being executed: the batch is only in a local variable of the flush, and
no handler sees the cancellation. And two executions overtake one another, because the lock of a
flush is released before its pipeline is executed. A collector without a Redis client drops what it
flushes.
-/

set_option autoImplicit false
set_option relaxedAutoImplicit false

namespace Lnmp.Flow

open Lnmp.Foundation Lnmp.Foundation.Runs

variable {redis : Bool} {batchSize : ℕ} {world next : CollectorWorld}

/-! ### Places -/

/-- A batch has the flows that were accepted under its numbers. -/
def FlushBatch.IsPart (batch : FlushBatch) (accepted : List FlowDict) : Prop :=
  batch.flows <+: accepted.drop batch.first

namespace CollectorWorld

/-- The numbers of the flows in the queue: those accepted last. -/
def queuedNumbers (world : CollectorWorld) : List ℕ :=
  List.range' (world.accepted.length - world.collector.queue.length) world.collector.queue.length

/-- The numbers of the flows whose pipeline is being executed. -/
def executingNumbers (world : CollectorWorld) : List ℕ :=
  world.executing.flatMap fun execution ↦ execution.batch.numbers

/-- The numbers of the flows in the stream, in its order. -/
def pushedNumbers (world : CollectorWorld) : List ℕ := world.stream.map Prod.fst

/-- The numbers of the flows whose failure was logged. -/
def reportedNumbers (world : CollectorWorld) : List ℕ := world.reported.flatMap FlushBatch.numbers

/-- The numbers of the flows that are in no place any more. -/
def lostNumbers (world : CollectorWorld) : List ℕ := world.lost.flatMap FlushBatch.numbers

/-- The places agree with what was accepted: the queue is its end and within its bound, the batches
are parts of it, and the entries of the stream are those of its flows. -/
structure Faithful (world : CollectorWorld) : Prop where
  bounded : world.collector.queue.length ≤ maxQueueSize
  queue : world.collector.queue <:+ world.accepted
  executing : ∀ execution ∈ world.executing, execution.batch.IsPart world.accepted
  reported : ∀ batch ∈ world.reported, batch.IsPart world.accepted
  entries : ∀ pushed ∈ world.stream, ∃ flow, world.accepted[pushed.1]? = some flow ∧
    streamEntry flow = some pushed.2

/-- Accepted flows are conserved: each is in exactly one place, once, and the stream has them in
order. -/
structure Conserved (world : CollectorWorld) : Prop extends Faithful world where
  accounted : (world.queuedNumbers ++ world.executingNumbers ++ world.pushedNumbers ++
    world.reportedNumbers).Perm (List.range world.accepted.length)
  ordered : world.pushedNumbers.Pairwise (· < ·)

/-- A step leaves the flows alone: a flush has a client for what it takes, an execution is applied
before those of the batches behind it, and the loop is cancelled outside of an execution. -/
def Undisturbed (redis : Bool) (world : CollectorWorld) : CollectorEvent → Prop
  | .startTask | .wakeLoop | .stopFlush => redis = true ∨ world.collector.queue = []
  | .apply index => ∀ execution ∈ world.executing[index]?, ∀ pushed ∈ world.stream,
      pushed.1 < execution.batch.first
  | .cancel => ∀ execution ∈ world.executing, execution.flusher ≠ .loop
  | _ => True

/-- Every flow that was accepted is in one of the places, or lost. -/
structure Tracked (world : CollectorWorld) : Prop extends Faithful world where
  tracked : (world.queuedNumbers ++ world.executingNumbers ++ world.pushedNumbers ++
    world.reportedNumbers ++ world.lostNumbers).Perm (List.range world.accepted.length)

/-- How often a number is in one of the places, or lost. -/
def countPlaces (world : CollectorWorld) (number : ℕ) : ℕ :=
  world.queuedNumbers.count number + world.executingNumbers.count number +
    world.pushedNumbers.count number + world.reportedNumbers.count number +
      world.lostNumbers.count number

end CollectorWorld

theorem FlushBatch.IsPart.append {batch : FlushBatch} {accepted : List FlowDict}
    (hpart : batch.IsPart accepted) (more : List FlowDict) : batch.IsPart (accepted ++ more) := by
  refine List.IsPrefix.trans hpart ?_
  rw [List.drop_append]
  exact List.prefix_append _ _

theorem FlushBatch.numbers_ne_nil (batch : FlushBatch) : batch.numbers ≠ [] := by
  have hlength := List.length_pos_iff.mpr batch.nonempty
  rw [FlushBatch.numbers, ne_eq, List.range'_eq_nil_iff]
  omega

/-- Nothing is lost exactly when every flow that was accepted is in one of the places. -/
theorem CollectorWorld.Tracked.lost_eq_nil_iff (hworld : world.Tracked) :
    world.lost = [] ↔ (world.queuedNumbers ++ world.executingNumbers ++ world.pushedNumbers ++
      world.reportedNumbers).Perm (List.range world.accepted.length) := by
  constructor
  · intro hlost
    have htracked := hworld.tracked
    rwa [lostNumbers, hlost, List.flatMap_nil, List.append_nil] at htracked
  · intro haccounted
    have hlength := (hworld.tracked.trans haccounted.symm).length_eq
    have hnone : world.lostNumbers = [] := by
      rw [← List.length_eq_zero_iff]
      simp only [List.length_append] at hlength ⊢
      omega
    by_contra hlost
    obtain ⟨batch, lost, hcons⟩ := List.exists_cons_of_ne_nil hlost
    rw [lostNumbers, hcons, List.flatMap_cons, List.append_eq_nil_iff] at hnone
    exact batch.numbers_ne_nil hnone.1

/-- A tracked collector conserves its flows exactly when it has lost none, and the stream is in
order. -/
theorem CollectorWorld.Tracked.conserved_iff (hworld : world.Tracked) :
    world.Conserved ↔ world.lost = [] ∧ world.pushedNumbers.Pairwise (· < ·) := by
  rw [hworld.lost_eq_nil_iff]
  exact ⟨fun hconserved ↦ ⟨hconserved.accounted, hconserved.ordered⟩,
    fun hboth ↦ ⟨hworld.toFaithful, hboth.1, hboth.2⟩⟩

/-! ### Steps -/

/-- The numbers of the flows that an execution adds to the stream. -/
theorem Execution.map_fst_zip (execution : Execution) :
    (execution.batch.numbers.zip execution.entries).map Prod.fst = execution.batch.numbers := by
  refine List.map_fst_zip ?_
  rw [FlushBatch.numbers, List.length_range', (forall₂_of_mapM execution.encoded).length_eq]

/-- The entries that an execution adds to the stream are those of its flows. -/
theorem Execution.entries_zip {execution : Execution} {accepted : List FlowDict}
    (hpart : execution.batch.IsPart accepted) :
    ∀ pushed ∈ execution.batch.numbers.zip execution.entries, ∃ flow,
      accepted[pushed.1]? = some flow ∧ streamEntry flow = some pushed.2 := by
  intro pushed hpushed
  obtain ⟨index, hget⟩ := List.mem_iff_getElem?.mp hpushed
  obtain ⟨hnumber, hentry⟩ := List.getElem?_zip_eq_some.mp hget
  obtain ⟨hlength, hencoded⟩ := List.forall₂_iff_get.mp (forall₂_of_mapM execution.encoded)
  obtain ⟨hindex, hsome⟩ := List.getElem?_eq_some_iff.mp hentry
  have hflow : index < execution.batch.flows.length := hlength ▸ hindex
  refine ⟨execution.batch.flows[index], ?_,
    (hencoded index hflow hindex).trans (congrArg some hsome)⟩
  rw [FlushBatch.numbers, List.getElem?_range' hflow, one_mul, Option.some_inj] at hnumber
  obtain ⟨after, hafter⟩ := hpart
  rw [← hnumber, ← List.getElem?_drop, ← hafter, List.getElem?_append_left hflow,
    List.getElem?_eq_getElem hflow]

namespace CollectorWorld

theorem countPlaces_eq (world : CollectorWorld) (number : ℕ) : world.countPlaces number =
    world.queuedNumbers.count number +
      (world.executing.flatMap fun execution ↦ execution.batch.numbers).count number +
        (world.stream.map Prod.fst).count number +
          (world.reported.flatMap FlushBatch.numbers).count number +
            (world.lost.flatMap FlushBatch.numbers).count number := rfl

theorem Tracked.countPlaces (hworld : world.Tracked) (number : ℕ) :
    world.countPlaces number = (List.range world.accepted.length).count number := by
  simp only [CollectorWorld.countPlaces, ← List.count_append]
  exact hworld.tracked.count_eq number

theorem Faithful.tracked_of_countPlaces (hworld : world.Faithful)
    (hcount : ∀ number, world.countPlaces number =
      (List.range world.accepted.length).count number) : world.Tracked := by
  refine ⟨hworld, List.perm_iff_count.mpr fun number ↦ ?_⟩
  rw [← hcount number]
  simp only [CollectorWorld.countPlaces, List.count_append]

/-- A step that accepts nothing moves flows between the places. -/
theorem Tracked.move (hworld : world.Tracked) (hnext : next.Faithful)
    (haccepted : next.accepted = world.accepted)
    (hcount : ∀ number, next.countPlaces number = world.countPlaces number) : next.Tracked :=
  hnext.tracked_of_countPlaces fun number ↦ by
    rw [hcount number, hworld.countPlaces number, haccepted]

/-- A datagram puts what is accepted behind everything else. -/
theorem Tracked.handlePacket (hworld : world.Tracked) (batchSize : ℕ) (datagram : Datagram) :
    (world.handlePacket batchSize datagram).Tracked := by
  obtain ⟨collector, scheduled, flows, hnext, hqueue, hroom⟩ :=
    world.exists_handlePacket batchSize datagram hworld.bounded
  rw [hnext]
  refine Faithful.tracked_of_countPlaces ⟨hroom, ?_,
    fun execution hmem ↦ (hworld.executing execution hmem).append flows,
    fun batch hmem ↦ (hworld.reported batch hmem).append flows, ?_⟩ fun number ↦ ?_
  · obtain ⟨before, hbefore⟩ := hworld.queue
    exact ⟨before, by rw [hqueue, ← hbefore, List.append_assoc]⟩
  · intro pushed hpushed
    obtain ⟨flow, hflow, hentry⟩ := hworld.entries pushed hpushed
    exact ⟨flow, (List.getElem?_append_left (List.getElem?_eq_some_iff.mp hflow).1).trans hflow,
      hentry⟩
  · -- The queue grows by the numbers that are accepted.
    have hqueued : List.range' (world.accepted.length + flows.length - collector.queue.length)
        collector.queue.length =
          world.queuedNumbers ++ List.range' world.accepted.length flows.length := by
      have hsplit := List.range'_append_1 (s := world.accepted.length -
        world.collector.queue.length) (m := world.collector.queue.length) (n := flows.length)
      rw [Nat.sub_add_cancel hworld.queue.length_le] at hsplit
      rw [queuedNumbers, hsplit, hqueue, List.length_append, Nat.add_sub_add_right]
    have hrange := List.range'_append_1 (s := 0) (m := world.accepted.length) (n := flows.length)
    rw [zero_add, ← List.range_eq_range', ← List.range_eq_range'] at hrange
    have hcount := hworld.countPlaces number
    rw [List.length_append, ← hrange, List.count_append, ← hcount]
    rw [countPlaces_eq, countPlaces_eq]
    simp only [queuedNumbers, List.length_append] at hqueued ⊢
    rw [hqueued, List.count_append]
    omega

/-- The flows that a flush takes are the end of what was accepted. -/
theorem Takes.isPart {toFlush : FlushBatch} (htakes : world.Takes toFlush)
    (hqueue : world.collector.queue <:+ world.accepted) : toFlush.IsPart world.accepted := by
  rw [FlushBatch.IsPart, htakes.flows, htakes.first, ← List.suffix_iff_eq_drop.mp hqueue]

theorem Takes.numbers {toFlush : FlushBatch} (htakes : world.Takes toFlush) :
    toFlush.numbers = world.queuedNumbers := by
  rw [FlushBatch.numbers, htakes.first, htakes.flows, queuedNumbers]

/-- A flush moves the flows of the queue to another place. -/
theorem Tracked.flush (hworld : world.Tracked) {flusher : Flusher}
    (hflush : Flushes redis flusher world next) : next.Tracked := by
  cases hflush with
  | empty => exact hworld
  | noClient htakes _ =>
    refine hworld.move ⟨Nat.zero_le _, List.nil_suffix, hworld.executing, hworld.reported,
      hworld.entries⟩ rfl fun number ↦ ?_
    rw [countPlaces_eq, countPlaces_eq, ← htakes.numbers]
    simp only [queuedNumbers, List.flatMap_append, List.flatMap_singleton, List.count_append,
      List.length_nil, List.range'_zero, List.count_nil]
    omega
  | unencodable htakes _ _ =>
    refine hworld.move ⟨Nat.zero_le _, List.nil_suffix, hworld.executing,
      List.forall_mem_append.mpr ⟨hworld.reported,
        List.forall_mem_singleton.mpr (htakes.isPart hworld.queue)⟩,
      hworld.entries⟩ rfl fun number ↦ ?_
    rw [countPlaces_eq, countPlaces_eq, ← htakes.numbers]
    simp only [queuedNumbers, List.flatMap_append, List.flatMap_singleton, List.count_append,
      List.length_nil, List.range'_zero, List.count_nil]
    omega
  | executes htakes _ _ =>
    refine hworld.move ⟨Nat.zero_le _, List.nil_suffix,
      List.forall_mem_append.mpr ⟨hworld.executing,
        List.forall_mem_singleton.mpr (htakes.isPart hworld.queue)⟩,
      hworld.reported, hworld.entries⟩ rfl fun number ↦ ?_
    rw [countPlaces_eq, countPlaces_eq, ← htakes.numbers]
    simp only [queuedNumbers, List.flatMap_append, List.flatMap_singleton, List.count_append,
      List.length_nil, List.range'_zero, List.count_nil]
    omega

/-- The flows under an execution's batch and the others under way. -/
theorem count_executingNumbers {index : ℕ} {execution : Execution}
    (hget : world.executing[index]? = some execution) (number : ℕ) :
    world.executingNumbers.count number = execution.batch.numbers.count number +
      ((world.executing.eraseIdx index).flatMap fun other ↦ other.batch.numbers).count number := by
  obtain ⟨hindex, rfl⟩ := List.getElem?_eq_some_iff.mp hget
  have hperm := (List.getElem_cons_eraseIdx_perm hindex).flatMap_right
    fun other ↦ other.batch.numbers
  rw [List.flatMap_cons] at hperm
  rw [executingNumbers, ← hperm.count_eq number, List.count_append]

/-- An execution that is applied moves its flows to the stream. -/
theorem Tracked.applied (hworld : world.Tracked) {index : ℕ} {execution : Execution}
    (hget : world.executing[index]? = some execution) :
    (world.applied index execution).Tracked := by
  have hpart := hworld.executing execution (List.mem_of_getElem? hget)
  refine hworld.move ⟨hworld.bounded, hworld.queue,
    fun other hother ↦ hworld.executing other (List.mem_of_mem_eraseIdx hother), hworld.reported,
    List.forall_mem_append.mpr ⟨hworld.entries, Execution.entries_zip hpart⟩⟩ rfl fun number ↦ ?_
  have hcount := count_executingNumbers hget number
  rw [executingNumbers] at hcount
  rw [countPlaces_eq, countPlaces_eq, hcount]
  simp only [CollectorWorld.applied, queuedNumbers, List.map_append, Execution.map_fst_zip,
    List.count_append]
  omega

/-- An execution that fails moves its flows to those reported. -/
theorem Tracked.failed (hworld : world.Tracked) {index : ℕ} {execution : Execution}
    (hget : world.executing[index]? = some execution) :
    (world.failed index execution).Tracked := by
  have hpart := hworld.executing execution (List.mem_of_getElem? hget)
  refine hworld.move ⟨hworld.bounded, hworld.queue,
    fun other hother ↦ hworld.executing other (List.mem_of_mem_eraseIdx hother),
    List.forall_mem_append.mpr ⟨hworld.reported, List.forall_mem_singleton.mpr hpart⟩,
    hworld.entries⟩ rfl fun number ↦ ?_
  have hcount := count_executingNumbers hget number
  rw [executingNumbers] at hcount
  rw [countPlaces_eq, countPlaces_eq, hcount]
  simp only [CollectorWorld.failed, queuedNumbers, List.flatMap_append, List.flatMap_singleton,
    List.count_append]
  omega

/-- A cancellation loses what the loop has under way. -/
theorem Tracked.cancelled (hworld : world.Tracked) : world.cancelled.Tracked := by
  refine hworld.move ⟨hworld.bounded, hworld.queue,
    fun other hother ↦ hworld.executing other (List.mem_of_mem_filter hother), hworld.reported,
    hworld.entries⟩ rfl fun number ↦ ?_
  have hsplit := (List.filter_append_perm (fun execution : Execution ↦
    decide (execution.flusher = .loop)) world.executing).flatMap_right
    fun execution ↦ execution.batch.numbers
  have hcount := hsplit.count_eq number
  rw [List.flatMap_append, List.count_append] at hcount
  rw [countPlaces_eq, countPlaces_eq, ← hcount]
  simp only [CollectorWorld.cancelled, queuedNumbers, List.flatMap_append, List.flatMap_map,
    List.count_append, decide_not]
  omega

/-- What was accepted stays in its places when only the tasks change. -/
theorem Tracked.tasks (hworld : world.Tracked) (scheduled : ℕ) (loop : LoopPoint)
    (returning : List Flusher) :
    { world with scheduled := scheduled, loop := loop, returning := returning }.Tracked :=
  hworld.move ⟨hworld.bounded, hworld.queue, hworld.executing, hworld.reported, hworld.entries⟩ rfl
    fun _ ↦ rfl

/-- A flush loses what it takes exactly when there is no client. -/
theorem lost_of_flushes {flusher : Flusher} (hflush : Flushes redis flusher world next) :
    next.stream = world.stream ∧
      (next.lost = [] ↔ world.lost = [] ∧ (redis = true ∨ world.collector.queue = [])) := by
  cases hflush with
  | empty hqueue => exact ⟨rfl, (and_iff_left (Or.inr hqueue)).symm⟩
  | noClient htakes hredis =>
    refine ⟨rfl, iff_of_false (List.append_ne_nil_of_right_ne_nil _ (List.cons_ne_nil _ _)) ?_⟩
    rintro ⟨-, hclient | hqueue⟩
    · exact Bool.false_ne_true (hredis.symm.trans hclient)
    · exact FlushBatch.nonempty _ (htakes.flows.trans hqueue)
  | unencodable _ hredis _ => exact ⟨rfl, (and_iff_left (Or.inl hredis)).symm⟩
  | executes _ hredis _ => exact ⟨rfl, (and_iff_left (Or.inl hredis)).symm⟩

/-- The stream stays in order exactly when the batch that is applied lies behind it. -/
theorem ordered_applied_iff (world : CollectorWorld) (index : ℕ) (execution : Execution) :
    (world.applied index execution).pushedNumbers.Pairwise (· < ·) ↔
      world.pushedNumbers.Pairwise (· < ·) ∧
        ∀ pushed ∈ world.stream, pushed.1 < execution.batch.first := by
  have hnumbers : (world.applied index execution).pushedNumbers =
      world.pushedNumbers ++ execution.batch.numbers := by
    rw [pushedNumbers, CollectorWorld.applied, List.map_append, execution.map_fst_zip,
      pushedNumbers]
  rw [hnumbers, List.pairwise_append]
  constructor
  · rintro ⟨hordered, -, hbehind⟩
    refine ⟨hordered, fun pushed hpushed ↦ hbehind _ (List.mem_map_of_mem hpushed) _ ?_⟩
    exact List.mem_range'_1.mpr ⟨le_rfl, Nat.lt_add_of_pos_right
      (List.length_pos_iff.mpr execution.batch.nonempty)⟩
  · rintro ⟨hordered, hbehind⟩
    refine ⟨hordered, List.pairwise_lt_range' .., fun number hnumber other hother ↦ ?_⟩
    obtain ⟨pushed, hpushed, rfl⟩ := List.mem_map.mp hnumber
    exact (hbehind pushed hpushed).trans_le (List.mem_range'_1.mp hother).1

/-- A cancellation loses nothing exactly when the loop has nothing under way. -/
theorem lost_cancelled_iff (world : CollectorWorld) :
    world.cancelled.lost = [] ↔
      world.lost = [] ∧ ∀ execution ∈ world.executing, execution.flusher ≠ .loop := by
  simp [CollectorWorld.cancelled, List.filter_eq_nil_iff]

theorem Tracked.conserved_flush_iff (hworld : world.Tracked) {flusher : Flusher}
    (hflush : Flushes redis flusher world next) :
    next.Conserved ↔ world.Conserved ∧ (redis = true ∨ world.collector.queue = []) := by
  obtain ⟨hstream, hlost⟩ := lost_of_flushes hflush
  rw [(hworld.flush hflush).conserved_iff, hworld.conserved_iff, hlost, pushedNumbers,
    pushedNumbers, hstream]
  exact and_right_comm

/-- A step keeps track of every flow. -/
theorem Tracked.step (hworld : world.Tracked) {event : CollectorEvent}
    (hstep : collectorStep redis batchSize world event = some next) : next.Tracked := by
  cases event with
  | datagram datagram =>
    obtain rfl := Option.some.inj hstep
    exact hworld.handlePacket batchSize datagram
  | startTask =>
    obtain ⟨-, hnext⟩ := Option.ite_none_left_eq_some.mp hstep
    obtain rfl := Option.some.inj hnext
    exact (hworld.tasks _ _ _).flush (flushes_flush redis .task _)
  | wakeLoop | stopFlush =>
    obtain ⟨-, hnext⟩ := Option.ite_none_right_eq_some.mp hstep
    obtain rfl := Option.some.inj hnext
    exact hworld.flush (flushes_flush redis _ _)
  | apply index =>
    obtain ⟨execution, hget, rfl⟩ := Option.map_eq_some_iff.mp hstep
    exact hworld.applied hget
  | fail index =>
    obtain ⟨execution, hget, rfl⟩ := Option.map_eq_some_iff.mp hstep
    exact hworld.failed hget
  | finish index =>
    obtain ⟨flusher, -, rfl⟩ := Option.map_eq_some_iff.mp hstep
    exact hworld.tasks _ _ _
  | cancel =>
    obtain rfl := Option.some.inj hstep
    exact hworld.cancelled

/-- A step conserves the flows exactly when it leaves them alone. -/
theorem Tracked.conserved_step_iff (hworld : world.Tracked) {event : CollectorEvent}
    (hstep : collectorStep redis batchSize world event = some next) :
    next.Conserved ↔ world.Conserved ∧ world.Undisturbed redis event := by
  have hnext := hworld.step hstep
  cases event with
  | startTask =>
    obtain ⟨-, hflush⟩ := Option.ite_none_left_eq_some.mp hstep
    obtain rfl := Option.some.inj hflush
    have htasks := hworld.tasks (world.scheduled - 1) world.loop world.returning
    rw [htasks.conserved_flush_iff (flushes_flush redis .task _), htasks.conserved_iff,
      hworld.conserved_iff]
    exact Iff.rfl
  | wakeLoop | stopFlush =>
    obtain ⟨-, hflush⟩ := Option.ite_none_right_eq_some.mp hstep
    obtain rfl := Option.some.inj hflush
    exact hworld.conserved_flush_iff (flushes_flush redis _ _)
  | apply index =>
    obtain ⟨execution, hget, rfl⟩ := Option.map_eq_some_iff.mp hstep
    have hcondition : world.Undisturbed redis (.apply index) ↔
        ∀ pushed ∈ world.stream, pushed.1 < execution.batch.first := by
      simp only [Undisturbed, hget, Option.mem_some_iff, forall_eq']
    rw [hnext.conserved_iff, hworld.conserved_iff, ordered_applied_iff, hcondition]
    exact and_assoc.symm
  | cancel =>
    obtain rfl := Option.some.inj hstep
    rw [hnext.conserved_iff, hworld.conserved_iff, lost_cancelled_iff]
    exact and_right_comm
  | datagram datagram =>
    obtain rfl := Option.some.inj hstep
    rw [hnext.conserved_iff, hworld.conserved_iff]
    exact (and_iff_left trivial).symm
  | fail index =>
    obtain ⟨execution, -, rfl⟩ := Option.map_eq_some_iff.mp hstep
    rw [hnext.conserved_iff, hworld.conserved_iff]
    exact (and_iff_left trivial).symm
  | finish index =>
    obtain ⟨flusher, -, rfl⟩ := Option.map_eq_some_iff.mp hstep
    rw [hnext.conserved_iff, hworld.conserved_iff]
    exact (and_iff_left trivial).symm

/-- Every flow that was accepted is in one place: it waits, its pipeline is being executed, it was
added to the stream once, or its failure was logged. -/
theorem Conserved.count_eq_one (hworld : world.Conserved) {number : ℕ}
    (haccepted : number < world.accepted.length) :
    world.queuedNumbers.count number + world.executingNumbers.count number +
      world.pushedNumbers.count number + world.reportedNumbers.count number = 1 := by
  have hcount := hworld.accounted.count_eq number
  rw [List.count_eq_one_of_mem List.nodup_range (List.mem_range.mpr haccepted)] at hcount
  simpa only [List.count_append] using hcount

theorem tracked_initial : CollectorWorld.initial.Tracked :=
  ⟨⟨Nat.zero_le _, List.nil_suffix, fun _ hmem ↦ absurd hmem List.not_mem_nil,
    fun _ hmem ↦ absurd hmem List.not_mem_nil, fun _ hmem ↦ absurd hmem List.not_mem_nil⟩,
    List.Perm.nil⟩

end CollectorWorld

/-! ### Runs -/

/-- A run of the collector conserves the flows that it accepts exactly when every step of it leaves
them alone: no flush drops what it takes for want of a client, no pipeline is executed after one
whose batch was taken later, and `stop` cancels no execution of the flush loop. -/
theorem conserved_iff_undisturbed {events : List CollectorEvent} {finish : CollectorWorld}
    (hrun : run (collectorStep redis batchSize) CollectorWorld.initial events = some finish) :
    finish.Conserved ↔ EveryStep (collectorStep redis batchSize) CollectorWorld.initial events
      (CollectorWorld.Undisturbed redis) :=
  property_iff_everyStep CollectorWorld.Tracked CollectorWorld.Conserved
    (fun _ _ _ hworld hstep ↦ hworld.step hstep)
    (fun _ _ _ hworld hstep ↦ hworld.conserved_step_iff hstep) CollectorWorld.tracked_initial
    (CollectorWorld.tracked_initial.conserved_iff.mpr ⟨rfl, List.Pairwise.nil⟩) hrun

/-- A v5 packet with one record. -/
def singleFlow : Datagram where
  data := [0, 5, 0, 1] ++ List.replicate 20 0 ++ [198, 51, 100, 1, 198, 51, 100, 2] ++
    List.replicate 40 0
  exporterIp := "192.0.2.1"
  now := 0

/-- The flow loop takes a flow and pushes it. -/
def pushedRun : List CollectorEvent := [.datagram singleFlow, .wakeLoop, .apply 0, .finish 0]

/-- `stop` cancels the flush loop while its pipeline is executed, and flushes once more. -/
def cancelledRun : List CollectorEvent := [.datagram singleFlow, .wakeLoop, .cancel, .stopFlush]

/-- Two flush tasks execute their pipelines, and the second is executed first. -/
def overtakenRun : List CollectorEvent :=
  [.datagram singleFlow, .startTask, .datagram singleFlow, .startTask, .apply 1, .apply 0]

/-- The flow of that run is conserved: it is in the stream once. -/
theorem conserved_pushedRun :
    ∃ finish, run (collectorStep true 1000) CollectorWorld.initial pushedRun = some finish ∧
      finish.pushedNumbers = [0] ∧ finish.Conserved := by
  obtain ⟨finish, hrun⟩ := Option.isSome_iff_exists.mp (by decide :
    (run (collectorStep true 1000) CollectorWorld.initial pushedRun).isSome = true)
  have hpushed : (run (collectorStep true 1000) CollectorWorld.initial pushedRun).map
      CollectorWorld.pushedNumbers = some [0] := by decide
  rw [hrun] at hpushed
  have hempty : (run (collectorStep true 1000) CollectorWorld.initial
      [.datagram singleFlow, .wakeLoop]).map CollectorWorld.pushedNumbers = some [] := by
    decide
  have happly : ∀ state, run (collectorStep true 1000) CollectorWorld.initial
      [.datagram singleFlow, .wakeLoop] = some state → state.Undisturbed true (.apply 0) := by
    intro state hstate execution _ pushed hmem
    rw [hstate] at hempty
    have hnumber : pushed.1 ∈ state.pushedNumbers := List.mem_map_of_mem hmem
    rw [Option.some.inj hempty] at hnumber
    exact absurd hnumber List.not_mem_nil
  have hsteps : ∀ before event after, pushedRun = before ++ event :: after → ∀ state,
      run (collectorStep true 1000) CollectorWorld.initial before = some state →
        state.Undisturbed true event :=
    forall_split_cons.mpr ⟨fun _ _ ↦ trivial, forall_split_cons.mpr ⟨fun _ _ ↦ Or.inl rfl,
      forall_split_cons.mpr ⟨happly, forall_split_cons.mpr ⟨fun _ _ ↦ trivial,
        forall_split_nil⟩⟩⟩⟩
  exact ⟨finish, hrun, Option.some.inj hpushed, (conserved_iff_undisturbed hrun).mpr
    fun before event after state hsplit hbefore ↦ hsteps before event after hsplit state hbefore⟩

/-- A flow that the flush loop has under way is lost when `stop` cancels it, and two batches that
are pushed in the other order are out of order in the stream. -/
theorem not_conserved_cancelledRun :
    (∃ finish, run (collectorStep true 1000) CollectorWorld.initial cancelledRun = some finish ∧
      ¬ finish.Conserved) ∧
    ∃ finish, run (collectorStep true 1) CollectorWorld.initial overtakenRun = some finish ∧
      ¬ finish.Conserved := by
  constructor
  · have hplaces : (run (collectorStep true 1000) CollectorWorld.initial cancelledRun).map
        (fun world ↦ (world.accepted.length, world.queuedNumbers ++ world.executingNumbers ++
          world.pushedNumbers ++ world.reportedNumbers)) = some (1, []) := by decide
    obtain ⟨finish, hrun, hplaces⟩ := Option.map_eq_some_iff.mp hplaces
    obtain ⟨haccepted, hnowhere⟩ := Prod.mk.inj hplaces
    refine ⟨finish, hrun, fun hconserved ↦ ?_⟩
    have haccounted := hconserved.accounted.length_eq
    rw [haccepted, hnowhere] at haccounted
    exact absurd haccounted (by decide)
  · have hpushed : (run (collectorStep true 1) CollectorWorld.initial overtakenRun).map
        CollectorWorld.pushedNumbers = some [1, 0] := by decide
    obtain ⟨finish, hrun, hpushed⟩ := Option.map_eq_some_iff.mp hpushed
    refine ⟨finish, hrun, fun hconserved ↦ ?_⟩
    have hordered := hconserved.ordered
    rw [hpushed] at hordered
    exact absurd hordered (by decide)

end Lnmp.Flow
