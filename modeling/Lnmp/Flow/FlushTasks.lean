import Lnmp.Flow.Collector
import Lnmp.Foundation.Runs

/-!
# The flush tasks of the collector

`monitoring/flow/collector.py` with the awaits of its flushes. A `CollectorWorld` is a started
`FlowCollector` with the flushes that are suspended at `await pipe.execute()`: of the flush loop, of
the tasks that `handle_packet` creates when the queue has reached the batch size, and of `stop`. The
lock of a flush covers the swap of the queue only, in which nothing is awaited, so that a flush runs
from its start to the execution of its pipeline in one step, and any number of executions can be
under way. An execution either applies all its `XADD`s and returns, or raises with nothing applied.

`stop` cancels the flush loop wherever it is suspended. A cancellation is no `Exception`, so it
passes the error branch of the flush by.

`exists_run_pipeline` connects this to the coarser `Pipeline`, whose flushes are not interrupted:
all that a pipeline does, a collector with a Redis client can do.

Flows are numbered in the order in which they are accepted. The numbers in the stream, `accepted`
and `lost` are read by no step: they say which flows have been accepted, and which batches were
neither pushed nor reported.
-/

set_option autoImplicit false
set_option relaxedAutoImplicit false

namespace Lnmp.Flow

open Lnmp.Foundation Lnmp.Foundation.Runs

/-! ### Batches -/

/-- The flows that a flush took out of the queue, and how many were accepted before them. -/
structure FlushBatch where
  first : ℕ
  flows : List FlowDict
  nonempty : flows ≠ []

/-- The numbers of the flows of a batch. -/
def FlushBatch.numbers (batch : FlushBatch) : List ℕ :=
  List.range' batch.first batch.flows.length

/-- Who awaits a flush: the flush loop, a task of its own, or `stop`. -/
inductive Flusher
  | loop
  | task
  | stop
  deriving DecidableEq

/-- A flush that awaits the execution of its pipeline. -/
structure Execution where
  flusher : Flusher
  batch : FlushBatch
  entries : List Fields
  encoded : batch.flows.mapM streamEntry = some entries

/-- Where the flush loop is. -/
inductive LoopPoint
  | sleeping
  | flushing
  | cancelled
  deriving DecidableEq

/-! ### The collector and its tasks -/

/-- The collector, the flush tasks that have not started, the executions under way, those that have
been applied and have not returned, the entries added to the stream, and the batches whose failure
was logged. -/
structure CollectorWorld where
  collector : Collector
  scheduled : ℕ
  loop : LoopPoint
  executing : List Execution
  returning : List Flusher
  stream : List (ℕ × Fields)
  reported : List FlushBatch
  accepted : List FlowDict
  lost : List FlushBatch

/-- A collector that has just been started. -/
def CollectorWorld.initial : CollectorWorld where
  collector := Collector.initial
  scheduled := 0
  loop := .sleeping
  executing := []
  returning := []
  stream := []
  reported := []
  accepted := []
  lost := []

/-- What can happen next: a datagram arrives; a task that was created starts, the loop wakes up, or
`stop` flushes; an execution applies its entries, raises, or returns; `stop` cancels the loop. -/
inductive CollectorEvent
  | datagram (datagram : Datagram)
  | startTask
  | wakeLoop
  | stopFlush
  | apply (index : ℕ)
  | fail (index : ℕ)
  | finish (index : ℕ)
  | cancel

/-- `handle_packet`, which creates a flush task when the queue has reached the batch size. -/
def CollectorWorld.handlePacket (batchSize : ℕ) (world : CollectorWorld) (datagram : Datagram) :
    CollectorWorld :=
  let (collector, flows) := world.collector.handlePacket datagram
  { world with
    collector := collector
    scheduled :=
      if flows ≠ [] ∧ batchSize ≤ collector.queue.length then world.scheduled + 1
      else world.scheduled
    accepted := world.accepted ++ flows.map DecodedFlow.flow }

/-- `flush` up to the execution of its pipeline. -/
def CollectorWorld.flush (redis : Bool) (flusher : Flusher) (world : CollectorWorld) :
    CollectorWorld :=
  if hqueue : world.collector.queue = [] then world
  else
    let toFlush : FlushBatch :=
      { first := world.accepted.length - world.collector.queue.length
        flows := world.collector.queue
        nonempty := hqueue }
    let swapped := { world with collector := { world.collector with queue := [] } }
    if redis then
      match hentries : toFlush.flows.mapM streamEntry with
      | none => { swapped with reported := world.reported ++ [toFlush] }
      | some entries =>
        { swapped with
          loop := if flusher = .loop then .flushing else world.loop
          executing := world.executing ++ [⟨flusher, toFlush, entries, hentries⟩] }
    else { swapped with lost := world.lost ++ [toFlush] }

/-- The loop after a flush has returned: it sleeps again when the flush was its own. -/
def CollectorWorld.afterFlush (world : CollectorWorld) (flusher : Flusher) : LoopPoint :=
  if flusher = .loop then .sleeping else world.loop

/-- An execution has applied its entries, and has not returned. -/
def CollectorWorld.applied (world : CollectorWorld) (index : ℕ) (execution : Execution) :
    CollectorWorld :=
  { world with
    executing := world.executing.eraseIdx index
    returning := world.returning ++ [execution.flusher]
    stream := world.stream ++ execution.batch.numbers.zip execution.entries }

/-- An execution has raised, and the error branch has logged its batch. -/
def CollectorWorld.failed (world : CollectorWorld) (index : ℕ) (execution : Execution) :
    CollectorWorld :=
  { world with
    executing := world.executing.eraseIdx index
    loop := world.afterFlush execution.flusher
    reported := world.reported ++ [execution.batch] }

/-- The flush loop has been cancelled: what it has under way ends, behind the error branch. -/
def CollectorWorld.cancelled (world : CollectorWorld) : CollectorWorld :=
  { world with
    loop := .cancelled
    executing := world.executing.filter (·.flusher ≠ .loop)
    returning := world.returning.filter (· ≠ .loop)
    lost := world.lost ++ (world.executing.filter (·.flusher = .loop)).map Execution.batch }

/-- One step of the collector, `none` when the event cannot happen. -/
def collectorStep (redis : Bool) (batchSize : ℕ) (world : CollectorWorld) :
    CollectorEvent → Option CollectorWorld
  | .datagram datagram => some (world.handlePacket batchSize datagram)
  | .startTask =>
    if world.scheduled = 0 then none
    else some ({ world with scheduled := world.scheduled - 1 }.flush redis .task)
  | .wakeLoop => if world.loop = .sleeping then some (world.flush redis .loop) else none
  | .stopFlush => if world.loop = .cancelled then some (world.flush redis .stop) else none
  | .apply index => world.executing[index]?.map (world.applied index)
  | .fail index => world.executing[index]?.map (world.failed index)
  | .finish index =>
    world.returning[index]?.map fun flusher ↦
      { world with
        returning := world.returning.eraseIdx index
        loop := world.afterFlush flusher }
  | .cancel => some world.cancelled

/-! ### What a step does -/

/-- What a datagram does: some flows are accepted and wait behind the others. Assumes: the queue is
within its bound. -/
theorem CollectorWorld.exists_handlePacket (world : CollectorWorld) (batchSize : ℕ)
    (datagram : Datagram) (hbound : world.collector.queue.length ≤ maxQueueSize) :
    ∃ collector scheduled flows, world.handlePacket batchSize datagram =
        { world with
          collector := collector
          scheduled := scheduled
          accepted := world.accepted ++ flows } ∧
      collector.queue = world.collector.queue ++ flows ∧
        collector.queue.length ≤ maxQueueSize :=
  ⟨_, _, _, rfl, world.collector.queue_handlePacket datagram,
    world.collector.length_queue_handlePacket datagram hbound⟩

/-- The flows of the queue, as a batch. -/
structure CollectorWorld.Takes (world : CollectorWorld) (toFlush : FlushBatch) : Prop where
  first : toFlush.first = world.accepted.length - world.collector.queue.length
  flows : toFlush.flows = world.collector.queue

/-- What a flush does: nothing, or it takes the whole queue, and loses it without a client, reports
it when it cannot be encoded, or executes its pipeline. -/
inductive Flushes (redis : Bool) (flusher : Flusher) (world : CollectorWorld) :
    CollectorWorld → Prop
  | empty (hqueue : world.collector.queue = []) : Flushes redis flusher world world
  | noClient {toFlush : FlushBatch} (htakes : world.Takes toFlush) (hredis : redis = false) :
    Flushes redis flusher world
      { world with
        collector := { world.collector with queue := [] }
        lost := world.lost ++ [toFlush] }
  | unencodable {toFlush : FlushBatch} (htakes : world.Takes toFlush) (hredis : redis = true)
      (hentries : world.collector.queue.mapM streamEntry = none) :
    Flushes redis flusher world
      { world with
        collector := { world.collector with queue := [] }
        reported := world.reported ++ [toFlush] }
  | executes {execution : Execution} (htakes : world.Takes execution.batch) (hredis : redis = true)
      (hflusher : execution.flusher = flusher) :
    Flushes redis flusher world
      { world with
        collector := { world.collector with queue := [] }
        loop := if flusher = .loop then .flushing else world.loop
        executing := world.executing ++ [execution] }

theorem flushes_flush (redis : Bool) (flusher : Flusher) (world : CollectorWorld) :
    Flushes redis flusher world (world.flush redis flusher) := by
  unfold CollectorWorld.flush
  split
  · rename_i hqueue
    exact .empty hqueue
  · rename_i hqueue
    cases redis with
    | false => exact .noClient ⟨rfl, rfl⟩ rfl
    | true =>
      dsimp only
      rw [if_pos rfl]
      split
      · rename_i hentries
        exact .unencodable ⟨rfl, rfl⟩ rfl hentries
      · exact .executes ⟨rfl, rfl⟩ rfl rfl

/-! ### Flushes that are not interrupted -/

/-- A collector without its tasks: what its flushes have added to the stream. -/
def CollectorWorld.pipeline (world : CollectorWorld) : Pipeline where
  collector := world.collector
  pushed := world.stream.map Prod.snd

/-- The flush loop sleeps, and no execution is under way. -/
structure CollectorWorld.Quiet (world : CollectorWorld) : Prop where
  loop : world.loop = .sleeping
  executing : world.executing = []
  returning : world.returning = []

/-- The numbers and the entries of an execution are as many. -/
theorem Execution.length_numbers (execution : Execution) :
    execution.batch.numbers.length = execution.entries.length := by
  rw [FlushBatch.numbers, List.length_range', (forall₂_of_mapM execution.encoded).length_eq]

/-- The only execution under way is applied and returns to the loop. -/
theorem run_apply_finish {world : CollectorWorld} {execution : Execution} (redis : Bool)
    (batchSize : ℕ) (hexecuting : world.executing = [execution]) (hreturning : world.returning = [])
    (hflusher : execution.flusher = .loop) :
    run (collectorStep redis batchSize) world [.apply 0, .finish 0] =
      some { world with
        loop := .sleeping
        executing := []
        returning := []
        stream := world.stream ++ execution.batch.numbers.zip execution.entries } := by
  simp [collectorStep, CollectorWorld.applied, CollectorWorld.afterFlush, hexecuting, hreturning,
    hflusher]

/-- The flush loop of a quiet collector does what a flush of its pipeline does. -/
theorem CollectorWorld.Quiet.exists_run_flush {world : CollectorWorld} (hquiet : world.Quiet)
    (batchSize : ℕ) : ∃ events next, run (collectorStep true batchSize) world events = some next ∧
      next.Quiet ∧ next.pipeline = world.pipeline.flush := by
  have hstep : collectorStep true batchSize world .wakeLoop = some (world.flush true .loop) :=
    if_pos hquiet.loop
  have hflush := flushes_flush true .loop world
  generalize world.flush true .loop = flushed at hstep hflush
  have hwake : run (collectorStep true batchSize) world [.wakeLoop] = some flushed := by
    rw [run_cons, hstep, Option.bind_some, run_nil]
  cases hflush with
  | empty hqueue =>
    refine ⟨[], world, rfl, hquiet, ?_⟩
    obtain ⟨⟨v9Parser, ipfixParser, queue⟩, _⟩ := world
    obtain rfl : queue = [] := hqueue
    exact congrArg (Pipeline.mk _) (List.append_nil _).symm
  | noClient _ hredis => exact absurd hredis.symm Bool.false_ne_true
  | unencodable _ _ hentries =>
    refine ⟨_, _, hwake, ⟨hquiet.loop, hquiet.executing, hquiet.returning⟩, ?_⟩
    simp only [CollectorWorld.pipeline, Pipeline.flush, hentries, Option.getD_none, List.append_nil]
  | @executes execution htakes _ hflusher =>
    have hentries : world.collector.queue.mapM streamEntry = some execution.entries :=
      htakes.flows ▸ execution.encoded
    have hsnd : (execution.batch.numbers.zip execution.entries).map Prod.snd = execution.entries :=
      List.map_snd_zip execution.length_numbers.ge
    have hfinish := run_append_eq_some.mpr ⟨_, hwake, run_apply_finish true batchSize
      (by rw [hquiet.executing, List.nil_append]) hquiet.returning hflusher⟩
    refine ⟨_, _, hfinish, ⟨rfl, rfl, rfl⟩, ?_⟩
    simp only [CollectorWorld.pipeline, Pipeline.flush, hentries, Option.getD_some,
      List.map_append, hsnd]

/-- All that a pipeline does, a collector with a client can do. -/
theorem exists_run_pipeline (batchSize : ℕ) (events : List PipelineEvent) :
    ∃ steps world, run (collectorStep true batchSize) CollectorWorld.initial steps = some world ∧
      world.Quiet ∧ world.pipeline = events.foldl Pipeline.next Pipeline.initial := by
  induction events using List.reverseRecOn with
  | nil => exact ⟨[], _, rfl, ⟨rfl, rfl, rfl⟩, rfl⟩
  | append_singleton events event ih =>
    obtain ⟨steps, world, hrun, hquiet, hpipeline⟩ := ih
    rw [List.foldl_concat, ← hpipeline]
    cases event with
    | datagram datagram =>
      exact ⟨steps ++ [.datagram datagram], world.handlePacket batchSize datagram,
        run_append_eq_some.mpr ⟨_, hrun, rfl⟩, ⟨hquiet.loop, hquiet.executing, hquiet.returning⟩,
        rfl⟩
    | flush =>
      obtain ⟨more, next, hmore, hnext, hflush⟩ := hquiet.exists_run_flush batchSize
      exact ⟨steps ++ more, next, run_append_eq_some.mpr ⟨_, hrun, hmore⟩, hnext, hflush⟩

end Lnmp.Flow
