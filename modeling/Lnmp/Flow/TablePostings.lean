import Lnmp.Flow.Conservation
import Lnmp.Foundation.GroupBy

/-!
# Table rows and committed flows

The two rollup tables as ledgers: in every run they hold exactly the postings of the flows
committed (`postFlows_of_run`), so that there is a row for the keys of these flows and for no others.
Batches, the grouping of rows by their primary key and the cast of their addresses leave no trace.
-/

set_option autoImplicit false
set_option relaxedAutoImplicit false

namespace Lnmp.Flow

open Lnmp.Foundation Lnmp.Foundation.Runs Lnmp.Foundation.GroupBy

variable {Inet : Type*} [DecidableEq Inet] (castInet : String → Option Inet)

/-- The counters in `flow_minute_rollups`. -/
def Tables.minuteCounters (tables : Tables Inet) : Dict (RollupKey Inet) FlowCounters :=
  tables.flowMinuteRollups.mapValues RollupRecord.counters

/-- The tables hold exactly these postings. -/
structure Tables.Post (tables : Tables Inet) (flows : List (RollupKey Inet × FlowCounters))
    (interfaces : List (InterfaceKey × InterfaceCounters)) : Prop where
  flows : Ledger.Holds tables.minuteCounters flows
  interfaces : Ledger.Holds tables.flowInterfaceMinuteRollups interfaces

/-- The postings of rows to `flow_minute_rollups`. -/
def rowPostings (rows : List RollupRow) : List (RollupKey Inet × FlowCounters) :=
  regroup (RollupKey.cast castInet) (rows.map fun row ↦ (row.key, row.counters))

variable {castInet} {tables : Tables Inet} {flows : List (RollupKey Inet × FlowCounters)}
  {interfaces : List (InterfaceKey × InterfaceCounters)}

theorem get?_minuteCounters_upsertRollup {row : RollupRow} {key : RollupKey Inet}
    (hcast : row.key.cast castInet = some key) (other : RollupKey Inet) :
    (upsertRollup castInet tables row).minuteCounters.get? other =
      (Ledger.credit tables.minuteCounters key row.counters).get? other := by
  rw [Tables.minuteCounters, Tables.minuteCounters, Ledger.get?_credit, upsertRollup, hcast]
  dsimp only
  rw [Dict.get?_mapValues, Dict.get?_mapValues, Dict.get?_mapValues, Dict.get?_set]
  split_ifs with hsame
  · cases tables.flowMinuteRollups.get? key <;> rfl
  · rfl

theorem Tables.Post.upsertRollup (hpost : tables.Post flows interfaces) (row : RollupRow) :
    (Flow.upsertRollup castInet tables row).Post (flows ++ rowPostings castInet [row])
      interfaces := by
  cases hcast : row.key.cast castInet with
  | none =>
    have hrow : rowPostings castInet [row] = [] := by
      simp [rowPostings, regroup, hcast]
    rw [hrow, List.append_nil, Flow.upsertRollup, hcast]
    exact hpost
  | some key =>
    have hrow : rowPostings castInet [row] = [(key, row.counters)] := by
      simp [rowPostings, regroup, hcast]
    rw [hrow]
    refine ⟨fun other ↦ ?_, ?_⟩
    · rw [get?_minuteCounters_upsertRollup hcast]
      exact hpost.flows.credit key row.counters other
    · rw [Flow.upsertRollup, hcast]
      exact hpost.interfaces

theorem Tables.Post.foldl_upsertRollup (rows : List RollupRow)
    (hpost : tables.Post flows interfaces) :
    (rows.foldl (Flow.upsertRollup castInet) tables).Post (flows ++ rowPostings castInet rows)
      interfaces := by
  induction rows generalizing tables flows with
  | nil => exact (List.append_nil flows).symm ▸ hpost
  | cons row rest ih =>
    have hrow : (Flow.upsertRollup castInet tables row).Post (flows ++ rowPostings castInet [row])
        interfaces := hpost.upsertRollup row
    have hrest := ih hrow
    rwa [List.append_assoc, rowPostings, rowPostings, ← regroup_append, ← List.map_append] at hrest

omit [DecidableEq Inet] in
theorem Tables.Post.foldl_upsertInterface [DecidableEq Inet]
    (rows : List (InterfaceKey × InterfaceCounters)) (hpost : tables.Post flows interfaces) :
    (rows.foldl upsertInterface tables).Post flows (interfaces ++ rows) := by
  induction rows generalizing tables interfaces with
  | nil => exact (List.append_nil interfaces).symm ▸ hpost
  | cons row rest ih =>
    have hrow : (upsertInterface tables row).Post flows (interfaces ++ [row]) :=
      ⟨hpost.flows, hpost.interfaces.credit row.1 row.2⟩
    have hrest := ih hrow
    rwa [List.append_assoc, List.singleton_append] at hrest

theorem Tables.Post.applyBatches (batches : List Batch) (hpost : tables.Post flows interfaces) :
    (Flow.applyBatches castInet tables batches).Post
      (flows ++ rowPostings castInet (batches.flatMap Batch.rollupRows))
      (interfaces ++ batches.flatMap Batch.interfaceRows) := by
  unfold Flow.applyBatches
  induction batches generalizing tables flows interfaces with
  | nil =>
    rw [List.flatMap_nil, List.flatMap_nil, List.append_nil]
    exact (List.append_nil flows).symm ▸ hpost
  | cons batch rest ih =>
    rw [List.foldl_cons, List.flatMap_cons, List.flatMap_cons, rowPostings, List.map_append,
      regroup_append, ← rowPostings, ← rowPostings, ← List.append_assoc, ← List.append_assoc]
    cases batch with
    | rollups rows =>
      rw [Batch.interfaceRows, List.append_nil]
      exact ih (hpost.foldl_upsertRollup rows)
    | interfaces rows =>
      have hnone : rowPostings castInet (Batch.rollupRows (.interfaces rows)) = [] := rfl
      rw [hnone, List.append_nil]
      exact ih (hpost.foldl_upsertInterface rows)

/-! ### Flows -/

variable (castInet)

/-- The key of a flow in `flow_minute_rollups`. -/
def tableKey (key : FlowKey) : Option (RollupKey Inet) := key.primaryKey.cast castInet

/-- The postings of flows to `flow_minute_rollups`. -/
def flowPostings (flows : List ResolvedFlow) : List (RollupKey Inet × FlowCounters) :=
  regroup (tableKey castInet) (flows.map ResolvedFlow.posting)

variable {castInet}

omit [DecidableEq Inet] in
theorem rowPostings_rollupRows (snapshot : Dict FlowKey FlowCounters) :
    rowPostings castInet (rollupRows snapshot) = regroup (RollupKey.cast castInet)
      ((Ledger.collect FlowKey.primaryKey RollupRow.ofEntry RollupRow.merge snapshot).mapValues
        RollupRow.counters).entries := by
  rw [rowPostings, rollupRows, Dict.values, List.map_map, Dict.mapValues, Dict.mapEntries]
  refine congrArg _ (List.map_congr_left fun entry hentry ↦ ?_)
  have hget := (Dict.get?_eq_some_iff _ entry.1 entry.2).mpr hentry
  rw [← Ledger.groupOf_collect RollupRow.key_ofEntry RollupRow.key_merge snapshot hget]
  rfl

/-- The rows of a snapshot have the balances of the flows that it holds. -/
theorem get?_post_rowPostings {snapshot : Dict FlowKey FlowCounters} {flushed : List ResolvedFlow}
    (hholds : Ledger.Holds snapshot (flushed.map ResolvedFlow.posting)) (key : RollupKey Inet) :
    (Ledger.post Dict.empty (rowPostings castInet (rollupRows snapshot))).get? key =
      (Ledger.post Dict.empty (flowPostings castInet flushed)).get? key := by
  have hrows : Ledger.Holds ((Ledger.collect FlowKey.primaryKey RollupRow.ofEntry RollupRow.merge
      snapshot).mapValues RollupRow.counters)
      (regroup (fun textKey ↦ some textKey.primaryKey) snapshot.entries) :=
    holds_mapValues_collect (fun _ _ ↦ rfl) (fun _ _ _ ↦ rfl) snapshot
  rw [rowPostings_rollupRows]
  refine (get?_totals_entries hrows _ key).trans ?_
  rw [totals, regroup_regroup]
  exact get?_totals_entries hholds (tableKey castInet) key

theorem get?_post_interfaceRows {snapshot : Dict InterfaceKey InterfaceCounters}
    {postings : List (InterfaceKey × InterfaceCounters)}
    (hholds : Ledger.Holds snapshot postings) (key : InterfaceKey) :
    (Ledger.post Dict.empty (interfaceRows snapshot)).get? key =
      (Ledger.post Dict.empty postings).get? key := by
  have hrows : interfaceRows snapshot = (Ledger.post Dict.empty snapshot.entries).entries := rfl
  rw [hrows, get?_post_entries, get?_post_entries, hholds key]

/-- The tables hold the postings of the flows. -/
def Tables.PostFlows (castInet : String → Option Inet) (tables : Tables Inet)
    (flows : List ResolvedFlow) : Prop :=
  tables.Post (flowPostings castInet flows) (flows.flatMap ResolvedFlow.interfacePostings)

theorem Tables.PostFlows.commit {records : List ResolvedFlow} {flushed : List Record}
    {snapshot : Snapshot} (hpost : tables.PostFlows castInet records)
    (hsnapshot : snapshot.Hold flushed) :
    (Flow.applyBatches castInet tables snapshot.batches).PostFlows castInet
      (records ++ flowsOf flushed) := by
  have hrows : (Flow.applyBatches castInet tables snapshot.batches).Post _ _ :=
    hpost.applyBatches snapshot.batches
  rw [Snapshot.batches, flatMap_rollupRows_batchesOf, flatMap_interfaceRows_batchesOf] at hrows
  rw [Tables.PostFlows, flowPostings, List.map_append, regroup_append, List.flatMap_append]
  exact ⟨holds_append_congr hrows.flows (get?_post_rowPostings hsnapshot.flows),
    holds_append_congr hrows.interfaces (get?_post_interfaceRows hsnapshot.interfaces)⟩

variable {world next : World Inet}

omit [DecidableEq Inet] in
/-- Receiving messages moves no table and no committed record. -/
theorem tables_receive (clock : MessageId → PythonText.PyFloat)
    (messages : List (MessageId × Fields)) (world : World Inet) :
    (messages.foldl (World.receiveMessage clock) world).tables = world.tables ∧
      (messages.foldl (World.receiveMessage clock) world).history.durable =
        world.history.durable := by
  induction messages generalizing world with
  | nil => exact ⟨rfl, rfl⟩
  | cons message rest ih => exact ih (world.receiveMessage clock message)

omit [DecidableEq Inet] in
theorem tables_beginFlush (world : World Inet) :
    world.beginFlush.tables = world.tables ∧
      world.beginFlush.history.durable = world.history.durable := by
  unfold World.beginFlush
  split_ifs <;> exact ⟨rfl, rfl⟩

theorem postFlows_step {event : Event} (hworld : Consistent castInet world)
    (hpost : world.tables.PostFlows castInet (flowsOf world.history.durable))
    (hstep : step castInet world event = some next) :
    next.tables.PostFlows castInet (flowsOf next.history.durable) := by
  have hflush := hworld.flush
  cases transition_of_step castInet hstep with
  | commit hpoint =>
    rw [hpoint] at hflush
    obtain ⟨hbatches, -, -, -, hhold⟩ := hflush
    rw [List.append_nil] at hbatches
    rw [hbatches, flowsOf_append]
    exact hpost.commit hhold
  | receive _ _ =>
    obtain ⟨htables, hdurable⟩ := tables_receive _ _ { world with reply := none }
    rw [htables, hdurable]
    exact hpost
  | beginFlush _ =>
    rw [(tables_beginFlush world).1, (tables_beginFlush world).2]
    exact hpost
  | _ => exact hpost

/-- The tables hold the postings of the committed flows in every state that is reached. -/
theorem postFlows_of_run {events : List Event}
    (hrun : run (step castInet) (World.initial Inet) events = some world) :
    world.tables.PostFlows castInet (flowsOf world.history.durable) := by
  have hinvariant : Consistent castInet world ∧
      world.tables.PostFlows castInet (flowsOf world.history.durable) := by
    refine invariant_of_forall_mem (fun reached ↦ Consistent castInet reached ∧
      reached.tables.PostFlows castInet (flowsOf reached.history.durable)) ?_
      ⟨consistent_initial castInet, fun _ ↦ rfl, fun _ ↦ rfl⟩ (fun _ _ ↦ trivial) hrun
    exact fun _ _ _ hreached _ hstep ↦
      ⟨consistent_step hreached.1 hstep, postFlows_step hreached.1 hreached.2 hstep⟩
  exact hinvariant.2

end Lnmp.Flow
