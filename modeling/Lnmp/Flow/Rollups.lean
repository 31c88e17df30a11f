import Lnmp.Flow.Accumulators

/-!
# Rollup rows and tables

`monitoring/flow/aggregator.py`, the rows that `flush_to_timescaledb` builds from a snapshot and
what its two `INSERT .. ON CONFLICT DO UPDATE` statements do to the tables
`flow_minute_rollups` and `flow_interface_minute_rollups`.

The accumulator is keyed by endpoints and by the text of the addresses, the table by neither: rows
are grouped by the primary key with addresses as text, and the database casts the text to its
address type, so that two rows of one batch can still meet in one table row. The cast is the
database's own and a parameter here.

`committed_applyBatches` is the result used by the rest of the development: applying all batches of
a snapshot adds to every table row exactly the total of the accumulator entries that project to its
key.
-/

set_option autoImplicit false
set_option relaxedAutoImplicit false

namespace Lnmp.Flow

open Lnmp.Foundation

/-! ### Slices -/

/-- The slices `items[i : i + size]` for `i` in `range(0, len(items), size)`. -/
def slices {Item : Type*} (size : ℕ) (items : List Item) : List (List Item) :=
  (List.range ((items.length + size - 1) / size)).map fun index ↦
    (items.drop (index * size)).take size

/-- The slices of a list make up the list. -/
theorem flatten_slices {Item : Type*} {size : ℕ} (hsize : 0 < size) (items : List Item) :
    (slices size items).flatten = items := by
  have hfront : ∀ count : ℕ, ((List.range count).map fun index ↦
      (items.drop (index * size)).take size).flatten = items.take (count * size) := by
    intro count
    induction count with
    | zero => simp
    | succ count ih =>
      rw [List.range_succ, List.map_append, List.flatten_append, ih, Nat.succ_mul, List.take_add]
      simp
  have hcover : items.length ≤ (items.length + size - 1) / size * size := by
    have hdiv := Nat.div_add_mod (items.length + size - 1) size
    have hmod := Nat.mod_lt (items.length + size - 1) hsize
    rw [Nat.mul_comm] at hdiv
    omega
  rw [slices, hfront, List.take_of_length_le hcover]

/-! ### Keys and rows -/

/-- The primary key of `flow_minute_rollups`, over the type of its two addresses. -/
structure RollupKey (Address : Type*) where
  bucket : ℤ
  exporterId : UUID
  srcIp : Address
  dstIp : Address
  protocol : ℤ
  dstPort : ℤ
  deriving DecidableEq

/-- A row to be inserted: its key with addresses as text, its endpoints and its counters. -/
structure RollupRow where
  key : RollupKey String
  srcEndpointId : Option UUID
  dstEndpointId : Option UUID
  counters : FlowCounters

/-- The primary key of an accumulator key, with addresses as text. -/
def FlowKey.primaryKey (key : FlowKey) : RollupKey String where
  bucket := key.bucket
  exporterId := key.exporterId
  srcIp := key.srcIp
  dstIp := key.dstIp
  protocol := key.protocol
  dstPort := key.dstPort

/-- The row that the first entry of a primary key opens. -/
def RollupRow.ofEntry (key : FlowKey) (counters : FlowCounters) : RollupRow where
  key := key.primaryKey
  srcEndpointId := key.srcEndpointId
  dstEndpointId := key.dstEndpointId
  counters := counters

/-- Merge a further entry of the same primary key: counters add up, and an endpoint is taken over
where the row has none. -/
def RollupRow.merge (row : RollupRow) (key : FlowKey) (counters : FlowCounters) : RollupRow where
  key := row.key
  srcEndpointId := row.srcEndpointId <|> key.srcEndpointId
  dstEndpointId := row.dstEndpointId <|> key.dstEndpointId
  counters := row.counters + counters

theorem RollupRow.key_ofEntry (key : FlowKey) (counters : FlowCounters) :
    (RollupRow.ofEntry key counters).key = key.primaryKey := rfl

theorem RollupRow.key_merge (row : RollupRow) (key : FlowKey) (counters : FlowCounters) :
    (row.merge key counters).key = row.key := rfl

/-- The rows of a snapshot of the flow accumulator. -/
def rollupRows (snapshot : Dict FlowKey FlowCounters) : List RollupRow :=
  (Ledger.collect FlowKey.primaryKey RollupRow.ofEntry RollupRow.merge snapshot).values

/-- The rows of a snapshot of the interface accumulator, whose key is the primary key. -/
def interfaceRows (snapshot : Dict InterfaceKey InterfaceCounters) :
    List (InterfaceKey × InterfaceCounters) :=
  (Ledger.collect id (fun _ counters ↦ counters) (fun row _ counters ↦ row + counters)
    snapshot).entries

/-! ### Tables -/

variable {Inet : Type*} [DecidableEq Inet] (castInet : String → Option Inet)

/-- A row of `flow_minute_rollups` besides its key. -/
structure RollupRecord where
  srcEndpointId : Option UUID
  dstEndpointId : Option UUID
  counters : FlowCounters

/-- The two rollup tables. -/
structure Tables (Inet : Type*) where
  flowMinuteRollups : Dict (RollupKey Inet) RollupRecord
  flowInterfaceMinuteRollups : Dict InterfaceKey InterfaceCounters

/-- Tables without rows. -/
def Tables.empty : Tables Inet where
  flowMinuteRollups := Dict.empty
  flowInterfaceMinuteRollups := Dict.empty

/-- The key with its addresses cast to the database's address type. -/
def RollupKey.cast (key : RollupKey String) : Option (RollupKey Inet) :=
  (castInet key.srcIp).bind fun srcIp ↦ (castInet key.dstIp).map fun dstIp ↦
    ⟨key.bucket, key.exporterId, srcIp, dstIp, key.protocol, key.dstPort⟩

/-- The values of a signed integer column of so many bits. -/
def fitsSigned (bits : ℕ) (value : ℤ) : Bool := -2 ^ (bits - 1) ≤ value ∧ value < 2 ^ (bits - 1)

/-- The row fits the columns of `flow_minute_rollups`. -/
def RollupRow.fits (row : RollupRow) : Bool :=
  (row.key.cast castInet).isSome ∧ fitsSigned 16 row.key.protocol ∧ fitsSigned 32 row.key.dstPort ∧
    fitsSigned 64 row.counters.bytes ∧ fitsSigned 64 row.counters.packets ∧
      fitsSigned 32 row.counters.flowCount

/-- The row fits the columns of `flow_interface_minute_rollups` and passes its checks. -/
def interfaceRowFits (row : InterfaceKey × InterfaceCounters) : Bool :=
  (fitsSigned 32 row.1.interfaceIdx ∧ 0 < row.1.interfaceIdx) ∧
    (fitsSigned 64 row.2.inBytes ∧ 0 ≤ row.2.inBytes) ∧
    (fitsSigned 64 row.2.outBytes ∧ 0 ≤ row.2.outBytes) ∧
    fitsSigned 64 row.2.inPackets ∧ fitsSigned 64 row.2.outPackets ∧ fitsSigned 32 row.2.flowCount

/-- `insert_sql` for one row. A row whose addresses do not cast changes nothing. -/
def upsertRollup (tables : Tables Inet) (row : RollupRow) : Tables Inet :=
  match row.key.cast castInet with
  | none => tables
  | some key =>
    let record : RollupRecord :=
      match tables.flowMinuteRollups.get? key with
      | none => ⟨row.srcEndpointId, row.dstEndpointId, row.counters⟩
      | some old => ⟨old.srcEndpointId <|> row.srcEndpointId,
          old.dstEndpointId <|> row.dstEndpointId, old.counters + row.counters⟩
    { tables with flowMinuteRollups := tables.flowMinuteRollups.set key record }

/-- `insert_if_sql` for one row. -/
def upsertInterface (tables : Tables Inet) (row : InterfaceKey × InterfaceCounters) :
    Tables Inet :=
  { tables with
    flowInterfaceMinuteRollups :=
      Ledger.credit tables.flowInterfaceMinuteRollups row.1 row.2 }

/-- The rows of one `execute` call. -/
inductive Batch
  | rollups (rows : List RollupRow)
  | interfaces (rows : List (InterfaceKey × InterfaceCounters))

/-- The batches of a flush in the order in which they are executed. -/
def batchesOf (snapshot : Dict FlowKey FlowCounters)
    (ifSnapshot : Dict InterfaceKey InterfaceCounters) : List Batch :=
  (slices 1000 (rollupRows snapshot)).map Batch.rollups ++
    (slices 1000 (interfaceRows ifSnapshot)).map Batch.interfaces

/-- Every row of the batch fits its table. -/
def Batch.fits : Batch → Bool
  | .rollups rows => rows.all (·.fits castInet)
  | .interfaces rows => rows.all interfaceRowFits

/-- One `execute` call: its rows are upserted one after the other. -/
def applyBatch (tables : Tables Inet) : Batch → Tables Inet
  | .rollups rows => rows.foldl (upsertRollup castInet) tables
  | .interfaces rows => rows.foldl upsertInterface tables

/-- The batches of a transaction. -/
def applyBatches (tables : Tables Inet) (batches : List Batch) : Tables Inet :=
  batches.foldl (applyBatch castInet) tables

/-- The counters in the table under a key, zero when there is no row. -/
def Tables.committed (tables : Tables Inet) (key : RollupKey Inet) : FlowCounters :=
  (tables.flowMinuteRollups.get? key).elim 0 RollupRecord.counters

/-- The interface counters in the table under a key, zero when there is no row. -/
def Tables.committedInterface (tables : Tables Inet) (key : InterfaceKey) : InterfaceCounters :=
  (tables.flowInterfaceMinuteRollups.get? key).getD 0

/-! ### What a transaction commits -/

/-- The counters of a text key as seen from a table key: all of them when the text key casts to it,
none otherwise. -/
def rollupWeight (key : RollupKey Inet) (textKey : RollupKey String) :
    FlowCounters →+ FlowCounters :=
  if textKey.cast castInet = some key then AddMonoidHom.id _ else 0

/-- The counters of an interface key as seen from a table key. -/
def interfaceWeight (key other : InterfaceKey) : InterfaceCounters →+ InterfaceCounters :=
  if other = key then AddMonoidHom.id _ else 0

theorem committed_upsertRollup (tables : Tables Inet) (row : RollupRow) (key : RollupKey Inet) :
    (upsertRollup castInet tables row).committed key =
      tables.committed key + rollupWeight castInet key row.key row.counters := by
  unfold upsertRollup rollupWeight Tables.committed
  cases hcast : row.key.cast castInet with
  | none => simp
  | some other =>
    by_cases hkey : key = other
    · subst hkey
      cases hget : tables.flowMinuteRollups.get? key <;> simp [Dict.get?_set, hget]
    · simp [Dict.get?_set, hkey, Ne.symm hkey]

@[simp] theorem committedInterface_upsertRollup (tables : Tables Inet) (row : RollupRow)
    (key : InterfaceKey) :
    (upsertRollup castInet tables row).committedInterface key = tables.committedInterface key := by
  unfold upsertRollup
  split <;> rfl

omit [DecidableEq Inet] in
theorem committedInterface_upsertInterface (tables : Tables Inet)
    (row : InterfaceKey × InterfaceCounters) (key : InterfaceKey) :
    (upsertInterface tables row).committedInterface key =
      tables.committedInterface key + interfaceWeight key row.1 row.2 := by
  unfold upsertInterface Tables.committedInterface interfaceWeight
  rw [Ledger.get?_credit]
  by_cases hkey : key = row.1
  · subst hkey
    cases hget : tables.flowInterfaceMinuteRollups.get? row.1 <;> simp [Ledger.merge]
  · simp [hkey, Ne.symm hkey]

@[simp] theorem committed_upsertInterface (tables : Tables Inet)
    (row : InterfaceKey × InterfaceCounters) (key : RollupKey Inet) :
    (upsertInterface tables row).committed key = tables.committed key := rfl

theorem committed_foldl_upsertRollup (rows : List RollupRow) (tables : Tables Inet)
    (key : RollupKey Inet) :
    (rows.foldl (upsertRollup castInet) tables).committed key =
      tables.committed key +
        (rows.map fun row ↦ rollupWeight castInet key row.key row.counters).sum := by
  induction rows generalizing tables with
  | nil => simp
  | cons row rest ih =>
    rw [List.foldl_cons, ih, committed_upsertRollup, List.map_cons, List.sum_cons, add_assoc]

theorem committedInterface_foldl_upsertRollup (rows : List RollupRow) (tables : Tables Inet)
    (key : InterfaceKey) :
    (rows.foldl (upsertRollup castInet) tables).committedInterface key =
      tables.committedInterface key := by
  induction rows generalizing tables with
  | nil => rfl
  | cons row rest ih => rw [List.foldl_cons, ih, committedInterface_upsertRollup]

theorem committed_foldl_upsertInterface (rows : List (InterfaceKey × InterfaceCounters))
    (tables : Tables Inet) (key : RollupKey Inet) :
    (rows.foldl upsertInterface tables).committed key = tables.committed key := by
  induction rows generalizing tables with
  | nil => rfl
  | cons row rest ih => rw [List.foldl_cons, ih, committed_upsertInterface]

omit [DecidableEq Inet] in
theorem committedInterface_foldl_upsertInterface (rows : List (InterfaceKey × InterfaceCounters))
    (tables : Tables Inet) (key : InterfaceKey) :
    (rows.foldl upsertInterface tables).committedInterface key =
      tables.committedInterface key +
        (rows.map fun row ↦ interfaceWeight key row.1 row.2).sum := by
  induction rows generalizing tables with
  | nil => simp
  | cons row rest ih =>
    rw [List.foldl_cons, ih, committedInterface_upsertInterface, List.map_cons, List.sum_cons,
      add_assoc]

/-- The rows of a list of batches, apart by table. -/
def Batch.rollupRows : Batch → List RollupRow
  | .rollups rows => rows
  | .interfaces _ => []

@[inherit_doc Batch.rollupRows]
def Batch.interfaceRows : Batch → List (InterfaceKey × InterfaceCounters)
  | .rollups _ => []
  | .interfaces rows => rows

/-- A transaction adds to a row of `flow_minute_rollups` the inserted rows that cast to its key. -/
theorem committed_applyBatches_rows (batches : List Batch) (tables : Tables Inet)
    (key : RollupKey Inet) :
    (applyBatches castInet tables batches).committed key =
      tables.committed key + ((batches.flatMap Batch.rollupRows).map fun row ↦
        rollupWeight castInet key row.key row.counters).sum := by
  unfold applyBatches
  induction batches generalizing tables with
  | nil => simp
  | cons batch rest ih =>
    rw [List.foldl_cons, ih, List.flatMap_cons, List.map_append, List.sum_append, ← add_assoc]
    cases batch with
    | rollups rows => simp [applyBatch, Batch.rollupRows, committed_foldl_upsertRollup]
    | interfaces rows => simp [applyBatch, Batch.rollupRows, committed_foldl_upsertInterface]

/-- A transaction adds to a row of `flow_interface_minute_rollups` the inserted rows of its key. -/
theorem committedInterface_applyBatches_rows (batches : List Batch) (tables : Tables Inet)
    (key : InterfaceKey) :
    (applyBatches castInet tables batches).committedInterface key =
      tables.committedInterface key + ((batches.flatMap Batch.interfaceRows).map fun row ↦
        interfaceWeight key row.1 row.2).sum := by
  unfold applyBatches
  induction batches generalizing tables with
  | nil => simp
  | cons batch rest ih =>
    rw [List.foldl_cons, ih, List.flatMap_cons, List.map_append, List.sum_append, ← add_assoc]
    cases batch with
    | rollups rows =>
      simp [applyBatch, Batch.interfaceRows, committedInterface_foldl_upsertRollup]
    | interfaces rows =>
      simp [applyBatch, Batch.interfaceRows, committedInterface_foldl_upsertInterface]

theorem flatMap_rollupRows_batchesOf (snapshot : Dict FlowKey FlowCounters)
    (ifSnapshot : Dict InterfaceKey InterfaceCounters) :
    (batchesOf snapshot ifSnapshot).flatMap Batch.rollupRows = rollupRows snapshot := by
  have hnone : ∀ rows : List (List (InterfaceKey × InterfaceCounters)),
      (rows.map Batch.interfaces).flatMap Batch.rollupRows = [] := by
    intro rows
    induction rows with
    | nil => rfl
    | cons row rest ih => simp [Batch.rollupRows]
  have hall : ∀ rows : List (List RollupRow),
      (rows.map Batch.rollups).flatMap Batch.rollupRows = rows.flatten := by
    intro rows
    rw [List.flatMap_map]
    exact List.flatMap_id
  rw [batchesOf, List.flatMap_append, hnone, hall, flatten_slices (by decide), List.append_nil]

theorem flatMap_interfaceRows_batchesOf (snapshot : Dict FlowKey FlowCounters)
    (ifSnapshot : Dict InterfaceKey InterfaceCounters) :
    (batchesOf snapshot ifSnapshot).flatMap Batch.interfaceRows = interfaceRows ifSnapshot := by
  have hnone : ∀ rows : List (List RollupRow),
      (rows.map Batch.rollups).flatMap Batch.interfaceRows = [] := by
    intro rows
    induction rows with
    | nil => rfl
    | cons row rest ih => simp [Batch.interfaceRows]
  have hall : ∀ rows : List (List (InterfaceKey × InterfaceCounters)),
      (rows.map Batch.interfaces).flatMap Batch.interfaceRows = rows.flatten := by
    intro rows
    rw [List.flatMap_map]
    exact List.flatMap_id
  rw [batchesOf, List.flatMap_append, hnone, hall, flatten_slices (by decide), List.nil_append]

/-- Every entry of a snapshot has a row. -/
theorem exists_mem_rollupRows (snapshot : Dict FlowKey FlowCounters)
    {entry : FlowKey × FlowCounters} (hentry : entry ∈ snapshot.entries) :
    ∃ row ∈ rollupRows snapshot, row.key = entry.1.primaryKey := by
  have hsome : ((Ledger.collect FlowKey.primaryKey RollupRow.ofEntry RollupRow.merge
      snapshot).get? entry.1.primaryKey).isSome := Ledger.isSome_get?_collect snapshot hentry
  obtain ⟨row, hrow⟩ := Option.isSome_iff_exists.mp hsome
  refine ⟨row, List.mem_map.mpr ⟨_, (Dict.get?_eq_some_iff ..).mp hrow, rfl⟩, ?_⟩
  exact Ledger.groupOf_collect RollupRow.key_ofEntry RollupRow.key_merge snapshot hrow

/-- Grouping a snapshot into rows keeps what projects to a table key. -/
theorem sum_rollupRows (snapshot : Dict FlowKey FlowCounters) (key : RollupKey Inet) :
    ((rollupRows snapshot).map fun row ↦ rollupWeight castInet key row.key row.counters).sum =
      snapshot.sumBy fun entry counters ↦ rollupWeight castInet key entry.primaryKey counters := by
  have hcollect : (Ledger.collect FlowKey.primaryKey RollupRow.ofEntry RollupRow.merge
        snapshot).sumBy (fun textKey row ↦ rollupWeight castInet key textKey row.counters) =
      snapshot.sumBy fun entry counters ↦ rollupWeight castInet key entry.primaryKey counters :=
    Ledger.sumBy_collect (fun _ _ ↦ rfl) (fun _ _ _ ↦ rfl) (rollupWeight castInet key) snapshot
  rw [← hcollect, rollupRows, Dict.values, Dict.sumBy, List.map_map]
  refine congrArg List.sum (List.map_congr_left fun entry hentry ↦ ?_)
  have hgroup : entry.2.key = entry.1 := by
    have hget := (Dict.get?_eq_some_iff _ entry.1 entry.2).mpr hentry
    exact Ledger.groupOf_collect RollupRow.key_ofEntry RollupRow.key_merge snapshot hget
  rw [Function.comp_apply, hgroup]

theorem sum_interfaceRows (snapshot : Dict InterfaceKey InterfaceCounters) (key : InterfaceKey) :
    ((interfaceRows snapshot).map fun row ↦ interfaceWeight key row.1 row.2).sum =
      snapshot.sumBy fun entry counters ↦ interfaceWeight key entry counters := by
  have hmerge : ∀ (row : InterfaceCounters) (_ : InterfaceKey) counters,
      id (row + counters) = id row + counters := fun _ _ _ ↦ rfl
  exact Ledger.sumBy_collect (fun _ _ ↦ rfl) hmerge (interfaceWeight key) snapshot

/-- A flush adds to a row of `flow_minute_rollups` the total of the snapshot entries that project
to its key. -/
theorem committed_applyBatches (tables : Tables Inet) (snapshot : Dict FlowKey FlowCounters)
    (ifSnapshot : Dict InterfaceKey InterfaceCounters) (key : RollupKey Inet) :
    (applyBatches castInet tables (batchesOf snapshot ifSnapshot)).committed key =
      tables.committed key + snapshot.sumBy fun entry counters ↦
        rollupWeight castInet key entry.primaryKey counters := by
  rw [committed_applyBatches_rows, flatMap_rollupRows_batchesOf, sum_rollupRows]

/-- A flush adds to a row of `flow_interface_minute_rollups` the total of the snapshot entries of
its key. -/
theorem committedInterface_applyBatches (tables : Tables Inet)
    (snapshot : Dict FlowKey FlowCounters) (ifSnapshot : Dict InterfaceKey InterfaceCounters)
    (key : InterfaceKey) :
    (applyBatches castInet tables (batchesOf snapshot ifSnapshot)).committedInterface key =
      tables.committedInterface key + ifSnapshot.sumBy fun entry counters ↦
        interfaceWeight key entry counters := by
  rw [committedInterface_applyBatches_rows, flatMap_interfaceRows_batchesOf, sum_interfaceRows]

/-! ### Totals of flows -/

/-- The total of the flows whose key casts to a table key. -/
def flowTotal (flows : List ResolvedFlow) (key : RollupKey Inet) : FlowCounters :=
  (flows.map fun flow ↦
    if flow.key.primaryKey.cast castInet = some key then flow.counters else 0).sum

/-- The total of what flows contribute to an interface. -/
def interfaceTotal (flows : List ResolvedFlow) (key : InterfaceKey) : InterfaceCounters :=
  (flows.map (·.interfaceShare key)).sum

/-- The total of the accumulator entries that project to a table key. -/
def heldTotal (accumulator : Dict FlowKey FlowCounters) (key : RollupKey Inet) : FlowCounters :=
  accumulator.sumBy fun entry counters ↦
    if entry.primaryKey.cast castInet = some key then counters else 0

theorem flowTotal_append (first second : List ResolvedFlow) (key : RollupKey Inet) :
    flowTotal castInet (first ++ second) key =
      flowTotal castInet first key + flowTotal castInet second key := by
  simp [flowTotal]

theorem interfaceTotal_append (first second : List ResolvedFlow) (key : InterfaceKey) :
    interfaceTotal (first ++ second) key =
      interfaceTotal first key + interfaceTotal second key := by
  simp [interfaceTotal]

theorem rollupWeight_apply (key : RollupKey Inet) (textKey : RollupKey String)
    (counters : FlowCounters) :
    rollupWeight castInet key textKey counters =
      if textKey.cast castInet = some key then counters else 0 := by
  unfold rollupWeight
  split <;> rfl

/-- An accumulator that holds the postings of some flows holds their total under every key. -/
theorem heldTotal_eq {accumulator : Dict FlowKey FlowCounters} {flows : List ResolvedFlow}
    (hholds : Ledger.Holds accumulator (flows.map ResolvedFlow.posting)) (key : RollupKey Inet) :
    heldTotal castInet accumulator key = flowTotal castInet flows key := by
  have hsum := hholds.sumBy_eq fun entry ↦ rollupWeight castInet key entry.primaryKey
  simp only [rollupWeight_apply, List.map_map] at hsum
  exact hsum

/-- The interface postings of a flow add up to what it contributes to an interface. -/
theorem sum_interfacePostings (flow : ResolvedFlow) (key : InterfaceKey) :
    (flow.interfacePostings.map fun posting ↦ interfaceWeight key posting.1 posting.2).sum =
      flow.interfaceShare key := by
  have hnodup : flow.interfaceKeys.Nodup := by
    unfold ResolvedFlow.interfaceKeys
    split
    · exact List.nodup_nil
    · refine (List.nodup_dedup _).map fun first second hsame ↦ ?_
      simpa [ResolvedFlow.interfaceKey] using hsame
  have hweight : ∀ keys : List InterfaceKey, keys.Nodup →
      (keys.map fun other ↦ interfaceWeight key other (flow.interfaceShare other)).sum =
        if key ∈ keys then flow.interfaceShare key else 0 := by
    intro keys
    induction keys with
    | nil => simp
    | cons other rest ih =>
      intro hkeys
      rw [List.nodup_cons] at hkeys
      rw [List.map_cons, List.sum_cons, ih hkeys.2]
      by_cases hsame : other = key
      · subst hsame
        simp [interfaceWeight, hkeys.1]
      · simp [interfaceWeight, hsame, Ne.symm hsame]
  rw [ResolvedFlow.interfacePostings, List.map_map]
  refine (hweight _ hnodup).trans ?_
  by_cases hmem : key ∈ flow.interfaceKeys
  · rw [if_pos hmem]
  · rw [if_neg hmem, flow.interfaceShare_eq_zero hmem]

/-- An interface accumulator that holds the postings of some flows has their total as its sum
under every key. -/
theorem sumBy_interfaceWeight {accumulator : Dict InterfaceKey InterfaceCounters}
    {flows : List ResolvedFlow}
    (hholds : Ledger.Holds accumulator (flows.flatMap ResolvedFlow.interfacePostings))
    (key : InterfaceKey) :
    (accumulator.sumBy fun entry counters ↦ interfaceWeight key entry counters) =
      interfaceTotal flows key := by
  rw [hholds.sumBy_eq (interfaceWeight key), interfaceTotal]
  clear hholds
  induction flows with
  | nil => rfl
  | cons flow rest ih =>
    rw [List.flatMap_cons, List.map_append, List.sum_append, ih, sum_interfacePostings,
      List.map_cons, List.sum_cons]

omit [DecidableEq Inet] in
/-- The sum of an interface accumulator under a key is its entry. -/
theorem sumBy_interfaceWeight_eq_get? (accumulator : Dict InterfaceKey InterfaceCounters)
    (key : InterfaceKey) :
    (accumulator.sumBy fun entry counters ↦ interfaceWeight key entry counters) =
      (accumulator.get? key).getD 0 := by
  have hsplit := accumulator.sumBy_eq_weightAt_add_erase
    (fun entry counters ↦ interfaceWeight key entry counters) key
  have hrest : ((accumulator.erase key).sumBy fun entry counters ↦
      interfaceWeight key entry counters) = 0 := by
    refine List.sum_eq_zero fun total htotal ↦ ?_
    obtain ⟨entry, hentry, rfl⟩ := List.mem_map.mp htotal
    have hne : entry.1 ≠ key := by simpa using (List.mem_filter.mp hentry).2
    simp [interfaceWeight, hne]
  rw [hsplit, hrest, add_zero, Dict.weightAt]
  cases accumulator.get? key with
  | none => rfl
  | some counters => simp [interfaceWeight]

end Lnmp.Flow
