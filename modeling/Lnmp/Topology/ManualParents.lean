import Lnmp.Foundation.Dict
import Lnmp.Foundation.Digraph
import Lnmp.Foundation.IpAddress
import Lnmp.Foundation.Runs
import Lnmp.Foundation.Uuid
import Lnmp.Monitoring.StateMachine

/-!
# Manual parents

The requests that write `manual_parent_id` (`routers/endpoints.py`, `EndpointRepository`): creating
an endpoint, which restores a deleted one with the same address, updating one, and deleting one. A
request checks the committed table in one step and commits its write in a later one. Addresses are
texts in the requests and values of the type `inet` in the table: `castInet` is how the database
reads a text.

`acyclic_iff_everyStep` says when the manual parents of the endpoints that are not deleted never
make a cycle: when no endpoint is written below one of its own descendants. The check of an update
ensures this for a write that follows at once (`not_above_of_check`); a restored endpoint is not
checked.
-/

set_option autoImplicit false
set_option relaxedAutoImplicit false

namespace Lnmp.Topology

open Relation
open Lnmp.Foundation Lnmp.Foundation.Digraph Lnmp.Foundation.Runs
open Lnmp.Foundation.PythonText (strip)
open Lnmp.Monitoring (EndpointId)

variable {Inet : Type*}

/-! ### The table -/

/-- The column `endpoint_status`. -/
inductive EndpointStatus
  | active
  | disabled
  | deleted
  deriving DecidableEq

/-- The statuses that an update can ask for. -/
inductive RequestedStatus
  | active
  | disabled
  deriving DecidableEq

/-- The column for a requested status. -/
def RequestedStatus.endpointStatus : RequestedStatus → EndpointStatus
  | .active => .active
  | .disabled => .disabled

/-- The columns of an endpoint that the requests decide by. -/
structure EndpointRecord (Inet : Type*) where
  ipAddress : Inet
  endpointStatus : EndpointStatus
  manualParentId : Option EndpointId
  deriving DecidableEq

/-- The table of endpoints. Rows are never removed. -/
abbrev EndpointTable (Inet : Type*) := Dict EndpointId (EndpointRecord Inet)

namespace EndpointTable

variable (table : EndpointTable Inet)

/-- `get_by_id`. -/
def getById (id : EndpointId) : Option (EndpointRecord Inet) :=
  (table.get? id).filter (·.endpointStatus ≠ .deleted)

/-- `get_by_ip`. -/
def getByIp [DecidableEq Inet] (ipAddress : Inet) (includeDeleted : Bool) :
    Option (EndpointId × EndpointRecord Inet) :=
  table.entries.find? fun entry ↦
    entry.2.ipAddress = ipAddress ∧ (includeDeleted ∨ entry.2.endpointStatus ≠ .deleted)

/-- The manual parent of a row, whatever its status is. -/
def parentOf (id : EndpointId) : Option EndpointId :=
  (table.get? id).bind EndpointRecord.manualParentId

/-- The loop of `detect_parent_cycle`: it ends at a row without a parent, or at one that it has
visited. The fuel is more than the number of rows. -/
def parentWalk : ℕ → Option EndpointId → List EndpointId → Bool
  | _, none, _ => false
  | 0, some _, _ => true
  | fuel + 1, some curr, visited =>
    if curr ∈ visited then true else parentWalk fuel (table.parentOf curr) (curr :: visited)

/-- `detect_parent_cycle`. -/
def detectParentCycle (endpointId : EndpointId) : Option EndpointId → Bool
  | none => false
  | some parentId =>
    if endpointId = parentId then true
    else table.parentWalk (table.keys.length + 2) (some parentId) [endpointId]

end EndpointTable

/-! ### Requests -/

/-- A request. A new endpoint has an identifier of its own. -/
inductive EndpointRequest
  | create (newId : EndpointId) (ipAddress : String) (manualParentId : Option EndpointId)
      (hasFlowColumns : Bool)
  | patch (id : EndpointId) (endpointStatus : Option RequestedStatus)
      (manualParentId : Option EndpointId)
  | delete (id : EndpointId)
  deriving DecidableEq

/-- `validate_ip_format`. -/
def validateIpFormat (ipAddress : String) : Option String :=
  (IpAddress.ipAddress (strip ipAddress)).map fun _ ↦ strip ipAddress

/-- What a request writes when its checks are passed. -/
inductive EndpointWrite (Inet : Type*)
  | insert (newId : EndpointId) (ipAddress : Inet) (manualParentId : Option EndpointId)
  | restore (id : EndpointId) (manualParentId : Option EndpointId) (hasFlowColumns : Bool)
  | update (id : EndpointId) (endpointStatus : Option RequestedStatus)
      (manualParentId : Option EndpointId)
  | softDelete (id : EndpointId)
  deriving DecidableEq

namespace EndpointTable

variable [DecidableEq Inet] (table : EndpointTable Inet)

/-- The checks of a request: `none` when it is answered with an error. An address that the database
cannot read is one, too. -/
def check (castInet : String → Option Inet) : EndpointRequest → Option (EndpointWrite Inet)
  | .create newId ipAddress manualParentId hasFlowColumns =>
    match (validateIpFormat ipAddress).bind castInet with
    | none => none
    | some address =>
      match table.getByIp address false with
      | some _ => none
      | none =>
        match table.getByIp address true with
        | some (id, record) =>
          if record.endpointStatus = .deleted then some (.restore id manualParentId hasFlowColumns)
          else some (.insert newId address manualParentId)
        | none => some (.insert newId address manualParentId)
  | .patch id endpointStatus manualParentId =>
    if table.getById id = none then none
    else if manualParentId = some id ∨ table.detectParentCycle id manualParentId then none
    else some (.update id endpointStatus manualParentId)
  | .delete id => if table.getById id = none then none else some (.softDelete id)

/-- The foreign key: a manual parent has a row. -/
def hasParent (manualParentId : Option EndpointId) : Bool :=
  manualParentId.all fun parentId ↦ parentId ∈ table.keys

/-- The commit of a write. The database refuses a parent without a row, a second row for an address,
and a restore that sets the flow columns to null. -/
def commit : EndpointWrite Inet → EndpointTable Inet
  | .insert newId ipAddress manualParentId =>
    if newId ∉ table.keys ∧ table.getByIp ipAddress true = none ∧
        table.hasParent manualParentId then
      table.set newId ⟨ipAddress, .active, manualParentId⟩
    else table
  | .restore id manualParentId hasFlowColumns =>
    match table.get? id with
    | none => table
    | some record =>
      if hasFlowColumns ∧ table.hasParent manualParentId then
        table.set id ⟨record.ipAddress, .active, manualParentId⟩
      else table
  | .update id endpointStatus manualParentId =>
    match table.getById id with
    | none => table
    | some record =>
      if table.hasParent manualParentId then
        table.set id ⟨record.ipAddress,
          endpointStatus.elim record.endpointStatus (·.endpointStatus),
          manualParentId.or record.manualParentId⟩
      else table
  | .softDelete id =>
    match table.getById id with
    | none => table
    | some record => table.set id { record with endpointStatus := .deleted }

end EndpointTable

/-- The table, and the requests between their checks and their writes. -/
structure EndpointService (Inet : Type*) where
  table : EndpointTable Inet
  pending : List (EndpointWrite Inet)
  deriving DecidableEq

/-- The service before the first request. -/
def EndpointService.empty : EndpointService Inet where
  table := Dict.empty
  pending := []

/-- A step of a request. -/
inductive EndpointEvent
  | check (request : EndpointRequest)
  | write (index : ℕ)
  deriving DecidableEq

/-- The service after a step. -/
def EndpointService.step [DecidableEq Inet] (castInet : String → Option Inet)
    (service : EndpointService Inet) : EndpointEvent → Option (EndpointService Inet)
  | .check request =>
    match service.table.check castInet request with
    | none => some service
    | some write => some { service with pending := service.pending ++ [write] }
  | .write index =>
    match service.pending[index]? with
    | none => some service
    | some write =>
      some { table := service.table.commit write, pending := service.pending.eraseIdx index }

/-! ### Statements -/

namespace EndpointTable

variable (table : EndpointTable Inet)

/-- The manual parents of the endpoints that are not deleted. -/
def ParentEdge (parent child : EndpointId) : Prop :=
  (∃ record, table.getById child = some record ∧ record.manualParentId = some parent) ∧
    ∃ record, table.getById parent = some record

/-- The manual parent of an endpoint that is not deleted, whatever the status of the parent is. -/
def Above (child parent : EndpointId) : Prop :=
  ∃ record, table.getById child = some record ∧ record.manualParentId = some parent

/-- The write gives an endpoint that has a row a manual parent, and the database accepts it. -/
def Sets (id parent : EndpointId) : EndpointWrite Inet → Prop
  | .insert .. | .softDelete _ => False
  | .restore other manualParentId hasFlowColumns =>
    other = id ∧ manualParentId = some parent ∧ hasFlowColumns = true ∧ id ∈ table.keys ∧
      parent ∈ table.keys
  | .update other _ manualParentId =>
    other = id ∧ manualParentId = some parent ∧ table.getById id ≠ none ∧ parent ∈ table.keys

/-- The foreign key of the column `manual_parent_id`. -/
def ParentsExist : Prop :=
  ∀ id record parent, table.get? id = some record → record.manualParentId = some parent →
    parent ∈ table.keys

end EndpointTable

/-- A write gives no endpoint a manual parent from which the manual parents lead up to it. -/
def EndpointService.WritesAbove (service : EndpointService Inet) : EndpointEvent → Prop
  | .check _ => True
  | .write index => ∀ write, service.pending[index]? = some write →
    ∀ id parent, service.table.Sets id parent write →
      ¬ReflTransGen service.table.Above parent id

/-! ### The check of an update -/

namespace EndpointTable

variable {table : EndpointTable Inet} {id parent : EndpointId}

/-- What `get_by_id` finds has a row. -/
theorem get?_of_getById {record : EndpointRecord Inet} (hget : table.getById id = some record) :
    table.get? id = some record ∧ record.endpointStatus ≠ .deleted := by
  obtain ⟨hrow, hstatus⟩ := Option.filter_eq_some_iff.mp hget
  exact ⟨hrow, of_decide_eq_true hstatus⟩

/-- A manual parent of an endpoint that is not deleted is one that the walk goes to. -/
theorem parentOf_of_above (habove : table.Above id parent) : table.parentOf id = some parent := by
  obtain ⟨record, hget, hparent⟩ := habove
  rw [parentOf, (get?_of_getById hget).1, Option.bind_some, hparent]

/-- A walk that finds no cycle meets nothing that was visited before. -/
theorem not_mem_of_parentWalk {fuel : ℕ} {visited : List EndpointId} {last : EndpointId}
    (hwalk : table.parentWalk fuel (some id) visited = false)
    (hreach : ReflTransGen (fun child parent ↦ table.parentOf child = some parent) id last) :
    last ∉ visited := by
  induction fuel generalizing id visited with
  | zero => exact absurd hwalk.symm Bool.false_ne_true
  | succ fuel ih =>
    rw [parentWalk] at hwalk
    split at hwalk
    · exact absurd hwalk.symm Bool.false_ne_true
    · rename_i hfresh
      rcases ReflTransGen.cases_head hreach with rfl | ⟨next, hnext, hrest⟩
      · exact hfresh
      · rw [hnext] at hwalk
        exact fun hvisited ↦ ih hwalk hrest (List.mem_cons_of_mem _ hvisited)

/-- An endpoint whose new manual parent passes `detect_parent_cycle` is not above it. -/
theorem not_above_of_detectParentCycle
    (hdetect : table.detectParentCycle id (some parent) = false) :
    ¬ReflTransGen table.Above parent id := by
  intro hreach
  rw [detectParentCycle] at hdetect
  split at hdetect
  · exact absurd hdetect.symm Bool.false_ne_true
  · refine not_mem_of_parentWalk hdetect (ReflTransGen.mono ?_ _ _ hreach)
      (List.mem_singleton_self _)
    exact fun _ _ ↦ parentOf_of_above

/-- A node that was not visited leaves fewer behind it. -/
theorem length_filter_lt {nodes visited : List EndpointId} {curr : EndpointId}
    (hmem : curr ∈ nodes) (hfresh : curr ∉ visited) :
    (nodes.filter (· ∉ curr :: visited)).length < (nodes.filter (· ∉ visited)).length := by
  have hsplit : nodes.filter (· ∉ curr :: visited) =
      (nodes.filter (· ∉ visited)).filter (· ≠ curr) := by
    rw [List.filter_filter]
    exact List.filter_congr fun node _ ↦ by simp [List.mem_cons, not_or]
  rw [hsplit, List.length_filter_lt_length_iff_exists]
  exact ⟨curr, List.mem_filter.mpr ⟨hmem, decide_eq_true hfresh⟩, by simp⟩

/-- More fuel than rows that the walk has not visited changes nothing: it goes on only from a row,
and from none twice. -/
theorem parentWalk_succ {fuel : ℕ} {curr : Option EndpointId} {visited : List EndpointId}
    (hfuel : (table.keys.filter (· ∉ visited)).length < fuel) :
    table.parentWalk (fuel + 1) curr visited = table.parentWalk fuel curr visited := by
  induction fuel generalizing curr visited with
  | zero => exact absurd hfuel (Nat.not_lt_zero _)
  | succ fuel ih =>
    cases curr with
    | none => simp [parentWalk]
    | some curr =>
      rw [parentWalk, parentWalk]
      by_cases hvisited : curr ∈ visited
      · rw [if_pos hvisited, if_pos hvisited]
      · rw [if_neg hvisited, if_neg hvisited]
        by_cases hrow : curr ∈ table.keys
        · exact ih (lt_of_lt_of_le (length_filter_lt hrow hvisited) (Nat.lt_succ_iff.mp hfuel))
        · have hnone : table.parentOf curr = none := by
            rw [parentOf, (Dict.get?_eq_none_iff _ _).mpr hrow, Option.bind_none]
          rw [hnone]
          simp [parentWalk]

/-- An update that passes its checks gives the endpoint no manual parent that it is above. -/
theorem not_above_of_check [DecidableEq Inet] {castInet : String → Option Inet}
    {endpointStatus : Option RequestedStatus} {manualParentId : Option EndpointId}
    {write : EndpointWrite Inet}
    (hcheck : table.check castInet (.patch id endpointStatus manualParentId) = some write)
    {other : EndpointId} (hsets : table.Sets other parent write) :
    ¬ReflTransGen table.Above parent other := by
  rw [check] at hcheck
  split at hcheck
  · exact absurd hcheck.symm (Option.some_ne_none _)
  · split at hcheck
    · exact absurd hcheck.symm (Option.some_ne_none _)
    · rename_i hpassed
      obtain rfl := Option.some.inj hcheck
      obtain ⟨rfl, rfl, -⟩ := hsets
      exact not_above_of_detectParentCycle (Bool.eq_false_iff.mpr (not_or.mp hpassed).2)

/-! ### One write -/

section Set

variable {record : EndpointRecord Inet}

/-- What `get_by_id` finds after a row is written. -/
theorem getById_set (other : EndpointId) :
    EndpointTable.getById (table.set id record) other =
      if other = id then (some record).filter (·.endpointStatus ≠ .deleted)
      else table.getById other := by
  rw [getById, Dict.get?_set]
  split <;> rfl

/-- What a written row makes the manual parent of another endpoint was that before. -/
theorem above_set_of_ne {child : EndpointId} (hne : child ≠ id) :
    EndpointTable.Above (table.set id record) child parent ↔ table.Above child parent := by
  rw [Above, Above, getById_set, if_neg hne]

theorem getById_set_self (hstatus : record.endpointStatus ≠ .deleted) :
    EndpointTable.getById (table.set id record) id = some record := by
  rw [getById_set, if_pos rfl, Option.filter_some, if_pos (decide_eq_true hstatus)]

/-- Deleting an endpoint, or writing it in another way that leaves it deleted, makes no cycle. -/
theorem acyclic_set_deleted (hacyclic : Acyclic table.ParentEdge)
    (hstatus : record.endpointStatus = .deleted) :
    Acyclic (EndpointTable.ParentEdge (table.set id record)) := by
  have hfound : ∀ other found, EndpointTable.getById (table.set id record) other = some found →
      table.getById other = some found := by
    intro other found hget
    rw [getById_set] at hget
    split at hget
    · rw [Option.filter_some, if_neg (by simp [hstatus])] at hget
      exact absurd hget.symm (Option.some_ne_none _)
    · exact hget
  refine hacyclic.mono ?_
  rintro source target ⟨⟨child, hchild, hparent⟩, other, hother⟩
  exact ⟨⟨child, hfound _ _ hchild, hparent⟩, other, hfound _ _ hother⟩

/-- A path of manual parents that leads up to an endpoint is one of edges that do not enter it, read
the other way, after the endpoint is written. -/
theorem reflTransGen_above_iff (hstatus : record.endpointStatus ≠ .deleted) {last : EndpointId} :
    ReflTransGen table.Above last id ↔
      (∃ found, EndpointTable.getById (table.set id record) last = some found) ∧
        ReflTransGen (fun source target ↦
          EndpointTable.ParentEdge (table.set id record) source target ∧ target ≠ id) id last := by
  constructor
  · intro hreach
    induction hreach using ReflTransGen.head_induction_on with
    | refl => exact ⟨⟨record, getById_set_self hstatus⟩, ReflTransGen.refl⟩
    | @head child parent habove _ ih =>
      by_cases hsame : child = id
      · subst hsame
        exact ⟨⟨record, getById_set_self hstatus⟩, ReflTransGen.refl⟩
      · have hset : EndpointTable.Above (table.set id record) child parent :=
          (above_set_of_ne hsame).mpr habove
        obtain ⟨found, hfound, hparent⟩ := hset
        exact ⟨⟨found, hfound⟩, ih.2.tail ⟨⟨⟨found, hfound, hparent⟩, ih.1⟩, hsame⟩⟩
  · rintro ⟨-, hreach⟩
    induction hreach with
    | refl => exact ReflTransGen.refl
    | tail _ hedge ih => exact ih.head ((above_set_of_ne hedge.2).mp hedge.1.1)

/-- The step lemma: writing an endpoint makes a cycle exactly when its manual parent is the endpoint
itself or has it above it. -/
theorem acyclic_set_iff (hacyclic : Acyclic table.ParentEdge)
    (hstatus : record.endpointStatus ≠ .deleted) :
    Acyclic (EndpointTable.ParentEdge (table.set id record)) ↔
      ∀ parent, record.manualParentId = some parent → ¬ReflTransGen table.Above parent id := by
  have hrest : Acyclic fun source target ↦
      EndpointTable.ParentEdge (table.set id record) source target ∧ target ≠ id := by
    refine acyclic_of_not_entered hacyclic ?_
    rintro source target hsource htarget ⟨habove, other, hother⟩
    refine ⟨(above_set_of_ne htarget).mp habove, other, ?_⟩
    rwa [getById_set, if_neg hsource] at hother
  rw [acyclic_iff_of_entry id hrest]
  constructor
  · intro hclosed parent hparent habove
    obtain ⟨hfound, hreach⟩ := (reflTransGen_above_iff hstatus).mp habove
    exact hclosed parent ⟨⟨record, getById_set_self hstatus, hparent⟩, hfound⟩ hreach
  · rintro hclosed parent ⟨⟨child, hchild, hparent⟩, hfound⟩ hreach
    rw [getById_set_self hstatus, Option.some_inj] at hchild
    subst hchild
    exact hclosed parent hparent ((reflTransGen_above_iff hstatus).mpr ⟨hfound, hreach⟩)

/-- In a table without cycles no endpoint is above its own manual parent. -/
theorem not_above_of_acyclic (hacyclic : Acyclic table.ParentEdge)
    (hget : table.getById id = some record) (hparent : record.manualParentId = some parent) :
    ¬ReflTransGen table.Above parent id := by
  obtain ⟨hrow, hstatus⟩ := get?_of_getById hget
  refine (acyclic_set_iff hacyclic hstatus).mp ?_ parent hparent
  refine hacyclic.mono ?_
  have hsame : ∀ other,
      EndpointTable.getById (table.set id record) other = table.getById other := by
    intro other
    rw [getById, Dict.get?_set]
    split
    · rename_i hother
      rw [hother, getById, hrow]
    · rfl
  simp only [ParentEdge, hsame]
  exact fun _ _ hedge ↦ hedge

end Set

/-- A new endpoint is the manual parent of no other one. -/
theorem not_above_of_new (hexist : table.ParentsExist) (hnew : id ∉ table.keys)
    (hrow : parent ∈ table.keys) : ¬ReflTransGen table.Above parent id := by
  intro hreach
  rcases ReflTransGen.cases_tail hreach with rfl | ⟨last, -, record, hget, hparent⟩
  · exact hnew hrow
  · exact hnew (hexist last record id (get?_of_getById hget).1 hparent)

/-- The manual parent of a request has a row when the database accepts it. -/
theorem mem_keys_of_hasParent {manualParentId : Option EndpointId}
    (hparent : table.hasParent manualParentId = true) (hsome : manualParentId = some parent) :
    parent ∈ table.keys := by
  subst hsome
  exact of_decide_eq_true hparent

/-- An update leaves no endpoint deleted. -/
theorem updated_ne_deleted {stored : EndpointStatus} (hstatus : stored ≠ .deleted)
    {endpointStatus : Option RequestedStatus} :
    endpointStatus.elim stored (·.endpointStatus) ≠ .deleted := by
  rcases endpointStatus with _ | _ | _
  · exact hstatus
  · simp [RequestedStatus.endpointStatus]
  · simp [RequestedStatus.endpointStatus]

/-- What is written to a row. Its manual parent has a row. It is the one that the write sets, or the
endpoint is new or had that manual parent before. -/
structure Rewrites (table : EndpointTable Inet) (write : EndpointWrite Inet) (id : EndpointId)
    (record : EndpointRecord Inet) : Prop where
  parent_mem : ∀ parent, record.manualParentId = some parent → parent ∈ table.keys
  of_sets : ∀ other parent, table.Sets other parent write →
    other = id ∧ record.manualParentId = some parent ∧ record.endpointStatus ≠ .deleted
  origin : record.endpointStatus ≠ .deleted → ∀ parent, record.manualParentId = some parent →
    table.Sets id parent write ∨ id ∉ table.keys ∨
      ∃ stored, table.getById id = some stored ∧ stored.manualParentId = some parent

/-- The foreign key is kept when a row gets a manual parent that has a row. -/
theorem parentsExist_set {record : EndpointRecord Inet} (hexist : table.ParentsExist)
    (hparent : ∀ parent, record.manualParentId = some parent → parent ∈ table.keys) :
    EndpointTable.ParentsExist (table.set id record) := by
  intro other found parent hget hfound
  refine (Dict.mem_keys_set _ _ _ _).mpr (Or.inr ?_)
  rw [Dict.get?_set] at hget
  split at hget
  · obtain rfl := Option.some.inj hget
    exact hparent parent hfound
  · exact hexist other found parent hget hfound

section Commit

variable [DecidableEq Inet]

/-- What a commit does: it is refused or finds no row, or it writes one row. -/
theorem commit_cases (hexist : table.ParentsExist) (write : EndpointWrite Inet) :
    table.commit write = table ∧ (∀ id parent, ¬table.Sets id parent write) ∨
      ∃ id record, table.commit write = table.set id record ∧
        table.Rewrites write id record := by
  cases write with
  | insert newId ipAddress manualParentId =>
    rw [commit]
    split
    · rename_i haccepted
      exact Or.inr ⟨newId, _, rfl, fun parent ↦ mem_keys_of_hasParent haccepted.2.2,
        fun _ _ hsets ↦ hsets.elim, fun _ _ _ ↦ Or.inr (Or.inl haccepted.1)⟩
    · exact Or.inl ⟨rfl, fun _ _ hsets ↦ hsets⟩
  | restore other manualParentId hasFlowColumns =>
    rw [commit]
    split
    · rename_i hrow
      refine Or.inl ⟨rfl, ?_⟩
      rintro id parent ⟨rfl, -, -, hmem, -⟩
      exact absurd hmem ((Dict.get?_eq_none_iff _ _).mp hrow)
    · rename_i record hrow
      split
      · rename_i haccepted
        refine Or.inr ⟨other, _, rfl, fun parent ↦ mem_keys_of_hasParent haccepted.2, ?_,
          fun _ parent hparent ↦ Or.inl ?_⟩
        · rintro id parent ⟨rfl, hparent, -⟩
          exact ⟨rfl, hparent, by simp⟩
        · exact ⟨rfl, hparent, haccepted.1, Dict.mem_keys_of_get? hrow,
            mem_keys_of_hasParent haccepted.2 hparent⟩
      · rename_i hrefused
        refine Or.inl ⟨rfl, ?_⟩
        rintro id parent ⟨rfl, rfl, hflow, -, hmem⟩
        exact hrefused ⟨hflow, decide_eq_true hmem⟩
  | update other endpointStatus manualParentId =>
    rw [commit]
    split
    · rename_i hrow
      refine Or.inl ⟨rfl, ?_⟩
      rintro id parent ⟨rfl, -, hfound, -⟩
      exact hfound hrow
    · rename_i record hfound
      split
      · rename_i haccepted
        refine Or.inr ⟨other, _, rfl, fun parent hparent ↦ ?_, ?_, fun _ parent hparent ↦ ?_⟩
        · cases manualParentId with
          | none => exact hexist other record parent (get?_of_getById hfound).1 hparent
          | some requested => exact mem_keys_of_hasParent haccepted hparent
        · rintro id parent ⟨rfl, rfl, -⟩
          exact ⟨rfl, rfl, updated_ne_deleted (get?_of_getById hfound).2⟩
        · cases manualParentId with
          | none => exact Or.inr (Or.inr ⟨record, hfound, hparent⟩)
          | some requested =>
            exact Or.inl ⟨rfl, hparent, hfound ▸ Option.some_ne_none _,
              mem_keys_of_hasParent haccepted hparent⟩
      · rename_i hrefused
        refine Or.inl ⟨rfl, ?_⟩
        rintro id parent ⟨rfl, rfl, -, hmem⟩
        exact hrefused (decide_eq_true hmem)
  | softDelete other =>
    rw [commit]
    split
    · exact Or.inl ⟨rfl, fun _ _ hsets ↦ hsets⟩
    · rename_i record hfound
      exact Or.inr ⟨other, _, rfl,
        fun parent ↦ hexist other record parent (get?_of_getById hfound).1,
        fun _ _ hsets ↦ hsets.elim, fun hstatus ↦ absurd rfl hstatus⟩

/-- A committed write makes a cycle exactly when it gives an endpoint a manual parent that it is
above. -/
theorem acyclic_commit_iff (hexist : table.ParentsExist) (hacyclic : Acyclic table.ParentEdge)
    (write : EndpointWrite Inet) :
    Acyclic (table.commit write).ParentEdge ↔
      ∀ id parent, table.Sets id parent write → ¬ReflTransGen table.Above parent id := by
  rcases commit_cases hexist write with ⟨hsame, hnone⟩ | ⟨id, record, hset, hrewrites⟩
  · rw [hsame]
    exact iff_of_true hacyclic fun id parent hsets ↦ absurd hsets (hnone id parent)
  · rw [hset]
    by_cases hstatus : record.endpointStatus = .deleted
    · refine iff_of_true (acyclic_set_deleted hacyclic hstatus) fun other parent hsets ↦ ?_
      exact absurd hstatus (hrewrites.of_sets other parent hsets).2.2
    · rw [acyclic_set_iff hacyclic hstatus]
      constructor
      · intro hclosed other parent hsets
        obtain ⟨rfl, hparent, -⟩ := hrewrites.of_sets other parent hsets
        exact hclosed parent hparent
      · intro hclosed parent hparent
        rcases hrewrites.origin hstatus parent hparent with hsets | hnew | ⟨stored, hget, hstored⟩
        · exact hclosed id parent hsets
        · exact not_above_of_new hexist hnew (hrewrites.parent_mem parent hparent)
        · exact not_above_of_acyclic hacyclic hget hstored

/-- Every committed write keeps the foreign key. -/
theorem parentsExist_commit (hexist : table.ParentsExist) (write : EndpointWrite Inet) :
    (table.commit write).ParentsExist := by
  rcases commit_cases hexist write with ⟨hsame, -⟩ | ⟨id, record, hset, hrewrites⟩
  · rwa [hsame]
  · rw [hset]
    exact parentsExist_set hexist hrewrites.parent_mem

end Commit

end EndpointTable

/-! ### Runs -/

namespace EndpointService

variable [DecidableEq Inet] {castInet : String → Option Inet} {service next : EndpointService Inet}
  {event : EndpointEvent}

/-- Every step of a request is possible in every state. -/
theorem exists_run (castInet : String → Option Inet) (service : EndpointService Inet)
    (events : List EndpointEvent) : ∃ finish, run (step castInet) service events = some finish := by
  induction events generalizing service with
  | nil => exact ⟨service, rfl⟩
  | cons event rest ih =>
    have hstep : ∃ next, step castInet service event = some next := by
      cases event with
      | check request =>
        rw [step]
        split <;> exact ⟨_, rfl⟩
      | write index =>
        rw [step]
        split <;> exact ⟨_, rfl⟩
    obtain ⟨next, hnext⟩ := hstep
    obtain ⟨finish, hfinish⟩ := ih next
    exact ⟨finish, by rw [run_cons, hnext, Option.bind_some, hfinish]⟩

/-- What a step does to the table. -/
theorem table_step (hstep : step castInet service event = some next) :
    next.table = service.table ∧
        (∀ index, event = .write index → service.pending[index]? = none) ∨
      ∃ index write, event = .write index ∧ service.pending[index]? = some write ∧
        next.table = service.table.commit write := by
  cases event with
  | check request =>
    refine Or.inl ⟨?_, fun index hevent ↦ EndpointEvent.noConfusion hevent⟩
    rw [step] at hstep
    split at hstep <;> exact Option.some.inj hstep ▸ rfl
  | write index =>
    rw [step] at hstep
    split at hstep
    · rename_i hnone
      refine Or.inl ⟨Option.some.inj hstep ▸ rfl, fun other hevent ↦ ?_⟩
      exact EndpointEvent.write.inj hevent ▸ hnone
    · rename_i write hsome
      exact Or.inr ⟨index, write, rfl, hsome, Option.some.inj hstep ▸ rfl⟩

/-- In every order of the checks and writes of all requests, the manual parents never make a cycle
exactly when no endpoint is written below one of its own descendants. -/
theorem acyclic_iff_everyStep (castInet : String → Option Inet) (events : List EndpointEvent) :
    EveryState (step castInet) empty events (fun service ↦ Acyclic service.table.ParentEdge) ↔
      EveryStep (step castInet) empty events WritesAbove := by
  obtain ⟨finish, hrun⟩ := exists_run castInet empty events
  refine everyState_iff_everyStep (fun service ↦ service.table.ParentsExist) _ ?_ ?_ ?_ ?_ hrun
  · intro service event next hexist hstep
    rcases table_step hstep with ⟨hsame, -⟩ | ⟨index, write, -, -, hcommit⟩
    · rwa [hsame]
    · rw [hcommit]
      exact EndpointTable.parentsExist_commit hexist write
  · intro service event next hexist hacyclic hstep
    rcases table_step hstep with ⟨hsame, hnone⟩ | ⟨index, write, rfl, hwrite, hcommit⟩
    · rw [hsame]
      refine iff_of_true hacyclic ?_
      cases event with
      | check request => trivial
      | write index =>
        intro write hwrite
        exact absurd ((hnone index rfl).symm.trans hwrite) (Option.some_ne_none _).symm
    · rw [hcommit, EndpointTable.acyclic_commit_iff hexist hacyclic]
      constructor
      · intro hclosed other hother
        rw [hwrite, Option.some_inj] at hother
        exact hother ▸ hclosed
      · exact fun hclosed ↦ hclosed write hwrite
  · intro id record parent hget
    exact absurd hget.symm (Option.some_ne_none _)
  · intro id hcycle
    obtain ⟨_, ⟨⟨_, hget, _⟩, _⟩, _⟩ := TransGen.head'_iff.mp hcycle
    exact absurd hget.symm (Option.some_ne_none _)

/-- Endpoint 2 is put below endpoint 1, which is then deleted, and created again below endpoint 2, by
another text of its address. -/
def restoredEvents : List EndpointEvent :=
  [.check (.create 1 "2001:db8::1" none false), .write 0,
   .check (.create 2 "10.0.0.2" (some 1) false), .write 0,
   .check (.delete 1), .write 0, .check (.create 3 "2001:DB8::1" (some 2) true), .write 0]

/-- Creating an endpoint restores a deleted one without the check for a cycle, so that two endpoints
are each other's manual parents. -/
theorem not_acyclic_restoredEvents :
    ¬EveryState (step IpAddress.ipAddress) empty restoredEvents fun service ↦
      Acyclic service.table.ParentEdge := by
  intro hstates
  obtain ⟨finish, hrun⟩ := exists_run IpAddress.ipAddress empty restoredEvents
  have hacyclic : Acyclic finish.table.ParentEdge :=
    hstates restoredEvents [] finish (List.append_nil _).symm hrun
  have hparents : (run (step IpAddress.ipAddress) empty restoredEvents).map (fun service ↦
      ((service.table.getById 1).map EndpointRecord.manualParentId,
        (service.table.getById 2).map EndpointRecord.manualParentId)) =
        some (some (some 2), some (some 1)) := by
    decide
  rw [hrun, Option.map_some, Option.some_inj, Prod.mk.injEq] at hparents
  obtain ⟨first, hfirst, hfirstParent⟩ := Option.map_eq_some_iff.mp hparents.1
  obtain ⟨second, hsecond, hsecondParent⟩ := Option.map_eq_some_iff.mp hparents.2
  refine hacyclic 1 (TransGen.head (b := 2) ?_ (TransGen.single ?_))
  · exact ⟨⟨second, hsecond, hsecondParent⟩, first, hfirst⟩
  · exact ⟨⟨first, hfirst, hfirstParent⟩, second, hsecond⟩

end EndpointService

end Lnmp.Topology
