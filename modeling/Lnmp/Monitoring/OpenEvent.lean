import Lnmp.Monitoring.Engine

/-!
# The open event of an endpoint

Events are closed and opened by the initial event, by a cycle in three ways, by gaps and by
restarts, and the active event of a state in memory may have been closed by another path.
`singleOpenEvent_of_run`: in every reachable state an endpoint has at most one open event, and
after every transaction of its task it has one, which is the active event of the state that the
transaction returns.
-/

set_option autoImplicit false
set_option relaxedAutoImplicit false

namespace Lnmp.Monitoring

open Lnmp.Foundation.Runs

/-- The open events of an endpoint. -/
def Database.openEvents (database : Database) (endpointId : EndpointId) : List EndpointEvent :=
  database.endpointEvents.filter fun event ↦ event.endpointId = endpointId ∧ event.isOpen

/-- The operation commits an initial event or a cycle of an endpoint. -/
def Operation.Commits : Operation → EndpointId → Prop
  | .createInitial _ endpointId _ _, committed => endpointId = committed
  | .processCycle _ endpointId _ _ _, committed => endpointId = committed
  | _, _ => False

/-- At most one event of an endpoint is open, and exactly one after its task has committed. -/
structure SingleOpenEvent (threshold numWorkers : ℕ) (engine : Engine) : Prop where
  atMostOne : ∀ endpointId, (engine.database.openEvents endpointId).length ≤ 1
  committed : ∀ event next endpointId, step threshold numWorkers engine event = some next →
    event.operation.Commits endpointId →
      ∃ state row, next.tasks endpointId = some (some state) ∧
        next.database.openEvents endpointId = [row] ∧ state.Shows row

variable {database written : Database} {now time : ℤ} {endpointId : EndpointId}
  {recorded : EndpointState}

theorem mem_openEvents_iff {event : EndpointEvent} : event ∈ database.openEvents endpointId ↔
    event ∈ database.endpointEvents ∧ event.endpointId = endpointId ∧ event.endTime = none := by
  rw [Database.openEvents, List.mem_filter, decide_eq_true_eq, EndpointEvent.isOpen_iff]

theorem Coherent.length_openEvents_le (hcoherent : Coherent database now)
    (endpointId : EndpointId) : (database.openEvents endpointId).length ≤ 1 := by
  have hordered := hcoherent.ordered.filter fun event ↦
    decide (event.endpointId = endpointId ∧ event.isOpen = true)
  have hmem : ∀ event ∈ database.openEvents endpointId, event.endpointId = endpointId ∧
      event.endTime = none := fun event hevent ↦ (mem_openEvents_iff.mp hevent).2
  rw [← Database.openEvents] at hordered
  match hopen : database.openEvents endpointId with
  | [] => exact Nat.zero_le 1
  | [row] => exact le_rfl
  | first :: second :: rest =>
    rw [hopen] at hordered hmem
    have hbefore := (List.pairwise_cons.mp hordered).1 second (List.mem_cons_self ..)
    obtain ⟨hfirst, hnone⟩ := hmem first (List.mem_cons_self ..)
    obtain ⟨hsecond, -⟩ := hmem second (List.mem_cons_of_mem _ (List.mem_cons_self ..))
    exact absurd hnone (hbefore.endTime_ne_none (hfirst.trans hsecond.symm))

/-- After an operation of its task, the open event of an endpoint is the one that its state
shows. -/
theorem Maintains.openEvents (hmaintains : Maintains time database endpointId recorded written)
    (hcoherent : Coherent written time) :
    ∃ row, written.openEvents endpointId = [row] ∧ recorded.Shows row := by
  obtain ⟨row, hmem, hendpoint, hopen⟩ := hmaintains.opened
  have hshows := hmaintains.tracks.active row hmem hendpoint hopen
  have hrow := mem_openEvents_iff.mpr ⟨hmem, hendpoint, hopen⟩
  have hlength : (written.openEvents endpointId).length = 1 :=
    le_antisymm (hcoherent.length_openEvents_le endpointId) (List.length_pos_of_mem hrow)
  obtain ⟨only, honly⟩ := List.length_eq_one_iff.mp hlength
  rw [honly, List.mem_singleton] at hrow
  exact ⟨row, hrow ▸ honly, hshows⟩

/-- An operation that commits for an endpoint maintains its events. -/
theorem maintains_of_commits {threshold numWorkers : ℕ} {engine next : Engine} {event : Event}
    (hcoherent : engine.Coherent) (hstep : step threshold numWorkers engine event = some next)
    (hcommits : event.operation.Commits endpointId) :
    ∃ state, next.tasks endpointId = some (some state) ∧
      Maintains event.time engine.database endpointId state next.database := by
  obtain ⟨-, -, -, executed, hexecuted, hdatabase, htasks⟩ := step_eq_some hstep
  obtain ⟨time, operation⟩ := event
  rw [hdatabase, htasks]
  cases operation with
  | createInitial environment endpoint result baseline =>
    obtain rfl : endpoint = endpointId := hcommits
    obtain ⟨htask, ⟨recorded, written⟩, hcreate, rfl⟩ := execute_createInitial hexecuted
    have hnone : RightTask engine.database endpoint (some none) :=
      htask ▸ hcoherent.tasks endpoint
    exact ⟨recorded, Function.update_self ..,
      maintains_createInitialEvent hcoherent.database hnone hcreate⟩
  | processCycle environment endpoint result baseline nowIso =>
    obtain rfl : endpoint = endpointId := hcommits
    obtain ⟨state, htask, ⟨recorded, written⟩, hprocess, rfl⟩ := execute_processCycle hexecuted
    have htracks : RightTask engine.database endpoint (some (some state)) :=
      htask ▸ hcoherent.tasks endpoint
    exact ⟨recorded, Function.update_self ..,
      maintains_processCycle hcoherent.database htracks hprocess⟩
  | crash | restart | spawn | failCycle | disable | openGap | closeGap => exact hcommits.elim

/-- In every reachable state an endpoint has at most one open event, and right after its task has
committed it has exactly one: the active event of the returned state, with its confirmed states. -/
theorem singleOpenEvent_of_run (threshold numWorkers : ℕ) (now : ℤ) (events : List Event)
    (finish : Engine)
    (hrun : run (step threshold numWorkers) (Engine.start now) events = some finish) :
    SingleOpenEvent threshold numWorkers finish := by
  have hcoherent := coherent_of_run hrun
  refine ⟨hcoherent.database.length_openEvents_le, fun event next endpointId hstep hcommits ↦ ?_⟩
  obtain ⟨state, htask, hmaintains⟩ := maintains_of_commits hcoherent hstep hcommits
  obtain ⟨-, hnow, -⟩ := step_eq_some hstep
  have hnext := (hcoherent.step hstep).1.database
  rw [hnow] at hnext
  obtain ⟨row, hrow, hshows⟩ := hmaintains.openEvents hnext
  exact ⟨state, row, htask, hrow, hshows⟩

/-- A cycle after a gap has closed the open event: it opens another. -/
def sampleCommits : List Event :=
  [⟨1, .restart 0⟩, ⟨2, .spawn Environment.empty 7⟩,
    ⟨3, .createInitial Environment.empty 7 ⟨1, 0, none⟩ none⟩,
    ⟨4, .openGap .databaseDisconnect none⟩, ⟨5, .closeGap 1⟩,
    ⟨6, .processCycle Environment.empty 7 ⟨5, 0, none⟩ none 6⟩]

theorem isSome_run_sampleCommits :
    (run (step 3 1) (Engine.start 0) sampleCommits).isSome := by decide +kernel

/-- The engine after these operations. -/
def sampleCommitted : Engine :=
  (run (step 3 1) (Engine.start 0) sampleCommits).get isSome_run_sampleCommits

theorem singleOpenEvent_sampleCommitted : SingleOpenEvent 3 1 sampleCommitted :=
  singleOpenEvent_of_run 3 1 0 sampleCommits sampleCommitted (Option.some_get _).symm

end Lnmp.Monitoring
