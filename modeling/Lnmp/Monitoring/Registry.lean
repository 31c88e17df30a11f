import Mathlib.Data.List.Basic
import Lnmp.Foundation.Dict
import Lnmp.Foundation.Runs
import Lnmp.Monitoring.StateMachine

/-!
# The endpoint registry

`monitoring/registry.py`: which endpoints have a sweep task. Every method holds the lock of the
registry and does not wait inside it, so that one call is one step. A sweep task completes at any
time after it was created, cancelled or not, and its done-callback is part of its completion. The
engine synchronizes by calls of `add_endpoint` and `remove_endpoint`, in any order with the
completions.

`taskUniqueness_iff` says in which runs the entries of the registry stay the live tasks: in those
where no task completes while another one is stored under its endpoint.
-/

set_option autoImplicit false
set_option relaxedAutoImplicit false

namespace Lnmp.Monitoring

open Lnmp.Foundation Lnmp.Foundation.Runs

/-! ### The registry -/

/-- The attributes of an endpoint that decide whether it is swept. The status is in upper case, as
the registry stores it. -/
structure MonitoredEndpoint where
  endpointStatus : String
  monitoringEnabled : Bool

/-- `should_run`. -/
def MonitoredEndpoint.shouldRun (endpoint : MonitoredEndpoint) : Bool :=
  endpoint.endpointStatus = "ACTIVE" && endpoint.monitoringEnabled

/-- A sweep task, by the order of creation. -/
abbrev TaskId := ℕ

/-- The endpoint of a sweep task, whether it was cancelled, and whether it has completed. -/
structure SweepTask where
  endpointId : EndpointId
  cancelled : Bool
  completed : Bool

/-- The task is live, and it was not cancelled. -/
def SweepTask.isActive (task : SweepTask) : Bool := !task.cancelled && !task.completed

/-- The dictionaries of the registry, and all tasks that were ever created. The diagnostic tasks
are left out. -/
structure EndpointRegistry where
  endpoints : Dict EndpointId MonitoredEndpoint
  runningTasks : Dict EndpointId TaskId
  tasks : List SweepTask

/-- A registry without endpoints. -/
def EndpointRegistry.empty : EndpointRegistry where
  endpoints := Dict.empty
  runningTasks := Dict.empty
  tasks := []

/-- Cancel the task that is stored under an endpoint, and remove its entry. -/
def EndpointRegistry.cancelTask (registry : EndpointRegistry) (endpointId : EndpointId) :
    EndpointRegistry :=
  match registry.runningTasks.get? endpointId with
  | none => registry
  | some task =>
    { registry with
      runningTasks := registry.runningTasks.erase endpointId
      tasks := registry.tasks.modify task fun sweep ↦ { sweep with cancelled := true } }

/-- Create a task for an endpoint, and store it. -/
def EndpointRegistry.spawnTask (registry : EndpointRegistry) (endpointId : EndpointId) :
    EndpointRegistry :=
  { registry with
    runningTasks := registry.runningTasks.set endpointId registry.tasks.length
    tasks := registry.tasks ++ [⟨endpointId, false, false⟩] }

/-- `add_endpoint`, with or without a function that gives the sweep. -/
def EndpointRegistry.addEndpoint (registry : EndpointRegistry) (endpointId : EndpointId)
    (endpoint : MonitoredEndpoint) (spawns : Bool) : EndpointRegistry :=
  let added := { registry with endpoints := registry.endpoints.set endpointId endpoint }
  if endpoint.shouldRun then
    if registry.runningTasks.get? endpointId = none ∧ spawns then added.spawnTask endpointId
    else added
  else added.cancelTask endpointId

/-- `update_endpoint`, with the attributes that are given. -/
def EndpointRegistry.updateEndpoint (registry : EndpointRegistry) (endpointId : EndpointId)
    (endpointStatus : Option String) (monitoringEnabled : Option Bool) : EndpointRegistry :=
  match registry.endpoints.get? endpointId with
  | none => registry
  | some existing =>
    let updated : MonitoredEndpoint :=
      ⟨endpointStatus.getD existing.endpointStatus,
        monitoringEnabled.getD existing.monitoringEnabled⟩
    let stored := { registry with endpoints := registry.endpoints.set endpointId updated }
    if updated.shouldRun then stored else stored.cancelTask endpointId

/-- `remove_endpoint`. -/
def EndpointRegistry.removeEndpoint (registry : EndpointRegistry) (endpointId : EndpointId) :
    EndpointRegistry :=
  let cancelled := registry.cancelTask endpointId
  { cancelled with endpoints := cancelled.endpoints.erase endpointId }

/-- A task completes, and its done-callback removes the entry of its endpoint; `none` when there is
no such task or it has completed before. -/
def EndpointRegistry.complete (registry : EndpointRegistry) (task : TaskId) :
    Option EndpointRegistry :=
  match registry.tasks[task]? with
  | none => none
  | some sweep =>
    if sweep.completed then none
    else
      some { registry with
        runningTasks := registry.runningTasks.erase sweep.endpointId
        tasks := registry.tasks.modify task fun sweep ↦ { sweep with completed := true } }

/-- What happens to a registry. -/
inductive RegistryCall
  | addEndpoint (endpointId : EndpointId) (endpoint : MonitoredEndpoint) (spawns : Bool)
  | updateEndpoint (endpointId : EndpointId) (endpointStatus : Option String)
      (monitoringEnabled : Option Bool)
  | removeEndpoint (endpointId : EndpointId)
  | complete (task : TaskId)

/-- One step of a registry. -/
def registryStep (registry : EndpointRegistry) : RegistryCall → Option EndpointRegistry
  | .addEndpoint endpointId endpoint spawns =>
    some (registry.addEndpoint endpointId endpoint spawns)
  | .updateEndpoint endpointId endpointStatus monitoringEnabled =>
    some (registry.updateEndpoint endpointId endpointStatus monitoringEnabled)
  | .removeEndpoint endpointId => some (registry.removeEndpoint endpointId)
  | .complete task => registry.complete task

/-! ### Live tasks -/

/-- A task of an endpoint is live, and it was not cancelled. -/
def EndpointRegistry.isLive (registry : EndpointRegistry) (endpointId : EndpointId)
    (task : TaskId) : Bool :=
  registry.tasks[task]?.any fun sweep ↦ sweep.endpointId = endpointId && sweep.isActive

/-- Every endpoint has at most one live task, and the entry of the endpoint is this task. -/
structure EndpointRegistry.TaskUniqueness (registry : EndpointRegistry) : Prop where
  unique : ∀ endpointId first second, registry.isLive endpointId first →
    registry.isLive endpointId second → first = second
  stored : ∀ endpointId task,
    registry.runningTasks.get? endpointId = some task ↔ registry.isLive endpointId task

/-- No task completes while another one is stored under its endpoint. -/
def CompletesStored (registry : EndpointRegistry) (call : RegistryCall) : Prop :=
  ∀ task sweep stored, call = .complete task → registry.tasks[task]? = some sweep →
    registry.runningTasks.get? sweep.endpointId = some stored → stored = task

variable {registry next finish : EndpointRegistry} {endpointId other : EndpointId} {task : TaskId}

theorem isLive_iff : registry.isLive endpointId task ↔
    ∃ sweep, registry.tasks[task]? = some sweep ∧ sweep.endpointId = endpointId ∧
      sweep.isActive = true := by
  rw [EndpointRegistry.isLive, Option.any_eq_true]
  simp only [Bool.and_eq_true, decide_eq_true_eq]

/-- A live task belongs to one endpoint. -/
theorem endpointId_eq_of_isLive (hfirst : registry.isLive endpointId task)
    (hsecond : registry.isLive other task) : endpointId = other := by
  obtain ⟨sweep, hsweep, rfl, -⟩ := isLive_iff.mp hfirst
  obtain ⟨same, hsame, rfl, -⟩ := isLive_iff.mp hsecond
  exact congrArg SweepTask.endpointId (Option.some.inj (hsweep.symm.trans hsame))

/-- The entries are the live tasks when they are each the one live task of their endpoint. -/
theorem taskUniqueness_of_stored (hstored : ∀ endpointId task,
    registry.runningTasks.get? endpointId = some task ↔ registry.isLive endpointId task) :
    registry.TaskUniqueness where
  unique := fun endpointId first second hfirst hsecond ↦ Option.some.inj
    (((hstored endpointId first).mpr hfirst).symm.trans ((hstored endpointId second).mpr hsecond))
  stored := hstored

/-- A task that is modified to an inactive one is not live any more, and no other task changes. -/
theorem isLive_modify (registry : EndpointRegistry) {modified : EndpointRegistry}
    {change : SweepTask → SweepTask} {victim : TaskId}
    (htasks : modified.tasks = registry.tasks.modify victim change)
    (hinactive : ∀ sweep, (change sweep).isActive = false) :
    modified.isLive endpointId task ↔ registry.isLive endpointId task ∧ task ≠ victim := by
  rw [EndpointRegistry.isLive, htasks, List.getElem?_modify, EndpointRegistry.isLive]
  by_cases hvictim : victim = task
  · subst hvictim
    refine iff_of_false ?_ fun h ↦ h.2 rfl
    cases registry.tasks[victim]? <;> simp [hinactive]
  · have hne : task ≠ victim := fun h ↦ hvictim h.symm
    simp [hvictim, hne]

/-- A created task is live, and no other task changes. -/
theorem isLive_spawnTask :
    (registry.spawnTask endpointId).isLive other task ↔
      registry.isLive other task ∨ other = endpointId ∧ task = registry.tasks.length := by
  rw [EndpointRegistry.isLive, EndpointRegistry.spawnTask, EndpointRegistry.isLive]
  rcases lt_trichotomy task registry.tasks.length with hlt | rfl | hgt
  · simp [List.getElem?_append_left hlt, hlt.ne]
  · simp [SweepTask.isActive, eq_comm]
  · have hnew : (registry.tasks ++ [⟨endpointId, false, false⟩])[task]? = none :=
      List.getElem?_eq_none (by rw [List.length_append]; exact hgt)
    rw [hnew, List.getElem?_eq_none hgt.le]
    simp [hgt.ne']

/-- The entries and the tasks decide whether the tasks are unique, whatever the endpoints are. -/
theorem EndpointRegistry.TaskUniqueness.congr (hunique : registry.TaskUniqueness)
    (hrunning : next.runningTasks = registry.runningTasks)
    (htasks : next.tasks = registry.tasks) : next.TaskUniqueness := by
  refine taskUniqueness_of_stored fun endpointId task ↦ ?_
  rw [hrunning, isLive, htasks]
  exact hunique.stored endpointId task

theorem EndpointRegistry.TaskUniqueness.cancelTask (hunique : registry.TaskUniqueness)
    (endpointId : EndpointId) : (registry.cancelTask endpointId).TaskUniqueness := by
  unfold EndpointRegistry.cancelTask
  cases hget : registry.runningTasks.get? endpointId with
  | none => exact hunique
  | some victim =>
    have hvictim := (hunique.stored endpointId victim).mp hget
    refine taskUniqueness_of_stored fun other task ↦ ?_
    dsimp only
    rw [Dict.get?_erase, isLive_modify registry rfl fun _ ↦ rfl]
    by_cases hother : other = endpointId
    · rw [if_pos hother]
      refine iff_of_false (Option.some_ne_none _).symm fun h ↦ h.2 ?_
      exact hunique.unique endpointId task victim (hother ▸ h.1) hvictim
    · rw [if_neg hother, hunique.stored]
      refine (and_iff_left_of_imp fun hlive hsame ↦ hother ?_).symm
      exact endpointId_eq_of_isLive (hsame ▸ hlive) hvictim

theorem EndpointRegistry.TaskUniqueness.spawnTask (hunique : registry.TaskUniqueness)
    (hnone : registry.runningTasks.get? endpointId = none) :
    (registry.spawnTask endpointId).TaskUniqueness := by
  refine taskUniqueness_of_stored fun other task ↦ ?_
  rw [isLive_spawnTask, EndpointRegistry.spawnTask, Dict.get?_set, ← hunique.stored]
  by_cases hother : other = endpointId
  · subst hother
    rw [if_pos rfl, hnone]
    simp [eq_comm]
  · simp [hother]

/-- The step lemma for the calls of the registry. -/
theorem EndpointRegistry.TaskUniqueness.addEndpoint (hunique : registry.TaskUniqueness)
    (endpointId : EndpointId) (endpoint : MonitoredEndpoint) (spawns : Bool) :
    (registry.addEndpoint endpointId endpoint spawns).TaskUniqueness := by
  unfold EndpointRegistry.addEndpoint
  have hadded : ({ registry with endpoints := registry.endpoints.set endpointId endpoint } :
      EndpointRegistry).TaskUniqueness :=
    hunique.congr rfl rfl
  dsimp only
  split_ifs with hshould hspawns
  · exact hadded.spawnTask hspawns.1
  · exact hadded
  · exact hadded.cancelTask endpointId

theorem EndpointRegistry.TaskUniqueness.updateEndpoint (hunique : registry.TaskUniqueness)
    (endpointId : EndpointId) (endpointStatus : Option String) (monitoringEnabled : Option Bool) :
    (registry.updateEndpoint endpointId endpointStatus monitoringEnabled).TaskUniqueness := by
  unfold EndpointRegistry.updateEndpoint
  split
  · exact hunique
  · dsimp only
    split_ifs
    · exact hunique.congr rfl rfl
    · refine TaskUniqueness.cancelTask ?_ endpointId
      exact hunique.congr rfl rfl

theorem EndpointRegistry.TaskUniqueness.removeEndpoint (hunique : registry.TaskUniqueness)
    (endpointId : EndpointId) : (registry.removeEndpoint endpointId).TaskUniqueness :=
  (hunique.cancelTask endpointId).congr rfl rfl

/-- What a completion does. -/
theorem complete_eq_some (hcomplete : registry.complete task = some next) :
    ∃ sweep, registry.tasks[task]? = some sweep ∧
      next.runningTasks = registry.runningTasks.erase sweep.endpointId ∧
      next.tasks = registry.tasks.modify task fun sweep ↦ { sweep with completed := true } := by
  unfold EndpointRegistry.complete at hcomplete
  split at hcomplete
  · exact absurd hcomplete (Option.some_ne_none _).symm
  · obtain ⟨-, hnext⟩ := Option.ite_none_left_eq_some.mp hcomplete
    obtain rfl := Option.some.inj hnext
    exact ⟨_, ‹_›, rfl, rfl⟩

/-- The step lemma for completions: a completion keeps the tasks unique exactly when no other task
is stored under the endpoint. -/
theorem EndpointRegistry.TaskUniqueness.complete_iff (hunique : registry.TaskUniqueness)
    (hcomplete : registry.complete task = some next) :
    next.TaskUniqueness ↔ CompletesStored registry (.complete task) := by
  obtain ⟨sweep, hsweep, hrunning, htasks⟩ := complete_eq_some hcomplete
  have hlive : ∀ endpointId other, next.isLive endpointId other ↔
      registry.isLive endpointId other ∧ other ≠ task := fun endpointId other ↦
    isLive_modify registry htasks fun _ ↦ Bool.and_false _
  constructor
  · intro hkept completing same stored hcall hsame hstored
    obtain rfl := RegistryCall.complete.inj hcall
    obtain rfl := Option.some.inj (hsweep.symm.trans hsame)
    by_contra hne
    have hstill := (hkept.stored sweep.endpointId stored).mpr
      ((hlive _ _).mpr ⟨(hunique.stored _ _).mp hstored, hne⟩)
    rw [hrunning, Dict.get?_erase, if_pos rfl] at hstill
    exact Option.some_ne_none _ hstill.symm
  · intro hstored
    refine taskUniqueness_of_stored fun endpointId other ↦ ?_
    rw [hrunning, Dict.get?_erase, hlive, ← hunique.stored]
    by_cases hsame : endpointId = sweep.endpointId
    · subst hsame
      rw [if_pos rfl]
      refine iff_of_false (Option.some_ne_none _).symm fun h ↦ h.2 ?_
      exact hstored task sweep other rfl hsweep h.1
    · rw [if_neg hsame]
      refine (and_iff_left_of_imp fun hget hother ↦ hsame ?_).symm
      obtain ⟨same, hsweep', rfl, -⟩ := isLive_iff.mp ((hunique.stored endpointId other).mp hget)
      rw [hother, hsweep, Option.some_inj] at hsweep'
      exact congrArg SweepTask.endpointId hsweep'.symm

/-- The step lemma: a step keeps the tasks unique exactly when it completes no task while another
one is stored. -/
theorem taskUniqueness_step_iff {call : RegistryCall} (hunique : registry.TaskUniqueness)
    (hstep : registryStep registry call = some next) :
    next.TaskUniqueness ↔ CompletesStored registry call := by
  cases call with
  | complete task => exact hunique.complete_iff hstep
  | addEndpoint endpointId endpoint spawns =>
    obtain rfl := Option.some.inj hstep
    exact iff_of_true (hunique.addEndpoint ..) fun _ _ _ hcall ↦ RegistryCall.noConfusion hcall
  | updateEndpoint endpointId endpointStatus monitoringEnabled =>
    obtain rfl := Option.some.inj hstep
    exact iff_of_true (hunique.updateEndpoint ..) fun _ _ _ hcall ↦ RegistryCall.noConfusion hcall
  | removeEndpoint endpointId =>
    obtain rfl := Option.some.inj hstep
    exact iff_of_true (hunique.removeEndpoint _) fun _ _ _ hcall ↦ RegistryCall.noConfusion hcall

theorem taskUniqueness_empty : EndpointRegistry.empty.TaskUniqueness :=
  taskUniqueness_of_stored fun _ _ ↦
    iff_of_false (Option.some_ne_none _).symm Bool.false_ne_true

/-- In every state of a run, each endpoint has at most one live task, and the entry of the endpoint
is this task, exactly when in every step of the run no task completes while another one is stored
under its endpoint. -/
theorem taskUniqueness_iff (calls : List RegistryCall) (finish : EndpointRegistry)
    (hrun : run registryStep EndpointRegistry.empty calls = some finish) :
    EveryState registryStep EndpointRegistry.empty calls EndpointRegistry.TaskUniqueness ↔
      EveryStep registryStep EndpointRegistry.empty calls CompletesStored :=
  everyState_iff_everyStep (fun _ ↦ True) EndpointRegistry.TaskUniqueness
    (fun _ _ _ _ _ ↦ trivial) (fun _ _ _ _ hunique hstep ↦ taskUniqueness_step_iff hunique hstep)
    trivial taskUniqueness_empty hrun

/-- An active endpoint. -/
def activeEndpoint : MonitoredEndpoint := ⟨"ACTIVE", true⟩

/-- An endpoint is added, removed and added again, as syncs of the engine do; its first task
completes only now, and the next sync adds the endpoint once more. -/
def readdedCalls : List RegistryCall :=
  [.addEndpoint 1 activeEndpoint true, .removeEndpoint 1, .addEndpoint 1 activeEndpoint true,
    .complete 0, .addEndpoint 1 activeEndpoint true]

theorem isSome_run_readdedCalls :
    (run registryStep EndpointRegistry.empty readdedCalls).isSome := by decide

theorem taskUniqueness_readdedCalls :
    EveryState registryStep EndpointRegistry.empty readdedCalls EndpointRegistry.TaskUniqueness ↔
      EveryStep registryStep EndpointRegistry.empty readdedCalls CompletesStored :=
  taskUniqueness_iff readdedCalls _ (Option.some_get isSome_run_readdedCalls).symm

/-- The late callback of the first task removes the entry of the second one, so that the last call
creates a third task beside it. -/
theorem two_live_tasks_after_late_callback :
    ∃ finish, run registryStep EndpointRegistry.empty readdedCalls = some finish ∧
      finish.isLive 1 1 = true ∧ finish.isLive 1 2 = true ∧ ¬ finish.TaskUniqueness :=
  ⟨_, (Option.some_get isSome_run_readdedCalls).symm, by decide, by decide,
    fun hunique ↦ absurd (hunique.unique 1 1 2 (by decide) (by decide))
      (by decide)⟩

end Lnmp.Monitoring
