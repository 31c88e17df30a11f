import Lnmp.Foundation.PythonText
import Lnmp.Monitoring.Registry

/-!
# The address that a sweep probes

`monitoring/registry.py` with `main` and `monitor_endpoint` of `monitoring/engine.py`. The entry of
an endpoint holds its address; the sweep task holds the address that the entry had when the task was
created, and pings it in every cycle. `add_endpoint` replaces the entry and `update_endpoint`
changes it in place, and a task that runs keeps its address both times.

`probesTarget_iff` says in which runs every live task pings the address of the current entry: in
those where no call gives an endpoint another address, or removes it, while a live task of it goes
on.
-/

set_option autoImplicit false
set_option relaxedAutoImplicit false

namespace Lnmp.Monitoring

open Lnmp.Foundation Lnmp.Foundation.Runs Lnmp.Foundation.PythonText

/-! ### Addresses beside the registry -/

/-- The address of an endpoint as the registry stores it: the text before the first `/`. -/
def cleanAddress (ipAddress : String) : String := strip (splitHead '/' ipAddress)

/-- The registry with the `ip_address` of its entries, and the address that each task was created
with. -/
structure TargetRegistry where
  registry : EndpointRegistry
  ipAddresses : Dict EndpointId String
  targets : List String

/-- A registry without endpoints. -/
def TargetRegistry.empty : TargetRegistry where
  registry := EndpointRegistry.empty
  ipAddresses := Dict.empty
  targets := []

/-- What happens to a registry, with the `str` of the addresses that the calls give. A dictionary
with `None` under `ip_address` gives the text `None`. -/
inductive TargetCall
  | addEndpoint (endpointId : EndpointId) (endpoint : MonitoredEndpoint) (ipAddress : String)
      (spawns : Bool)
  | updateEndpoint (endpointId : EndpointId) (ipAddress : Option String)
      (endpointStatus : Option String) (monitoringEnabled : Option Bool)
  | removeEndpoint (endpointId : EndpointId)
  | complete (task : TaskId)

/-- The call without the address. -/
def TargetCall.registryCall : TargetCall → RegistryCall
  | .addEndpoint endpointId endpoint _ spawns => .addEndpoint endpointId endpoint spawns
  | .updateEndpoint endpointId _ endpointStatus monitoringEnabled =>
    .updateEndpoint endpointId endpointStatus monitoringEnabled
  | .removeEndpoint endpointId => .removeEndpoint endpointId
  | .complete task => .complete task

/-- The addresses of the entries after a call. -/
def TargetRegistry.ipAddressesAfter (state : TargetRegistry) :
    TargetCall → Dict EndpointId String
  | .addEndpoint endpointId _ ipAddress _ =>
    state.ipAddresses.set endpointId (cleanAddress ipAddress)
  | .updateEndpoint endpointId ipAddress _ _ =>
    match state.registry.endpoints.get? endpointId, ipAddress with
    | some _, some ipAddress => state.ipAddresses.set endpointId (cleanAddress ipAddress)
    | _, _ => state.ipAddresses
  | .removeEndpoint endpointId => state.ipAddresses.erase endpointId
  | .complete _ => state.ipAddresses

/-- The addresses of the tasks after a call: a task that is created takes that of the new entry. -/
def TargetRegistry.targetsAfter (state : TargetRegistry) : TargetCall → List String
  | .addEndpoint endpointId endpoint ipAddress spawns =>
    if endpoint.shouldRun = true ∧ state.registry.runningTasks.get? endpointId = none ∧ spawns then
      state.targets ++ [cleanAddress ipAddress]
    else state.targets
  | _ => state.targets

/-- One step of the registry with the addresses. -/
def targetStep (state : TargetRegistry) (call : TargetCall) : Option TargetRegistry :=
  (registryStep state.registry call.registryCall).map fun next ↦
    ⟨next, state.ipAddressesAfter call, state.targetsAfter call⟩

/-- Every live task pings the address of the current entry of its endpoint. -/
def TargetRegistry.ProbesTarget (state : TargetRegistry) : Prop :=
  ∀ endpointId task, state.registry.isLive endpointId task →
    ∃ ipAddress, state.targets[task]? = some ipAddress ∧
      state.ipAddresses.get? endpointId = some ipAddress

/-- All cancelled tasks have finished. -/
def TargetRegistry.Settled (state : TargetRegistry) : Prop :=
  ∀ sweep ∈ state.registry.tasks, sweep.cancelled = true → sweep.completed = true

/-- Once all cancelled tasks have finished, every task that has not finished pings the address of
the current entry of its endpoint. -/
def TargetRegistry.SettlesOnTarget (state : TargetRegistry) : Prop :=
  state.Settled → ∀ (task : TaskId) (sweep : SweepTask),
    state.registry.tasks[task]? = some sweep → sweep.completed = false →
      ∃ ipAddress, state.targets[task]? = some ipAddress ∧
        state.ipAddresses.get? sweep.endpointId = some ipAddress

/-! ### Which tasks a call stops -/

/-- The call cancels the task, or the task completes. -/
def EndpointRegistry.stops (registry : EndpointRegistry) (task : TaskId) : RegistryCall → Bool
  | .addEndpoint endpointId endpoint _ =>
    !endpoint.shouldRun && registry.runningTasks.get? endpointId = some task
  | .updateEndpoint endpointId endpointStatus monitoringEnabled =>
    match registry.endpoints.get? endpointId with
    | none => false
    | some existing =>
      !(MonitoredEndpoint.mk (endpointStatus.getD existing.endpointStatus)
          (monitoringEnabled.getD existing.monitoringEnabled)).shouldRun &&
        registry.runningTasks.get? endpointId = some task
  | .removeEndpoint endpointId => registry.runningTasks.get? endpointId = some task
  | .complete completing => completing = task

/-- A live task of the endpoint goes on. -/
def EndpointRegistry.GoesOn (registry : EndpointRegistry) (endpointId : EndpointId)
    (call : RegistryCall) : Prop :=
  ∃ task, registry.isLive endpointId task ∧ registry.stops task call = false

/-- While a live task of the endpoint goes on, its entry keeps its address. -/
def KeepsTarget (state : TargetRegistry) : TargetCall → Prop
  | .addEndpoint endpointId endpoint ipAddress spawns =>
    state.registry.GoesOn endpointId (.addEndpoint endpointId endpoint spawns) →
      state.ipAddresses.get? endpointId = some (cleanAddress ipAddress)
  | .updateEndpoint endpointId ipAddress endpointStatus monitoringEnabled =>
    ∀ address, ipAddress = some address →
      (state.registry.endpoints.get? endpointId).isSome →
      state.registry.GoesOn endpointId
        (.updateEndpoint endpointId endpointStatus monitoringEnabled) →
      state.ipAddresses.get? endpointId = some (cleanAddress address)
  | .removeEndpoint endpointId =>
    ¬ state.registry.GoesOn endpointId (.removeEndpoint endpointId)
  | .complete _ => True

/-- The call creates a task of the endpoint. -/
def EndpointRegistry.spawns (registry : EndpointRegistry) (endpointId : EndpointId) :
    RegistryCall → Prop
  | .addEndpoint adding endpoint spawns =>
    endpointId = adding ∧ endpoint.shouldRun = true ∧
      registry.runningTasks.get? adding = none ∧ spawns
  | _ => False

variable {registry next : EndpointRegistry} {endpointId other : EndpointId} {task : TaskId}

theorem lt_length_of_isLive (hlive : registry.isLive endpointId task) :
    task < registry.tasks.length := by
  obtain ⟨sweep, hsweep, -⟩ := isLive_iff.mp hlive
  exact (List.getElem?_eq_some_iff.mp hsweep).1

/-- The entries of the registry do not decide which tasks are live. -/
theorem isLive_mk (endpoints : Dict EndpointId MonitoredEndpoint)
    (runningTasks : Dict EndpointId TaskId) :
    (EndpointRegistry.mk endpoints runningTasks registry.tasks).isLive endpointId task =
      registry.isLive endpointId task := rfl

theorem isLive_cancelTask :
    (registry.cancelTask endpointId).isLive other task ↔
      registry.isLive other task ∧ registry.runningTasks.get? endpointId ≠ some task := by
  unfold EndpointRegistry.cancelTask
  cases hget : registry.runningTasks.get? endpointId with
  | none => exact (and_iff_left (Option.some_ne_none task).symm).symm
  | some victim =>
    dsimp only
    rw [isLive_modify registry rfl fun _ ↦ rfl, ne_eq, ne_eq, Option.some_inj, @eq_comm _ task]

/-- What a call leaves live: the live tasks that it does not stop, and the one that it creates. -/
theorem isLive_addEndpoint {endpoint : MonitoredEndpoint} {spawns : Bool} :
    (registry.addEndpoint endpointId endpoint spawns).isLive other task ↔
      registry.isLive other task ∧
          registry.stops task (.addEndpoint endpointId endpoint spawns) = false ∨
        registry.spawns other (.addEndpoint endpointId endpoint spawns) ∧
          task = registry.tasks.length := by
  simp only [EndpointRegistry.addEndpoint, EndpointRegistry.stops, EndpointRegistry.spawns]
  split_ifs with hshould hspawns
  · rw [isLive_spawnTask, isLive_mk]
    simp [hshould, hspawns]
  · rw [isLive_mk]
    simp [hshould, hspawns]
  · rw [isLive_cancelTask, isLive_mk]
    simp [hshould]

theorem isLive_updateEndpoint {endpointStatus : Option String} {monitoringEnabled : Option Bool} :
    (registry.updateEndpoint endpointId endpointStatus monitoringEnabled).isLive other task ↔
      registry.isLive other task ∧
        registry.stops task (.updateEndpoint endpointId endpointStatus monitoringEnabled) =
          false := by
  unfold EndpointRegistry.updateEndpoint
  cases hget : registry.endpoints.get? endpointId with
  | none => simp [EndpointRegistry.stops, hget]
  | some existing =>
    simp only [EndpointRegistry.stops, hget]
    split_ifs with hshould
    · rw [isLive_mk]
      simp [hshould]
    · rw [isLive_cancelTask, isLive_mk]
      simp [hshould]

theorem isLive_removeEndpoint :
    (registry.removeEndpoint endpointId).isLive other task ↔
      registry.isLive other task ∧ registry.stops task (.removeEndpoint endpointId) = false := by
  rw [EndpointRegistry.removeEndpoint, EndpointRegistry.stops, decide_eq_false_iff_not,
    ← ne_eq, ← isLive_cancelTask, isLive_mk]

theorem isLive_registryStep {call : RegistryCall} (hstep : registryStep registry call = some next) :
    next.isLive endpointId task ↔
      registry.isLive endpointId task ∧ registry.stops task call = false ∨
        registry.spawns endpointId call ∧ task = registry.tasks.length := by
  cases call with
  | addEndpoint adding endpoint spawns =>
    obtain rfl := Option.some.inj hstep
    exact isLive_addEndpoint
  | updateEndpoint updating endpointStatus monitoringEnabled =>
    obtain rfl := Option.some.inj hstep
    simp [isLive_updateEndpoint, EndpointRegistry.spawns]
  | removeEndpoint removing =>
    obtain rfl := Option.some.inj hstep
    simp [isLive_removeEndpoint, EndpointRegistry.spawns]
  | complete completing =>
    obtain ⟨-, -, -, htasks⟩ := complete_eq_some hstep
    rw [isLive_modify registry htasks fun _ ↦ Bool.and_false _]
    simp [EndpointRegistry.stops, EndpointRegistry.spawns, @eq_comm _ task]

/-! ### One address for each task -/

theorem length_tasks_cancelTask :
    (registry.cancelTask endpointId).tasks.length = registry.tasks.length := by
  unfold EndpointRegistry.cancelTask
  split
  · rfl
  · exact List.length_modify ..

variable {state after : TargetRegistry} {call : TargetCall}

/-- What a step of the registry with the addresses is. -/
theorem targetStep_eq_some (hstep : targetStep state call = some after) :
    registryStep state.registry call.registryCall = some after.registry ∧
      after.ipAddresses = state.ipAddressesAfter call ∧
      after.targets = state.targetsAfter call := by
  obtain ⟨next, hnext, rfl⟩ := Option.map_eq_some_iff.mp hstep
  exact ⟨hnext, rfl, rfl⟩

/-- A call leaves the addresses of the tasks as they are, and adds one when it creates a task. -/
theorem targetsAfter_eq_or :
    state.targetsAfter call = state.targets ∨
      ∃ ipAddress, state.targetsAfter call = state.targets ++ [ipAddress] := by
  unfold TargetRegistry.targetsAfter
  split
  · split_ifs
    · exact Or.inr ⟨_, rfl⟩
    · exact Or.inl rfl
  · exact Or.inl rfl

theorem getElem?_targetsAfter (hlt : task < state.targets.length) :
    (state.targetsAfter call)[task]? = state.targets[task]? := by
  rcases targetsAfter_eq_or with hsame | ⟨ipAddress, hadded⟩
  · rw [hsame]
  · rw [hadded, List.getElem?_append_left hlt]

/-- The task that a call creates takes the address of the new entry. -/
theorem getElem?_targetsAfter_length
    (hspawns : state.registry.spawns endpointId call.registryCall) :
    ∃ ipAddress, (state.targetsAfter call)[state.targets.length]? = some ipAddress ∧
      (state.ipAddressesAfter call).get? endpointId = some ipAddress := by
  cases call with
  | addEndpoint adding endpoint ipAddress spawns =>
    obtain ⟨rfl, hspawns⟩ := hspawns
    refine ⟨cleanAddress ipAddress, ?_, (Dict.get?_set ..).trans (if_pos rfl)⟩
    simp only [TargetRegistry.targetsAfter, if_pos hspawns, List.getElem?_concat_length]
  | updateEndpoint | removeEndpoint | complete => exact hspawns.elim

/-- Every task has an address. -/
theorem length_targets_targetStep (hstep : targetStep state call = some after)
    (hlength : state.targets.length = state.registry.tasks.length) :
    after.targets.length = after.registry.tasks.length := by
  obtain ⟨hregistry, -, htargets⟩ := targetStep_eq_some hstep
  rw [htargets]
  cases call with
  | addEndpoint endpointId endpoint ipAddress spawns =>
    rw [← Option.some.inj hregistry]
    simp only [TargetRegistry.targetsAfter, EndpointRegistry.addEndpoint]
    by_cases hshould : endpoint.shouldRun = true
    · simp only [hshould, true_and, if_true]
      split_ifs
      · rw [EndpointRegistry.spawnTask, List.length_append, List.length_append, hlength]
        rfl
      · exact hlength
    · rw [if_neg fun h ↦ hshould h.1, if_neg hshould, length_tasks_cancelTask]
      exact hlength
  | updateEndpoint endpointId ipAddress endpointStatus monitoringEnabled =>
    rw [← Option.some.inj hregistry, EndpointRegistry.updateEndpoint]
    split
    · exact hlength
    · dsimp only
      split_ifs
      · exact hlength
      · rw [length_tasks_cancelTask]
        exact hlength
  | removeEndpoint endpointId =>
    rw [← Option.some.inj hregistry]
    exact hlength.trans length_tasks_cancelTask.symm
  | complete task =>
    obtain ⟨-, -, -, htasks⟩ := complete_eq_some hregistry
    rw [htasks, List.length_modify]
    exact hlength

/-! ### The invariant -/

/-- The step lemma: a step keeps the targets exactly when it keeps the address of every endpoint
with a live task that goes on. -/
theorem probesTarget_targetStep_iff
    (hlength : state.targets.length = state.registry.tasks.length) (hprobes : state.ProbesTarget)
    (hstep : targetStep state call = some after) :
    after.ProbesTarget ↔
      ∀ endpointId, state.registry.GoesOn endpointId call.registryCall →
        (state.ipAddressesAfter call).get? endpointId = state.ipAddresses.get? endpointId := by
  obtain ⟨hregistry, haddresses, htargets⟩ := targetStep_eq_some hstep
  constructor
  · rintro hafter endpointId ⟨task, hlive, hstops⟩
    have hkept := (isLive_registryStep hregistry).mpr (Or.inl ⟨hlive, hstops⟩)
    obtain ⟨ipAddress, htarget, haddress⟩ := hafter endpointId task hkept
    obtain ⟨old, hold, hentry⟩ := hprobes endpointId task hlive
    have hlt := hlength ▸ lt_length_of_isLive hlive
    rw [htargets, getElem?_targetsAfter hlt, hold] at htarget
    rw [← haddresses, haddress, hentry, htarget]
  · intro hkeeps endpointId task hlive
    rw [htargets, haddresses]
    rcases (isLive_registryStep hregistry).mp hlive with ⟨hold, hstops⟩ | ⟨hspawns, rfl⟩
    · have hlt := hlength ▸ lt_length_of_isLive hold
      rw [getElem?_targetsAfter hlt, hkeeps endpointId ⟨task, hold, hstops⟩]
      exact hprobes endpointId task hold
    · rw [← hlength]
      exact getElem?_targetsAfter_length hspawns

/-- A live task that goes on belongs to an entry with an address. -/
theorem exists_get?_of_goesOn {registryCall : RegistryCall} (hprobes : state.ProbesTarget)
    (hgoes : state.registry.GoesOn endpointId registryCall) :
    ∃ ipAddress, state.ipAddresses.get? endpointId = some ipAddress := by
  obtain ⟨task, hlive, -⟩ := hgoes
  obtain ⟨ipAddress, -, hentry⟩ := hprobes endpointId task hlive
  exact ⟨ipAddress, hentry⟩

/-- A call on one endpoint keeps the addresses of the others. -/
theorem keepsTarget_iff (hprobes : state.ProbesTarget) :
    KeepsTarget state call ↔
      ∀ endpointId, state.registry.GoesOn endpointId call.registryCall →
        (state.ipAddressesAfter call).get? endpointId = state.ipAddresses.get? endpointId := by
  have hset : ∀ changing ipAddress, (∀ endpointId,
      state.registry.GoesOn endpointId call.registryCall →
        (state.ipAddresses.set changing ipAddress).get? endpointId =
          state.ipAddresses.get? endpointId) ↔
      (state.registry.GoesOn changing call.registryCall →
        state.ipAddresses.get? changing = some ipAddress) := by
    intro changing ipAddress
    constructor
    · intro hkeeps hgoes
      rw [← hkeeps changing hgoes, Dict.get?_set, if_pos rfl]
    · intro hsame endpointId hgoes
      rw [Dict.get?_set]
      split_ifs with hchanging
      · exact (hsame (hchanging ▸ hgoes)).symm ▸ hchanging ▸ rfl
      · rfl
  cases call with
  | addEndpoint adding endpoint ipAddress spawns => exact (hset adding _).symm
  | updateEndpoint updating ipAddress endpointStatus monitoringEnabled =>
    cases hentry : state.registry.endpoints.get? updating with
    | none => simp [KeepsTarget, TargetRegistry.ipAddressesAfter, hentry]
    | some existing =>
      cases ipAddress with
      | none => simp [KeepsTarget, TargetRegistry.ipAddressesAfter, hentry]
      | some address =>
        simp only [TargetRegistry.ipAddressesAfter, hentry]
        rw [hset updating]
        simp [KeepsTarget, TargetCall.registryCall, hentry]
  | removeEndpoint removing =>
    rw [KeepsTarget]
    constructor
    · intro hnone endpointId hgoes
      have hne : endpointId ≠ removing := fun hsame ↦ hnone (hsame ▸ hgoes)
      exact (Dict.get?_erase ..).trans (if_neg hne)
    · intro hkeeps hgoes
      obtain ⟨ipAddress, hentry⟩ := exists_get?_of_goesOn hprobes hgoes
      have hsame := hkeeps removing hgoes
      rw [TargetRegistry.ipAddressesAfter, Dict.get?_erase, if_pos rfl, hentry] at hsame
      exact Option.some_ne_none _ hsame.symm
  | complete => exact iff_of_true trivial fun _ _ ↦ rfl

theorem probesTarget_empty : TargetRegistry.empty.ProbesTarget :=
  fun _ _ hlive ↦ absurd hlive Bool.false_ne_true

/-- In a settled state the tasks that have not finished are the live ones. -/
theorem isLive_of_settled {sweep : SweepTask} (hsettled : state.Settled)
    (hsweep : state.registry.tasks[task]? = some sweep) (hrunning : sweep.completed = false) :
    state.registry.isLive sweep.endpointId task := by
  have hcancelled : sweep.cancelled = false := by
    by_contra hcancelled
    have hcompleted := hsettled sweep (List.mem_of_getElem? hsweep) (eq_true_of_ne_false hcancelled)
    exact Bool.false_ne_true (hrunning.symm.trans hcompleted)
  exact isLive_iff.mpr ⟨sweep, hsweep, rfl, by rw [SweepTask.isActive, hcancelled, hrunning]; rfl⟩

/-- In every state of a run, each live task pings the address of the current entry of its endpoint,
exactly when no step of the run changes the address of an entry, or removes it, while a live task of
it goes on. Then, whenever all cancelled tasks have finished, every sweep that has not finished
pings the address of the current entry. -/
theorem probesTarget_iff (calls : List TargetCall) (finish : TargetRegistry)
    (hrun : run targetStep TargetRegistry.empty calls = some finish) :
    (EveryState targetStep TargetRegistry.empty calls TargetRegistry.ProbesTarget ↔
        EveryStep targetStep TargetRegistry.empty calls KeepsTarget) ∧
      (EveryStep targetStep TargetRegistry.empty calls KeepsTarget →
        EveryState targetStep TargetRegistry.empty calls
          TargetRegistry.SettlesOnTarget) := by
  have hiff : EveryState targetStep TargetRegistry.empty calls TargetRegistry.ProbesTarget ↔
      EveryStep targetStep TargetRegistry.empty calls KeepsTarget := by
    refine everyState_iff_everyStep
      (fun state ↦ state.targets.length = state.registry.tasks.length) TargetRegistry.ProbesTarget
      (fun state call next hlength hstep ↦ length_targets_targetStep hstep hlength) ?_ rfl
      probesTarget_empty hrun
    intro state call next hlength hprobes hstep
    rw [keepsTarget_iff hprobes]
    exact probesTarget_targetStep_iff hlength hprobes hstep
  refine ⟨hiff,
    fun hsteps before rest state hsplit hbefore hsettled task sweep hsweep hrunning ↦ ?_⟩
  rw [← hiff] at hsteps
  exact hsteps before rest state hsplit hbefore sweep.endpointId task
    (isLive_of_settled hsettled hsweep hrunning)

/-- The sync adds an active endpoint, and adds it again after its address was edited. -/
def editedCalls : List TargetCall :=
  [.addEndpoint 1 activeEndpoint "192.0.2.1" true,
    .addEndpoint 1 activeEndpoint "192.0.2.9/32" true]

theorem isSome_run_editedCalls : (run targetStep TargetRegistry.empty editedCalls).isSome := by
  decide

/-- An edited address is taken when the endpoint was disabled before, so that its task was
cancelled. -/
def disabledCalls : List TargetCall :=
  [.addEndpoint 1 activeEndpoint "192.0.2.1" true, .updateEndpoint 1 none none (some false),
    .complete 0, .addEndpoint 1 activeEndpoint "192.0.2.9/32" true]

theorem isSome_run_disabledCalls : (run targetStep TargetRegistry.empty disabledCalls).isSome := by
  decide

theorem probesTarget_disabledCalls :
    (EveryState targetStep TargetRegistry.empty disabledCalls TargetRegistry.ProbesTarget ↔
        EveryStep targetStep TargetRegistry.empty disabledCalls KeepsTarget) ∧
      (EveryStep targetStep TargetRegistry.empty disabledCalls KeepsTarget →
        EveryState targetStep TargetRegistry.empty disabledCalls
          TargetRegistry.SettlesOnTarget) :=
  probesTarget_iff disabledCalls _ (Option.some_get isSome_run_disabledCalls).symm

/-- After the edit no task is cancelled, and the one task of the endpoint pings the old address. -/
theorem editedCalls_probe_old_address :
    ∃ finish, run targetStep TargetRegistry.empty editedCalls = some finish ∧ finish.Settled ∧
      finish.registry.isLive 1 0 = true ∧ finish.targets[0]? = some "192.0.2.1" ∧
      finish.ipAddresses.get? 1 = some "192.0.2.9" ∧ ¬ finish.ProbesTarget := by
  refine ⟨_, (Option.some_get isSome_run_editedCalls).symm, ?_, by decide, by decide, by decide, ?_⟩
  · unfold TargetRegistry.Settled
    decide
  · intro hprobes
    obtain ⟨ipAddress, htarget, hentry⟩ := hprobes 1 0 (by decide)
    exact absurd (htarget.trans hentry.symm) (by decide)

end Lnmp.Monitoring
