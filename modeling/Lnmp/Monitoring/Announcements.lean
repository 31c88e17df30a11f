import Lnmp.Monitoring.Confirmation

/-!
# Announced and committed transitions

The loop of `monitor_endpoint` over the cycles of one endpoint, when the database may fail in any of
them. A cycle hands the messages of a confirmed transition to the event broker and fires its hooks
before it writes the rows of the transition, and long before the commit. A cycle whose commit fails
keeps the old state in memory, so that the next one confirms the same transition once more.

`announced_iff_everyStep` says when the announcements of a run are those of its committed
transitions: when every cycle that confirms a transition commits.
-/

set_option autoImplicit false
set_option relaxedAutoImplicit false

namespace Lnmp.Monitoring

open Lnmp.Foundation.Runs

/-! ### Cycles with faults -/

/-- The first database operation of a cycle that fails. The operations behind it fail with it. -/
inductive Fault
  | identityLookup
  | hookLookup
  | eventRows
  | commit

/-- A monitoring cycle, and what fails in it. `get_event_broker` always has a broker. -/
structure MonitoringCycle extends Cycle where
  fault : Option Fault
  broker : environment.hasEventBroker = true

/-- The lookups when the table of endpoints cannot be read. -/
def Environment.withoutRows (environment : Environment) : Environment :=
  { environment with endpointRow := fun _ ↦ none }

/-- The tasks that a confirmed transition spawns before its hooks are looked up. -/
def transitionMessages (environment : Environment) (state : EndpointState) (result : PingResult)
    (operational : OperationalState) (detailed : DetailedState) (nowIso : ℤ) : List Effect :=
  let payload := transitionPayload environment state result operational detailed nowIso
  [.updateNodeStatus state.endpointId detailed,
    .broadcastNodeStateChange state.endpointId detailed, .broadcastStateTransition payload] ++
    (if environment.hasEventBroker then
      [.publishNodeStateChange state.endpointId detailed, .publishStateTransition payload]
    else [])

theorem transitionEffects_eq (environment : Environment) (state : EndpointState)
    (result : PingResult) (operational : OperationalState) (detailed : DetailedState)
    (nowIso : ℤ) :
    transitionEffects environment state result operational detailed nowIso =
      transitionMessages environment state result operational detailed nowIso ++
        transitionHooks environment state operational := rfl

/-- The transaction of a cycle that processes a ping result: the tasks it spawns, and what it
commits. -/
def MonitoringCycle.transact (threshold : ℕ) (cycle : MonitoringCycle) (state : EndpointState) :
    CycleOutcome :=
  let outcome := fun environment ↦ processCycle threshold environment state cycle.result
    cycle.baseline cycle.nowIso cycle.executionTime cycle.database
  match cycle.fault with
  | none => outcome cycle.environment
  | some .commit | some .eventRows => ⟨(outcome cycle.environment).effects, none⟩
  | some .hookLookup =>
    { effects :=
        if confirmsTransition threshold state cycle.detailedState then
          transitionMessages cycle.environment state cycle.result
            (classifyCycle cycle.result cycle.baseline).1 cycle.detailedState cycle.nowIso
        else []
      result := none }
  -- The identity is resolved without the table, and the lookup for the hooks raises.
  | some .identityLookup => ⟨(outcome cycle.environment.withoutRows).effects, none⟩

/-! ### Transitions -/

/-- The messages to the event broker, and the hooks. -/
def Effect.isAnnouncement : Effect → Bool
  | .publishNodeStateChange .. | .publishStateTransition .. => true
  | .runDifferentialRca .. | .handleEndpointRecovery .. => true
  | .updateNodeStatus .. | .broadcastNodeStateChange .. | .broadcastStateTransition .. => false

/-- A transition: the cycle that confirmed it, and the states before and after. -/
structure Transition where
  cycle : Cycle
  before : EndpointState
  after : EndpointState

/-- What there is to announce of a transition: a message with the new state, one with the
circumstances, and the hooks of a change of the operational state. -/
def Transition.announcements (transition : Transition) : List Effect :=
  [.publishNodeStateChange transition.after.endpointId transition.after.confirmedDetailedState,
    .publishStateTransition
      { endpointId := transition.after.endpointId
        hostname := transition.after.hostname
        ipAddress := transition.after.ipAddress
        operationalState := transition.after.confirmedOperationalState
        detailedState := transition.after.confirmedDetailedState
        avgRttMs := transition.cycle.result.avgRttMs
        healthScore := transition.cycle.result.healthScore
        timestamp := transition.cycle.nowIso }] ++
    transitionHooks transition.cycle.environment transition.before
      transition.after.confirmedOperationalState

/-- The monitoring task of an endpoint: the state in memory, and what was announced and committed
so far. -/
structure MonitoringTask where
  endpointId : EndpointId
  state : Option EndpointState
  announced : List Effect
  committed : List Transition

/-- A task that has announced and committed nothing. -/
def MonitoringTask.start (endpointId : EndpointId) (state : Option EndpointState) :
    MonitoringTask where
  endpointId := endpointId
  state := state
  announced := []
  committed := []

/-- One pass of the loop of `monitor_endpoint`. The state in memory changes after the commit. -/
def MonitoringTask.next (threshold : ℕ) (task : MonitoringTask) (cycle : MonitoringCycle) :
    MonitoringTask :=
  match task.state with
  | none =>
    match cycle.fault, createInitialEvent cycle.environment task.endpointId cycle.result
        cycle.baseline cycle.executionTime cycle.database with
    | none, some created => { task with state := some created.1 }
    | _, _ => task
  | some state =>
    let outcome := cycle.transact threshold state
    let announced := task.announced ++ outcome.effects.filter Effect.isAnnouncement
    match outcome.result with
    | none => { task with announced := announced }
    | some recorded =>
      { task with
        state := some recorded.1
        announced := announced
        committed :=
          if state.confirmedDetailedState = recorded.1.confirmedDetailedState then task.committed
          else task.committed ++ [⟨cycle.toCycle, state, recorded.1⟩] }

/-- The announcements are those of the committed transitions, one after the other. -/
def MonitoringTask.AnnouncesCommitted (task : MonitoringTask) : Prop :=
  task.announced = task.committed.flatMap Transition.announcements

/-- When the cycle confirms a transition, the database takes its rows and commits them. -/
def CommitsTransition (threshold : ℕ) (task : MonitoringTask) (cycle : MonitoringCycle) : Prop :=
  ∀ state ∈ task.state, confirmsTransition threshold state cycle.detailedState →
    cycle.fault = none ∧
      cycle.database.castRaises state.isOpenEvent cycle.executionTime = false ∧
      cycle.result.fits = true

/-! ### One cycle -/

variable {threshold : ℕ} {cycle : MonitoringCycle} {state : EndpointState}

/-- The spawned tasks and the event rows agree on what a transition is: the cycle confirms one
exactly when the confirmed state changes. -/
theorem confirmsTransition_iff (threshold : ℕ) (environment : Environment) (state : EndpointState)
    (operational : OperationalState) (detailed : DetailedState) :
    confirmsTransition threshold state detailed = true ↔
      state.confirmedDetailedState ≠
        (confirm threshold environment state operational detailed).confirmedDetailedState := by
  rw [confirmsTransition, decide_eq_true_eq]
  unfold confirm
  split_ifs with hsame hpending hbelow
  · exact iff_of_false (fun h ↦ h.1 hsame) fun h ↦ h rfl
  · exact iff_of_false (fun h ↦ absurd h.2.2 (not_le.mpr hbelow)) fun h ↦ h rfl
  · exact iff_of_true ⟨hsame, hpending, not_lt.mp hbelow⟩ (Ne.symm hsame)
  · exact iff_of_false (fun h ↦ hpending h.2.1) fun h ↦ h rfl

/-- A transition is announced under the identity that it leaves in the state. -/
theorem confirm_of_confirmsTransition {environment : Environment}
    {operational : OperationalState} {detailed : DetailedState}
    (hconfirms : confirmsTransition threshold state detailed = true) :
    confirm threshold environment state operational detailed =
      { state with
        confirmedOperationalState := operational
        confirmedDetailedState := detailed
        pendingDetailedState := none
        pendingCycleCount := 0
        hostname := (announcedIdentity environment state).1
        ipAddress := (announcedIdentity environment state).2 } := by
  rw [confirmsTransition, decide_eq_true_eq] at hconfirms
  obtain ⟨hother, hpending, hreached⟩ := hconfirms
  rw [confirm, if_neg hother, if_pos hpending, if_neg (not_lt.mpr hreached)]

/-- Every announcement is a message to the broker or a hook. -/
theorem filter_transitionHooks (environment : Environment) (state : EndpointState)
    (operational : OperationalState) :
    (transitionHooks environment state operational).filter Effect.isAnnouncement =
      transitionHooks environment state operational := by
  rw [List.filter_eq_self]
  intro effect hmem
  unfold transitionHooks at hmem
  cases operational <;> grind [Effect.isAnnouncement]

/-- A cycle that confirms no transition spawns nothing. -/
theorem effects_transact_of_not (hconfirms : ¬ confirmsTransition threshold state
    cycle.detailedState) : (cycle.transact threshold state).effects = [] := by
  have hconfirms' : ¬ confirmsTransition threshold state
    (classifyCycle cycle.result cycle.baseline).2 := hconfirms
  unfold MonitoringCycle.transact
  split <;> simp only [processCycle, if_neg hconfirms', if_neg hconfirms]

/-- A cycle that confirms a transition announces something, whatever fails in it. -/
theorem announced_ne_nil (hconfirms : confirmsTransition threshold state cycle.detailedState) :
    (cycle.transact threshold state).effects.filter Effect.isAnnouncement ≠ [] := by
  have hconfirms' : confirmsTransition threshold state
    (classifyCycle cycle.result cycle.baseline).2 := hconfirms
  have hmessage : .publishNodeStateChange state.endpointId cycle.detailedState ∈
      (cycle.transact threshold state).effects := by
    unfold MonitoringCycle.transact
    have hbroker := cycle.broker
    split <;>
      simp [processCycle, hconfirms', transitionEffects, transitionMessages,
        Environment.withoutRows, hbroker, Cycle.detailedState]
  exact List.ne_nil_of_mem (List.mem_filter.mpr ⟨hmessage, rfl⟩)

/-- Without a fault, a cycle commits what `process_cycle` recorded. -/
theorem result_transact (hfault : cycle.fault = none) :
    (cycle.transact threshold state).result =
      recordCycle state (confirm threshold cycle.environment state
        (classifyCycle cycle.result cycle.baseline).1 cycle.detailedState) cycle.result
        cycle.executionTime cycle.database := by
  rw [MonitoringCycle.transact, hfault]
  rfl

/-- With a fault, a cycle commits nothing. -/
theorem result_transact_of_fault {fault : Fault} (hfault : cycle.fault = some fault) :
    (cycle.transact threshold state).result = none := by
  rw [MonitoringCycle.transact, hfault]
  cases fault <;> rfl

/-- What a cycle commits, it commits without a fault and as `process_cycle` recorded it. -/
theorem recordCycle_of_result {recorded : EndpointState × Database}
    (hresult : (cycle.transact threshold state).result = some recorded) :
    cycle.fault = none ∧
      recordCycle state (confirm threshold cycle.environment state
        (classifyCycle cycle.result cycle.baseline).1 cycle.detailedState) cycle.result
        cycle.executionTime cycle.database = some recorded := by
  cases hfault : cycle.fault with
  | none => exact ⟨rfl, (result_transact hfault).symm.trans hresult⟩
  | some fault =>
    exact absurd ((result_transact_of_fault hfault).symm.trans hresult) (Option.some_ne_none _).symm

/-- The rows of a cycle show a transition exactly when the cycle confirms one. -/
theorem confirmedDetailedState_of_result {recorded : EndpointState × Database}
    (hresult : (cycle.transact threshold state).result = some recorded) :
    state.confirmedDetailedState = recorded.1.confirmedDetailedState ↔
      ¬ confirmsTransition threshold state cycle.detailedState := by
  obtain ⟨-, hrecord⟩ := recordCycle_of_result hresult
  obtain ⟨id, hid⟩ := fst_recordCycle hrecord
  rw [hid, confirmsTransition_iff threshold cycle.environment, not_not]

/-- A cycle that confirms a transition commits exactly when nothing fails in it and the tables take
the rows. -/
theorem result_ne_none_iff (hconfirms : confirmsTransition threshold state cycle.detailedState) :
    (cycle.transact threshold state).result ≠ none ↔ cycle.fault = none ∧
      cycle.database.castRaises state.isOpenEvent cycle.executionTime = false ∧
      cycle.result.fits = true := by
  have hchange := (confirmsTransition_iff threshold cycle.environment state
    (classifyCycle cycle.result cycle.baseline).1 _).mp hconfirms
  cases hfault : cycle.fault with
  | none =>
    rw [result_transact hfault, recordCycle, if_neg hchange]
    split_ifs with hcast hfits <;> simp_all
  | some fault =>
    rw [result_transact_of_fault hfault]
    simp

/-- A transition that a cycle commits has its row: the active event, which is open and has the new
state. -/
theorem exists_row_of_result {recorded : EndpointState × Database}
    (hresult : (cycle.transact threshold state).result = some recorded)
    (hchange : state.confirmedDetailedState ≠ recorded.1.confirmedDetailedState) :
    ∃ row ∈ recorded.2.endpointEvents, row.id = recorded.1.activeEventId ∧
      row.endpointId = state.endpointId ∧ row.isOpen = true ∧
      row.detailedState = recorded.1.confirmedDetailedState := by
  obtain ⟨-, hrecord⟩ := recordCycle_of_result hresult
  obtain ⟨id, hid⟩ := fst_recordCycle hrecord
  have hendpoint : (confirm threshold cycle.environment state
      (classifyCycle cycle.result cycle.baseline).1 cycle.detailedState).endpointId =
        state.endpointId := by
    unfold confirm
    split_ifs <;> rfl
  cases recorded_of_recordCycle hrecord with
  | fallback hsame | rollover hsame | extension hsame => exact absurd hsame hchange
  | transition =>
    refine ⟨_, List.mem_append_right _ (List.mem_singleton_self _), rfl, hendpoint, rfl, rfl⟩

/-- What a cycle announces is what there is to announce of the transition that it commits. -/
theorem announced_of_result (hconfirms : confirmsTransition threshold state cycle.detailedState)
    {recorded : EndpointState × Database}
    (hresult : (cycle.transact threshold state).result = some recorded) :
    (cycle.transact threshold state).effects.filter Effect.isAnnouncement =
      Transition.announcements ⟨cycle.toCycle, state, recorded.1⟩ := by
  obtain ⟨hfault, hrecord⟩ := recordCycle_of_result hresult
  obtain ⟨id, hid⟩ := fst_recordCycle hrecord
  have heffects : (cycle.transact threshold state).effects =
      transitionEffects cycle.environment state cycle.result
        (classifyCycle cycle.result cycle.baseline).1 cycle.detailedState cycle.nowIso := by
    rw [MonitoringCycle.transact, hfault]
    exact if_pos hconfirms
  rw [heffects, transitionEffects_eq, List.filter_append, filter_transitionHooks,
    transitionMessages, cycle.broker, if_pos rfl, Transition.announcements, hid,
    confirm_of_confirmsTransition hconfirms]
  rfl

/-- What a cycle adds to the announcements and to the committed transitions, one constructor for
each way it can end. -/
inductive Adds (threshold : ℕ) (task : MonitoringTask) (cycle : MonitoringCycle) :
    List Effect → List Transition → Prop
  | nothing (hcommits : CommitsTransition threshold task cycle) :
    Adds threshold task cycle [] []
  | uncommitted {messages : List Effect} (hcommits : ¬ CommitsTransition threshold task cycle)
      (hmessages : messages ≠ []) : Adds threshold task cycle messages []
  | transition (hcommits : CommitsTransition threshold task cycle) (transition : Transition) :
    Adds threshold task cycle transition.announcements [transition]

theorem MonitoringTask.adds_next (threshold : ℕ) (task : MonitoringTask)
    (cycle : MonitoringCycle) :
    ∃ messages transitions, Adds threshold task cycle messages transitions ∧
      (task.next threshold cycle).announced = task.announced ++ messages ∧
      (task.next threshold cycle).committed = task.committed ++ transitions := by
  unfold MonitoringTask.next
  cases hstate : task.state with
  | none =>
    refine ⟨[], [], .nothing fun state hmem ↦ ?_, ?_⟩
    · rw [hstate] at hmem
      exact absurd hmem.symm (Option.some_ne_none state)
    · dsimp only
      split <;> exact ⟨(List.append_nil _).symm, (List.append_nil _).symm⟩
  | some state =>
    have hstates : CommitsTransition threshold task cycle ↔
        (confirmsTransition threshold state cycle.detailedState →
          (cycle.transact threshold state).result ≠ none) := by
      rw [CommitsTransition, hstate]
      simp only [Option.mem_some_iff, forall_eq']
      exact forall_congr' fun hconfirms ↦ (result_ne_none_iff hconfirms).symm
    dsimp only
    cases hresult : (cycle.transact threshold state).result with
    | none =>
      by_cases hconfirms : confirmsTransition threshold state cycle.detailedState
      · refine ⟨_, [], .uncommitted ?_ (announced_ne_nil hconfirms), rfl, ?_⟩
        · exact fun hcommits ↦ hstates.mp hcommits hconfirms hresult
        · exact (List.append_nil _).symm
      · refine ⟨[], [], .nothing (hstates.mpr fun h ↦ absurd h hconfirms), ?_, ?_⟩
        · rw [effects_transact_of_not hconfirms]
          rfl
        · exact (List.append_nil _).symm
    | some recorded =>
      have hcommits : CommitsTransition threshold task cycle :=
        hstates.mpr fun _ hnone ↦ Option.some_ne_none _ (hresult.symm.trans hnone)
      have hrows := confirmedDetailedState_of_result hresult
      by_cases hconfirms : confirmsTransition threshold state cycle.detailedState
      · refine ⟨_, _, .transition hcommits ⟨cycle.toCycle, state, recorded.1⟩, ?_, ?_⟩
        · dsimp only
          rw [announced_of_result hconfirms hresult]
        · exact if_neg fun hsame ↦ hrows.mp hsame hconfirms
      · refine ⟨[], [], .nothing hcommits, ?_, ?_⟩
        · rw [effects_transact_of_not hconfirms]
          rfl
        · dsimp only
          rw [if_pos (hrows.mpr hconfirms), List.append_nil]

/-! ### Runs -/

/-- The loop of `monitor_endpoint` as a system in which every cycle is enabled. -/
def monitorStep (threshold : ℕ) (task : MonitoringTask) (cycle : MonitoringCycle) :
    Option MonitoringTask := some (task.next threshold cycle)

/-- The task has announced at least what it has committed. -/
def MonitoringTask.AnnouncesEnough (task : MonitoringTask) : Prop :=
  (task.committed.flatMap Transition.announcements).length ≤ task.announced.length

variable {task : MonitoringTask}

theorem MonitoringTask.AnnouncesEnough.next (henough : task.AnnouncesEnough) :
    (task.next threshold cycle).AnnouncesEnough := by
  obtain ⟨messages, transitions, hadds, hannounced, hcommitted⟩ := task.adds_next threshold cycle
  rw [AnnouncesEnough] at henough ⊢
  rw [hannounced, hcommitted, List.flatMap_append, List.length_append, List.length_append]
  cases hadds with
  | nothing | uncommitted => exact Nat.add_le_add henough (Nat.zero_le _)
  | transition => simpa using henough

/-- The step lemma: a cycle keeps the announcements those of the committed transitions exactly when
it commits the transition that it confirms. Nothing makes up for an announcement too many. -/
theorem MonitoringTask.announcesCommitted_next_iff (henough : task.AnnouncesEnough) :
    (task.next threshold cycle).AnnouncesCommitted ↔
      task.AnnouncesCommitted ∧ CommitsTransition threshold task cycle := by
  obtain ⟨messages, transitions, hadds, hannounced, hcommitted⟩ := task.adds_next threshold cycle
  rw [AnnouncesCommitted, hannounced, hcommitted, List.flatMap_append]
  cases hadds with
  | nothing hcommits => simp [AnnouncesCommitted, hcommits]
  | uncommitted hcommits hmessages =>
    refine iff_of_false (fun hsame ↦ ?_) fun h ↦ hcommits h.2
    have hlength := congrArg List.length hsame
    have hpos := List.length_pos_of_ne_nil hmessages
    rw [AnnouncesEnough] at henough
    simp only [List.length_append, List.flatMap_nil, List.length_nil] at hlength
    omega
  | transition hcommits transition => simp [AnnouncesCommitted, hcommits]

/-- The announcements of a run are those of its committed transitions, in order, exactly when every
cycle of the run that confirms a transition commits it. -/
theorem announced_iff_everyStep (threshold : ℕ) (endpointId : EndpointId)
    (state : Option EndpointState) (cycles : List MonitoringCycle) (finish : MonitoringTask)
    (hrun : run (monitorStep threshold) (MonitoringTask.start endpointId state) cycles =
      some finish) :
    finish.announced = finish.committed.flatMap Transition.announcements ↔
      EveryStep (monitorStep threshold) (MonitoringTask.start endpointId state) cycles
        (CommitsTransition threshold) := by
  refine property_iff_everyStep MonitoringTask.AnnouncesEnough MonitoringTask.AnnouncesCommitted
    (fun task cycle next henough hstep ↦ ?_) (fun task cycle next henough hstep ↦ ?_)
    le_rfl rfl hrun
  · exact Option.some.inj hstep ▸ henough.next
  · exact Option.some.inj hstep ▸ task.announcesCommitted_next_iff henough

/-- Lookups that find a broker, and an endpoint with root cause analysis. -/
def sampleLookups : Environment where
  topologyNode := fun _ ↦ none
  endpointRow := fun _ ↦ some ⟨some "host", some "192.0.2.1", true⟩
  hasEventBroker := true

/-- An unanswered cycle in a given minute. -/
def unansweredCycle (minute : ℤ) (fault : Option Fault) : MonitoringCycle where
  toCycle := { sampleCycle minute 0 with environment := sampleLookups }
  fault := fault
  broker := rfl

/-- The task of an endpoint whose first pings were answered. -/
def sampleTask : MonitoringTask := MonitoringTask.start 1 (some sampleInitial.1)

/-- Three unanswered cycles announce the transition that the third commits. -/
theorem announced_iff_unansweredCycle :
    ([unansweredCycle 1 none, unansweredCycle 2 none, unansweredCycle 3 none].foldl
      (MonitoringTask.next 3) sampleTask).announced =
        ([unansweredCycle 1 none, unansweredCycle 2 none, unansweredCycle 3 none].foldl
          (MonitoringTask.next 3) sampleTask).committed.flatMap Transition.announcements ↔
      EveryStep (monitorStep 3) sampleTask
        [unansweredCycle 1 none, unansweredCycle 2 none, unansweredCycle 3 none]
        (CommitsTransition 3) :=
  announced_iff_everyStep 3 1 (some sampleInitial.1) _ _ (run_some ..)

/-- The commit of the third unanswered cycle fails, and the fourth confirms the transition again:
one transition is committed, and two are announced. -/
theorem announced_twice_after_failed_commit :
    ∃ finish, run (monitorStep 3) sampleTask
        [unansweredCycle 1 none, unansweredCycle 2 none, unansweredCycle 3 (some .commit),
          unansweredCycle 4 none] = some finish ∧
      finish.committed.length = 1 ∧ finish.announced.length = 6 ∧
      finish.announced ≠ finish.committed.flatMap Transition.announcements :=
  ⟨_, run_some .., by decide +kernel⟩

end Lnmp.Monitoring
