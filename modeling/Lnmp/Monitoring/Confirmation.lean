import Lnmp.Monitoring.StateMachine
import Lnmp.Foundation.Runs

/-!
# Confirmation of transitions

When the state machine changes the confirmed state of an endpoint, in terms of the classifications
of the cycles it has processed. `Tracking` says what the pending state and its count remember: the
count is the number of last cycles that were classified as the pending state, and no cycle more.
`confirmation_exact` follows: the confirmed state changes exactly when the last cycles, as many as
the threshold says, were all classified as one other state.

The count is kept for detailed states, and availability is defined on operational states. A stretch
of cycles that are all `DOWN` operationally can mix two detailed states, and then each resets the
count of the other. `confirmedOperational_iff` says what such a stretch does.
-/

set_option autoImplicit false
set_option relaxedAutoImplicit false

namespace Lnmp.Monitoring

open Lnmp.Foundation.Runs

/-! ### Cycles -/

/-- One processed cycle: the ping result, the baseline, the clock readings, and what the database
and the lookups hold at the time. -/
structure Cycle where
  environment : Environment
  result : PingResult
  baseline : Option (ℚ × ℚ)
  nowIso : ℤ
  executionTime : ℤ
  database : Database

/-- The classification of the cycle. -/
def Cycle.detailedState (cycle : Cycle) : DetailedState :=
  (classifyCycle cycle.result cycle.baseline).2

/-- The classifications of a list of cycles. -/
def detailedStates (cycles : List Cycle) : List DetailedState := cycles.map Cycle.detailedState

/-- The state after `process_cycle`, `none` when the cycle raises. -/
def cycleStep (threshold : ℕ) (state : EndpointState) (cycle : Cycle) : Option EndpointState :=
  (processCycle threshold cycle.environment state cycle.result cycle.baseline cycle.nowIso
    cycle.executionTime cycle.database).result.map Prod.fst

theorem fst_classifyCycle (result : PingResult) (baseline : Option (ℚ × ℚ)) :
    (classifyCycle result baseline).1 = (classifyCycle result baseline).2.operational :=
  fst_classifyPingResult ..

/-- The database half of a cycle changes at most the active event. -/
theorem fst_recordCycle {state next recorded : EndpointState} {result : PingResult} {time : ℤ}
    {database written : Database}
    (hrecord : recordCycle state next result time database = some (recorded, written)) :
    ∃ id, recorded = { next with activeEventId := id } := by
  generalize hpair : (recorded, written) = pair at hrecord
  cases recorded_of_recordCycle hrecord with
  | fallback | rollover | transition => exact ⟨database.nextId, (Prod.mk.inj hpair).1⟩
  | extension => exact ⟨next.activeEventId, (Prod.mk.inj hpair).1⟩

/-- What a cycle that is classified as a state makes of the state in memory, one constructor a
branch. -/
inductive Confirms (threshold : ℕ) (state : EndpointState) (detailed : DetailedState) :
    EndpointState → Prop
  | settled (hsame : detailed = state.confirmedDetailedState) :
    Confirms threshold state detailed
      { state with pendingDetailedState := none, pendingCycleCount := 0 }
  | continued (hother : detailed ≠ state.confirmedDetailedState)
      (hpending : some detailed = state.pendingDetailedState)
      (hbelow : state.pendingCycleCount + 1 < threshold) :
    Confirms threshold state detailed
      { state with
        pendingDetailedState := some detailed
        pendingCycleCount := state.pendingCycleCount + 1 }
  | confirmed (hother : detailed ≠ state.confirmedDetailedState)
      (hpending : some detailed = state.pendingDetailedState)
      (hreached : threshold ≤ state.pendingCycleCount + 1) (hostname ipAddress : Option String) :
    Confirms threshold state detailed
      { state with
        confirmedOperationalState := detailed.operational
        confirmedDetailedState := detailed
        pendingDetailedState := none
        pendingCycleCount := 0
        hostname := hostname
        ipAddress := ipAddress }
  | replaced (hother : detailed ≠ state.confirmedDetailedState)
      (hpending : some detailed ≠ state.pendingDetailedState) :
    Confirms threshold state detailed
      { state with pendingDetailedState := some detailed, pendingCycleCount := 1 }

theorem confirms_confirm (threshold : ℕ) (environment : Environment) (state : EndpointState)
    (detailed : DetailedState) : Confirms threshold state detailed
      (confirm threshold environment state detailed.operational detailed) := by
  unfold confirm
  split_ifs with hsame hpending hbelow
  · exact .settled hsame
  · exact .continued hsame hpending hbelow
  · exact .confirmed hsame hpending (not_lt.mp hbelow) _ _
  · exact .replaced hsame hpending

/-- A cycle confirms as its classification says. -/
theorem cycleStep_eq_some {threshold : ℕ} {state next : EndpointState} {cycle : Cycle}
    (hstep : cycleStep threshold state cycle = some next) :
    ∃ confirmed id, Confirms threshold state cycle.detailedState confirmed ∧
      next = { confirmed with activeEventId := id } := by
  obtain ⟨⟨recorded, written⟩, hrecord, rfl⟩ := Option.map_eq_some_iff.mp hstep
  obtain ⟨id, hid⟩ := fst_recordCycle hrecord
  rw [fst_classifyCycle] at hid
  exact ⟨_, id, confirms_confirm .., hid⟩

/-- A cycle keeps the operational state that of the detailed state. -/
theorem operational_cycleStep {threshold : ℕ} {state next : EndpointState} {cycle : Cycle}
    (hpair : state.confirmedOperationalState = state.confirmedDetailedState.operational)
    (hstep : cycleStep threshold state cycle = some next) :
    next.confirmedOperationalState = next.confirmedDetailedState.operational := by
  obtain ⟨confirmed, id, hconfirms, rfl⟩ := cycleStep_eq_some hstep
  cases hconfirms with
  | confirmed => rfl
  | settled | continued | replaced => exact hpair

/-! ### What the pending state remembers -/

theorem replicate_succ_suffix_concat {Item : Type*} {count : ℕ} {item last : Item}
    {items : List Item} :
    List.replicate (count + 1) item <:+ items ++ [last] ↔
      item = last ∧ List.replicate count item <:+ items := by
  rw [List.replicate_succ']
  constructor
  · rintro ⟨front, hfront⟩
    rw [← List.append_assoc] at hfront
    obtain ⟨hitems, hlast⟩ := List.append_inj' hfront rfl
    exact ⟨List.singleton_inj.mp hlast, front, hitems⟩
  · rintro ⟨rfl, front, rfl⟩
    exact ⟨front, (List.append_assoc ..).symm⟩

theorem replicate_suffix_of_le {Item : Type*} {fewer count : ℕ} {item : Item} {items : List Item}
    (hle : fewer ≤ count) (hsuffix : List.replicate count item <:+ items) :
    List.replicate fewer item <:+ items := by
  refine List.IsSuffix.trans ⟨List.replicate (count - fewer) item, ?_⟩ hsuffix
  rw [List.replicate_append_replicate, Nat.sub_add_cancel hle]

/-- What the in-memory state remembers of the classifications of its cycles. -/
structure Tracking (threshold : ℕ) (classes : List DetailedState) (state : EndpointState) :
    Prop where
  below : state.pendingCycleCount < threshold
  idle : state.pendingDetailedState = none → state.pendingCycleCount = 0
  settled : state.pendingDetailedState = none → ∀ detailed,
    List.replicate 1 detailed <:+ classes → detailed = state.confirmedDetailedState
  pending : ∀ detailed, state.pendingDetailedState = some detailed →
    detailed ≠ state.confirmedDetailedState ∧ 0 < state.pendingCycleCount ∧
      ∀ count, List.replicate count detailed <:+ classes ↔ count ≤ state.pendingCycleCount

variable {threshold : ℕ} {classes : List DetailedState} {state next : EndpointState}

/-- The last classification is the confirmed or the pending state. -/
theorem Tracking.last (htracking : Tracking threshold classes state) {detailed : DetailedState}
    (hlast : List.replicate 1 detailed <:+ classes) :
    detailed = state.confirmedDetailedState ∨ some detailed = state.pendingDetailedState := by
  cases hpending : state.pendingDetailedState with
  | none => exact Or.inl (htracking.settled hpending detailed hlast)
  | some other =>
    obtain ⟨-, hpos, hcount⟩ := htracking.pending other hpending
    obtain ⟨front, hfront⟩ := hlast
    obtain ⟨rest, hrest⟩ := (hcount 1).mpr hpos
    rw [← hfront] at hrest
    have hsame := (List.append_inj' hrest rfl).2
    exact Or.inr (congrArg some (List.singleton_inj.mp hsame).symm)

/-- A state that has nothing pending tracks no cycles. -/
theorem tracking_nil (hthreshold : 2 ≤ threshold) (hpending : state.pendingDetailedState = none)
    (hcount : state.pendingCycleCount = 0) : Tracking threshold [] state where
  below := by omega
  idle := fun _ ↦ hcount
  settled := fun _ _ hlast ↦ absurd (List.suffix_nil.mp hlast) (List.cons_ne_nil _ _)
  pending := fun detailed hsome ↦ absurd (hpending.symm.trans hsome) (Option.some_ne_none _).symm

/-- A state that is new to both the confirmed and the pending state has not been seen last. -/
theorem Tracking.not_last (htracking : Tracking threshold classes state)
    {detailed : DetailedState} (hconfirmed : detailed ≠ state.confirmedDetailedState)
    (hpending : some detailed ≠ state.pendingDetailedState) {count : ℕ}
    (hsuffix : List.replicate count detailed <:+ classes) : count = 0 := by
  by_contra hne
  have hlast := replicate_suffix_of_le (Nat.one_le_iff_ne_zero.mpr hne) hsuffix
  exact (htracking.last hlast).elim hconfirmed hpending

/-- The step lemma: a cycle keeps track of one more classification. -/
theorem Tracking.cycleStep (htracking : Tracking threshold classes state)
    (hthreshold : 2 ≤ threshold) {cycle : Cycle}
    (hstep : cycleStep threshold state cycle = some next) :
    Tracking threshold (classes ++ [cycle.detailedState]) next := by
  obtain ⟨confirmed, id, hconfirms, rfl⟩ := cycleStep_eq_some hstep
  generalize cycle.detailedState = detailed at hconfirms
  have hone : ∀ other, List.replicate 1 other <:+ classes ++ [detailed] → other = detailed :=
    fun other hlast ↦ (replicate_succ_suffix_concat.mp hlast).1
  cases hconfirms with
  | settled hsame =>
    refine ⟨by dsimp only; omega, fun _ ↦ rfl, fun _ other hlast ↦ ?_, fun other hsome ↦ ?_⟩
    · exact (hone other hlast).trans hsame
    · exact absurd hsome (Option.some_ne_none _).symm
  | continued hother hpending hbelow =>
    obtain ⟨-, hpos, hcount⟩ := htracking.pending detailed hpending.symm
    refine ⟨hbelow, fun hnone ↦ ?_, fun hnone ↦ ?_, fun other hsome ↦ ?_⟩
    · exact absurd hnone (Option.some_ne_none _)
    · exact absurd hnone (Option.some_ne_none _)
    · obtain rfl := Option.some.inj hsome
      refine ⟨hother, Nat.succ_pos _, fun count ↦ ?_⟩
      cases count with
      | zero => simp
      | succ count =>
        rw [replicate_succ_suffix_concat, hcount, Nat.succ_le_succ_iff]
        exact and_iff_right rfl
  | confirmed hother hpending hreached hostname ipAddress =>
    refine ⟨by dsimp only; omega, fun _ ↦ rfl, fun _ other hlast ↦ hone other hlast,
      fun other hsome ↦ ?_⟩
    exact absurd hsome (Option.some_ne_none _).symm
  | replaced hother hpending =>
    refine ⟨hthreshold, fun hnone ↦ ?_, fun hnone ↦ ?_, fun other hsome ↦ ?_⟩
    · exact absurd hnone (Option.some_ne_none _)
    · exact absurd hnone (Option.some_ne_none _)
    · obtain rfl := Option.some.inj hsome
      refine ⟨hother, Nat.one_pos, fun count ↦ ?_⟩
      cases count with
      | zero => simp
      | succ count =>
        rw [replicate_succ_suffix_concat, and_iff_right rfl]
        constructor
        · intro hsuffix
          rw [htracking.not_last hother hpending hsuffix]
        · intro hle
          obtain rfl : count = 0 := Nat.le_zero.mp (Nat.le_of_succ_le_succ hle)
          exact List.nil_suffix

/-- A cycle changes the confirmed state to another one exactly when it completes a run of as many
classifications as that state as the threshold says. -/
theorem Tracking.confirmed_iff (htracking : Tracking threshold classes state)
    (hthreshold : 2 ≤ threshold) {cycle : Cycle}
    (hstep : Monitoring.cycleStep threshold state cycle = some next) {detailed : DetailedState}
    (hother : detailed ≠ state.confirmedDetailedState) :
    next.confirmedDetailedState = detailed ↔
      List.replicate threshold detailed <:+ classes ++ [cycle.detailedState] := by
  obtain ⟨confirmed, id, hconfirms, rfl⟩ := cycleStep_eq_some hstep
  obtain ⟨count, rfl⟩ : ∃ count, threshold = count + 1 := ⟨threshold - 1, by omega⟩
  rw [replicate_succ_suffix_concat]
  generalize cycle.detailedState = last at hconfirms
  cases hconfirms with
  | settled hsame => exact iff_of_false hother.symm fun h ↦ hother (h.1.trans hsame)
  | continued _ hpending hbelow =>
    obtain ⟨-, -, hcount⟩ := htracking.pending last hpending.symm
    refine iff_of_false hother.symm ?_
    rintro ⟨rfl, hsuffix⟩
    have hle := (hcount count).mp hsuffix
    omega
  | confirmed _ hpending hreached hostname ipAddress =>
    obtain ⟨-, -, hcount⟩ := htracking.pending last hpending.symm
    constructor
    · rintro rfl
      exact ⟨rfl, (hcount count).mpr (Nat.le_of_succ_le_succ hreached)⟩
    · exact fun h ↦ h.1.symm
  | replaced hlast hpending =>
    refine iff_of_false hother.symm ?_
    rintro ⟨rfl, hsuffix⟩
    have hzero := htracking.not_last hlast hpending hsuffix
    omega

/-! ### Confirmation of detailed states -/

/-- The last cycles, as many as the threshold says, were all classified as one state. -/
def EndsWithRun (threshold : ℕ) (cycles : List Cycle) (detailed : DetailedState) : Prop :=
  List.replicate threshold detailed <:+ detailedStates cycles

/-- The confirmation of transitions in a state reached by some cycles: what the next cycle does, and
what the state keeps. -/
structure ExactConfirmation (threshold : ℕ) (start : EndpointState) (cycles : List Cycle)
    (state : EndpointState) : Prop where
  changes : ∀ cycle next, cycleStep threshold state cycle = some next →
    (next.confirmedDetailedState ≠ state.confirmedDetailedState ↔
      ∃ detailed, detailed ≠ state.confirmedDetailedState ∧
        EndsWithRun threshold (cycles ++ [cycle]) detailed)
  becomes : ∀ cycle next detailed, cycleStep threshold state cycle = some next →
    detailed ≠ state.confirmedDetailedState → EndsWithRun threshold (cycles ++ [cycle]) detailed →
    next.confirmedDetailedState = detailed
  producible : Producible (start.confirmedOperationalState, start.confirmedDetailedState) →
    Producible (state.confirmedOperationalState, state.confirmedDetailedState)
  below : state.pendingCycleCount < threshold
  pending : state.pendingDetailedState ≠ some state.confirmedDetailedState
  counted : state.pendingDetailedState = none ↔ state.pendingCycleCount = 0

theorem detailedStates_concat (cycles : List Cycle) (cycle : Cycle) :
    detailedStates (cycles ++ [cycle]) = detailedStates cycles ++ [cycle.detailedState] :=
  List.map_append

theorem endsWithRun_concat_iff {threshold : ℕ} {cycles : List Cycle} {cycle : Cycle}
    {detailed : DetailedState} : EndsWithRun threshold (cycles ++ [cycle]) detailed ↔
      List.replicate threshold detailed <:+ detailedStates cycles ++ [cycle.detailedState] := by
  rw [EndsWithRun, detailedStates_concat]

/-- A run of classifications as one state ends with that state. -/
theorem EndsWithRun.detailedState {threshold : ℕ} (hthreshold : 2 ≤ threshold)
    {cycles : List Cycle} {cycle : Cycle} {detailed : DetailedState}
    (hends : EndsWithRun threshold (cycles ++ [cycle]) detailed) :
    detailed = cycle.detailedState := by
  have hlast := replicate_suffix_of_le (by omega : 0 + 1 ≤ threshold)
    (endsWithRun_concat_iff.mp hends)
  exact (replicate_succ_suffix_concat.mp hlast).1

variable {start finish middle : EndpointState} {cycles before stretch : List Cycle}

/-- The run lemma: the state tracks the classifications of its cycles. -/
theorem tracking_of_run (hthreshold : 2 ≤ threshold)
    (htracking : Tracking threshold [] start)
    (hrun : run (cycleStep threshold) start cycles = some state) :
    Tracking threshold (detailedStates cycles) state := by
  induction cycles using List.reverseRecOn generalizing state with
  | nil =>
    rw [run_nil, Option.some_inj] at hrun
    exact hrun ▸ htracking
  | append_singleton cycles cycle ih =>
    obtain ⟨middle, hmiddle, hlast⟩ := run_concat_eq_some.mp hrun
    rw [detailedStates_concat]
    exact (ih hmiddle).cycleStep hthreshold hlast

/-- The operational state stays that of the detailed state. -/
theorem operational_of_run
    (hstart : start.confirmedOperationalState = start.confirmedDetailedState.operational)
    (hrun : run (cycleStep threshold) start cycles = some state) :
    state.confirmedOperationalState = state.confirmedDetailedState.operational :=
  invariant_of_forall_mem
    (fun reached : EndpointState ↦
      reached.confirmedOperationalState = reached.confirmedDetailedState.operational)
    (fun _ _ _ hpair _ hstep ↦ operational_cycleStep hpair hstep) hstart (fun _ _ ↦ trivial) hrun

/-- The confirmed state changes exactly when the last cycles, as many as the threshold says, were
all classified as one other state. -/
theorem confirmation_exact (threshold : ℕ) (hthreshold : 2 ≤ threshold)
    (start state : EndpointState) (cycles : List Cycle)
    (hpending : start.pendingDetailedState = none) (hcount : start.pendingCycleCount = 0)
    (hrun : run (cycleStep threshold) start cycles = some state) :
    ExactConfirmation threshold start cycles state := by
  have htracking := tracking_of_run hthreshold (tracking_nil hthreshold hpending hcount) hrun
  have hbecomes : ∀ cycle next detailed, cycleStep threshold state cycle = some next →
      detailed ≠ state.confirmedDetailedState →
      (next.confirmedDetailedState = detailed ↔
        EndsWithRun threshold (cycles ++ [cycle]) detailed) := by
    intro cycle next detailed hstep hother
    rw [endsWithRun_concat_iff]
    exact htracking.confirmed_iff hthreshold hstep hother
  refine ⟨fun cycle next hstep ↦ ?_, fun cycle next detailed hstep hother hends ↦ ?_,
    fun hproducible ↦ ?_, htracking.below, fun hsame ↦ ?_, htracking.idle, fun hzero ↦ ?_⟩
  · constructor
    · intro hchange
      exact ⟨_, hchange, (hbecomes cycle next _ hstep hchange).mp rfl⟩
    · rintro ⟨detailed, hother, hends⟩
      rwa [(hbecomes cycle next detailed hstep hother).mpr hends]
  · exact (hbecomes cycle next detailed hstep hother).mpr hends
  · exact (producible_iff _).mpr (operational_of_run ((producible_iff _).mp hproducible) hrun)
  · exact (htracking.pending _ hsame).1 rfl
  · by_contra hsome
    obtain ⟨detailed, hdetailed⟩ := Option.ne_none_iff_exists'.mp hsome
    exact (htracking.pending detailed hdetailed).2.1.ne' hzero

theorem isSome_createInitialEvent_empty :
    (createInitialEvent Environment.empty 1 ⟨5, 0, none⟩ none 0 Database.empty).isSome := by
  decide +kernel

/-- An endpoint whose five first pings were answered, with its open event. -/
def sampleInitial : EndpointState × Database :=
  (createInitialEvent Environment.empty 1 ⟨5, 0, none⟩ none 0 Database.empty).get
    isSome_createInitialEvent_empty

/-- A cycle of five pings in a given minute, of which some were answered. -/
def sampleCycle (minute successCount : ℤ) : Cycle where
  environment := Environment.empty
  result := ⟨successCount, 5 - successCount, none⟩
  baseline := none
  nowIso := 60000000 * minute
  executionTime := 60000000 * minute
  database := sampleInitial.2

/-- After two of three unanswered cycles, the endpoint is still up. -/
theorem confirmation_exact_sampleCycle :
    ExactConfirmation 3 sampleInitial.1 [sampleCycle 1 0, sampleCycle 2 0]
      { sampleInitial.1 with pendingDetailedState := some .down, pendingCycleCount := 2 } :=
  confirmation_exact 3 (by decide) sampleInitial.1 _ _ (by decide +kernel) (by decide +kernel)
    (by decide +kernel)

/-! ### Confirmation of operational states -/

/-- The operational state that the cycle is classified as. -/
def Cycle.operationalState (cycle : Cycle) : OperationalState :=
  (classifyCycle cycle.result cycle.baseline).1

/-- The step lemma: a cycle that is classified as an operational state confirms it exactly when it
was confirmed before, or a run of classifications as one detailed state ends with the cycle. -/
theorem confirmedOperational_step_iff (hthreshold : 2 ≤ threshold)
    (htracking : Tracking threshold (detailedStates cycles) state)
    (hpair : state.confirmedOperationalState = state.confirmedDetailedState.operational)
    {cycle : Cycle} (hstep : cycleStep threshold state cycle = some next) :
    next.confirmedOperationalState = cycle.operationalState ↔
      state.confirmedOperationalState = cycle.operationalState ∨
        ∃ detailed, EndsWithRun threshold (cycles ++ [cycle]) detailed := by
  have hnext := operational_cycleStep hpair hstep
  have hiff : ∀ detailed, detailed ≠ state.confirmedDetailedState →
      (next.confirmedDetailedState = detailed ↔
        EndsWithRun threshold (cycles ++ [cycle]) detailed) := fun detailed hother ↦ by
    rw [endsWithRun_concat_iff]
    exact htracking.confirmed_iff hthreshold hstep hother
  have hclass : cycle.operationalState = cycle.detailedState.operational := fst_classifyCycle ..
  by_cases hchange : next.confirmedDetailedState = state.confirmedDetailedState
  · rw [hnext, hchange, ← hpair]
    refine ⟨Or.inl, ?_⟩
    rintro (hsame | ⟨detailed, hends⟩)
    · exact hsame
    · -- The run is of the state that was confirmed already.
      have hconfirmed : detailed = state.confirmedDetailedState := by
        by_contra hother
        exact hother (((hiff detailed hother).mpr hends).symm.trans hchange)
      rw [hpair, hclass, ← hconfirmed, hends.detailedState hthreshold]
  · have hends := (hiff _ hchange).mp rfl
    refine iff_of_true ?_ (Or.inr ⟨_, hends⟩)
    rw [hnext, hclass, hends.detailedState hthreshold]

/-- After a stretch of cycles that are all classified as one operational state, that state is
confirmed exactly when it was before the stretch, or as many cycles in a row as the threshold says
were classified as one detailed state, the last of them in the stretch. -/
theorem confirmedOperational_iff (threshold : ℕ) (hthreshold : 2 ≤ threshold)
    (start middle finish : EndpointState) (before stretch : List Cycle)
    (operational : OperationalState)
    (hproducible : Producible (start.confirmedOperationalState, start.confirmedDetailedState))
    (hpending : start.pendingDetailedState = none) (hcount : start.pendingCycleCount = 0)
    (hbefore : run (cycleStep threshold) start before = some middle)
    (hstretch : run (cycleStep threshold) middle stretch = some finish)
    (hall : ∀ cycle ∈ stretch, cycle.operationalState = operational) :
    finish.confirmedOperationalState = operational ↔
      middle.confirmedOperationalState = operational ∨
        ∃ head, head ≠ [] ∧ head <+: stretch ∧
          ∃ detailed, EndsWithRun threshold (before ++ head) detailed := by
  have hstart := tracking_nil hthreshold hpending hcount
  induction stretch using List.reverseRecOn generalizing finish with
  | nil =>
    rw [run_nil, Option.some_inj] at hstretch
    refine ⟨fun h ↦ Or.inl (hstretch ▸ h), ?_⟩
    rintro (hsame | ⟨head, hne, hprefix, -⟩)
    · exact hstretch ▸ hsame
    · exact absurd (List.prefix_nil.mp hprefix) hne
  | append_singleton stretch cycle ih =>
    obtain ⟨state, hstate, hlast⟩ := run_concat_eq_some.mp hstretch
    have hcycle : cycle.operationalState = operational :=
      hall cycle (List.mem_append_right _ (List.mem_singleton_self _))
    have hih := ih state hstate fun other hmem ↦ hall other (List.mem_append_left _ hmem)
    have hreached := run_append_eq_some.mpr ⟨middle, hbefore, hstate⟩
    have htracking := tracking_of_run hthreshold hstart hreached
    have hpair := operational_of_run ((producible_iff _).mp hproducible) hreached
    have hstep := confirmedOperational_step_iff hthreshold htracking hpair hlast
    rw [hcycle, List.append_assoc] at hstep
    refine (hstep.trans (or_congr_left hih)).trans ?_
    rw [or_assoc]
    refine or_congr_right ⟨?_, ?_⟩
    · rintro (⟨head, hne, hprefix, hends⟩ | hends)
      · exact ⟨head, hne, hprefix.trans (List.prefix_append ..), hends⟩
      · exact ⟨stretch ++ [cycle], List.concat_ne_nil _ _, List.prefix_rfl, hends⟩
    · rintro ⟨head, hne, hprefix, hends⟩
      rcases List.prefix_concat_iff.mp hprefix with rfl | hprefix
      · exact Or.inr hends
      · exact Or.inl ⟨head, hne, hprefix, hends⟩

/-- The endpoint after three unanswered cycles. -/
def sampleDown : EndpointState :=
  { sampleInitial.1 with
    activeEventId := 1
    confirmedOperationalState := .down
    confirmedDetailedState := .down }

theorem confirmedOperational_sampleDown :
    sampleDown.confirmedOperationalState = .down ↔
      sampleInitial.1.confirmedOperationalState = .down ∨
        ∃ head, head ≠ [] ∧ head <+: [sampleCycle 1 0, sampleCycle 2 0, sampleCycle 3 0] ∧
          ∃ detailed, EndsWithRun 3 ([] ++ head) detailed :=
  confirmedOperational_iff 3 (by decide) sampleInitial.1 sampleInitial.1 sampleDown [] _ .down
    ((producible_iff _).mpr (by decide +kernel)) (by decide +kernel) (by decide +kernel) rfl
    (by decide +kernel) (by decide)

/-- Three cycles of an outage that are not all classified as one detailed state leave the endpoint
up: the second resets the count of the first, and the third that of the second. -/
theorem unconfirmed_mixed_stretch :
    ∃ finish, run (cycleStep 3) sampleInitial.1
        [sampleCycle 1 0, sampleCycle 2 1, sampleCycle 3 0] = some finish ∧
      (∀ cycle ∈ [sampleCycle 1 0, sampleCycle 2 1, sampleCycle 3 0],
        cycle.operationalState = .down) ∧
      finish.confirmedOperationalState = .up :=
  ⟨{ sampleInitial.1 with pendingDetailedState := some .down, pendingCycleCount := 1 },
    by decide +kernel⟩

end Lnmp.Monitoring
