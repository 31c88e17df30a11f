import Lnmp.Monitoring.Engine

/-!
# The cycles that the events count

Every committed cycle of an endpoint adds its ping results to the events of the endpoint, and one to
their counts of cycles. `cyclesConserved_iff` says when the sums over the rows of an endpoint are
the totals of its cycles: a rollover after a day adds its cycle twice, to the event that it closes
and to the one that it opens. No other operation of the engine changes the sums.
-/

set_option autoImplicit false
set_option relaxedAutoImplicit false

namespace Lnmp.Monitoring

open Lnmp.Foundation Lnmp.Foundation.Runs

/-! ### Totals -/

/-- A column that adds up the results of the cycles: closing an event keeps it, and extending or
opening one adds the amount of a result. -/
structure Tally where
  column : EndpointEvent → ℤ
  amount : PingResult → ℤ
  close : ∀ event time, column (event.close time) = column event
  extend : ∀ event time result, column (event.extend time result) = column event + amount result
  opened : ∀ state result isSplitEvent time database,
    column (openedRow state result isSplitEvent time database) = amount result

/-- `monitoring_cycle_count`. -/
def cycleTally : Tally where
  column := EndpointEvent.monitoringCycleCount
  amount := fun _ ↦ 1
  close := fun _ _ ↦ rfl
  extend := fun _ _ _ ↦ rfl
  opened := fun _ _ _ _ _ ↦ rfl

/-- `success_count`. -/
def successTally : Tally where
  column := EndpointEvent.successCount
  amount := fun result ↦ result.successCount
  close := fun _ _ ↦ rfl
  extend := fun _ _ _ ↦ rfl
  opened := fun _ _ _ _ _ ↦ rfl

/-- `failed_count`. -/
def failedTally : Tally where
  column := EndpointEvent.failedCount
  amount := fun result ↦ result.failedCount
  close := fun _ _ ↦ rfl
  extend := fun _ _ _ ↦ rfl
  opened := fun _ _ _ _ _ ↦ rfl

/-- The sum of a column over some rows of an endpoint. -/
def Tally.sumOf (tally : Tally) (endpoint : EndpointId) (rows : List EndpointEvent) : ℤ :=
  ((rows.filter (·.endpointId = endpoint)).map tally.column).sum

/-- The sum of a column over the rows of an endpoint. -/
def Tally.total (tally : Tally) (endpoint : EndpointId) (database : Database) : ℤ :=
  tally.sumOf endpoint database.endpointEvents

/-- What an event of the engine processes for an endpoint. -/
def resultOf (endpoint : EndpointId) (event : Event) : Option PingResult :=
  match event.operation with
  | .createInitial _ endpointId result _ => if endpointId = endpoint then some result else none
  | .processCycle _ endpointId result _ _ => if endpointId = endpoint then some result else none
  | _ => none

/-- The results of the cycles of an endpoint in a run. -/
def processedResults (endpoint : EndpointId) (events : List Event) : List PingResult :=
  events.filterMap (resultOf endpoint)

/-- The sums over the rows of an endpoint are the totals of its cycles. -/
structure CyclesConserved (endpoint : EndpointId) (processed : List PingResult)
    (database : Database) : Prop where
  cycles : cycleTally.total endpoint database = processed.length
  success : successTally.total endpoint database = (processed.map PingResult.successCount).sum
  failed : failedTally.total endpoint database = (processed.map PingResult.failedCount).sum

/-- A cycle of an endpoint confirms no transition, and its active event is open since a day. -/
def RollsOver (threshold : ℕ) (endpoint : EndpointId) (engine : Engine) (event : Event) : Prop :=
  ∃ environment result baseline nowIso state,
    event.operation = .processCycle environment endpoint result baseline nowIso ∧
    engine.tasks endpoint = some (some state) ∧
    confirmsTransition threshold state (classifyCycle result baseline).2 = false ∧
    ∃ row ∈ engine.database.endpointEvents, state.isActiveEvent row = true ∧
      86400 ≤ row.secondsUntil event.time

/-! ### What an update does to a total -/

section Updates

variable {tally : Tally} {endpoint : EndpointId} {rows : List EndpointEvent}
  {row : EndpointEvent} {database : Database} {now : ℤ}

theorem Tally.sumOf_cons : tally.sumOf endpoint (row :: rows) =
    (if row.endpointId = endpoint then tally.column row else 0) + tally.sumOf endpoint rows := by
  rw [sumOf, sumOf, List.filter_cons]
  by_cases hendpoint : row.endpointId = endpoint
  · rw [if_pos (decide_eq_true hendpoint), if_pos hendpoint, List.map_cons, List.sum_cons]
  · rw [if_neg (by simpa using hendpoint), if_neg hendpoint, zero_add]

theorem Tally.sumOf_append (first second : List EndpointEvent) :
    tally.sumOf endpoint (first ++ second) =
      tally.sumOf endpoint first + tally.sumOf endpoint second := by
  rw [sumOf, List.filter_append, List.map_append, List.sum_append, sumOf, sumOf]

/-- An update that keeps the endpoint and the column of the rows keeps the totals. -/
theorem Tally.total_updateEvents {selects : EndpointEvent → Bool}
    {update : EndpointEvent → EndpointEvent}
    (hendpoint : ∀ row, (update row).endpointId = row.endpointId)
    (hcolumn : ∀ row, tally.column (update row) = tally.column row) :
    tally.total endpoint (database.updateEvents selects update) =
      tally.total endpoint database := by
  rw [total, total, Database.updateEvents]
  dsimp only
  induction database.endpointEvents with
  | nil => rfl
  | cons row rows ih =>
    rw [List.map_cons, sumOf_cons, sumOf_cons, ih]
    cases selects row <;> simp [hendpoint, hcolumn]

/-- An update of the active event adds to the total of its endpoint. -/
theorem Tally.total_updateEvents_active (hcoherent : Coherent database now)
    {state : EndpointState} {update : EndpointEvent → EndpointEvent} {amount : ℤ}
    (hendpoint : ∀ row, (update row).endpointId = row.endpointId)
    (hcolumn : ∀ row, tally.column (update row) = tally.column row + amount)
    (hmem : row ∈ database.endpointEvents) (hactive : state.isActiveEvent row = true) :
    tally.total endpoint (database.updateEvents state.isActiveEvent update) =
      tally.total endpoint database + if row.endpointId = endpoint then amount else 0 := by
  have hordered := hcoherent.ordered
  rw [total, total, Database.updateEvents]
  dsimp only
  generalize database.endpointEvents = rows at hmem hordered
  induction rows with
  | nil => exact absurd hmem List.not_mem_nil
  | cons first rows ih =>
    obtain ⟨hfirst, hrows⟩ := List.pairwise_cons.mp hordered
    have hid := (of_decide_eq_true hactive).1
    rw [List.map_cons, sumOf_cons, sumOf_cons]
    rcases List.mem_cons.mp hmem with rfl | hlater
    · -- the ids of the later rows are greater
      have hothers : rows.map (fun other ↦
          if state.isActiveEvent other = true then update other else other) = rows := by
        refine (List.map_congr_left fun other hother ↦ ?_).trans (List.map_id rows)
        refine if_neg fun hsame ↦ ?_
        exact (hfirst other hother).id.ne (hid.trans (of_decide_eq_true hsame).1.symm)
      rw [hothers, if_pos hactive, hendpoint, hcolumn]
      split_ifs <;> omega
    · have hnot : ¬ state.isActiveEvent first = true := fun hsame ↦
        (hfirst row hlater).id.ne ((of_decide_eq_true hsame).1.trans hid.symm)
      rw [if_neg hnot, ih hlater hrows, add_assoc]

theorem Tally.total_openEvent (tally : Tally) (endpoint : EndpointId) (nextState : EndpointState)
    (result : PingResult) (isSplitEvent : Bool) (time : ℤ) (database : Database) :
    tally.total endpoint (openEvent nextState result isSplitEvent time database).2 =
      tally.total endpoint database +
        if nextState.endpointId = endpoint then tally.amount result else 0 := by
  have hrows : (openEvent nextState result isSplitEvent time database).2.endpointEvents =
      database.endpointEvents ++ [openedRow nextState result isSplitEvent time database] := rfl
  rw [total, hrows, sumOf_append, sumOf_cons, tally.opened, ← total]
  exact congrArg _ (add_zero _)

end Updates

/-! ### What a cycle does to a total -/

section Cycle

variable {tally : Tally} {endpoint owner : EndpointId} {database written : Database} {now time : ℤ}
  {state nextState recorded : EndpointState} {result : PingResult}

/-- The in-memory half of a cycle changes the confirmed state exactly when it confirms a
transition. -/
theorem confirmedDetailedState_confirm_iff (threshold : ℕ) (environment : Environment)
    (operational : OperationalState) (detailed : DetailedState) :
    state.confirmedDetailedState =
        (confirm threshold environment state operational detailed).confirmedDetailedState ↔
      confirmsTransition threshold state detailed = false := by
  rw [confirmsTransition, decide_eq_false_iff_not]
  unfold confirm
  split_ifs with hsame hpending hcount
  · exact iff_of_true rfl fun h ↦ h.1 hsame
  · exact iff_of_true rfl fun h ↦ absurd h.2.2 (not_le.mpr hcount)
  · exact iff_of_false (fun h ↦ hsame h.symm) fun h ↦ h ⟨hsame, hpending, not_lt.mp hcount⟩
  · exact iff_of_true rfl fun h ↦ hpending h.2.1

/-- A cycle adds its results once, unless it rolls the active event over. -/
theorem Tally.total_recordCycle (tally : Tally) (endpoint : EndpointId)
    (hcoherent : Coherent database now) (htracks : Tracks database owner state)
    (hnext : nextState.endpointId = owner)
    (hrecord : recordCycle state nextState result time database = some (recorded, written)) :
    (¬ (state.confirmedDetailedState = nextState.confirmedDetailedState ∧
        ∃ row ∈ database.endpointEvents, state.isActiveEvent row = true ∧
          86400 ≤ row.secondsUntil time) ∧
      tally.total endpoint written = tally.total endpoint database +
        if owner = endpoint then tally.amount result else 0) ∨
    ((state.confirmedDetailedState = nextState.confirmedDetailedState ∧
        ∃ row ∈ database.endpointEvents, state.isActiveEvent row = true ∧
          86400 ≤ row.secondsUntil time) ∧
      tally.total endpoint written = tally.total endpoint database +
        if owner = endpoint then 2 * tally.amount result else 0) := by
  have howner : ∀ row ∈ database.endpointEvents, state.isActiveEvent row = true →
      row.endpointId = owner := fun row hmem hactive ↦
    htracks.owner row hmem (of_decide_eq_true hactive).1
  generalize hpair : (recorded, written) = pair at hrecord
  cases recorded_of_recordCycle hrecord with
  | fallback hsame hnone =>
    obtain ⟨rfl, rfl⟩ := Prod.mk.inj hpair
    have hopened := tally.total_openEvent endpoint nextState result false time database
    refine Or.inl ⟨?_, hnext ▸ hopened⟩
    rintro ⟨-, row, hmem, hactive, -⟩
    exact List.find?_eq_none.mp hnone row hmem hactive
  | rollover hsame hevent hday =>
    obtain ⟨rfl, rfl⟩ := Prod.mk.inj hpair
    rename_i event
    have hmem := List.mem_of_find?_eq_some hevent
    have hactive := List.find?_some hevent
    refine Or.inr ⟨⟨hsame, event, hmem, hactive, hday⟩, ?_⟩
    have hclosed : tally.total endpoint (database.updateEvents state.isActiveEvent fun event ↦
        (event.extend time result).close time) = tally.total endpoint database +
          if event.endpointId = endpoint then tally.amount result else 0 :=
      total_updateEvents_active hcoherent (fun _ ↦ rfl)
        (fun row ↦ (tally.close _ _).trans (tally.extend row time result)) hmem hactive
    refine (tally.total_openEvent endpoint nextState result true time _).trans ?_
    rw [hclosed, howner event hmem hactive, hnext]
    split_ifs <;> omega
  | extension hsame hevent hday =>
    obtain ⟨rfl, rfl⟩ := Prod.mk.inj hpair
    rename_i event
    have hmem := List.mem_of_find?_eq_some hevent
    have hactive := List.find?_some hevent
    refine Or.inl ⟨?_, ?_⟩
    · rintro ⟨-, row, hrow, hrowActive, hlong⟩
      -- there is only one active event
      obtain rfl := hcoherent.eq_of_id hrow hmem
        ((of_decide_eq_true hrowActive).1.trans (of_decide_eq_true hactive).1.symm)
      omega
    · have hextended : tally.total endpoint
          (database.updateEvents state.isActiveEvent (EndpointEvent.extend · time result)) =
          tally.total endpoint database +
            if event.endpointId = endpoint then tally.amount result else 0 :=
        total_updateEvents_active hcoherent (fun _ ↦ rfl)
          (fun row ↦ tally.extend row time result) hmem hactive
      exact howner event hmem hactive ▸ hextended
  | transition hchange =>
    obtain ⟨rfl, rfl⟩ := Prod.mk.inj hpair
    refine Or.inl ⟨fun h ↦ hchange h.1, ?_⟩
    have hclosed : tally.total endpoint
        (database.updateEvents state.isOpenEvent (EndpointEvent.close · time)) =
        tally.total endpoint database :=
      total_updateEvents (fun _ ↦ rfl) fun row ↦ tally.close row time
    refine (tally.total_openEvent endpoint nextState result false time _).trans ?_
    rw [hclosed, hnext]

end Cycle

/-! ### What an operation does to a total -/

section Steps

variable {threshold numWorkers : ℕ} {engine next finish : Engine} {event : Event}
  {events : List Event} {endpoint : EndpointId}

theorem Tally.total_closeOpenEvents (tally : Tally) (endpoint : EndpointId) (closeTime : ℤ)
    (database : Database) :
    tally.total endpoint (database.closeOpenEvents closeTime) = tally.total endpoint database :=
  total_updateEvents (fun _ ↦ rfl) fun row ↦ tally.close row closeTime

theorem Tally.total_resolveStartupState (tally : Tally) (endpoint : EndpointId) (time : ℤ)
    (database : Database) :
    tally.total endpoint (resolveStartupState time database) = tally.total endpoint database := by
  unfold resolveStartupState
  cases latestUnresolvedGap database with
  | none => exact tally.total_closeOpenEvents endpoint time database
  | some gap => exact tally.total_closeOpenEvents endpoint gap.startTime _

/-- What an event of the engine adds to a total, once. -/
def Tally.added (tally : Tally) (endpoint : EndpointId) (event : Event) : ℤ :=
  ((resultOf endpoint event).map tally.amount).getD 0

theorem Tally.added_of_resultOf {tally : Tally} {owner : EndpointId} {result : PingResult}
    (hresult : resultOf endpoint event = if owner = endpoint then some result else none) :
    tally.added endpoint event = if owner = endpoint then tally.amount result else 0 := by
  rw [added, hresult]
  split_ifs <;> rfl

theorem rollsOver_iff {time : ℤ} {environment : Environment} {result : PingResult}
    {baseline : Option (ℚ × ℚ)} {nowIso : ℤ} {state : EndpointState}
    (htask : engine.tasks endpoint = some (some state)) :
    RollsOver threshold endpoint engine
        ⟨time, .processCycle environment endpoint result baseline nowIso⟩ ↔
      confirmsTransition threshold state (classifyCycle result baseline).2 = false ∧
        ∃ row ∈ engine.database.endpointEvents, state.isActiveEvent row = true ∧
          86400 ≤ row.secondsUntil time := by
  constructor
  · rintro ⟨_, _, _, _, other, hoperation, hother, hrolls⟩
    obtain ⟨rfl, -, rfl, rfl, rfl⟩ := Operation.processCycle.inj hoperation
    obtain rfl := Option.some.inj (Option.some.inj (htask.symm.trans hother))
    exact hrolls
  · exact fun hrolls ↦ ⟨environment, result, baseline, nowIso, state, rfl, htask, hrolls⟩

/-- An operation that is no cycle of the endpoint and keeps the total. -/
theorem Tally.kept_of_resultOf {tally : Tally} {time : ℤ} {operation : Operation}
    {executed : Engine} (hresult : resultOf endpoint ⟨time, operation⟩ = none)
    (htotal : tally.total endpoint executed.database = tally.total endpoint engine.database)
    (hother : ∀ environment result baseline nowIso,
      operation ≠ .processCycle environment endpoint result baseline nowIso) :
    ¬ RollsOver threshold endpoint engine ⟨time, operation⟩ ∧
      tally.total endpoint executed.database =
        tally.total endpoint engine.database + tally.added endpoint ⟨time, operation⟩ := by
  constructor
  · rintro ⟨environment, result, baseline, nowIso, -, hoperation, -⟩
    exact hother environment result baseline nowIso hoperation
  · rw [added, hresult, htotal]
    exact (add_zero _).symm

/-- A cycle of the engine adds its results once, unless it rolls the active event over. -/
theorem Tally.total_processCycle (tally : Tally) (endpoint : EndpointId)
    (hcoherent : engine.Coherent) {executed : Engine} {time : ℤ} {environment : Environment}
    {endpointId : EndpointId} {result : PingResult} {baseline : Option (ℚ × ℚ)} {nowIso : ℤ}
    (hexecute : engine.execute threshold numWorkers time
      (.processCycle environment endpointId result baseline nowIso) = some executed) :
    (¬ RollsOver threshold endpoint engine
        ⟨time, .processCycle environment endpointId result baseline nowIso⟩ ∧
      tally.total endpoint executed.database =
        tally.total endpoint engine.database + tally.added endpoint
          ⟨time, .processCycle environment endpointId result baseline nowIso⟩) ∨
    (RollsOver threshold endpoint engine
        ⟨time, .processCycle environment endpointId result baseline nowIso⟩ ∧
      tally.total endpoint executed.database =
        tally.total endpoint engine.database + 2 * tally.added endpoint
          ⟨time, .processCycle environment endpointId result baseline nowIso⟩) := by
  obtain ⟨state, htask, ⟨recorded, written⟩, hrecord, rfl⟩ := execute_processCycle hexecute
  have htracks : RightTask engine.database endpointId (some (some state)) :=
    htask ▸ hcoherent.tasks endpointId
  have hnext := (confirm_kept threshold environment state (classifyCycle result baseline).1
    (classifyCycle result baseline).2).1.trans htracks.endpointId
  have htotals := tally.total_recordCycle endpoint hcoherent.database htracks hnext hrecord
  rw [confirmedDetailedState_confirm_iff] at htotals
  rw [added_of_resultOf rfl]
  by_cases hsame : endpointId = endpoint
  · subst hsame
    rw [rollsOver_iff htask]
    rw [if_pos rfl, if_pos rfl] at htotals
    rw [if_pos rfl]
    exact htotals
  · rw [if_neg hsame, if_neg hsame] at htotals
    rw [if_neg hsame]
    refine Or.inl ⟨?_, htotals.elim And.right And.right⟩
    rintro ⟨_, _, _, _, _, hoperation, -⟩
    exact hsame (Operation.processCycle.inj hoperation).2.1

/-- A step adds the results that it processes once, unless it rolls the active event over. -/
theorem Tally.total_step (tally : Tally) (endpoint : EndpointId) (hcoherent : engine.Coherent)
    (hstep : step threshold numWorkers engine event = some next) :
    (¬ RollsOver threshold endpoint engine event ∧
      tally.total endpoint next.database =
        tally.total endpoint engine.database + tally.added endpoint event) ∨
    (RollsOver threshold endpoint engine event ∧
      tally.total endpoint next.database =
        tally.total endpoint engine.database + 2 * tally.added endpoint event) := by
  obtain ⟨-, -, -, executed, hexecute, hdatabase, -⟩ := step_eq_some hstep
  rw [hdatabase]
  obtain ⟨time, operation⟩ := event
  cases operation with
  | crash worker =>
    obtain rfl := Option.some.inj hexecute
    exact Or.inl (kept_of_resultOf rfl rfl fun _ _ _ _ ↦ Operation.noConfusion)
  | restart worker =>
    obtain rfl := Option.some.inj (Option.ite_none_left_eq_some.mp hexecute).2
    exact Or.inl (kept_of_resultOf rfl
      (tally.total_resolveStartupState endpoint time engine.database)
      fun _ _ _ _ ↦ Operation.noConfusion)
  | spawn environment endpointId =>
    obtain rfl := Option.some.inj (Option.ite_none_right_eq_some.mp hexecute).2
    exact Or.inl (kept_of_resultOf rfl rfl fun _ _ _ _ ↦ Operation.noConfusion)
  | createInitial environment endpointId result baseline =>
    obtain ⟨-, ⟨recorded, written⟩, hcreate, rfl⟩ := execute_createInitial hexecute
    obtain ⟨initial, hinitial, hopened⟩ := openEvent_of_createInitialEvent hcreate
    obtain ⟨rfl, rfl⟩ := Prod.mk.inj hopened
    refine Or.inl ⟨?_, ?_⟩
    · rintro ⟨_, _, _, _, _, hoperation, -⟩
      exact Operation.noConfusion hoperation
    · have htotal := tally.total_openEvent endpoint initial result false time engine.database
      rw [added_of_resultOf rfl]
      exact hinitial ▸ htotal
  | processCycle environment endpointId result baseline nowIso =>
    exact tally.total_processCycle endpoint hcoherent hexecute
  | failCycle endpointId =>
    obtain rfl := Option.some.inj (Option.ite_none_right_eq_some.mp hexecute).2
    exact Or.inl (kept_of_resultOf rfl rfl fun _ _ _ _ ↦ Operation.noConfusion)
  | disable endpointId =>
    obtain rfl := Option.some.inj hexecute
    exact Or.inl (kept_of_resultOf rfl rfl fun _ _ _ _ ↦ Operation.noConfusion)
  | openGap eventType description =>
    obtain rfl := Option.some.inj hexecute
    exact Or.inl (kept_of_resultOf rfl (tally.total_closeOpenEvents endpoint time _)
      fun _ _ _ _ ↦ Operation.noConfusion)
  | closeGap gapId =>
    obtain rfl := Option.some.inj hexecute
    exact Or.inl (kept_of_resultOf rfl rfl fun _ _ _ _ ↦ Operation.noConfusion)

theorem processedResults_concat (endpoint : EndpointId) (events : List Event) (event : Event) :
    processedResults endpoint (events ++ [event]) =
      processedResults endpoint events ++ (resultOf endpoint event).toList := by
  rw [processedResults, List.filterMap_append, processedResults]
  cases hresult : resultOf endpoint event <;> simp [hresult]

theorem Tally.sum_processedResults_concat (tally : Tally) (endpoint : EndpointId)
    (events : List Event) (event : Event) :
    ((processedResults endpoint (events ++ [event])).map tally.amount).sum =
      ((processedResults endpoint events).map tally.amount).sum + tally.added endpoint event := by
  rw [processedResults_concat, List.map_append, List.sum_append, added]
  cases resultOf endpoint event <;> simp

theorem sum_amount_cycleTally (results : List PingResult) :
    (results.map cycleTally.amount).sum = results.length := by
  simp [cycleTally]

theorem added_cycleTally_of_rollsOver (hrolls : RollsOver threshold endpoint engine event) :
    cycleTally.added endpoint event = 1 := by
  obtain ⟨_, result, _, _, _, hoperation, -⟩ := hrolls
  rw [Tally.added, resultOf, hoperation]
  dsimp only
  rw [if_pos rfl]
  rfl

/-- The run lemma: the events count each cycle once at least, and exactly once when no cycle rolls
an event over. -/
theorem ledger_of_run (endpoint : EndpointId) {now : ℤ}
    (hrun : run (step threshold numWorkers) (Engine.start now) events = some finish) :
    ((processedResults endpoint events).map cycleTally.amount).sum ≤
        cycleTally.total endpoint finish.database ∧
      (cycleTally.total endpoint finish.database ≤
          ((processedResults endpoint events).map cycleTally.amount).sum →
        EveryStep (step threshold numWorkers) (Engine.start now) events fun engine event ↦
          ¬ RollsOver threshold endpoint engine event) ∧
      (EveryStep (step threshold numWorkers) (Engine.start now) events (fun engine event ↦
          ¬ RollsOver threshold endpoint engine event) →
        ∀ tally : Tally, tally.total endpoint finish.database =
          ((processedResults endpoint events).map tally.amount).sum) := by
  induction events using List.reverseRecOn generalizing finish with
  | nil =>
    obtain rfl := Option.some.inj hrun
    refine ⟨le_rfl, fun _ before event after _ hsplit ↦ ?_, fun _ tally ↦ rfl⟩
    exact absurd hsplit.symm (List.append_ne_nil_of_right_ne_nil _ (List.cons_ne_nil _ _))
  | append_singleton events event ih =>
    obtain ⟨middle, hmiddle, hlast⟩ := run_concat_eq_some.mp hrun
    obtain ⟨hle, hsteps, htotals⟩ := ih hmiddle
    have hcoherent := coherent_of_run hmiddle
    rw [everyStep_concat_iff hmiddle]
    refine ⟨?_, ?_, ?_⟩
    · rw [cycleTally.sum_processedResults_concat]
      rcases cycleTally.total_step endpoint hcoherent hlast with ⟨-, htotal⟩ | ⟨hrolls, htotal⟩
      · omega
      · have hadded := added_cycleTally_of_rollsOver hrolls
        omega
    · rw [cycleTally.sum_processedResults_concat]
      intro hsame
      rcases cycleTally.total_step endpoint hcoherent hlast with ⟨hkept, htotal⟩ | ⟨hrolls, htotal⟩
      · exact ⟨hsteps (by omega), hkept⟩
      · have hadded := added_cycleTally_of_rollsOver hrolls
        omega
    · rintro ⟨hbefore, hkept⟩ tally
      rw [tally.sum_processedResults_concat, ← htotals hbefore tally]
      rcases tally.total_step endpoint hcoherent hlast with ⟨-, htotal⟩ | ⟨hrolls, -⟩
      · exact htotal
      · exact absurd hrolls hkept

/-- The events of an endpoint conserve its cycles and pings exactly when no cycle of the run rolls
its active event over. -/
theorem cyclesConserved_iff (threshold numWorkers : ℕ) (now : ℤ) (events : List Event)
    (finish : Engine) (endpoint : EndpointId)
    (hrun : run (step threshold numWorkers) (Engine.start now) events = some finish) :
    CyclesConserved endpoint (processedResults endpoint events) finish.database ↔
      EveryStep (step threshold numWorkers) (Engine.start now) events fun engine event ↦
        ¬ RollsOver threshold endpoint engine event := by
  obtain ⟨-, hsteps, htotals⟩ := ledger_of_run endpoint hrun
  constructor
  · intro hconserved
    exact hsteps (hconserved.cycles.trans (sum_amount_cycleTally _).symm).le
  · intro hkept
    exact ⟨(htotals hkept cycleTally).trans (sum_amount_cycleTally _),
      htotals hkept successTally, htotals hkept failedTally⟩

/-- An endpoint is added, and its next cycle is a day later. -/
def sampleRollover : List Event :=
  [⟨1, .restart 0⟩, ⟨2, .spawn Environment.empty 7⟩,
    ⟨3, .createInitial Environment.empty 7 ⟨1, 0, none⟩ none⟩,
    ⟨86400000003, .processCycle Environment.empty 7 ⟨1, 0, none⟩ none 0⟩]

theorem isSome_run_sampleRollover :
    (run (step 3 1) (Engine.start 0) sampleRollover).isSome := by decide +kernel

/-- The engine after the cycle. -/
def sampleRolledOver : Engine :=
  (run (step 3 1) (Engine.start 0) sampleRollover).get isSome_run_sampleRollover

theorem cyclesConserved_iff_sampleRollover :
    CyclesConserved 7 (processedResults 7 sampleRollover) sampleRolledOver.database ↔
      EveryStep (step 3 1) (Engine.start 0) sampleRollover fun engine event ↦
        ¬ RollsOver 3 7 engine event :=
  cyclesConserved_iff 3 1 0 sampleRollover sampleRolledOver 7 (Option.some_get _).symm

/-- The two cycles are counted as three. -/
theorem cycles_counted_twice_at_rollover :
    run (step 3 1) (Engine.start 0) sampleRollover = some sampleRolledOver ∧
      ¬ CyclesConserved 7 (processedResults 7 sampleRollover) sampleRolledOver.database := by
  refine ⟨(Option.some_get _).symm, fun hconserved ↦ ?_⟩
  have hcounted : cycleTally.total 7 sampleRolledOver.database = 3 := by decide +kernel
  have hprocessed : (processedResults 7 sampleRollover).length = 2 := by decide
  have hcycles := hconserved.cycles
  omega

end Steps

end Lnmp.Monitoring
