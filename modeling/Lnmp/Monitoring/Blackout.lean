import Lnmp.Monitoring.Engine

/-!
# Blackout neutralization

An instant at which an endpoint was not monitored must not lie in one of its events, unless a gap
covers it. An event without an end reaches up to the present, as the reports count it.

The engine does not open gaps by itself. `neutralized_iff`: a run is neutralized throughout exactly
when, at every step, the endpoints with an open event are all monitored, or a gap is unresolved, or
the step moves the end of a gap up to the present. A crash leaves the open events of the worker
behind, and so does disabling an endpoint.
-/

set_option autoImplicit false
set_option relaxedAutoImplicit false

namespace Lnmp.Monitoring

open Lnmp.Foundation Lnmp.Foundation.Runs

/-- The instants of a watch. -/
def Watch.instants (watch : Watch) : Set ℤ := Set.Ico watch.start watch.finish

/-- A gap of the tables covers the instant. -/
def Database.CoveredByGap (database : Database) (instant : ℤ) : Prop :=
  ∃ gap ∈ database.serviceEvents, instant ∈ gap.span.instants

/-- No event of an endpoint contains an instant at which the endpoint was not monitored, unless a
gap covers it. -/
def Engine.Neutralized (engine : Engine) : Prop :=
  ∀ watch ∈ engine.history, ∀ row ∈ engine.database.endpointEvents,
    watch.monitored row.endpointId = false → ∀ instant ∈ watch.instants,
      instant ∈ row.span.instants → engine.database.CoveredByGap instant

/-- The endpoints with an open event are monitored, or a gap is unresolved, or a gap is about to
end now. -/
def BlackoutCovered (engine : Engine) (event : Event) : Prop :=
  (∀ row ∈ engine.database.endpointEvents, row.endTime = none →
    engine.monitors row.endpointId = true) ∨
  (∃ gap ∈ engine.database.serviceEvents, gap.endTime = none) ∨
  ∃ gap ∈ engine.database.serviceEvents, event.operation = .closeGap gap.id

/-- The history ends in the present. -/
def Engine.Past (engine : Engine) : Prop := ∀ watch ∈ engine.history, watch.finish ≤ engine.now

variable {threshold numWorkers : ℕ} {engine next finish : Engine} {event : Event}
  {written : Database} {instant : ℤ} {row : EndpointEvent}

theorem Engine.Past.step (hpast : engine.Past)
    (hstep : Monitoring.step threshold numWorkers engine event = some next) : next.Past := by
  obtain ⟨hlater, hnow, hhistory, -⟩ := step_eq_some hstep
  intro watch hmem
  rw [hhistory, List.mem_append, List.mem_singleton] at hmem
  rw [hnow]
  rcases hmem with hmem | rfl
  · exact (hpast watch hmem).trans hlater.le
  · exact le_rfl

/-- An operation uncovers no instant of the past. -/
theorem GapsWritten.coveredByGap {ends : ServiceEvent → Bool} {fresh : Option ServiceEvent}
    (hgaps : GapsWritten engine event written ends fresh) (hinstant : instant < event.time)
    (hcovered : engine.database.CoveredByGap instant) : written.CoveredByGap instant := by
  obtain ⟨gap, hmem, hgap⟩ := hcovered
  refine ⟨_, (hgaps.mem_iff _).mpr (Or.inl ⟨gap, hmem, rfl⟩), ?_⟩
  obtain ⟨hstart, hend⟩ := Span.mem_instants_iff.mp hgap
  refine Span.mem_instants_iff.mpr ⟨?_, fun ended hended ↦ ?_⟩
  · show (updateGap ends event.time gap).startTime ≤ instant
    rw [startTime_updateGap]
    exact hstart
  · rcases endTime_updateGap hended with hsame | rfl
    · exact hend ended hsame
    · exact hinstant

/-- An operation adds no instant of the past to an event. -/
theorem RowsWritten.exists_mem_instants {closing : ℤ} {revise : EndpointEvent → EndpointEvent}
    {fresh : Option EndpointEvent} (hrows : RowsWritten engine event written closing revise fresh)
    (hmem : row ∈ written.endpointEvents) (hinstant : instant < event.time)
    (hrow : instant ∈ row.span.instants) :
    ∃ old ∈ engine.database.endpointEvents, old.endpointId = row.endpointId ∧
      instant ∈ old.span.instants := by
  rcases (hrows.rewrites.mem_iff row).mp hmem with ⟨old, hold, rfl⟩ | hfresh
  · have hrevises := hrows.rewrites.revises old
    exact ⟨old, hold, hrevises.endpointId.symm, hrevises.span.subset hrow⟩
  · have hstart := (Span.mem_instants_iff.mp hrow).1
    have htime := (hrows.rewrites.fresh_span row hfresh).1
    exact absurd (htime.symm.trans_le hstart) (not_le.mpr hinstant)

/-- An event that contains the present or a later instant is open. -/
theorem Coherent.endTime_eq_none {database : Database} {now : ℤ} (hcoherent : Coherent database now)
    (hmem : row ∈ database.endpointEvents) (hnow : now ≤ instant)
    (hrow : instant ∈ row.span.instants) : row.endTime = none := by
  by_contra hclosed
  obtain ⟨ended, hended⟩ := Option.ne_none_iff_exists'.mp hclosed
  have hle := (hcoherent.ended row hmem ended hended).trans hnow
  exact Span.notMem_instants_of_finish_le hended hle hrow

/-- When the present is covered, it still is after the step. -/
theorem coveredByGap_of_blackoutCovered (hcoherent : engine.Coherent)
    (hstep : step threshold numWorkers engine event = some next)
    (hgap : (∃ gap ∈ engine.database.serviceEvents, gap.endTime = none) ∨
      ∃ gap ∈ engine.database.serviceEvents, event.operation = .closeGap gap.id)
    (hnow : engine.now ≤ instant) (hinstant : instant < event.time) :
    next.database.CoveredByGap instant := by
  rcases hgap with ⟨gap, hmem, hopen⟩ | ⟨gap, hmem, hclose⟩
  · obtain ⟨ends, fresh, hgaps⟩ := (hcoherent.step hstep).2.gaps
    refine hgaps.coveredByGap hinstant ⟨gap, hmem, ?_⟩
    rw [Span.instants_of_open (show gap.span.finish = none from hopen)]
    exact (hcoherent.database.gapStarted gap hmem).trans hnow
  · obtain ⟨time, operation⟩ := event
    obtain rfl : operation = .closeGap gap.id := hclose
    obtain ⟨-, -, -, executed, hexecuted, hdatabase, -⟩ := step_eq_some hstep
    obtain rfl := Option.some.inj hexecuted
    rw [hdatabase]
    refine ⟨gap.close time, List.mem_map.mpr ⟨gap, hmem, if_pos rfl⟩, ?_⟩
    rw [Span.instants_of_closed (show (gap.close time).span.finish = some time from rfl)]
    exact ⟨(hcoherent.database.gapStarted gap hmem).trans hnow, hinstant⟩

/-- A step that meets the condition keeps the past neutralized. -/
theorem Engine.Neutralized.step (hneutralized : engine.Neutralized) (hcoherent : engine.Coherent)
    (hpast : engine.Past) (hcovered : BlackoutCovered engine event)
    (hstep : Monitoring.step threshold numWorkers engine event = some next) :
    next.Neutralized := by
  obtain ⟨hlater, -, hhistory, -⟩ := step_eq_some hstep
  obtain ⟨-, hwritten⟩ := hcoherent.step hstep
  obtain ⟨closing, revise, fresh, hrows⟩ := hwritten.rows
  obtain ⟨ends, freshGap, hgaps⟩ := hwritten.gaps
  intro watch hwatch row hmem hunmonitored instant hinstant hrow
  rw [hhistory, List.mem_append, List.mem_singleton] at hwatch
  rcases hwatch with hwatch | rfl
  · -- A watch of the past.
    have hbefore : instant < event.time := (hinstant.2.trans_le (hpast watch hwatch)).trans hlater
    obtain ⟨old, hold, hsame, holdRow⟩ := hrows.exists_mem_instants hmem hbefore hrow
    rw [← hsame] at hunmonitored
    exact hgaps.coveredByGap hbefore
      (hneutralized watch hwatch old hold hunmonitored instant hinstant holdRow)
  · -- The watch that ends with the step.
    obtain ⟨hnow, hbefore⟩ := hinstant
    obtain ⟨old, hold, hsame, holdRow⟩ := hrows.exists_mem_instants hmem hbefore hrow
    have hopen := hcoherent.database.endTime_eq_none hold hnow holdRow
    rcases hcovered with hmonitored | hgap
    · rw [← hsame] at hunmonitored
      exact absurd (hmonitored old hold hopen) (Bool.eq_false_iff.mp hunmonitored)
    · exact coveredByGap_of_blackoutCovered hcoherent hstep hgap hnow hbefore

/-- After a step that does not meet the condition, the present was unmonitored and in an event, and
no gap covers it. -/
theorem blackoutCovered_of_neutralized (hcoherent : engine.Coherent)
    (hstep : step threshold numWorkers engine event = some next)
    (hneutralized : next.Neutralized) : BlackoutCovered engine event := by
  obtain ⟨hlater, -, hhistory, -⟩ := step_eq_some hstep
  obtain ⟨-, hwritten⟩ := hcoherent.step hstep
  obtain ⟨closing, revise, fresh, hrows⟩ := hwritten.rows
  obtain ⟨ends, freshGap, hgaps⟩ := hwritten.gaps
  refine or_iff_not_imp_right.mpr fun hgap row hmem hopen ↦ ?_
  obtain ⟨hresolved, hkept⟩ := not_or.mp hgap
  have hnone : latestUnresolvedGap engine.database = none :=
    (latestUnresolvedGap_eq_none_iff _).mpr fun gap hgapMem hgapOpen ↦
      hresolved ⟨gap, hgapMem, hgapOpen⟩
  by_contra hunmonitored
  -- The event contains the present, also after the step.
  have hclosing : closing = event.time := by
    rcases hrows.closing with hclosing | ⟨-, gap, -, hlatest, -⟩
    · exact hclosing
    · exact absurd (hnone.symm.trans hlatest) (Option.some_ne_none _).symm
  have hcontains : engine.now ∈ row.span.instants := by
    rw [Span.instants_of_open (show row.span.finish = none from hopen)]
    exact hcoherent.database.started row hmem
  have hrevises := hrows.rewrites.revises row
  have hrevised := hrevises.span.mem_instants hcontains (hclosing ▸ hlater)
  have hunwatched : (engine.watch event.time).monitored (revise row).endpointId = false := by
    rw [hrevises.endpointId]
    exact Bool.eq_false_iff.mpr hunmonitored
  have hwatch : engine.watch event.time ∈ next.history := by
    rw [hhistory]
    exact List.mem_append_right _ (List.mem_singleton_self _)
  obtain ⟨gap, hgapMem, hgapNow⟩ := hneutralized _ hwatch _
    ((hrows.rewrites.mem_iff _).mpr (Or.inl ⟨row, hmem, rfl⟩)) hunwatched engine.now
    ⟨le_rfl, hlater⟩ hrevised
  rcases (hgaps.mem_iff gap).mp hgapMem with ⟨old, hold, rfl⟩ | hfresh
  · -- A gap that was resolved before is over.
    have hunended : updateGap ends event.time old = old := by
      refine if_neg fun hends ↦ ?_
      rcases hgaps.ends old hends with hclose | hlatest
      · exact hkept ⟨old, hold, hclose⟩
      · exact hlatest hnone
    rw [hunended] at hgapNow
    obtain ⟨ended, hended⟩ :=
      Option.ne_none_iff_exists'.mp fun hgapOpen ↦ hresolved ⟨old, hold, hgapOpen⟩
    exact Span.notMem_instants_of_finish_le hended
      (hcoherent.database.gapEnded old hold ended hended) hgapNow
  · have hstart := (Span.mem_instants_iff.mp hgapNow).1
    exact absurd ((hgaps.fresh gap hfresh).1.symm.trans_le hstart) (not_le.mpr hlater)

/-- A completed run is neutralized in every state exactly when every step meets the condition. -/
theorem neutralized_iff (threshold numWorkers : ℕ) (now : ℤ) (events : List Event) (finish : Engine)
    (hrun : run (step threshold numWorkers) (Engine.start now) events = some finish) :
    EveryState (step threshold numWorkers) (Engine.start now) events Engine.Neutralized ↔
      EveryStep (step threshold numWorkers) (Engine.start now) events BlackoutCovered :=
  everyState_iff_everyStep (fun engine ↦ engine.Coherent ∧ engine.Past) Engine.Neutralized
    (fun _ _ _ hinvariant hstep ↦ ⟨(hinvariant.1.step hstep).1, hinvariant.2.step hstep⟩)
    (fun _ _ _ hinvariant hneutralized hstep ↦
      ⟨blackoutCovered_of_neutralized hinvariant.1 hstep,
        fun hcovered ↦ hneutralized.step hinvariant.1 hinvariant.2 hcovered hstep⟩)
    ⟨Engine.coherent_start now, fun _ hmem ↦ absurd hmem List.not_mem_nil⟩
    (fun _ hmem ↦ absurd hmem List.not_mem_nil) hrun

/-- The engine crashes while an endpoint is up, and restarts after a while. -/
def sampleCrash : List Event :=
  [⟨1, .restart 0⟩, ⟨2, .spawn Environment.empty 7⟩,
    ⟨3, .createInitial Environment.empty 7 ⟨1, 0, none⟩ none⟩, ⟨4, .crash 0⟩, ⟨9, .restart 0⟩]

theorem isSome_run_sampleCrash :
    (run (step 3 1) (Engine.start 0) sampleCrash).isSome := by decide +kernel

/-- The engine after the restart. -/
def sampleCrashed : Engine :=
  (run (step 3 1) (Engine.start 0) sampleCrash).get isSome_run_sampleCrash

theorem neutralized_iff_sampleCrashed :
    EveryState (step 3 1) (Engine.start 0) sampleCrash Engine.Neutralized ↔
      EveryStep (step 3 1) (Engine.start 0) sampleCrash BlackoutCovered :=
  neutralized_iff 3 1 0 sampleCrash sampleCrashed (Option.some_get _).symm

/-- The restart closes the event at the current time, so that it contains the time in which the
engine was down. -/
theorem blackout_counted_after_restart :
    run (step 3 1) (Engine.start 0) sampleCrash = some sampleCrashed ∧
      ¬ sampleCrashed.Neutralized := by
  refine ⟨(Option.some_get _).symm, fun hneutralized ↦ ?_⟩
  have hrows : sampleCrashed.database.endpointEvents.map
      (fun event ↦ (event.endpointId, event.startTime, event.endTime)) = [(7, 3, some 9)] := by
    decide +kernel
  have hwatches : (4, 9, false) ∈ sampleCrashed.history.map
      (fun watch ↦ (watch.start, watch.finish, watch.monitored 7)) := by
    decide +kernel
  have hgaps : sampleCrashed.database.serviceEvents = [] := by decide +kernel
  obtain ⟨row, hrow, hspan⟩ := List.mem_map.mp (hrows ▸ List.mem_singleton_self _)
  obtain ⟨watch, hwatch, hdown⟩ := List.mem_map.mp hwatches
  simp only [Prod.mk.injEq] at hspan hdown
  obtain ⟨hendpoint, hstart, hend⟩ := hspan
  obtain ⟨hcrash, hrestart, hunmonitored⟩ := hdown
  rw [← hendpoint] at hunmonitored
  have hinstant : 4 ∈ row.span.instants := by
    rw [Span.instants_of_closed (show row.span.finish = some 9 from hend)]
    exact ⟨hstart.trans_le (by decide), by decide⟩
  obtain ⟨gap, hgap, -⟩ := hneutralized watch hwatch row hrow hunmonitored 4
    ⟨hcrash.le, hrestart.ge.trans_lt' (by decide)⟩ hinstant
  exact absurd (hgaps ▸ hgap) List.not_mem_nil

end Lnmp.Monitoring
