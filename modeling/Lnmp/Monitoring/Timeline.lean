import Lnmp.Monitoring.Engine

/-!
# The timeline of an endpoint

A timeline is well formed when its closed events end no earlier than they start, with durations
that are not negative, and the spans of the events of one endpoint are disjoint. The spans are
disjoint in every reachable state. The ends can be wrong: a restart that finds an unresolved gap
closes all open events at its start, also those that started after it. `wellFormed_iff`: a timeline
is well formed exactly when no restart has done so.
-/

set_option autoImplicit false
set_option relaxedAutoImplicit false

namespace Lnmp.Monitoring

open Lnmp.Foundation Lnmp.Foundation.Runs

/-- A closed event ends no earlier than it starts, and its duration is not negative. -/
def EndpointEvent.Ended (event : EndpointEvent) : Prop :=
  ∀ finish, event.endTime = some finish → event.startTime ≤ finish ∧ 0 ≤ event.durationSeconds

/-- The closed events end after they start, and no two events of an endpoint share an instant. -/
structure WellFormed (database : Database) : Prop where
  ended : ∀ event ∈ database.endpointEvents, event.Ended
  disjoint : database.endpointEvents.Pairwise fun first second ↦
    first.endpointId = second.endpointId → Disjoint first.span.instants second.span.instants

/-- A restart that resolves a gap finds no open event that started after the gap. -/
def GapPrecedesOpenEvents (engine : Engine) (event : Event) : Prop :=
  ∀ worker gap, event.operation = .restart worker →
    latestUnresolvedGap engine.database = some gap →
      ∀ row ∈ engine.database.endpointEvents, row.endTime = none → row.startTime ≤ gap.startTime

variable {threshold numWorkers : ℕ} {engine next finish : Engine} {event : Event}
  {database written : Database} {now time closing : ℤ} {row revised : EndpointEvent}

theorem Coherent.disjoint (hcoherent : Coherent database now) :
    database.endpointEvents.Pairwise fun first second ↦
      first.endpointId = second.endpointId → Disjoint first.span.instants second.span.instants :=
  hcoherent.ordered.imp fun hbefore hsame ↦ (hbefore.precedes hsame).disjoint

theorem epochSeconds_nonneg {interval : ℤ} (hinterval : 0 ≤ interval) :
    0 ≤ epochSeconds interval := by
  rw [epochSeconds, if_pos hinterval]
  omega

/-- A revised row ends after its start, when the row did or is open and started by the closing
time. -/
theorem EndpointEvent.Revises.ended_revised (hrevises : row.Revises closing revised)
    (hended : row.Ended) (hstart : row.endTime = none → row.startTime ≤ closing) :
    revised.Ended := by
  intro finish hfinish
  have hsame : revised.startTime = row.startTime := hrevises.span.start
  rw [hsame]
  rcases hrevises.span.finish_eq hfinish with hold | ⟨hopen, rfl⟩
  · obtain ⟨hle, hduration⟩ := hended finish hold
    have hclosed : row.endTime ≠ none := Option.ne_none_iff_exists'.mpr ⟨finish, hold⟩
    exact ⟨hle, hrevises.kept hclosed ▸ hduration⟩
  · have hle := hstart hopen
    exact ⟨hle, hrevises.measured hopen hfinish ▸ epochSeconds_nonneg (sub_nonneg.mpr hle)⟩

/-- A closed row that ends after its start after a revision did so before. -/
theorem EndpointEvent.Revises.ended (hrevises : row.Revises closing revised)
    (hended : revised.Ended) : row.Ended := by
  intro finish hfinish
  have hclosed : row.endTime ≠ none := Option.ne_none_iff_exists'.mpr ⟨finish, hfinish⟩
  have hsame : revised.startTime = row.startTime := hrevises.span.start
  obtain ⟨hle, hduration⟩ := hended finish (hrevises.span.closed finish hfinish)
  exact ⟨hsame ▸ hle, hrevises.kept hclosed ▸ hduration⟩

/-- An operation closes no event before its start, unless it is a restart that resolves a younger
gap. -/
theorem RowsWritten.ended {revise : EndpointEvent → EndpointEvent} {fresh : Option EndpointEvent}
    (hrows : RowsWritten engine event written closing revise fresh)
    (hcoherent : Coherent engine.database engine.now) (hlater : engine.now < event.time)
    (hgap : GapPrecedesOpenEvents engine event)
    (hended : ∀ row ∈ engine.database.endpointEvents, row.Ended) :
    ∀ row ∈ written.endpointEvents, row.Ended := by
  intro row hmem
  rcases (hrows.rewrites.mem_iff row).mp hmem with ⟨old, hold, rfl⟩ | hfresh
  · refine (hrows.rewrites.revises old).ended_revised (hended old hold) fun hopen ↦ ?_
    rcases hrows.closing with rfl | ⟨worker, gap, hrestart, hlatest, rfl⟩
    · exact (hcoherent.started old hold).trans hlater.le
    · exact hgap worker gap hrestart hlatest old hold hopen
  · intro finish hfinish
    exact absurd ((hrows.rewrites.fresh_span row hfresh).2.symm.trans hfinish)
      (Option.some_ne_none _).symm

/-- What a restart with an unresolved gap leaves well formed. -/
theorem gapPrecedesOpenEvents_of_step
    (hstep : step threshold numWorkers engine event = some next)
    (hended : ∀ row ∈ next.database.endpointEvents, row.Ended) :
    GapPrecedesOpenEvents engine event := by
  intro worker gap hrestart hlatest row hmem hopen
  obtain ⟨time, operation⟩ := event
  obtain rfl : operation = .restart worker := hrestart
  obtain ⟨-, -, -, executed, hexecuted, hdatabase, -⟩ := step_eq_some hstep
  obtain rfl := Option.some.inj (Option.ite_none_left_eq_some.mp hexecuted).2
  by_contra hyounger
  rw [not_le] at hyounger
  -- The event is in the window that the restart reaches, and is closed before its start.
  have hreached : row.isReached gap.startTime = true := by
    rw [EndpointEvent.isReached, Bool.and_eq_true_iff, EndpointEvent.isOpen_iff, decide_eq_true_eq,
      closingWindow]
    exact ⟨hopen, by omega⟩
  have hclosed : row.close gap.startTime ∈ next.database.endpointEvents := by
    rw [hdatabase]
    show row.close gap.startTime ∈ (resolveStartupState time engine.database).endpointEvents
    rw [resolveStartupState, hlatest]
    refine List.mem_map.mpr ⟨row, hmem, ?_⟩
    exact if_pos hreached
  exact absurd (hended _ hclosed gap.startTime rfl).1 (not_le.mpr hyounger)

/-- The step lemma. -/
theorem wellFormed_step_iff (hcoherent : engine.Coherent)
    (hstep : step threshold numWorkers engine event = some next) :
    WellFormed next.database ↔
      WellFormed engine.database ∧ GapPrecedesOpenEvents engine event := by
  obtain ⟨hnext, hwritten⟩ := hcoherent.step hstep
  obtain ⟨closing, revise, fresh, hrows⟩ := hwritten.rows
  have hlater := (step_eq_some hstep).1
  constructor
  · intro hwellFormed
    refine ⟨⟨fun row hmem ↦ ?_, hcoherent.database.disjoint⟩,
      gapPrecedesOpenEvents_of_step hstep hwellFormed.ended⟩
    refine (hrows.rewrites.revises row).ended (hwellFormed.ended _ ?_)
    exact (hrows.rewrites.mem_iff _).mpr (Or.inl ⟨row, hmem, rfl⟩)
  · rintro ⟨hwellFormed, hgap⟩
    exact ⟨hrows.ended hcoherent.database hlater hgap hwellFormed.ended, hnext.database.disjoint⟩

/-- The timeline that a run leaves behind is well formed exactly when no restart of the run resolved
a gap that is older than an open event. -/
theorem wellFormed_iff (threshold numWorkers : ℕ) (now : ℤ) (events : List Event) (finish : Engine)
    (hrun : run (step threshold numWorkers) (Engine.start now) events = some finish) :
    WellFormed finish.database ↔
      EveryStep (step threshold numWorkers) (Engine.start now) events GapPrecedesOpenEvents :=
  property_iff_everyStep Engine.Coherent (fun engine ↦ WellFormed engine.database)
    (fun _ _ _ hcoherent hstep ↦ (hcoherent.step hstep).1)
    (fun _ _ _ hcoherent hstep ↦ wellFormed_step_iff hcoherent hstep) (Engine.coherent_start now)
    ⟨fun _ hmem ↦ absurd hmem List.not_mem_nil, List.Pairwise.nil⟩ hrun

/-- An endpoint is added while a gap is unresolved, and the engine restarts. -/
def sampleGapRestart : List Event :=
  [⟨1, .restart 0⟩, ⟨2, .openGap .databaseDisconnect none⟩, ⟨3, .spawn Environment.empty 7⟩,
    ⟨4, .createInitial Environment.empty 7 ⟨1, 0, none⟩ none⟩, ⟨5, .crash 0⟩, ⟨6, .restart 0⟩]

theorem isSome_run_sampleGapRestart :
    (run (step 3 1) (Engine.start 0) sampleGapRestart).isSome := by decide +kernel

/-- The engine after the restart. -/
def sampleGapRestarted : Engine :=
  (run (step 3 1) (Engine.start 0) sampleGapRestart).get isSome_run_sampleGapRestart

theorem wellFormed_iff_sampleGapRestarted : WellFormed sampleGapRestarted.database ↔
    EveryStep (step 3 1) (Engine.start 0) sampleGapRestart GapPrecedesOpenEvents :=
  wellFormed_iff 3 1 0 sampleGapRestart sampleGapRestarted (Option.some_get _).symm

/-- The restart closes the event of the endpoint before its start. -/
theorem ended_before_start_after_restart :
    run (step 3 1) (Engine.start 0) sampleGapRestart = some sampleGapRestarted ∧
      ¬ WellFormed sampleGapRestarted.database := by
  refine ⟨(Option.some_get _).symm, fun hwellFormed ↦ ?_⟩
  have hrows : sampleGapRestarted.database.endpointEvents.map
      (fun event ↦ (event.startTime, event.endTime)) = [(4, some 2)] := by decide +kernel
  obtain ⟨event, hmem, hspan⟩ := List.mem_map.mp (hrows ▸ List.mem_singleton_self _)
  obtain ⟨hstart, hend⟩ := Prod.mk.inj hspan
  have hle := (hwellFormed.ended event hmem 2 hend).1
  omega

end Lnmp.Monitoring
