import Lnmp.Monitoring.StateMachine

/-!
# Monitoring gaps

`monitoring/gap_handler.py`. A gap is a row of `monitoring_service_events`; while it has no end time
it is unresolved. Opening a gap closes the open events of all endpoints at its start, and the
startup of an engine closes those that it finds: at the start of the latest unresolved gap, which
it resolves, or at the current time when there is none. Both reach back seven days only.
-/

set_option autoImplicit false
set_option relaxedAutoImplicit false

namespace Lnmp.Monitoring

/-- The gap has no end time. -/
def ServiceEvent.isOpen (gap : ServiceEvent) : Bool := gap.endTime.isNone

/-- `timedelta(days=7)`. -/
def closingWindow : ℤ := 604800000000

/-- An open event that a closing time reaches. -/
def EndpointEvent.isReached (closeTime : ℤ) (event : EndpointEvent) : Bool :=
  event.isOpen && closeTime - closingWindow ≤ event.startTime

/-- Close the open events of all endpoints that started in the last seven days. -/
def Database.closeOpenEvents (closeTime : ℤ) (database : Database) : Database :=
  database.updateEvents (EndpointEvent.isReached closeTime) (EndpointEvent.close · closeTime)

/-- `open_monitoring_gap`. -/
def openMonitoringGap (eventType : ServiceEventType) (description : Option String)
    (gapStart : ℤ) (database : Database) : RowId × Database :=
  let inserted : Database :=
    { database with
      serviceEvents := database.serviceEvents ++
        [{ id := database.nextId
           eventType := eventType
           description := description
           startTime := gapStart
           endTime := none
           durationSeconds := none }]
      nextId := database.nextId + 1 }
  (database.nextId, inserted.closeOpenEvents gapStart)

/-- Set the end of a gap. -/
def ServiceEvent.close (gap : ServiceEvent) (endTime : ℤ) : ServiceEvent :=
  { gap with
    endTime := some endTime
    durationSeconds := some (epochSeconds (endTime - gap.startTime)) }

/-- `close_monitoring_gap`. It sets the end of a gap that has one as well. -/
def closeMonitoringGap (gapId : RowId) (endTime : ℤ) (database : Database) : Database :=
  { database with
    serviceEvents := database.serviceEvents.map fun gap ↦
      if gap.id = gapId then gap.close endTime else gap }

/-- The latest gap that is unresolved. -/
def latestUnresolvedGap (database : Database) : Option ServiceEvent :=
  (database.serviceEvents.filter ServiceEvent.isOpen).maxOn? ServiceEvent.startTime

/-- `resolve_startup_state`. -/
def resolveStartupState (now : ℤ) (database : Database) : Database :=
  match latestUnresolvedGap database with
  | some gap => (closeMonitoringGap gap.id now database).closeOpenEvents gap.startTime
  | none => database.closeOpenEvents now

theorem latestUnresolvedGap_eq_none_iff (database : Database) :
    latestUnresolvedGap database = none ↔
      ∀ gap ∈ database.serviceEvents, gap.endTime ≠ none := by
  rw [latestUnresolvedGap, ← Option.not_isSome_iff_eq_none, List.isSome_maxOn?_iff, not_not,
    List.filter_eq_nil_iff]
  simp [ServiceEvent.isOpen]

theorem mem_of_latestUnresolvedGap {database : Database} {gap : ServiceEvent}
    (hgap : latestUnresolvedGap database = some gap) :
    gap ∈ database.serviceEvents ∧ gap.endTime = none := by
  obtain ⟨hmem, hopen⟩ := List.mem_filter.mp (List.maxOn?_mem hgap)
  exact ⟨hmem, Option.isNone_iff_eq_none.mp hopen⟩

end Lnmp.Monitoring
