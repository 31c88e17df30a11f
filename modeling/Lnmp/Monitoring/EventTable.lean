import Lnmp.Foundation.Span
import Lnmp.Monitoring.GapHandler

/-!
# The event table

What the operations do to the rows of `endpoint_events`. Every operation revises the rows, where
closed ones stay as they are and open ones may be closed at one time, and may append one open row
(`Rewrites`). A table is `Coherent` at a time when of two rows of an endpoint the earlier one is
closed before the later one starts, and nothing lies in the future. `Coherent.rewrite` keeps that,
if the open row of the endpoint is closed before another is appended.

`Tracks` is what the state of an endpoint in memory says about the table: the only row of the
endpoint that can be open is the active event, and it has the confirmed states.
-/

set_option autoImplicit false
set_option relaxedAutoImplicit false

namespace Lnmp.Monitoring

open Lnmp.Foundation

/-! ### Rows -/

/-- The span of an event. -/
def EndpointEvent.span (event : EndpointEvent) : Span ℤ := ⟨event.startTime, event.endTime⟩

/-- The span of a gap. -/
def ServiceEvent.span (gap : ServiceEvent) : Span ℤ := ⟨gap.startTime, gap.endTime⟩

theorem EndpointEvent.isOpen_iff {event : EndpointEvent} :
    event.isOpen = true ↔ event.endTime = none := Option.isNone_iff_eq_none

/-- A revision of a row: its identity, states and start stay, and it may be closed at the closing
time, with the duration up to then. -/
structure EndpointEvent.Revises (closing : ℤ) (event revised : EndpointEvent) : Prop where
  id : revised.id = event.id
  endpointId : revised.endpointId = event.endpointId
  operationalState : revised.operationalState = event.operationalState
  detailedState : revised.detailedState = event.detailedState
  span : event.span.Revises closing revised.span
  kept : event.endTime ≠ none → revised.durationSeconds = event.durationSeconds
  measured : event.endTime = none → revised.endTime = some closing →
    revised.durationSeconds = event.secondsUntil closing

theorem EndpointEvent.Revises.refl (closing : ℤ) (event : EndpointEvent) :
    event.Revises closing event where
  id := rfl
  endpointId := rfl
  operationalState := rfl
  detailedState := rfl
  span := Span.Revises.refl ..
  kept := fun _ ↦ rfl
  measured := fun hopen hclosed ↦ absurd (hopen.symm.trans hclosed) (Option.some_ne_none _).symm

/-- A revised row that is open was open. -/
theorem EndpointEvent.Revises.endTime_eq_none {closing : ℤ} {event revised : EndpointEvent}
    (hrevises : event.Revises closing revised) (hopen : revised.endTime = none) :
    event.endTime = none := by
  by_contra hclosed
  obtain ⟨finish, hfinish⟩ := Option.ne_none_iff_exists'.mp hclosed
  exact absurd (hopen.symm.trans (hrevises.span.closed finish hfinish))
    (Option.some_ne_none _).symm

theorem EndpointEvent.revises_close {event : EndpointEvent} (hopen : event.endTime = none)
    (time : ℤ) : event.Revises time (event.close time) where
  id := rfl
  endpointId := rfl
  operationalState := rfl
  detailedState := rfl
  span := ⟨rfl, fun _ h ↦ absurd (hopen.symm.trans h) (Option.some_ne_none _).symm,
    fun _ ↦ Or.inr rfl⟩
  kept := fun hclosed ↦ absurd hopen hclosed
  measured := fun _ _ ↦ rfl

theorem EndpointEvent.revises_extend {event : EndpointEvent} (hopen : event.endTime = none)
    (time : ℤ) (result : PingResult) : event.Revises time (event.extend time result) where
  id := rfl
  endpointId := rfl
  operationalState := rfl
  detailedState := rfl
  span := ⟨rfl, fun _ h ↦ h, Or.inl⟩
  kept := fun hclosed ↦ absurd hopen hclosed
  measured := fun _ hclosed ↦ absurd (hopen.symm.trans hclosed) (Option.some_ne_none _).symm

theorem EndpointEvent.revises_extend_close {event : EndpointEvent} (hopen : event.endTime = none)
    (time : ℤ) (result : PingResult) :
    event.Revises time ((event.extend time result).close time) where
  id := rfl
  endpointId := rfl
  operationalState := rfl
  detailedState := rfl
  span := ⟨rfl, fun _ h ↦ absurd (hopen.symm.trans h) (Option.some_ne_none _).symm,
    fun _ ↦ Or.inr rfl⟩
  kept := fun hclosed ↦ absurd hopen hclosed
  measured := fun _ _ ↦ rfl

/-- An update of the open rows that some condition selects. -/
def updateRow (selects : EndpointEvent → Bool) (update : EndpointEvent → EndpointEvent)
    (event : EndpointEvent) : EndpointEvent :=
  if selects event then update event else event

/-- An update revises the rows when it selects open rows and revises those. -/
theorem revises_updateRow {closing : ℤ} {selects : EndpointEvent → Bool}
    {update : EndpointEvent → EndpointEvent}
    (hopen : ∀ event, selects event = true → event.endTime = none)
    (hupdate : ∀ event : EndpointEvent, event.endTime = none →
      event.Revises closing (update event))
    (event : EndpointEvent) : event.Revises closing (updateRow selects update event) := by
  unfold updateRow
  split_ifs with hselects
  · exact hupdate event (hopen event hselects)
  · exact EndpointEvent.Revises.refl closing event

theorem endTime_of_isActiveEvent {state : EndpointState} {event : EndpointEvent}
    (hactive : state.isActiveEvent event = true) : event.endTime = none :=
  EndpointEvent.isOpen_iff.mp (of_decide_eq_true hactive).2

theorem endTime_of_isOpenEvent {state : EndpointState} {event : EndpointEvent}
    (hopen : state.isOpenEvent event = true) : event.endTime = none :=
  EndpointEvent.isOpen_iff.mp (of_decide_eq_true hopen).2

theorem endTime_of_isReached {closeTime : ℤ} {event : EndpointEvent}
    (hreached : event.isReached closeTime = true) : event.endTime = none :=
  EndpointEvent.isOpen_iff.mp (Bool.and_eq_true_iff.mp hreached).1

/-! ### Tables -/

/-- The first row is older than the second and, for one endpoint, was over when the second
started. -/
structure EndpointEvent.Before (first second : EndpointEvent) : Prop where
  id : first.id < second.id
  precedes : first.endpointId = second.endpointId → first.span.Precedes second.span

/-- The tables make sense at a time. -/
structure Coherent (database : Database) (now : ℤ) : Prop where
  issued : ∀ event ∈ database.endpointEvents, event.id < database.nextId
  ordered : database.endpointEvents.Pairwise EndpointEvent.Before
  started : ∀ event ∈ database.endpointEvents, event.startTime ≤ now
  ended : ∀ event ∈ database.endpointEvents, ∀ finish, event.endTime = some finish → finish ≤ now
  gapStarted : ∀ gap ∈ database.serviceEvents, gap.startTime ≤ now
  gapEnded : ∀ gap ∈ database.serviceEvents, ∀ finish, gap.endTime = some finish → finish ≤ now

theorem forall_mem_none {Item : Type*} {property : Item → Prop} :
    ∀ item ∈ (none : Option Item), property item := fun item hmem ↦
  absurd hmem (Option.not_mem_none item)

/-- The rows after an operation at a time: revised, with a new open row perhaps. -/
structure Rewrites (closing time : ℤ) (revise : EndpointEvent → EndpointEvent)
    (fresh : Option EndpointEvent) (database next : Database) : Prop where
  rows : next.endpointEvents = database.endpointEvents.map revise ++ fresh.toList
  revises : ∀ event : EndpointEvent, event.Revises closing (revise event)
  fresh_id : ∀ event ∈ fresh, event.id = database.nextId ∧ database.nextId < next.nextId
  fresh_span : ∀ event ∈ fresh, event.startTime = time ∧ event.endTime = none
  nextId : database.nextId ≤ next.nextId

variable {closing time now : ℤ} {revise : EndpointEvent → EndpointEvent}
  {fresh : Option EndpointEvent} {database next written : Database} {endpoint : EndpointId}
  {state nextState recorded : EndpointState} {result : PingResult}

/-- The row of the table that a row after the operation comes from, unless it is the new one. -/
theorem Rewrites.mem_iff (hrewrites : Rewrites closing time revise fresh database next)
    (event : EndpointEvent) : event ∈ next.endpointEvents ↔
      (∃ old ∈ database.endpointEvents, revise old = event) ∨ event ∈ fresh := by
  rw [hrewrites.rows, List.mem_append, List.mem_map, Option.mem_toList, Option.mem_def]

/-- The step lemma: an operation keeps the order of the rows when it appends a row only for an
endpoint whose rows it leaves closed. -/
theorem Coherent.rewrite (hcoherent : Coherent database now) (hlater : now < time)
    (hclosing : closing ≤ time) (hrewrites : Rewrites closing time revise fresh database next)
    (hclosed : ∀ event ∈ fresh, ∀ old ∈ database.endpointEvents,
      old.endpointId = event.endpointId → (revise old).endTime ≠ none)
    (hgapStarted : ∀ gap ∈ next.serviceEvents, gap.startTime ≤ time)
    (hgapEnded : ∀ gap ∈ next.serviceEvents, ∀ finish, gap.endTime = some finish →
      finish ≤ time) : Coherent next time := by
  have hended : ∀ old ∈ database.endpointEvents, ∀ finish, (revise old).endTime = some finish →
      finish ≤ time := by
    intro old hmem finish hfinish
    rcases (hrewrites.revises old).span.finish_eq hfinish with hold | ⟨-, rfl⟩
    · exact (hcoherent.ended old hmem finish hold).trans hlater.le
    · exact hclosing
  refine ⟨fun event hmem ↦ ?_, ?_, fun event hmem ↦ ?_, fun event hmem finish hfinish ↦ ?_,
    hgapStarted, hgapEnded⟩
  · rcases (hrewrites.mem_iff event).mp hmem with ⟨old, hold, rfl⟩ | hfresh
    · rw [(hrewrites.revises old).id]
      exact (hcoherent.issued old hold).trans_le hrewrites.nextId
    · obtain ⟨hid, hnext⟩ := hrewrites.fresh_id event hfresh
      exact hid ▸ hnext
  · rw [hrewrites.rows, List.pairwise_append]
    refine ⟨?_, ?_, ?_⟩
    · refine List.Pairwise.map revise (fun first second hbefore ↦ ?_) hcoherent.ordered
      have hfirst := hrewrites.revises first
      have hsecond := hrewrites.revises second
      refine ⟨?_, fun hsame ↦ ?_⟩
      · rw [hfirst.id, hsecond.id]
        exact hbefore.id
      · rw [hfirst.endpointId, hsecond.endpointId] at hsame
        exact Span.Revises.precedes hfirst.span hsecond.span (hbefore.precedes hsame)
    · cases fresh with
      | none => exact List.Pairwise.nil
      | some event => exact List.pairwise_singleton _ _
    · intro first hfirst second hsecond
      obtain ⟨old, hold, rfl⟩ := List.mem_map.mp hfirst
      have hfresh := Option.mem_toList.mp hsecond
      have hrevises := hrewrites.revises old
      obtain ⟨hstart, -⟩ := hrewrites.fresh_span second hfresh
      refine ⟨?_, fun hsame ↦ ⟨?_, ?_⟩⟩
      · rw [hrevises.id, (hrewrites.fresh_id second hfresh).1]
        exact hcoherent.issued old hold
      · show (revise old).startTime < second.startTime
        rw [hstart]
        exact (hrevises.span.start.trans_le (hcoherent.started old hold)).trans_lt hlater
      · rw [hrevises.endpointId] at hsame
        obtain ⟨finish, hfinish⟩ :=
          Option.ne_none_iff_exists'.mp (hclosed second hfresh old hold hsame)
        exact ⟨finish, hfinish, (hended old hold finish hfinish).trans hstart.ge⟩
  · rcases (hrewrites.mem_iff event).mp hmem with ⟨old, hold, rfl⟩ | hfresh
    · exact (hrewrites.revises old).span.start.trans_le
        ((hcoherent.started old hold).trans hlater.le)
    · exact (hrewrites.fresh_span event hfresh).1.le
  · rcases (hrewrites.mem_iff event).mp hmem with ⟨old, hold, rfl⟩ | hfresh
    · exact hended old hold finish hfinish
    · exact absurd ((hrewrites.fresh_span event hfresh).2.symm.trans hfinish)
        (Option.some_ne_none _).symm

/-- Two rows of a table are in order, one way or the other. -/
theorem Coherent.before_or (hcoherent : Coherent database now) {first second : EndpointEvent}
    (hfirst : first ∈ database.endpointEvents) (hsecond : second ∈ database.endpointEvents) :
    first = second ∨ first.Before second ∨ second.Before first := by
  obtain ⟨i, hi, rfl⟩ := List.getElem_of_mem hfirst
  obtain ⟨j, hj, rfl⟩ := List.getElem_of_mem hsecond
  have hordered := List.pairwise_iff_getElem.mp hcoherent.ordered
  rcases lt_trichotomy i j with hlt | rfl | hlt
  · exact Or.inr (Or.inl (hordered i j hi hj hlt))
  · exact Or.inl rfl
  · exact Or.inr (Or.inr (hordered j i hj hi hlt))

/-- Only the last row of an endpoint can be open. -/
theorem EndpointEvent.Before.endTime_ne_none {first second : EndpointEvent}
    (hbefore : first.Before second) (hsame : first.endpointId = second.endpointId) :
    first.endTime ≠ none := by
  obtain ⟨finish, hfinish, -⟩ := (hbefore.precedes hsame).finishes
  exact Option.ne_none_iff_exists'.mpr ⟨finish, hfinish⟩

/-- The id of a row identifies it. -/
theorem Coherent.eq_of_id (hcoherent : Coherent database now) {first second : EndpointEvent}
    (hfirst : first ∈ database.endpointEvents) (hsecond : second ∈ database.endpointEvents)
    (hsame : first.id = second.id) : first = second := by
  rcases hcoherent.before_or hfirst hsecond with heq | hbefore | hbefore
  · exact heq
  · exact absurd hsame hbefore.id.ne
  · exact absurd hsame hbefore.id.ne'

/-! ### States in memory -/

/-- A row is of the confirmed states, and the active event of a state in memory. -/
structure EndpointState.Shows (state : EndpointState) (event : EndpointEvent) : Prop where
  id : event.id = state.activeEventId
  operationalState : event.operationalState = state.confirmedOperationalState
  detailedState : event.detailedState = state.confirmedDetailedState

/-- What the state of an endpoint in memory says about the tables. -/
structure Tracks (database : Database) (endpoint : EndpointId) (state : EndpointState) :
    Prop where
  endpointId : state.endpointId = endpoint
  issued : state.activeEventId < database.nextId
  owner : ∀ event ∈ database.endpointEvents, event.id = state.activeEventId →
    event.endpointId = endpoint
  active : ∀ event ∈ database.endpointEvents, event.endpointId = endpoint →
    event.endTime = none → state.Shows event

/-- A row that shows a state shows its revision. -/
theorem EndpointState.Shows.revised {event new : EndpointEvent} (hshows : state.Shows event)
    (hrevises : event.Revises closing new) : state.Shows new where
  id := hrevises.id.trans hshows.id
  operationalState := hrevises.operationalState.trans hshows.operationalState
  detailedState := hrevises.detailedState.trans hshows.detailedState

/-- An operation that appends no row of the endpoint keeps its state in memory right. -/
theorem Tracks.rewrite (htracks : Tracks database endpoint state)
    (hrewrites : Rewrites closing time revise fresh database next)
    (hother : ∀ event ∈ fresh, event.endpointId ≠ endpoint) :
    Tracks next endpoint state where
  endpointId := htracks.endpointId
  issued := htracks.issued.trans_le hrewrites.nextId
  owner := by
    intro event hmem hactive
    rcases (hrewrites.mem_iff event).mp hmem with ⟨old, hold, rfl⟩ | hfresh
    · rw [(hrewrites.revises old).id] at hactive
      exact (hrewrites.revises old).endpointId.trans (htracks.owner old hold hactive)
    · rw [(hrewrites.fresh_id event hfresh).1] at hactive
      exact absurd hactive.symm htracks.issued.ne
  active := by
    intro event hmem hendpoint hopen
    rcases (hrewrites.mem_iff event).mp hmem with ⟨old, hold, rfl⟩ | hfresh
    · have hrevises := hrewrites.revises old
      have holdOpen := hrevises.endTime_eq_none hopen
      have hsame := hrevises.endpointId.symm.trans hendpoint
      exact (htracks.active old hold hsame holdOpen).revised hrevises
    · exact absurd hendpoint (hother event hfresh)

/-- An operation that closes the rows of an endpoint and appends one of its confirmed states makes
that row the active event. -/
theorem tracks_of_fresh (hcoherent : Coherent database now) {event : EndpointEvent}
    (hrewrites : Rewrites closing time revise (some event) database next)
    (hclosed : ∀ old ∈ database.endpointEvents, old.endpointId = event.endpointId →
      (revise old).endTime ≠ none)
    (hendpoint : state.endpointId = event.endpointId) (hshows : state.Shows event) :
    Tracks next event.endpointId state where
  endpointId := hendpoint
  issued := by
    obtain ⟨hid, hnext⟩ := hrewrites.fresh_id event rfl
    rwa [← hshows.id, hid]
  owner := by
    intro other hmem hactive
    rcases (hrewrites.mem_iff other).mp hmem with ⟨old, hold, rfl⟩ | hfresh
    · have hissued := hcoherent.issued old hold
      rw [(hrewrites.revises old).id, ← hshows.id, (hrewrites.fresh_id event rfl).1] at hactive
      exact absurd hactive hissued.ne
    · rw [Option.some.inj hfresh]
  active := by
    intro other hmem hsame hopen
    rcases (hrewrites.mem_iff other).mp hmem with ⟨old, hold, rfl⟩ | hfresh
    · rw [(hrewrites.revises old).endpointId] at hsame
      exact absurd hopen (hclosed old hold hsame)
    · exact Option.some.inj hfresh ▸ hshows

/-- Only these fields of the state matter. -/
theorem Tracks.congr (htracks : Tracks database endpoint state)
    (hendpoint : nextState.endpointId = state.endpointId)
    (hactive : nextState.activeEventId = state.activeEventId)
    (hoperational : nextState.confirmedOperationalState = state.confirmedOperationalState)
    (hdetailed : nextState.confirmedDetailedState = state.confirmedDetailedState) :
    Tracks database endpoint nextState where
  endpointId := hendpoint.trans htracks.endpointId
  issued := hactive ▸ htracks.issued
  owner := fun event hmem hid ↦ htracks.owner event hmem (hid.trans hactive)
  active := by
    intro event hmem hsame hopen
    obtain ⟨hid, hevent, hdetail⟩ := htracks.active event hmem hsame hopen
    exact ⟨hid.trans hactive.symm, hevent.trans hoperational.symm, hdetail.trans hdetailed.symm⟩

/-! ### Operations -/

/-- An update of open rows. -/
theorem rewrites_updateEvents (database : Database) {selects : EndpointEvent → Bool}
    {update : EndpointEvent → EndpointEvent}
    (hopen : ∀ event, selects event = true → event.endTime = none)
    (hupdate : ∀ event : EndpointEvent, event.endTime = none →
      event.Revises closing (update event)) :
    Rewrites closing time (updateRow selects update) none database
      (database.updateEvents selects update) where
  rows := (List.append_nil _).symm
  revises := revises_updateRow hopen hupdate
  fresh_id := forall_mem_none
  fresh_span := forall_mem_none
  nextId := le_rfl

/-- No update. -/
theorem rewrites_of_endpointEvents_eq (hrows : next.endpointEvents = database.endpointEvents)
    (hnext : next.nextId = database.nextId) :
    Rewrites closing time id none database next where
  rows := by rw [hrows, List.map_id, Option.toList_none, List.append_nil]
  revises := fun event ↦ EndpointEvent.Revises.refl closing event
  fresh_id := forall_mem_none
  fresh_span := forall_mem_none
  nextId := hnext.ge

/-- An operation on a table to which other rows have been added in between. -/
theorem Rewrites.of_endpointEvents_eq {middle : Database}
    (hrewrites : Rewrites closing time revise none middle next)
    (hrows : middle.endpointEvents = database.endpointEvents)
    (hnext : database.nextId ≤ middle.nextId) :
    Rewrites closing time revise none database next where
  rows := hrows ▸ hrewrites.rows
  revises := hrewrites.revises
  fresh_id := forall_mem_none
  fresh_span := forall_mem_none
  nextId := hnext.trans hrewrites.nextId

/-- The row that `openEvent` inserts. -/
def openedRow (nextState : EndpointState) (result : PingResult) (isSplitEvent : Bool) (time : ℤ)
    (database : Database) : EndpointEvent where
  id := database.nextId
  endpointId := nextState.endpointId
  operationalState := nextState.confirmedOperationalState
  detailedState := nextState.confirmedDetailedState
  successCount := result.successCount
  failedCount := result.failedCount
  healthScore := result.healthScore
  avgRttMs := result.avgRttMs
  isSplitEvent := isSplitEvent
  startTime := time
  endTime := none
  durationSeconds := 0
  monitoringCycleCount := 1

/-- A row inserted after an update. -/
theorem Rewrites.openEvent (hrewrites : Rewrites closing time revise none database next)
    (hnext : next.nextId = database.nextId) (isSplitEvent : Bool) :
    Rewrites closing time revise (some (openedRow nextState result isSplitEvent time next)) database
      (openEvent nextState result isSplitEvent time next).2 where
  rows := by
    have hrows := hrewrites.rows
    rw [Option.toList_none, List.append_nil] at hrows
    rw [← hrows]
    rfl
  revises := hrewrites.revises
  fresh_id := by
    rintro event ⟨⟩
    exact ⟨hnext, hnext ▸ Nat.lt_succ_self _⟩
  fresh_span := by
    rintro event ⟨⟩
    exact ⟨rfl, rfl⟩
  nextId := hnext ▸ Nat.le_succ _

/-- Inserting a row makes it the active event. -/
theorem shows_openedRow (nextState : EndpointState) (result : PingResult) (isSplitEvent : Bool)
    (time : ℤ) (database : Database) :
    (openEvent nextState result isSplitEvent time database).1.Shows
      (openedRow nextState result isSplitEvent time database) := ⟨rfl, rfl, rfl⟩

/-- Closing the reached events of all endpoints. -/
theorem rewrites_closeOpenEvents (closeTime : ℤ) (database : Database) :
    Rewrites closeTime time
      (updateRow (EndpointEvent.isReached closeTime) (EndpointEvent.close · closeTime)) none
      database (database.closeOpenEvents closeTime) :=
  rewrites_updateEvents database (fun _ ↦ endTime_of_isReached)
    fun _ hopen ↦ EndpointEvent.revises_close hopen closeTime

/-- What an operation on one endpoint leaves behind: the rewritten rows, a right state in memory,
and an open row that shows it. -/
structure Maintains (time : ℤ) (database : Database) (endpoint : EndpointId)
    (recorded : EndpointState) (written : Database) : Prop where
  rewrites : ∃ revise fresh, Rewrites time time revise fresh database written ∧
    ∀ event ∈ fresh, event.endpointId = endpoint ∧
      ∀ old ∈ database.endpointEvents, old.endpointId = endpoint → (revise old).endTime ≠ none
  tracks : Tracks written endpoint recorded
  opened : ∃ event ∈ written.endpointEvents, event.endpointId = endpoint ∧ event.endTime = none
  gaps : written.serviceEvents = database.serviceEvents

/-- An operation that inserts a row for an endpoint whose rows it has closed. -/
theorem maintains_openEvent (hcoherent : Coherent database now)
    (hrewrites : Rewrites time time revise none database next)
    (hnext : next.nextId = database.nextId) (hgaps : next.serviceEvents = database.serviceEvents)
    (hendpoint : nextState.endpointId = endpoint)
    (hclosed : ∀ old ∈ database.endpointEvents, old.endpointId = endpoint →
      (revise old).endTime ≠ none) (isSplitEvent : Bool) :
    Maintains time database endpoint (openEvent nextState result isSplitEvent time next).1
      (openEvent nextState result isSplitEvent time next).2 := by
  subst hendpoint
  have hopened : Rewrites time time revise
      (some (openedRow nextState result isSplitEvent time next)) database
      (openEvent nextState result isSplitEvent time next).2 :=
    hrewrites.openEvent hnext isSplitEvent
  refine ⟨⟨revise, _, hopened, ?_⟩, ?_, ?_, hgaps⟩
  · rintro event ⟨⟩
    exact ⟨rfl, hclosed⟩
  · exact tracks_of_fresh hcoherent hopened hclosed rfl (shows_openedRow ..)
  · exact ⟨_, (hopened.mem_iff _).mpr (Or.inr rfl), rfl, rfl⟩

/-- The in-memory half of a cycle keeps the endpoint and its active event, and changes the
operational state only with the detailed one. -/
theorem confirm_kept (threshold : ℕ) (environment : Environment) (state : EndpointState)
    (operational : OperationalState) (detailed : DetailedState) :
    (confirm threshold environment state operational detailed).endpointId = state.endpointId ∧
      (confirm threshold environment state operational detailed).activeEventId =
        state.activeEventId ∧
      (state.confirmedDetailedState =
          (confirm threshold environment state operational detailed).confirmedDetailedState →
        (confirm threshold environment state operational detailed).confirmedOperationalState =
          state.confirmedOperationalState) := by
  unfold confirm
  split_ifs with hsame
  · exact ⟨rfl, rfl, fun _ ↦ rfl⟩
  · exact ⟨rfl, rfl, fun _ ↦ rfl⟩
  · exact ⟨rfl, rfl, fun hkept ↦ absurd hkept.symm hsame⟩
  · exact ⟨rfl, rfl, fun _ ↦ rfl⟩

/-- The spec of the database half of a cycle. -/
theorem maintains_recordCycle (hcoherent : Coherent database now)
    (htracks : Tracks database endpoint state)
    (hendpoint : nextState.endpointId = state.endpointId)
    (hactive : nextState.activeEventId = state.activeEventId)
    (hkept : state.confirmedDetailedState = nextState.confirmedDetailedState →
      nextState.confirmedOperationalState = state.confirmedOperationalState)
    (hrecord : recordCycle state nextState result time database = some (recorded, written)) :
    Maintains time database endpoint recorded written := by
  have hown := hendpoint.trans htracks.endpointId
  -- An open row of the endpoint is the active event, and an active event that is open is its.
  have hopenActive : ∀ old ∈ database.endpointEvents, old.endpointId = endpoint →
      old.endTime = none → state.isActiveEvent old = true := fun old hmem hsame hopen ↦
    decide_eq_true ⟨(htracks.active old hmem hsame hopen).id, EndpointEvent.isOpen_iff.mpr hopen⟩
  generalize hpair : (recorded, written) = pair at hrecord
  cases recorded_of_recordCycle hrecord with
  | fallback hsame hnone =>
    obtain ⟨rfl, rfl⟩ := Prod.mk.inj hpair
    refine maintains_openEvent hcoherent (rewrites_of_endpointEvents_eq rfl rfl) rfl rfl hown ?_ _
    intro old hmem hendpoint hopen
    exact List.find?_eq_none.mp hnone old hmem (hopenActive old hmem hendpoint hopen)
  | rollover hsame hevent hday =>
    obtain ⟨rfl, rfl⟩ := Prod.mk.inj hpair
    refine maintains_openEvent hcoherent
      (rewrites_updateEvents database (fun _ ↦ endTime_of_isActiveEvent)
        fun event hopen ↦ EndpointEvent.revises_extend_close hopen time result) rfl rfl hown ?_ _
    intro old hmem hendpoint hopen
    unfold updateRow at hopen
    split_ifs at hopen with hselected
    · exact absurd hopen (Option.some_ne_none _)
    · exact hselected (hopenActive old hmem hendpoint hopen)
  | extension hsame hevent hday =>
    obtain ⟨rfl, rfl⟩ := Prod.mk.inj hpair
    have hrewrites : Rewrites time time
        (updateRow state.isActiveEvent (EndpointEvent.extend · time result)) none database
        (database.updateEvents state.isActiveEvent (EndpointEvent.extend · time result)) :=
      rewrites_updateEvents database (fun _ ↦ endTime_of_isActiveEvent)
        fun event hopen ↦ EndpointEvent.revises_extend hopen time result
    refine ⟨⟨_, none, hrewrites, forall_mem_none⟩,
      ?_, ?_, rfl⟩
    · have hkeeps := htracks.rewrite hrewrites
        forall_mem_none
      exact hkeeps.congr hendpoint hactive (hkept hsame) hsame.symm
    · rename_i event
      have hmem := List.mem_of_find?_eq_some hevent
      have hselected := List.find?_some hevent
      have hid := (of_decide_eq_true hselected).1
      refine ⟨_, (hrewrites.mem_iff _).mpr (Or.inl ⟨event, hmem, rfl⟩), ?_, ?_⟩
      · exact (hrewrites.revises event).endpointId.trans (htracks.owner event hmem hid)
      · rw [updateRow, if_pos hselected]
        exact endTime_of_isActiveEvent hselected
  | transition hchange =>
    obtain ⟨rfl, rfl⟩ := Prod.mk.inj hpair
    refine maintains_openEvent hcoherent
      (rewrites_updateEvents database (fun _ ↦ endTime_of_isOpenEvent)
        fun event hopen ↦ EndpointEvent.revises_close hopen time) rfl rfl hown ?_ _
    intro old hmem hendpoint hopen
    unfold updateRow at hopen
    split_ifs at hopen with hselected
    · exact absurd hopen (Option.some_ne_none _)
    · refine hselected (decide_eq_true ⟨?_, EndpointEvent.isOpen_iff.mpr hopen⟩)
      exact hendpoint.trans htracks.endpointId.symm

/-- The spec of `process_cycle`. -/
theorem maintains_processCycle (hcoherent : Coherent database now)
    (htracks : Tracks database endpoint state) {threshold : ℕ} {environment : Environment}
    {baseline : Option (ℚ × ℚ)} {nowIso : ℤ}
    (hprocess : (processCycle threshold environment state result baseline nowIso time
      database).result = some (recorded, written)) :
    Maintains time database endpoint recorded written := by
  obtain ⟨hendpoint, hactive, hkept⟩ := confirm_kept threshold environment state
    (classifyCycle result baseline).1 (classifyCycle result baseline).2
  exact maintains_recordCycle hcoherent htracks hendpoint hactive hkept hprocess

/-- An initial event is opened as any other, for a state without an active event. -/
theorem openEvent_of_createInitialEvent {environment : Environment} {baseline : Option (ℚ × ℚ)}
    (hcreate : createInitialEvent environment endpoint result baseline time database =
      some (recorded, written)) :
    ∃ initial : EndpointState, initial.endpointId = endpoint ∧
      (recorded, written) = openEvent initial result false time database := by
  have hpair := Option.some.inj (Option.ite_none_right_eq_some.mp hcreate).2
  obtain ⟨hrecorded, hwritten⟩ := Prod.mk.inj hpair
  refine ⟨recorded, ?_, ?_⟩
  · rw [← hrecorded]
  · rw [← hrecorded, ← hwritten]
    rfl

/-- The spec of `create_initial_event`, for an endpoint without rows. -/
theorem maintains_createInitialEvent (hcoherent : Coherent database now)
    {environment : Environment} {baseline : Option (ℚ × ℚ)}
    (hnone : ∀ event ∈ database.endpointEvents, event.endpointId ≠ endpoint)
    (hcreate : createInitialEvent environment endpoint result baseline time database =
      some (recorded, written)) : Maintains time database endpoint recorded written := by
  obtain ⟨initial, hinitial, hopened⟩ := openEvent_of_createInitialEvent hcreate
  obtain ⟨rfl, rfl⟩ := Prod.mk.inj hopened
  exact maintains_openEvent hcoherent (rewrites_of_endpointEvents_eq rfl rfl) rfl rfl hinitial
    (fun old hmem hsame ↦ absurd hsame (hnone old hmem)) false

/-- The spec of `initialize_endpoint`. -/
theorem tracks_initializeEndpoint (hcoherent : Coherent database now) {environment : Environment}
    (hstate : initializeEndpoint environment endpoint database = some state) :
    Tracks database endpoint state := by
  obtain ⟨row, hrow, rfl⟩ := Option.map_eq_some_iff.mp hstate
  obtain ⟨hmem, hsame⟩ := List.mem_filter.mp (List.maxOn?_mem hrow)
  replace hsame := of_decide_eq_true hsame
  refine ⟨rfl, hcoherent.issued row hmem, fun event hevent hid ↦ ?_,
    fun event hevent hendpoint hopen ↦ ?_⟩
  · rw [hcoherent.eq_of_id hevent hmem hid]
    exact hsame
  · -- An open row of the endpoint is its latest.
    have hlatest : event.startTime ≤ row.startTime := by
      have hfiltered : event ∈ database.endpointEvents.filter fun event ↦
          event.endpointId = endpoint :=
        List.mem_filter.mpr ⟨hevent, decide_eq_true hendpoint⟩
      have hle := List.le_apply_get_maxOn?_of_mem (f := EndpointEvent.startTime) hfiltered
      simpa [hrow] using hle
    have heq : event = row := by
      rcases hcoherent.before_or hevent hmem with heq | hbefore | hbefore
      · exact heq
      · exact absurd hopen (hbefore.endTime_ne_none (hendpoint.trans hsame.symm))
      · exact absurd (hbefore.precedes (hsame.trans hendpoint.symm)).starts (not_lt.mpr hlatest)
    exact heq ▸ ⟨rfl, rfl, rfl⟩

theorem initializeEndpoint_eq_none {environment : Environment}
    (hstate : initializeEndpoint environment endpoint database = none) :
    ∀ event ∈ database.endpointEvents, event.endpointId ≠ endpoint := by
  intro event hmem hsame
  have hnone := Option.map_eq_none_iff.mp hstate
  rw [← Option.not_isSome_iff_eq_none, List.isSome_maxOn?_iff, not_not,
    List.filter_eq_nil_iff] at hnone
  exact hnone event hmem (decide_eq_true hsame)

end Lnmp.Monitoring
