import Lnmp.Alerts.Dispatcher
import Mathlib.Algebra.Order.Group.Int

/-!
# Suppression by root causes

An endpoint is to be suppressed while an incident lists it as a symptom that was opened at most
thirty minutes ago, is not resolved, and whose root has not recovered. The dispatcher has one record
for an endpoint, that of the incident which listed it last (`services/alert_dispatcher.py`), so that
the end of that incident also ends the suppression by the others.

The suppression is exact after every event exactly when no record is dropped of an endpoint that
another incident lists (`everyState_suppressesExactly_iff`). Events are dispatched one after the
other, with alerting enabled.
-/

set_option autoImplicit false
set_option relaxedAutoImplicit false

namespace Lnmp.Alerts

open Lnmp.Foundation Lnmp.Foundation.Runs

/-- An incident that was opened. -/
structure Incident where
  incidentId : String
  rootId : String
  symptoms : List String
  openedAt : ℤ
  deriving DecidableEq

namespace Incident

/-- The incident is too old at a time. -/
def isOld (incident : Incident) (now : ℤ) : Prop := incident.openedAt + minutes 30 < now

/-- A resolution names the incident or its root. -/
def isResolvedBy (incident : Incident) (event : RcaEvent) : Bool :=
  (event.incidentId ≠ "" ∧ event.incidentId = incident.incidentId) ∨
    (event.rootCauseEndpointId ≠ "" ∧ event.rootCauseEndpointId = incident.rootId)

/-- The recovery is one of the root. -/
def isRecoveredBy (incident : Incident) (event : StateEvent) : Bool :=
  event.isRecovery ∧ event.endpoint = some incident.rootId

/-- The record of a symptom. -/
def record (incident : Incident) : ChildSuppression where
  incidentId := incident.incidentId
  parentId := incident.rootId
  expiresAt := incident.openedAt + minutes 30

end Incident

/-- An event that the dispatcher processes. -/
inductive SuppressionEvent
  | incident (event : RcaEvent)
  | transition (event : StateEvent)
  | prune
  | check (endpoint : Option String)
  | wait

/-- The caches, and the incidents that are neither resolved nor recovered from. -/
structure Suppression where
  caches : Caches
  incidents : List Incident
  clock : ℤ
  deriving DecidableEq

namespace Suppression

/-- Nothing is suppressed. -/
def init (origin : ℤ) : Suppression where
  caches := Caches.empty
  incidents := []
  clock := origin

/-- The caches after an event. -/
def nextCaches (caches : Caches) (now : ℤ) : SuppressionEvent → Caches
  | .incident event => caches.handleRcaIncident event now
  | .transition event => (caches.transition event now).2
  | .prune => caches.pruneMemoryCaches now
  | .check endpoint => (caches.isChildSuppressed endpoint now).2
  | .wait => caches

/-- The incidents after an event. -/
def nextIncidents (incidents : List Incident) (now : ℤ) : SuppressionEvent → List Incident
  | .incident event =>
    if event.isResolved then incidents.filter fun incident ↦ !incident.isResolvedBy event
    else incidents ++
      [⟨event.incidentId, event.rootCauseEndpointId, event.symptomEndpointIds, now⟩]
  | .transition event => incidents.filter fun incident ↦ !incident.isRecoveredBy event
  | _ => incidents

/-- The state after an event at a time. -/
def step (suppression : Suppression) (event : ℤ × SuppressionEvent) : Option Suppression :=
  if suppression.clock ≤ event.1 then
    some ⟨nextCaches suppression.caches event.1 event.2,
      nextIncidents suppression.incidents event.1 event.2, event.1⟩
  else none

/-- From now on, an endpoint is suppressed when an incident that is not over lists it. -/
def SuppressesExactly (suppression : Suppression) : Prop :=
  ∀ endpoint : String, endpoint ≠ "" → ∀ now, suppression.clock ≤ now →
    ((suppression.caches.isChildSuppressed (some endpoint) now).1 = true ↔
      ∃ incident ∈ suppression.incidents, endpoint ∈ incident.symptoms ∧ ¬incident.isOld now)

/-- The records that an event drops, apart from old ones. -/
def Drops (record : ChildSuppression) : SuppressionEvent → Prop
  | .incident event => event.isResolved = true ∧
      (record.incidentId = event.incidentId ∨ record.parentId = event.rootCauseEndpointId)
  | .transition event => event.isRecovery = true ∧ event.endpoint = some record.parentId
  | _ => False

/-- Every endpoint whose record is dropped is listed by no incident that goes on. -/
def DropsAlone (suppression : Suppression) (event : ℤ × SuppressionEvent) : Prop :=
  ∀ endpoint : String, endpoint ≠ "" → ∀ record,
    suppression.caches.suppressedChildren.get? endpoint = some record → Drops record event.2 →
      ∀ incident ∈ nextIncidents suppression.incidents event.1 event.2,
        endpoint ∈ incident.symptoms → incident.isOld event.1

end Suppression

/-! ### Records that are kept -/

namespace Caches

variable {caches : Caches} {child : String} {record : ChildSuppression} {now : ℤ}

/-- A step that drops no records but old ones. -/
def Prunes (now : ℤ) (before after : Dict String ChildSuppression) : Prop :=
  ∀ child record, (after.get? child = some record → before.get? child = some record) ∧
    (before.get? child = some record → after.get? child = some record ∨ record.expiresAt < now)

theorem prunes_refl (records : Dict String ChildSuppression) : Prunes now records records :=
  fun _ _ ↦ ⟨id, Or.inl⟩

/-- What a check answers. -/
theorem isChildSuppressed_iff (hchild : child ≠ "") :
    (caches.isChildSuppressed (some child) now).1 = true ↔
      ∃ record, caches.suppressedChildren.get? child = some record ∧ now ≤ record.expiresAt := by
  simp only [isChildSuppressed, orElse, if_pos hchild]
  cases hget : caches.suppressedChildren.get? child with
  | none => simp
  | some record => by_cases hold : record.expiresAt < now <;> simp [hold, not_lt.mp, not_le.mpr]

/-- A check drops a record only when it is old. -/
theorem prunes_isChildSuppressed (endpoint : Option String) (now : ℤ) (caches : Caches) :
    Prunes now caches.suppressedChildren
      (caches.isChildSuppressed endpoint now).2.suppressedChildren := by
  unfold isChildSuppressed
  split
  · exact prunes_refl _
  · rename_i child _
    split
    · exact prunes_refl _
    · rename_i info hget
      split
      · rename_i hold
        intro other record
        rw [Dict.get?_erase]
        constructor
        · intro hkept
          exact (Option.ite_none_left_eq_some.mp hkept).2
        · intro hbefore
          by_cases hsame : other = child
          · subst hsame
            obtain rfl := Option.some.inj (hget.symm.trans hbefore)
            exact Or.inr hold
          · exact Or.inl (by rw [if_neg hsame, hbefore])
      · exact prunes_refl _

/-- A recovery drops the records of its endpoint as a parent. -/
theorem get?_recover (event : StateEvent) :
    (caches.recover event).suppressedChildren.get? child =
      (caches.suppressedChildren.get? child).filter fun record ↦
        !(event.isRecovery ∧ event.endpoint = some record.parentId) := by
  have hall : ∀ found : Option ChildSuppression, found.filter (fun _ ↦ true) = found := by
    intro found
    cases found <;> rfl
  unfold recover
  split
  · rename_i hnone
    simp [hnone, hall]
  · rename_i endpoint hendpoint
    split
    · rename_i hrecovery
      rw [recoverParent, Dict.get?_eraseWhere]
      simp [hrecovery, hendpoint, eq_comm]
    · rename_i hrecovery
      simp [hrecovery, hall]

/-- Behind the recovery, a transition drops a record only when it is old. -/
theorem prunes_transition (event : StateEvent) (now : ℤ) (caches : Caches) :
    Prunes now (caches.recover event).suppressedChildren
      (caches.transition event now).2.suppressedChildren := by
  simp only [transition]
  split
  · exact prunes_refl _
  · split
    · exact prunes_isChildSuppressed _ _ _
    · exact prunes_isChildSuppressed _ _ _

theorem prunes_pruneMemoryCaches (now : ℤ) (caches : Caches) :
    Prunes now caches.suppressedChildren (caches.pruneMemoryCaches now).suppressedChildren := by
  intro child record
  rw [pruneMemoryCaches, Dict.get?_eraseWhere, Option.filter_eq_some_iff]
  refine ⟨And.left, fun hbefore ↦ ?_⟩
  by_cases hold : record.expiresAt < now
  · exact Or.inr hold
  · exact Or.inl ⟨hbefore, by simpa using hold⟩

/-- An incident that opens writes the records of its symptoms. -/
theorem get?_handleRcaIncident_of_open {event : RcaEvent} (hopen : event.isResolved = false) :
    (caches.handleRcaIncident event now).suppressedChildren.get? child =
      if child ∈ event.symptomEndpointIds then some (childSuppression event now)
      else caches.suppressedChildren.get? child := by
  have hkeys : (event.symptomEndpointIds.map fun symptom ↦
      (symptom, childSuppression event now)).map Prod.fst = event.symptomEndpointIds := by
    rw [List.map_map]
    exact List.map_id _
  rw [handleRcaIncident, if_neg (by simp [hopen])]
  dsimp only
  split
  · rename_i hsymptom
    obtain ⟨record, hwrite, hget⟩ := Dict.exists_get?_update caches.suppressedChildren
      (hkeys.symm ▸ hsymptom)
    obtain ⟨symptom, -, hsame⟩ := List.mem_map.mp hwrite
    rw [hget, ← (Prod.mk.inj hsame).2]
  · rename_i hother
    exact Dict.get?_update_of_not_mem _ (hkeys.symm ▸ hother)

end Caches

namespace Suppression

variable {suppression next : Suppression} {event : SuppressionEvent} {now : ℤ}

/-- An event that opens an incident. -/
def Opens : SuppressionEvent → Prop
  | .incident event => event.isResolved = false
  | _ => False

/-- An event that opens no incident drops records, and old ones. -/
theorem get?_nextCaches (hopens : ¬Opens event) (caches : Caches) (child : String)
    (record : ChildSuppression) :
    ((nextCaches caches now event).suppressedChildren.get? child = some record →
        caches.suppressedChildren.get? child = some record ∧ ¬Drops record event) ∧
      (caches.suppressedChildren.get? child = some record → ¬Drops record event →
        (nextCaches caches now event).suppressedChildren.get? child = some record ∨
          record.expiresAt < now) := by
  cases event with
  | incident event =>
    have hresolved : event.isResolved = true := by simpa [Opens] using hopens
    rw [nextCaches, Caches.handleRcaIncident, if_pos hresolved, Dict.get?_eraseWhere,
      Option.filter_eq_some_iff]
    simp only [Drops, hresolved, true_and, Bool.not_eq_true', decide_eq_false_iff_not]
    exact ⟨id, fun hget hkept ↦ Or.inl ⟨hget, hkept⟩⟩
  | transition event =>
    obtain ⟨hkept, hdropped⟩ := Caches.prunes_transition event now caches child record
    rw [Caches.get?_recover, Option.filter_eq_some_iff] at hkept hdropped
    simp only [Bool.not_eq_true', decide_eq_false_iff_not] at hkept hdropped
    exact ⟨hkept, fun hget hother ↦ hdropped ⟨hget, hother⟩⟩
  | prune =>
    obtain ⟨hkept, hdropped⟩ := Caches.prunes_pruneMemoryCaches now caches child record
    exact ⟨fun hget ↦ ⟨hkept hget, id⟩, fun hget _ ↦ hdropped hget⟩
  | check endpoint =>
    obtain ⟨hkept, hdropped⟩ := Caches.prunes_isChildSuppressed endpoint now caches child record
    exact ⟨fun hget ↦ ⟨hkept hget, id⟩, fun hget _ ↦ hdropped hget⟩
  | wait => exact ⟨fun hget ↦ ⟨hget, id⟩, fun hget _ ↦ Or.inl hget⟩

/-- An event that opens no incident ends some of them, whose records it drops. -/
theorem mem_nextIncidents (hopens : ¬Opens event) (incidents : List Incident)
    (incident : Incident) :
    (incident ∈ nextIncidents incidents now event → incident ∈ incidents) ∧
      (incident ∈ incidents → ¬Drops incident.record event →
        incident ∈ nextIncidents incidents now event) := by
  cases event with
  | incident event =>
    have hresolved : event.isResolved = true := by simpa [Opens] using hopens
    rw [nextIncidents, if_pos hresolved, List.mem_filter]
    refine ⟨And.left, fun hmem hkept ↦ ⟨hmem, ?_⟩⟩
    rw [Bool.not_eq_true', ← Bool.not_eq_true]
    intro hends
    refine hkept ⟨hresolved, (of_decide_eq_true hends).imp ?_ ?_⟩
    · exact fun hsame ↦ hsame.2.symm
    · exact fun hsame ↦ hsame.2.symm
  | transition event =>
    rw [nextIncidents, List.mem_filter]
    refine ⟨And.left, fun hmem hkept ↦ ⟨hmem, ?_⟩⟩
    rw [Bool.not_eq_true', ← Bool.not_eq_true]
    intro hends
    exact hkept (show event.isRecovery = true ∧ event.endpoint = some incident.rootId from
      of_decide_eq_true hends)
  | prune => exact ⟨id, fun hmem _ ↦ hmem⟩
  | check endpoint => exact ⟨id, fun hmem _ ↦ hmem⟩
  | wait => exact ⟨id, fun hmem _ ↦ hmem⟩

/-! ### The records of the latest incidents -/

/-- The record of an endpoint is the one of the latest incident that lists it, and without a record
all incidents that list it are old. -/
structure Tracks (suppression : Suppression) : Prop where
  exists_incident : ∀ endpoint : String, endpoint ≠ "" → ∀ record,
    suppression.caches.suppressedChildren.get? endpoint = some record →
      ∃ incident ∈ suppression.incidents, endpoint ∈ incident.symptoms ∧
        record = incident.record ∧ ∀ other ∈ suppression.incidents, endpoint ∈ other.symptoms →
          other.openedAt ≤ incident.openedAt
  isOld : ∀ endpoint : String, endpoint ≠ "" →
    suppression.caches.suppressedChildren.get? endpoint = none →
      ∀ incident ∈ suppression.incidents, endpoint ∈ incident.symptoms →
        incident.isOld suppression.clock
  openedAt_le : ∀ incident ∈ suppression.incidents, incident.openedAt ≤ suppression.clock

theorem isOld_of_le {incident : Incident} {later : ℤ} (hle : now ≤ later)
    (hold : incident.isOld now) : incident.isOld later :=
  lt_of_lt_of_le hold hle

theorem Tracks.suppressesExactly (htracks : Tracks suppression) :
    SuppressesExactly suppression := by
  intro endpoint hendpoint now hclock
  rw [Caches.isChildSuppressed_iff hendpoint]
  constructor
  · rintro ⟨record, hget, hlive⟩
    obtain ⟨incident, hmem, hsymptom, rfl, -⟩ :=
      htracks.exists_incident endpoint hendpoint record hget
    exact ⟨incident, hmem, hsymptom, not_lt.mpr hlive⟩
  · rintro ⟨incident, hmem, hsymptom, hlive⟩
    cases hget : suppression.caches.suppressedChildren.get? endpoint with
    | none =>
      have hold := htracks.isOld endpoint hendpoint hget incident hmem hsymptom
      exact absurd (isOld_of_le hclock hold) hlive
    | some record =>
      obtain ⟨latest, -, -, rfl, hlatest⟩ :=
        htracks.exists_incident endpoint hendpoint record hget
      have hle := hlatest incident hmem hsymptom
      have hnow : now ≤ incident.openedAt + minutes 30 := not_lt.mp hlive
      refine ⟨latest.record, rfl, ?_⟩
      show now ≤ latest.openedAt + minutes 30
      omega

theorem tracks_init (origin : ℤ) : Tracks (init origin) where
  exists_incident _ _ record hget := absurd hget (Option.some_ne_none record).symm
  isOld _ _ _ _ hmem := absurd hmem List.not_mem_nil
  openedAt_le _ hmem := absurd hmem List.not_mem_nil

/-- An incident that opens is the latest one for its symptoms. -/
theorem Tracks.open (htracks : Tracks suppression) {event : RcaEvent}
    (hopen : event.isResolved = false) (hclock : suppression.clock ≤ now) :
    Tracks ⟨nextCaches suppression.caches now (.incident event),
      nextIncidents suppression.incidents now (.incident event), now⟩ := by
  have hincidents : nextIncidents suppression.incidents now (.incident event) =
      suppression.incidents ++
        [⟨event.incidentId, event.rootCauseEndpointId, event.symptomEndpointIds, now⟩] := by
    rw [nextIncidents, if_neg (by simp [hopen])]
  have hget : ∀ endpoint, (nextCaches suppression.caches now
      (.incident event)).suppressedChildren.get? endpoint =
        if endpoint ∈ event.symptomEndpointIds then some (Caches.childSuppression event now)
        else suppression.caches.suppressedChildren.get? endpoint :=
    fun _ ↦ Caches.get?_handleRcaIncident_of_open hopen
  rw [hincidents]
  refine ⟨fun endpoint hendpoint record hrecord ↦ ?_, fun endpoint hendpoint hnone ↦ ?_,
    fun incident hmem ↦ ?_⟩
  · rw [hget] at hrecord
    split at hrecord
    · rename_i hsymptom
      refine ⟨_, List.mem_append_right _ (List.mem_singleton_self _), hsymptom,
        (Option.some.inj hrecord).symm, fun other hother _ ↦ ?_⟩
      rcases List.mem_append.mp hother with hbefore | hnew
      · exact (htracks.openedAt_le other hbefore).trans hclock
      · rw [List.mem_singleton.mp hnew]
    · rename_i hsymptom
      obtain ⟨incident, hmem, hlisted, hsame, hlatest⟩ :=
        htracks.exists_incident endpoint hendpoint record hrecord
      refine ⟨incident, List.mem_append_left _ hmem, hlisted, hsame, fun other hother hlists ↦ ?_⟩
      rcases List.mem_append.mp hother with hbefore | hnew
      · exact hlatest other hbefore hlists
      · rw [List.mem_singleton.mp hnew] at hlists
        exact absurd hlists hsymptom
  · dsimp only at hnone
    rw [hget] at hnone
    split at hnone
    · exact absurd hnone (Option.some_ne_none _)
    · rename_i hsymptom
      intro incident hmem hlists
      rcases List.mem_append.mp hmem with hbefore | hnew
      · exact isOld_of_le hclock (htracks.isOld endpoint hendpoint hnone incident hbefore hlists)
      · rw [List.mem_singleton.mp hnew] at hlists
        exact absurd hlists hsymptom
  · rcases List.mem_append.mp hmem with hbefore | hnew
    · exact (htracks.openedAt_le incident hbefore).trans hclock
    · rw [List.mem_singleton.mp hnew]

/-- An event that opens no incident and drops records alone. -/
theorem Tracks.drop (htracks : Tracks suppression) (hopens : ¬Opens event)
    (hclock : suppression.clock ≤ now) (halone : DropsAlone suppression (now, event)) :
    Tracks ⟨nextCaches suppression.caches now event,
      nextIncidents suppression.incidents now event, now⟩ := by
  refine ⟨fun endpoint hendpoint record hrecord ↦ ?_, fun endpoint hendpoint hnone ↦ ?_,
    fun incident hmem ↦ ?_⟩
  · obtain ⟨hbefore, hkept⟩ :=
      (get?_nextCaches hopens suppression.caches endpoint record).1 hrecord
    obtain ⟨incident, hmem, hlisted, rfl, hlatest⟩ :=
      htracks.exists_incident endpoint hendpoint record hbefore
    refine ⟨incident, (mem_nextIncidents hopens _ _).2 hmem hkept, hlisted, rfl,
      fun other hother hlists ↦ ?_⟩
    exact hlatest other ((mem_nextIncidents hopens _ _).1 hother) hlists
  · intro incident hmem hlists
    have hmemBefore := (mem_nextIncidents hopens _ _).1 hmem
    cases hget : suppression.caches.suppressedChildren.get? endpoint with
    | none => exact isOld_of_le hclock (htracks.isOld endpoint hendpoint hget incident hmemBefore
        hlists)
    | some record =>
      by_cases hdrops : Drops record event
      · exact halone endpoint hendpoint record hget hdrops incident hmem hlists
      · rcases (get?_nextCaches hopens suppression.caches endpoint record).2 hget hdrops with
          hkept | hold
        · exact absurd (hkept.symm.trans hnone) (Option.some_ne_none record)
        · obtain ⟨latest, -, -, rfl, hlatest⟩ :=
            htracks.exists_incident endpoint hendpoint record hget
          have hle := hlatest incident hmemBefore hlists
          have hlast : latest.openedAt + minutes 30 < now := hold
          show incident.openedAt + minutes 30 < now
          omega
  · exact (htracks.openedAt_le incident ((mem_nextIncidents hopens _ _).1 hmem)).trans hclock

theorem step_eq_some_iff {event : ℤ × SuppressionEvent} :
    step suppression event = some next ↔
      suppression.clock ≤ event.1 ∧
        next = ⟨nextCaches suppression.caches event.1 event.2,
          nextIncidents suppression.incidents event.1 event.2, event.1⟩ := by
  rw [step, Option.ite_none_right_eq_some, Option.some_inj, eq_comm (a := next)]

/-- The suppression is exact after every event exactly when every event drops records alone. -/
theorem everyState_suppressesExactly_iff {origin : ℤ} {events : List (ℤ × SuppressionEvent)}
    {finish : Suppression} (hrun : run step (init origin) events = some finish) :
    EveryState step (init origin) events SuppressesExactly ↔
      EveryStep step (init origin) events DropsAlone := by
  refine everyState_iff_everyStep_of_invariant Tracks SuppressesExactly
    (fun _ htracks ↦ htracks.suppressesExactly)
    (fun suppression event next htracks halone hstep ↦ ?_)
    (fun suppression event next htracks hstep hexact ↦ ?_) (tracks_init origin) hrun
  · obtain ⟨hclock, rfl⟩ := step_eq_some_iff.mp hstep
    obtain ⟨now, event⟩ := event
    by_cases hopens : Opens event
    · cases event with
      | incident event => exact htracks.open hopens hclock
      | _ => exact hopens.elim
    · exact htracks.drop hopens hclock halone
  · obtain ⟨hclock, rfl⟩ := step_eq_some_iff.mp hstep
    obtain ⟨now, event⟩ := event
    intro endpoint hendpoint record hget hdrops incident hmem hlists
    have hopens : ¬Opens event := by
      cases event with
      | incident event => exact fun hopen ↦ absurd (hopen.symm.trans hdrops.1) Bool.false_ne_true
      | _ => exact id
    by_contra hlive
    obtain ⟨kept, hkept, -⟩ := (Caches.isChildSuppressed_iff hendpoint).mp
      ((hexact endpoint hendpoint now le_rfl).mpr ⟨incident, hmem, hlists, hlive⟩)
    obtain ⟨hbefore, hother⟩ := (get?_nextCaches hopens suppression.caches endpoint kept).1 hkept
    exact hother (Option.some.inj (hget.symm.trans hbefore) ▸ hdrops)

/-- Two incidents that list one endpoint, and the recovery from the second one. -/
def overlappingEvents : List (ℤ × SuppressionEvent) :=
  [(0, .incident ⟨"41", "1", ["9"], false⟩), (1, .incident ⟨"42", "2", ["9"], false⟩),
    (2, .incident ⟨"", "2", [], true⟩)]

theorem isSome_run_overlappingEvents : (run step (init 0) overlappingEvents).isSome = true := by
  decide

theorem everyState_suppressesExactly_iff_overlappingEvents :
    EveryState step (init 0) overlappingEvents SuppressesExactly ↔
      EveryStep step (init 0) overlappingEvents DropsAlone :=
  everyState_suppressesExactly_iff (Option.some_get isSome_run_overlappingEvents).symm

/-- The recovery from the second incident ends the suppression by the first. -/
theorem exists_not_suppressesExactly :
    ¬∀ (origin : ℤ) (events : List (ℤ × SuppressionEvent)),
      EveryState step (init origin) events SuppressesExactly := by
  intro hall
  have hended : (run step (init 0) overlappingEvents).any (fun suppression ↦
      suppression.clock = 2 ∧ (suppression.caches.isChildSuppressed (some "9") 2).1 = false ∧
        suppression.incidents = [⟨"41", "1", ["9"], 0⟩]) = true := by
    decide
  obtain ⟨suppression, hrun, hstate⟩ := (Option.any_eq_true _ _).mp hended
  obtain ⟨hclock, hanswer, hincidents⟩ := of_decide_eq_true hstate
  have hexact := hall 0 _ _ [] suppression (List.append_nil _).symm hrun "9" (by decide) 2 hclock.le
  rw [hanswer, hincidents] at hexact
  refine absurd (hexact.mpr ⟨_, List.mem_singleton_self _, List.mem_singleton_self _, ?_⟩)
    Bool.false_ne_true
  show ¬(0 + minutes 30 < 2)
  decide

end Suppression

end Lnmp.Alerts
