import Lnmp.Foundation.Runs
import Lnmp.Settings.UpdateRequests

/-!
# Flow ingestion needs the performance mode

The rules of `update_settings` keep a table in which flow ingestion is on only with the performance
mode. They are checked on the settings that the request has read, and requests that run side by side
can change these before it commits.

`everyState_keepsFlowRule_iff` says when they do no harm: when a request that turns flow ingestion
on, or the performance mode off, finds the other setting at its commit as its rules have assumed it,
or has written it itself.
-/

set_option autoImplicit false
set_option relaxedAutoImplicit false

namespace Lnmp.Settings

open Lnmp.Foundation Lnmp.Foundation.Runs

/-- With these settings flow ingestion is on only with the performance mode. -/
def SettingsPayload.KeepsFlowRule (settings : SettingsPayload) : Prop :=
  settings.flowIngestionEnabled = true → settings.performanceMode = true

/-- The committed settings keep the rule. -/
def SettingsService.KeepsFlowRule (appCfg : AppConfig) (service : SettingsService) : Prop :=
  (readSettings appCfg service.committed).KeepsFlowRule

/-- The settings that the rules of the request have assumed are still there when it commits, as far
as it turns flow ingestion on or the performance mode off, and has not written the other one. -/
def SettingsService.KeepsAssumptions (appCfg : AppConfig) (service : SettingsService) :
    SettingsEvent → Prop
  | .commit id => ∀ request, service.requests.get? id = some request →
    request.phase = .writing [] →
    (request.written.get? "flow_ingestion_enabled" = some "true" →
      request.written.get? "performance_mode" = none →
      (readSettings appCfg service.committed).performanceMode =
        request.payload.effectivePerfMode request.current) ∧
    (request.written.get? "performance_mode" = some "false" →
      request.written.get? "flow_ingestion_enabled" = none →
      (readSettings appCfg service.committed).flowIngestionEnabled =
        request.payload.effectiveFlowEnabled request.current)
  | .read .. | .redis .. | .select _ | .flush _ | .rollback _ => True

/-! ### Rules and writes -/

section Payload

variable {payload : SettingsUpdate} {current : SettingsPayload}

/-- The rules pass exactly when the effective settings keep the rule. -/
theorem checkRules_eq_ok_iff :
    payload.checkRules current = .ok () ↔
      (payload.effectiveFlowEnabled current = true →
        payload.effectivePerfMode current = true) := by
  rw [SettingsUpdate.checkRules]
  split
  · -- Where rule C refuses, rule A would.
    rename_i hrefused
    obtain ⟨hflow, hperf, hval⟩ := hrefused
    have heffective : payload.effectiveFlowEnabled current = true := by
      rw [SettingsUpdate.effectiveFlowEnabled]
      cases hset : payload.flowIngestionVal with
      | none => exact hflow
      | some enabled =>
        cases enabled with
        | false => exact absurd hset hval
        | true => rfl
    simp [heffective, SettingsUpdate.effectivePerfMode, hperf]
  · cases payload.effectiveFlowEnabled current <;>
      cases payload.effectivePerfMode current <;> simp

@[simp] theorem isPerformanceMode_switchText (enabled : Bool) :
    isPerformanceMode (switchText enabled) = enabled := by
  cases enabled <;> decide +kernel

@[simp] theorem isEnabled_switchText (enabled : Bool) :
    isEnabled (switchText enabled) = enabled := by
  cases enabled <;> decide +kernel

theorem switchText_eq_true_iff {enabled : Bool} : switchText enabled = "true" ↔ enabled = true := by
  cases enabled <;> decide

theorem switchText_eq_false_iff {enabled : Bool} :
    switchText enabled = "false" ↔ enabled = false := by
  cases enabled <;> decide

theorem mem_writes_performanceMode {value : String} :
    ("performance_mode", value) ∈ payload.writes ↔
      ∃ enabled, payload.performanceMode = some enabled ∧ switchText enabled = value := by
  simp [SettingsUpdate.writes]

theorem mem_writes_flowIngestionEnabled {value : String} :
    ("flow_ingestion_enabled", value) ∈ payload.writes ↔
      ∃ enabled, payload.flowIngestionVal = some enabled ∧ switchText enabled = value := by
  simp [SettingsUpdate.writes]

end Payload

/-! ### Requests under way -/

/-- What a request has still to write. -/
def PatchPhase.pending : PatchPhase → List (String × String)
  | .checkingRedis => []
  | .writing pending => pending
  | .flushing key value _ pending => (key, value) :: pending

/-- The rules of the request have passed, and it writes what its body says. -/
structure PatchRequest.Checked (request : PatchRequest) : Prop where
  keepsFlowRule : request.payload.effectiveFlowEnabled request.current = true →
    request.payload.effectivePerfMode request.current = true
  pending_subset : ∀ entry ∈ request.phase.pending, entry ∈ request.payload.writes
  mem_writes : ∀ key value, request.written.get? key = some value →
    (key, value) ∈ request.payload.writes

/-- A request writes the performance mode as its rules have assumed it, or not at all. -/
theorem PatchRequest.Checked.get?_performanceMode {request : PatchRequest}
    (hchecked : request.Checked) :
    request.written.get? "performance_mode" = none ∨
      request.written.get? "performance_mode" =
        some (switchText (request.payload.effectivePerfMode request.current)) := by
  cases hget : request.written.get? "performance_mode" with
  | none => exact Or.inl rfl
  | some value =>
    obtain ⟨enabled, hset, rfl⟩ :=
      mem_writes_performanceMode.mp (hchecked.mem_writes _ value hget)
    rw [SettingsUpdate.effectivePerfMode, hset, Option.getD_some]
    exact Or.inr rfl

/-- A request writes flow ingestion as its rules have assumed it, or not at all. -/
theorem PatchRequest.Checked.get?_flowIngestionEnabled {request : PatchRequest}
    (hchecked : request.Checked) :
    request.written.get? "flow_ingestion_enabled" = none ∨
      request.written.get? "flow_ingestion_enabled" =
        some (switchText (request.payload.effectiveFlowEnabled request.current)) := by
  cases hget : request.written.get? "flow_ingestion_enabled" with
  | none => exact Or.inl rfl
  | some value =>
    obtain ⟨enabled, hset, rfl⟩ :=
      mem_writes_flowIngestionEnabled.mp (hchecked.mem_writes _ value hget)
    rw [SettingsUpdate.effectiveFlowEnabled, hset, Option.getD_some]
    exact Or.inr rfl

namespace SettingsService

variable {appCfg : AppConfig} {service next : SettingsService} {id : ℕ} {request : PatchRequest}

/-- All requests under way are checked. -/
def AllChecked (service : SettingsService) : Prop :=
  ∀ id request, service.requests.get? id = some request → request.Checked

theorem AllChecked.proceed (hchecked : service.AllChecked) (hrequest : request.Checked) :
    (service.proceed id request).AllChecked := by
  intro other found hfound
  rw [SettingsService.proceed, Dict.get?_set] at hfound
  split at hfound
  · exact Option.some.inj hfound ▸ hrequest
  · exact hchecked other found hfound

theorem AllChecked.finish (hchecked : service.AllChecked) : (service.finish id).AllChecked := by
  intro other found hfound
  rw [SettingsService.finish, Dict.get?_erase] at hfound
  split at hfound
  · exact absurd hfound.symm (Option.some_ne_none found)
  · exact hchecked other found hfound

theorem AllChecked.read (hchecked : service.AllChecked) (payload : SettingsUpdate) :
    (service.read appCfg id payload).AllChecked := by
  simp only [SettingsService.read]
  split
  · exact hchecked
  · rename_i hrules
    refine hchecked.proceed ⟨checkRules_eq_ok_iff.mp hrules, fun entry hentry ↦ ?_,
      fun key value hget ↦ absurd hget.symm (Option.some_ne_none value)⟩
    dsimp only at hentry
    split at hentry
    · exact absurd hentry List.not_mem_nil
    · exact hentry

/-- A flush leaves the committed table alone. -/
theorem committed_of_flush {key value : String} {found : Option String}
    {pending : List (String × String)}
    (hflush : service.flush id request key value found pending = some next) :
    next.committed = service.committed := by
  rw [flush] at hflush
  split at hflush
  · rw [← Option.some.inj hflush, SettingsService.proceed]
  · split at hflush
    · exact absurd hflush.symm (Option.some_ne_none next)
    · split at hflush
      · rw [← Option.some.inj hflush, SettingsService.finish]
      · rw [← Option.some.inj hflush, SettingsService.proceed]

theorem AllChecked.flush (hchecked : service.AllChecked) (hrequest : request.Checked)
    {key value : String} {found : Option String} {pending : List (String × String)}
    (hphase : request.phase = .flushing key value found pending)
    (hflush : service.flush id request key value found pending = some next) :
    next.AllChecked := by
  have hpending : ∀ entry ∈ (key, value) :: pending, entry ∈ request.payload.writes := by
    simpa [hphase, PatchPhase.pending] using hrequest.pending_subset
  have hrest : ∀ entry ∈ pending, entry ∈ request.payload.writes := fun entry hentry ↦
    hpending entry (List.mem_cons_of_mem _ hentry)
  rw [SettingsService.flush] at hflush
  split at hflush
  · obtain rfl := Option.some.inj hflush
    exact hchecked.proceed ⟨hrequest.keepsFlowRule, hrest, hrequest.mem_writes⟩
  · split at hflush
    · exact absurd hflush.symm (Option.some_ne_none next)
    · split at hflush
      · obtain rfl := Option.some.inj hflush
        exact hchecked.finish
      · obtain rfl := Option.some.inj hflush
        refine hchecked.proceed ⟨hrequest.keepsFlowRule, hrest, fun other text hget ↦ ?_⟩
        rw [Dict.get?_set] at hget
        split at hget
        · rename_i hsame
          rw [hsame, ← Option.some.inj hget]
          exact hpending _ (List.mem_cons_self ..)
        · exact hrequest.mem_writes other text hget

/-- Every step keeps the requests checked. -/
theorem AllChecked.step (hchecked : service.AllChecked) {event : SettingsEvent}
    (hstep : service.step appCfg event = some next) : next.AllChecked := by
  cases event with
  | read id payload =>
    rw [SettingsService.step, Option.ite_none_right_eq_some] at hstep
    obtain rfl := Option.some.inj hstep.2
    exact hchecked.read payload
  | redis id ready errMsg =>
    simp only [SettingsService.step] at hstep
    split at hstep
    · exact absurd hstep.symm (Option.some_ne_none next)
    · rename_i request hrequest
      split at hstep
      · split at hstep
        · obtain rfl := Option.some.inj hstep
          exact hchecked.finish
        · obtain rfl := Option.some.inj hstep
          obtain ⟨hrule, -, hwrites⟩ := hchecked id request hrequest
          exact hchecked.proceed ⟨hrule, fun entry hentry ↦ hentry, hwrites⟩
      · exact absurd hstep.symm (Option.some_ne_none next)
  | select id =>
    simp only [SettingsService.step] at hstep
    split at hstep
    · exact absurd hstep.symm (Option.some_ne_none next)
    · rename_i request hrequest
      split at hstep
      · rename_i key value pending hphase
        obtain rfl := Option.some.inj hstep
        obtain ⟨hrule, hpending, hwrites⟩ := hchecked id request hrequest
        rw [hphase] at hpending
        exact hchecked.proceed ⟨hrule, hpending, hwrites⟩
      · exact absurd hstep.symm (Option.some_ne_none next)
  | flush id =>
    simp only [SettingsService.step] at hstep
    split at hstep
    · exact absurd hstep.symm (Option.some_ne_none next)
    · rename_i request hrequest
      split at hstep
      · rename_i hphase
        exact hchecked.flush (hchecked id request hrequest) hphase hstep
      · exact absurd hstep.symm (Option.some_ne_none next)
  | commit id =>
    simp only [SettingsService.step] at hstep
    split at hstep
    · exact absurd hstep.symm (Option.some_ne_none next)
    · split at hstep
      · obtain rfl := Option.some.inj hstep
        exact hchecked.finish
      · exact absurd hstep.symm (Option.some_ne_none next)
  | rollback id =>
    simp only [SettingsService.step] at hstep
    split at hstep
    · exact absurd hstep.symm (Option.some_ne_none next)
    · obtain rfl := Option.some.inj hstep
      exact hchecked.finish

/-! ### Commits -/

/-- The settings after a commit: what the request has written, and what was there before. -/
theorem readSettings_update (written committed : AppSettings) :
    readSettings appCfg (committed.update written.entries) =
      { performanceMode := ((written.get? "performance_mode").map isPerformanceMode).getD
          (readSettings appCfg committed).performanceMode
        flowIngestionEnabled := ((written.get? "flow_ingestion_enabled").map isEnabled).getD
          (readSettings appCfg committed).flowIngestionEnabled } := by
  simp only [readSettings, Dict.get?_update_entries]
  congr 1
  · cases written.get? "performance_mode" <;> rfl
  · cases written.get? "flow_ingestion_enabled" <;> rfl

/-- The step lemma: a commit keeps the rule exactly when what the request has assumed still
holds. -/
theorem keepsFlowRule_commit_iff (hchecked : request.Checked)
    (hkeeps : (readSettings appCfg service.committed).KeepsFlowRule) :
    (readSettings appCfg (service.committed.update request.written.entries)).KeepsFlowRule ↔
      (request.written.get? "flow_ingestion_enabled" = some "true" →
        request.written.get? "performance_mode" = none →
        (readSettings appCfg service.committed).performanceMode =
          request.payload.effectivePerfMode request.current) ∧
      (request.written.get? "performance_mode" = some "false" →
        request.written.get? "flow_ingestion_enabled" = none →
        (readSettings appCfg service.committed).flowIngestionEnabled =
          request.payload.effectiveFlowEnabled request.current) := by
  rw [readSettings_update, SettingsPayload.KeepsFlowRule]
  rw [SettingsPayload.KeepsFlowRule] at hkeeps
  have hrule := hchecked.keepsFlowRule
  rcases hchecked.get?_performanceMode with hmode | hmode <;>
    rcases hchecked.get?_flowIngestionEnabled with hingestion | hingestion <;>
    rw [hmode, hingestion]
  · simpa using hkeeps
  · -- Flow ingestion is set alone.
    cases hflow : request.payload.effectiveFlowEnabled request.current with
    | false => simp [switchText_eq_true_iff]
    | true => simp [switchText_eq_true_iff, hrule hflow]
  · -- The performance mode is set alone.
    cases hperf : request.payload.effectivePerfMode request.current with
    | true => simp [switchText_eq_false_iff]
    | false =>
      have hflow : request.payload.effectiveFlowEnabled request.current = false :=
        Bool.eq_false_iff.mpr fun hflow ↦ Bool.false_ne_true (hperf.symm.trans (hrule hflow))
      simp [switchText_eq_false_iff, hflow]
  · simpa using hrule

/-- Only a commit changes the committed table. -/
theorem committed_of_step {event : SettingsEvent} (hcommit : ∀ id, event ≠ .commit id)
    (hstep : service.step appCfg event = some next) : next.committed = service.committed := by
  cases event with
  | read id payload =>
    rw [step, Option.ite_none_right_eq_some] at hstep
    obtain rfl := Option.some.inj hstep.2
    simp only [SettingsService.read]
    split <;> rfl
  | redis id ready errMsg =>
    simp only [step] at hstep
    split at hstep
    · exact absurd hstep.symm (Option.some_ne_none next)
    · split at hstep
      · split at hstep <;> rw [← Option.some.inj hstep] <;> rfl
      · exact absurd hstep.symm (Option.some_ne_none next)
  | select id =>
    simp only [step] at hstep
    split at hstep
    · exact absurd hstep.symm (Option.some_ne_none next)
    · split at hstep
      · rw [← Option.some.inj hstep]
        rfl
      · exact absurd hstep.symm (Option.some_ne_none next)
  | flush id =>
    simp only [step] at hstep
    split at hstep
    · exact absurd hstep.symm (Option.some_ne_none next)
    · split at hstep
      · exact committed_of_flush hstep
      · exact absurd hstep.symm (Option.some_ne_none next)
  | commit id => exact absurd rfl (hcommit id)
  | rollback id =>
    simp only [step] at hstep
    split at hstep
    · exact absurd hstep.symm (Option.some_ne_none next)
    · rw [← Option.some.inj hstep]
      rfl

theorem keepsFlowRule_step_iff {event : SettingsEvent} (hchecked : service.AllChecked)
    (hkeeps : service.KeepsFlowRule appCfg) (hstep : service.step appCfg event = some next) :
    next.KeepsFlowRule appCfg ↔ service.KeepsAssumptions appCfg event := by
  by_cases hcommit : ∀ id, event ≠ .commit id
  · refine iff_of_true ?_ ?_
    · rw [SettingsService.KeepsFlowRule, committed_of_step hcommit hstep]
      exact hkeeps
    · cases event with
      | commit id => exact absurd rfl (hcommit id)
      | _ => trivial
  · push Not at hcommit
    obtain ⟨id, rfl⟩ := hcommit
    simp only [step] at hstep
    split at hstep
    · exact absurd hstep.symm (Option.some_ne_none next)
    · rename_i request hrequest
      split at hstep
      · rename_i hphase
        obtain rfl := Option.some.inj hstep
        refine (keepsFlowRule_commit_iff (hchecked id request hrequest) hkeeps).trans ?_
        constructor
        · intro hassumed other hother _
          exact Option.some.inj (hrequest.symm.trans hother) ▸ hassumed
        · exact fun hassumed ↦ hassumed request hrequest hphase
      · exact absurd hstep.symm (Option.some_ne_none next)

/-! ### Histories -/

/-- In every order of the steps of all requests, the committed settings always keep the rule exactly
when what the requests have assumed still holds at their commits. -/
theorem everyState_keepsFlowRule_iff (appCfg : AppConfig) (committed : AppSettings)
    (hkeeps : (readSettings appCfg committed).KeepsFlowRule) (events : List SettingsEvent)
    (last : SettingsService) (hrun : run (step appCfg) (start committed) events = some last) :
    EveryState (step appCfg) (start committed) events (KeepsFlowRule appCfg) ↔
      EveryStep (step appCfg) (start committed) events (KeepsAssumptions appCfg) :=
  everyState_iff_everyStep AllChecked (KeepsFlowRule appCfg)
    (fun _ _ _ hchecked hstep ↦ hchecked.step hstep)
    (fun _ _ _ hchecked hkept hstep ↦ keepsFlowRule_step_iff hchecked hkept hstep)
    (fun _ request hrequest ↦ absurd hrequest.symm (Option.some_ne_none request)) hkeeps hrun

/-- The performance mode is on, and flow ingestion is off. -/
def accelerated : AppSettings :=
  (Dict.empty.set "performance_mode" "true").set "flow_ingestion_enabled" "false"

/-- One request turns the performance mode off, the other one turns flow ingestion on. -/
def sideBySide : List SettingsEvent :=
  [.read 1 { SettingsUpdate.empty with performanceMode := some false },
    .read 2 { SettingsUpdate.empty with flowIngestionEnabled := some true },
    .redis 2 true "Redis v7.0.12 ready",
    .select 1, .flush 1, .commit 1, .select 2, .flush 2, .commit 2]

theorem run_sideBySide_isSome :
    (run (step ⟨false, false⟩) (start accelerated) sideBySide).isSome = true := by
  decide +kernel

theorem everyState_keepsFlowRule_iff_sideBySide :
    EveryState (step ⟨false, false⟩) (start accelerated) sideBySide
        (KeepsFlowRule ⟨false, false⟩) ↔
      EveryStep (step ⟨false, false⟩) (start accelerated) sideBySide
        (KeepsAssumptions ⟨false, false⟩) :=
  everyState_keepsFlowRule_iff ⟨false, false⟩ accelerated
    (fun hflow ↦ absurd hflow (by decide +kernel)) sideBySide _
    (Option.some_get run_sideBySide_isSome).symm

/-- Both requests pass their rules, and leave flow ingestion on without the performance mode. -/
theorem exists_not_keepsFlowRule :
    ¬∀ (appCfg : AppConfig) (committed : AppSettings),
      (readSettings appCfg committed).KeepsFlowRule →
      ∀ events, EveryState (step appCfg) (start committed) events (KeepsFlowRule appCfg) := by
  intro hall
  have hany : (run (step ⟨false, false⟩) (start accelerated) sideBySide).any (fun last ↦
      readSettings ⟨false, false⟩ last.committed = ⟨false, true⟩) = true := by
    decide +kernel
  obtain ⟨last, hrun, hread⟩ := (Option.any_eq_true _ _).mp hany
  have hkeeps := hall ⟨false, false⟩ accelerated (fun hflow ↦ absurd hflow (by decide +kernel))
    sideBySide sideBySide [] last (List.append_nil _).symm hrun
  rw [KeepsFlowRule, of_decide_eq_true hread] at hkeeps
  exact Bool.false_ne_true (hkeeps rfl)

end SettingsService

end Lnmp.Settings
