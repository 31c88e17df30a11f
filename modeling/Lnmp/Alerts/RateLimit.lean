import Lnmp.Alerts.Dispatcher
import Mathlib.Algebra.Order.Group.Int

/-!
# The rate limit of alerts

At most one alert in five minutes is to be delivered for a channel, an endpoint and a severity. A
dispatch looks at the time of the last one, waits for the provider, and then writes its own time, so
that two dispatches that overlap both deliver.

The limit is kept in every run in which a dispatch that delivers would still pass the check, and in
which no entry is pruned that a dispatch in flight needs (`everyState_keepsRateLimit`).
-/

set_option autoImplicit false
set_option relaxedAutoImplicit false

namespace Lnmp.Alerts.Dispatcher

open Lnmp.Foundation Lnmp.Foundation.Runs

/-- In five minutes from any time on, at most one alert was delivered for a key. -/
def KeepsRateLimit (dispatcher : Dispatcher) : Prop :=
  ∀ (key : RateKey) (time : ℤ),
    (dispatcher.delivered.filter fun alert ↦
      alert.1 = key ∧ time ≤ alert.2 ∧ alert.2 < time + minutes 5).length ≤ 1

/-- A dispatch that delivers would pass the check once more. An entry that is pruned is at least
five minutes older than every dispatch for its endpoint and severity. -/
def RateLimitHolds (dispatcher : Dispatcher) : DispatcherEvent → Prop
  | .prune now => ∀ key lastSent, dispatcher.caches.rateLimits.get? key = some lastSent →
      lastSent < now - minutes 60 → ∀ task dispatch,
        dispatcher.dispatches.get? task = some dispatch →
          (dispatch.event.rateEndpoint, dispatch.event.severity) = key.2 →
            lastSent + minutes 5 ≤ dispatch.timestamp
  | .provide task channel true => ∀ dispatch lastSent,
      dispatcher.dispatches.get? task = some dispatch →
        dispatcher.caches.rateLimits.get? (dispatch.event.rateKey channel) = some lastSent →
          lastSent + minutes 5 ≤ dispatch.timestamp
  | _ => True

/-! ### Steps that send nothing -/

/-- A step that leaves the limits, the clock and the delivered alerts, and starts no dispatch. -/
structure Quiet (dispatcher next : Dispatcher) : Prop where
  rateLimits_eq : next.caches.rateLimits = dispatcher.caches.rateLimits
  clock_eq : next.clock = dispatcher.clock
  delivered_eq : next.delivered = dispatcher.delivered
  get?_dispatches : ∀ task dispatch, next.dispatches.get? task = some dispatch →
    ∃ before, dispatcher.dispatches.get? task = some before ∧ dispatch.event = before.event ∧
      dispatch.timestamp = before.timestamp

variable {passesFilters : String → StateEvent → Bool} {dispatcher next : Dispatcher}
  {event : DispatcherEvent} {task : ℕ} {dispatch : Dispatch}

theorem quiet_proceed (hget : dispatcher.dispatches.get? task = some dispatch) (phase : Phase) :
    Quiet dispatcher (dispatcher.proceed task dispatch phase) := by
  refine ⟨rfl, rfl, rfl, fun other found hfound ↦ ?_⟩
  rw [proceed, Dict.get?_set] at hfound
  split at hfound
  · rename_i hother
    obtain rfl := Option.some.inj hfound
    exact ⟨dispatch, hother ▸ hget, rfl, rfl⟩
  · exact ⟨found, hfound, rfl, rfl⟩

theorem quiet_erase (task : ℕ) :
    Quiet dispatcher { dispatcher with dispatches := dispatcher.dispatches.erase task } := by
  refine ⟨rfl, rfl, rfl, fun other found hfound ↦ ?_⟩
  rw [Dict.get?_erase, Option.ite_none_left_eq_some] at hfound
  exact ⟨found, hfound.2, rfl, rfl⟩

/-- The caches before the channels are loaded have the same limits. -/
theorem rateLimits_transition (event : StateEvent) (now : ℤ) (caches : Caches) :
    (caches.transition event now).2.rateLimits = caches.rateLimits := by
  have hrecover : (caches.recover event).rateLimits = caches.rateLimits := by
    rw [Caches.recover]
    split
    · rfl
    · split <;> rfl
  have hcheck : ((caches.recover event).isChildSuppressed event.endpoint now).2.rateLimits =
      caches.rateLimits := by
    unfold Caches.isChildSuppressed
    split
    · exact hrecover
    · split
      · exact hrecover
      · split <;> exact hrecover
  simp only [Caches.transition]
  split
  · exact hrecover
  · split
    · exact hcheck
    · exact hcheck

theorem rateLimits_handleRcaIncident (event : RcaEvent) (now : ℤ) (caches : Caches) :
    (caches.handleRcaIncident event now).rateLimits = caches.rateLimits := by
  rw [Caches.handleRcaIncident]
  split <;> rfl

/-- What happens when the toggle was read. -/
theorem step_toggle {enabled : Bool}
    (hstep : step passesFilters dispatcher (.toggle task enabled) = some next) :
    Quiet dispatcher next := by
  simp only [step] at hstep
  split at hstep
  · rename_i event timestamp hget
    split at hstep
    · obtain rfl := Option.some.inj hstep
      obtain ⟨-, hclock, hdelivered, hdispatches⟩ := quiet_proceed hget
        ((dispatcher.caches.transition event timestamp).1.elim .logging .loading)
      exact ⟨rateLimits_transition event timestamp dispatcher.caches, hclock, hdelivered,
        hdispatches⟩
    · obtain rfl := Option.some.inj hstep
      exact quiet_proceed hget .logging
  · exact absurd hstep.symm (Option.some_ne_none next)

theorem step_load {channels : List String}
    (hstep : step passesFilters dispatcher (.load task channels) = some next) :
    Quiet dispatcher next := by
  simp only [step] at hstep
  split at hstep
  · rename_i hget
    obtain rfl := Option.some.inj hstep
    exact quiet_proceed hget _
  · exact absurd hstep.symm (Option.some_ne_none next)

theorem step_evaluate {channel : String}
    (hstep : step passesFilters dispatcher (.evaluate task channel) = some next) :
    Quiet dispatcher next := by
  simp only [step] at hstep
  split at hstep
  · rename_i hget
    rw [Option.ite_none_right_eq_some] at hstep
    obtain rfl := Option.some.inj hstep.2
    exact quiet_proceed hget _
  · exact absurd hstep.symm (Option.some_ne_none next)

theorem step_finish (hstep : step passesFilters dispatcher (.finish task) = some next) :
    Quiet dispatcher next := by
  simp only [step] at hstep
  split at hstep
  · obtain rfl := Option.some.inj hstep
    exact quiet_erase task
  · rw [Option.ite_none_right_eq_some] at hstep
    obtain rfl := Option.some.inj hstep.2
    exact quiet_erase task
  · exact absurd hstep.symm (Option.some_ne_none next)

/-- What happens when the provider answered. -/
theorem step_provide {channel : String} {delivered : Bool}
    (hstep : step passesFilters dispatcher (.provide task channel delivered) = some next) :
    ∃ dispatch phase, dispatcher.dispatches.get? task = some dispatch ∧
      next = (dispatcher.recordSent dispatch channel delivered).proceed task dispatch phase := by
  simp only [step] at hstep
  split at hstep
  · rename_i event timestamp isFlapping stages hget
    rw [Option.ite_none_right_eq_some] at hstep
    exact ⟨_, _, hget, (Option.some.inj hstep.2).symm⟩
  · exact absurd hstep.symm (Option.some_ne_none next)

/-! ### The alerts that the limits remember -/

/-- The delivered alerts of a key are five minutes apart. An alert is remembered by an entry that is
not older, or no dispatch comes within five minutes of it any more. -/
structure Remembers (dispatcher : Dispatcher) : Prop where
  pairwise : dispatcher.delivered.Pairwise fun earlier later ↦
    earlier.1 = later.1 → earlier.2 + minutes 5 ≤ later.2
  remembered : ∀ alert ∈ dispatcher.delivered,
    (∃ lastSent, dispatcher.caches.rateLimits.get? alert.1 = some lastSent ∧ alert.2 ≤ lastSent) ∨
      alert.2 + minutes 5 ≤ dispatcher.clock ∧ ∀ task dispatch,
        dispatcher.dispatches.get? task = some dispatch →
          (dispatch.event.rateEndpoint, dispatch.event.severity) = alert.1.2 →
            alert.2 + minutes 5 ≤ dispatch.timestamp

/-- Alerts that are five minutes apart keep the limit. -/
theorem Remembers.keepsRateLimit (hremembers : Remembers dispatcher) :
    KeepsRateLimit dispatcher := by
  intro key time
  have hpairwise := hremembers.pairwise.sublist (List.filter_sublist (p := fun alert ↦
    alert.1 = key ∧ time ≤ alert.2 ∧ alert.2 < time + minutes 5))
  have hall : ∀ alert ∈ dispatcher.delivered.filter (fun alert ↦
      alert.1 = key ∧ time ≤ alert.2 ∧ alert.2 < time + minutes 5),
      alert.1 = key ∧ time ≤ alert.2 ∧ alert.2 < time + minutes 5 :=
    fun alert halert ↦ of_decide_eq_true (List.mem_filter.mp halert).2
  generalize dispatcher.delivered.filter _ = alerts at hpairwise hall ⊢
  cases alerts with
  | nil => exact Nat.zero_le 1
  | cons first rest =>
    cases rest with
    | nil => exact le_rfl
    | cons second rest =>
      obtain ⟨hfirst, hstart, -⟩ := hall first (List.mem_cons_self ..)
      obtain ⟨hsecond, -, hend⟩ := hall second (List.mem_cons_of_mem _ (List.mem_cons_self ..))
      have hapart := (List.pairwise_cons.mp hpairwise).1 second (List.mem_cons_self ..)
        (hfirst.trans hsecond.symm)
      omega

theorem remembers_init (origin : ℤ) : Remembers (init origin) :=
  ⟨List.Pairwise.nil, fun _ halert ↦ absurd halert List.not_mem_nil⟩

theorem Remembers.quiet (hremembers : Remembers dispatcher) (hquiet : Quiet dispatcher next) :
    Remembers next := by
  obtain ⟨hrates, hclock, hdelivered, hdispatches⟩ := hquiet
  refine ⟨hdelivered ▸ hremembers.pairwise, fun alert halert ↦ ?_⟩
  rw [hdelivered] at halert
  rw [hrates, hclock]
  refine (hremembers.remembered alert halert).imp_right fun ⟨hpast, hlate⟩ ↦ ⟨hpast, ?_⟩
  intro task dispatch hget hkey
  obtain ⟨before, hbefore, hevent, htime⟩ := hdispatches task dispatch hget
  rw [hevent] at hkey
  rw [htime]
  exact hlate task before hbefore hkey

/-- Pruning forgets alerts that no dispatch comes close to. -/
theorem Remembers.prune (hremembers : Remembers dispatcher) {now : ℤ}
    (hclock : dispatcher.clock ≤ now) (hholds : RateLimitHolds dispatcher (.prune now)) :
    Remembers
      { dispatcher with caches := dispatcher.caches.pruneMemoryCaches now, clock := now } := by
  refine ⟨hremembers.pairwise, fun alert halert ↦ ?_⟩
  rcases hremembers.remembered alert halert with ⟨lastSent, hget, hle⟩ | ⟨hpast, hlate⟩
  · by_cases hold : lastSent < now - minutes 60
    · have hhour : minutes 5 ≤ minutes 60 := by decide
      refine Or.inr ⟨?_, fun task dispatch hdispatch hkey ↦ ?_⟩
      · show alert.2 + minutes 5 ≤ now
        omega
      · have := hholds alert.1 lastSent hget hold task dispatch hdispatch hkey
        omega
    · refine Or.inl ⟨lastSent, ?_, hle⟩
      show (dispatcher.caches.rateLimits.eraseWhere _).get? alert.1 = some lastSent
      rw [Dict.get?_eraseWhere, hget]
      simp [hold]
  · exact Or.inr ⟨hpast.trans hclock, hlate⟩

/-- A dispatch that starts comes after all alerts that are forgotten. -/
theorem Remembers.start (hremembers : Remembers dispatcher) {message : Message} {now : ℤ}
    (hstep : step passesFilters dispatcher (.start task message now) = some next) :
    Remembers next := by
  simp only [step] at hstep
  rw [Option.ite_none_right_eq_some] at hstep
  obtain ⟨⟨hclock, -, -⟩, hstep⟩ := hstep
  cases message with
  | rca event =>
    obtain rfl := Option.some.inj hstep
    refine ⟨hremembers.pairwise, fun alert halert ↦ ?_⟩
    show (∃ lastSent, (dispatcher.caches.handleRcaIncident event now).rateLimits.get? alert.1 =
      some lastSent ∧ alert.2 ≤ lastSent) ∨ _
    rw [rateLimits_handleRcaIncident]
    exact (hremembers.remembered alert halert).imp_right fun ⟨hpast, hlate⟩ ↦
      ⟨hpast.trans hclock, hlate⟩
  | state event =>
    obtain rfl := Option.some.inj hstep
    refine ⟨hremembers.pairwise, fun alert halert ↦ ?_⟩
    refine (hremembers.remembered alert halert).imp_right fun ⟨hpast, hlate⟩ ↦
      ⟨hpast.trans hclock, fun other dispatch hget hkey ↦ ?_⟩
    dsimp only at hget
    rw [Dict.get?_set] at hget
    split at hget
    · rw [← Option.some.inj hget]
      exact hpast.trans hclock
    · exact hlate other dispatch hget hkey

/-- A dispatch that delivers is five minutes behind all alerts of its key, and its entry remembers
them. -/
theorem Remembers.provide (hremembers : Remembers dispatcher) {channel : String} {delivered : Bool}
    (hholds : RateLimitHolds dispatcher (.provide task channel delivered))
    (hstep : step passesFilters dispatcher (.provide task channel delivered) = some next) :
    Remembers next := by
  obtain ⟨dispatch, phase, hget, rfl⟩ := step_provide hstep
  cases delivered with
  | false => exact hremembers.quiet (quiet_proceed hget phase)
  | true =>
    have hsent : (dispatcher.recordSent dispatch channel true).dispatches.get? task =
        some dispatch := hget
    refine Remembers.quiet ?_ (quiet_proceed hsent phase)
    have hapart : ∀ alert ∈ dispatcher.delivered, alert.1 = dispatch.event.rateKey channel →
        alert.2 + minutes 5 ≤ dispatch.timestamp := by
      intro alert halert hkey
      rcases hremembers.remembered alert halert with ⟨lastSent, hlast, hle⟩ | ⟨-, hlate⟩
      · have := hholds dispatch lastSent hget (hkey ▸ hlast)
        omega
      · exact hlate task dispatch hget (by rw [hkey]; rfl)
    have hfive : 0 ≤ minutes 5 := by decide
    refine ⟨?_, fun alert halert ↦ ?_⟩
    · refine List.pairwise_append.mpr ⟨hremembers.pairwise, List.pairwise_singleton _ _, ?_⟩
      intro earlier hearlier later hlater hkey
      rw [List.mem_singleton.mp hlater] at hkey ⊢
      exact hapart earlier hearlier hkey
    · show (∃ lastSent, (dispatcher.caches.rateLimits.set (dispatch.event.rateKey channel)
        dispatch.timestamp).get? alert.1 = some lastSent ∧ alert.2 ≤ lastSent) ∨ _
      rcases List.mem_append.mp halert with hold | hnew
      · by_cases hkey : alert.1 = dispatch.event.rateKey channel
        · have := hapart alert hold hkey
          exact Or.inl ⟨dispatch.timestamp, by rw [Dict.get?_set, if_pos hkey], by omega⟩
        · rw [Dict.get?_set, if_neg hkey]
          exact hremembers.remembered alert hold
      · rw [List.mem_singleton.mp hnew]
        exact Or.inl ⟨dispatch.timestamp, by rw [Dict.get?_set, if_pos rfl], le_rfl⟩

/-- A step that meets the condition keeps what is remembered. -/
theorem Remembers.step (hremembers : Remembers dispatcher)
    (hholds : RateLimitHolds dispatcher event)
    (hstep : step passesFilters dispatcher event = some next) : Remembers next := by
  cases event with
  | prune now =>
    rw [Dispatcher.step, Option.ite_none_right_eq_some] at hstep
    obtain ⟨hclock, hnext⟩ := hstep
    exact Option.some.inj hnext ▸ hremembers.prune hclock hholds
  | start task message now => exact hremembers.start hstep
  | toggle task enabled => exact hremembers.quiet (step_toggle hstep)
  | load task channels => exact hremembers.quiet (step_load hstep)
  | evaluate task channel => exact hremembers.quiet (step_evaluate hstep)
  | provide task channel delivered => exact hremembers.provide hholds hstep
  | finish task => exact hremembers.quiet (step_finish hstep)

/-- The rate limit is kept in every run whose steps meet the condition. -/
theorem everyState_keepsRateLimit {origin : ℤ} {events : List DispatcherEvent}
    (hholds : EveryStep (Dispatcher.step passesFilters) (init origin) events RateLimitHolds) :
    EveryState (Dispatcher.step passesFilters) (init origin) events KeepsRateLimit := by
  have hstates := everyState_of_everyStep Remembers
    (fun _ _ _ hremembers hholds hstep ↦ hremembers.step hholds hstep) (remembers_init origin)
    hholds
  exact fun before after state hsplit hrun ↦
    (hstates before after state hsplit hrun).keepsRateLimit

/-- An endpoint that is down. -/
def sampleDown : StateEvent where
  eventType := "STATE_TRANSITION"
  endpointId := some "7"
  nodeId := none
  endpointName := "core-switch"
  operationalState := some "DOWN"
  currentState := none
  newState := none
  isSymptom := false
  suppressedByUpstream := false

/-- A dispatch up to the provider of a channel. -/
def sampleSending (task : ℕ) (now : ℤ) : List DispatcherEvent :=
  [.start task (.state sampleDown) now, .toggle task true, .load task ["smtp"],
    .evaluate task "smtp"]

/-- A provider delivers well when the alert sent last is five minutes old. -/
theorem rateLimitHolds_provide_iff {channel : String} :
    RateLimitHolds dispatcher (.provide task channel true) ↔
      (dispatcher.dispatches.get? task).all (fun dispatch ↦
        (dispatcher.caches.rateLimits.get? (dispatch.event.rateKey channel)).all fun lastSent ↦
          lastSent + minutes 5 ≤ dispatch.timestamp) = true := by
  simp only [RateLimitHolds, Option.all_eq_true, decide_eq_true_eq]
  exact ⟨fun hholds dispatch hdispatch lastSent hlast ↦ hholds dispatch lastSent hdispatch hlast,
    fun hholds dispatch lastSent hdispatch hlast ↦ hholds dispatch hdispatch lastSent hlast⟩

/-- Up to the provider nothing is to be met. -/
theorem rateLimitHolds_sampleSending {now : ℤ} :
    ∀ event ∈ sampleSending task now, ∀ dispatcher, RateLimitHolds dispatcher event := by
  intro event hevent dispatcher
  simp only [sampleSending, List.mem_cons, List.not_mem_nil, or_false] at hevent
  rcases hevent with rfl | rfl | rfl | rfl <;> trivial

/-- Two alerts for one endpoint, the second five minutes after the first. -/
def sampleApart : List DispatcherEvent :=
  sampleSending 1 0 ++ [.provide 1 "smtp" true] ++ sampleSending 2 (minutes 5)

theorem everyState_keepsRateLimit_sampleSending :
    (run (Dispatcher.step fun _ _ ↦ true) (init 0)
        (sampleApart ++ [.provide 2 "smtp" true])).map Dispatcher.delivered =
      some [(("smtp", "7", "DOWN"), 0), (("smtp", "7", "DOWN"), minutes 5)] ∧
      EveryState (Dispatcher.step fun _ _ ↦ true) (init 0)
        (sampleApart ++ [.provide 2 "smtp" true]) KeepsRateLimit := by
  refine ⟨by decide, ?_⟩
  refine everyState_keepsRateLimit (EveryStep.concat (EveryStep.append (EveryStep.concat
    (EveryStep.append everyStep_nil rateLimitHolds_sampleSending) ?_)
      rateLimitHolds_sampleSending) ?_)
  all_goals
    intro state hrun
    rw [rateLimitHolds_provide_iff]
  · have hfirst : (run (Dispatcher.step fun _ _ ↦ true) (init 0) (sampleSending 1 0)).all
        (fun dispatcher ↦ (dispatcher.dispatches.get? 1).all fun dispatch ↦
          (dispatcher.caches.rateLimits.get? (dispatch.event.rateKey "smtp")).all fun lastSent ↦
            lastSent + minutes 5 ≤ dispatch.timestamp) = true := by decide
    rw [hrun, Option.all_some] at hfirst
    exact hfirst
  · have hsecond : (run (Dispatcher.step fun _ _ ↦ true) (init 0) sampleApart).all
        (fun dispatcher ↦ (dispatcher.dispatches.get? 2).all fun dispatch ↦
          (dispatcher.caches.rateLimits.get? (dispatch.event.rateKey "smtp")).all fun lastSent ↦
            lastSent + minutes 5 ≤ dispatch.timestamp) = true := by decide
    rw [hrun, Option.all_some] at hsecond
    exact hsecond

/-- Two dispatches that overlap deliver two alerts within a second. -/
theorem exists_not_keepsRateLimit :
    ¬∀ (passesFilters : String → StateEvent → Bool) (origin : ℤ) (events : List DispatcherEvent),
      EveryState (Dispatcher.step passesFilters) (init origin) events KeepsRateLimit := by
  intro hall
  have htwice : (run (Dispatcher.step fun _ _ ↦ true) (init 0)
      (sampleSending 1 0 ++ sampleSending 2 1000000 ++
        [.provide 1 "smtp" true, .provide 2 "smtp" true])).any
      (fun dispatcher ↦ 1 < (dispatcher.delivered.filter fun alert ↦
        alert.1 = ("smtp", "7", "DOWN") ∧ 0 ≤ alert.2 ∧ alert.2 < 0 + minutes 5).length) =
        true := by
    decide
  obtain ⟨dispatcher, hrun, hmany⟩ := (Option.any_eq_true _ _).mp htwice
  have hlimit := hall _ 0 _ _ [] dispatcher (List.append_nil _).symm hrun ("smtp", "7", "DOWN") 0
  exact absurd hlimit (not_le.mpr (of_decide_eq_true hmany))

end Lnmp.Alerts.Dispatcher
