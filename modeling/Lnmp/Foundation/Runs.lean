import Mathlib.Data.List.Induction
import Mathlib.Tactic.Common

/-!
# Runs of partial transition systems

A system is a partial step function: `step state event` is `none` when the event is not enabled
in the state, and the next state otherwise. `run` executes a list of events. Two statements about
a run are used throughout: a condition that every step taken meets (`EveryStep`) and a property
that every state passed through has (`EveryState`). `everyState_of_everyStep` is the induction
rule that connects them: an invariant that each step preserves under the condition holds in every
state of a run whose steps all meet it.
-/

set_option autoImplicit false
set_option relaxedAutoImplicit false

namespace Lnmp.Foundation.Runs

variable {State Event : Type*}

/-- The state that a list of events leads to, or `none` as soon as one of them is not enabled. -/
def run (step : State → Event → Option State) (start : State) (events : List Event) :
    Option State :=
  events.foldlM step start

variable {step : State → Event → Option State} {start finish : State}

@[simp] theorem run_nil : run step start [] = some start := rfl

/-- A run of a nonempty list takes the first step and runs the rest from there. -/
@[simp] theorem run_cons (event : Event) (rest : List Event) :
    run step start (event :: rest) = (step start event).bind fun next ↦ run step next rest := by
  simp only [run, List.foldlM_cons]
  rfl

/-- A run of a concatenation runs the first list and then the second. -/
theorem run_append (first second : List Event) :
    run step start (first ++ second) =
      (run step start first).bind fun middle ↦ run step middle second := by
  simp only [run, List.foldlM_append]
  rfl

/-- A completed run of a concatenation passes through a state between the two lists. -/
theorem run_append_eq_some {first second : List Event} :
    run step start (first ++ second) = some finish ↔
      ∃ middle, run step start first = some middle ∧ run step middle second = some finish := by
  rw [run_append, Option.bind_eq_some_iff]

/-- A completed run that ends with an event took that event as its last step. -/
theorem run_concat_eq_some {events : List Event} {event : Event} :
    run step start (events ++ [event]) = some finish ↔
      ∃ middle, run step start events = some middle ∧ step middle event = some finish := by
  rw [run_append_eq_some]
  simp

/-- A system in which every event is enabled runs to the end. -/
theorem run_some (next : State → Event → State) (start : State) (events : List Event) :
    run (fun state event ↦ some (next state event)) start events =
      some (events.foldl next start) := by
  induction events generalizing start with
  | nil => rfl
  | cons event rest ih => rw [run_cons, Option.bind_some, ih, List.foldl_cons]

section Splits

variable {holds : List Event → Event → Prop} {first last : Event} {rest init : List Event}

theorem forall_split_nil :
    ∀ before event after, [] = before ++ event :: after → holds before event :=
  fun _ _ _ hsplit ↦
    absurd hsplit.symm (List.append_ne_nil_of_right_ne_nil _ (List.cons_ne_nil _ _))

/-- What holds of every event after those before it holds of the first, and of the others. -/
theorem forall_split_cons :
    (∀ before event after, first :: rest = before ++ event :: after → holds before event) ↔
      holds [] first ∧
        ∀ before event after, rest = before ++ event :: after → holds (first :: before) event := by
  constructor
  · intro hall
    refine ⟨hall [] first rest rfl, ?_⟩
    rintro before event after rfl
    exact hall (first :: before) event after rfl
  · rintro ⟨hfirst, hrest⟩ before event after hsplit
    cases before with
    | nil =>
      obtain ⟨rfl, -⟩ := List.cons_eq_cons.mp hsplit
      exact hfirst
    | cons other before =>
      rw [List.cons_append, List.cons.injEq] at hsplit
      obtain ⟨rfl, hsplit⟩ := hsplit
      exact hrest before event after hsplit

/-- What holds of every event after those before it holds of the last, and of the others. -/
theorem forall_split_concat :
    (∀ before event after, init ++ [last] = before ++ event :: after → holds before event) ↔
      (∀ before event after, init = before ++ event :: after → holds before event) ∧
        holds init last := by
  constructor
  · intro hall
    refine ⟨?_, hall init last [] rfl⟩
    rintro before event after rfl
    exact hall before event (after ++ [last]) (by simp)
  · rintro ⟨hinit, hlast⟩ before event after hsplit
    rcases List.eq_nil_or_concat after with rfl | ⟨middle, final, rfl⟩
    · obtain ⟨rfl, hsame⟩ := List.append_inj' hsplit rfl
      exact (List.cons.inj hsame).1 ▸ hlast
    · rw [List.concat_eq_append, ← List.cons_append, ← List.append_assoc] at hsplit
      obtain ⟨rfl, -⟩ := List.append_inj' hsplit rfl
      exact hinit before event middle rfl

end Splits

/-- Every step of the run of `events` from `start` meets the condition, in the state it is taken
from. -/
def EveryStep (step : State → Event → Option State) (start : State) (events : List Event)
    (condition : State → Event → Prop) : Prop :=
  ∀ before event after state, events = before ++ event :: after →
    run step start before = some state → condition state event

/-- Every state that the run of `events` from `start` passes through has the property. -/
def EveryState (step : State → Event → Option State) (start : State) (events : List Event)
    (property : State → Prop) : Prop :=
  ∀ before after state, events = before ++ after →
    run step start before = some state → property state

variable {condition : State → Event → Prop} {events : List Event}

/-- A condition on the events alone holds at every step when it holds of every event. -/
theorem everyStep_of_forall_mem {kind : Event → Prop} (hkind : ∀ event ∈ events, kind event) :
    EveryStep step start events fun _ event ↦ kind event := by
  intro before event after _ hsplit _
  exact hkind event (hsplit ▸ List.mem_append_right _ (List.mem_cons_self ..))

/-- Every step of a prefix of a run is a step of the run. -/
theorem EveryStep.take {first second : List Event}
    (hsteps : EveryStep step start (first ++ second) condition) :
    EveryStep step start first condition := by
  intro before event after state hsplit hrun
  refine hsteps before event (after ++ second) state ?_ hrun
  rw [hsplit, List.append_assoc, List.cons_append]

/-- A condition that follows from one that every step meets. -/
theorem EveryStep.mono {weaker : State → Event → Prop}
    (hsteps : EveryStep step start events condition)
    (hweaker : ∀ state event, condition state event → weaker state event) :
    EveryStep step start events weaker := fun before event after state hsplit hrun ↦
  hweaker state event (hsteps before event after state hsplit hrun)

/-- A run whose steps meet the condition, and a last step that does. -/
theorem EveryStep.concat {event : Event} (hsteps : EveryStep step start events condition)
    (hlast : ∀ state, run step start events = some state → condition state event) :
    EveryStep step start (events ++ [event]) condition := by
  have hsplits := forall_split_concat.mpr ⟨fun before other after hsplit state hrun ↦
    hsteps before other after state hsplit hrun, hlast⟩
  exact fun before other after state hsplit hrun ↦ hsplits before other after hsplit state hrun

/-- A run whose steps meet the condition, and further events that meet it in every state. -/
theorem EveryStep.append {more : List Event} (hsteps : EveryStep step start events condition)
    (hmore : ∀ event ∈ more, ∀ state, condition state event) :
    EveryStep step start (events ++ more) condition := by
  induction more using List.reverseRecOn with
  | nil => rwa [List.append_nil]
  | append_singleton more event ih =>
    rw [← List.append_assoc]
    refine (ih fun other hother ↦ hmore other (List.mem_append_left _ hother)).concat
      fun state _ ↦ hmore event (List.mem_append_right _ (List.mem_singleton_self _)) state

theorem everyStep_nil : EveryStep step start [] condition := fun _ _ _ _ hsplit ↦
  absurd hsplit.symm (List.append_ne_nil_of_right_ne_nil _ (List.cons_ne_nil _ _))

/-- The steps of a run with one more step. -/
theorem everyStep_concat_iff {event : Event} {middle : State}
    (hmiddle : run step start events = some middle) :
    EveryStep step start (events ++ [event]) condition ↔
      EveryStep step start events condition ∧ condition middle event := by
  constructor
  · intro hsteps
    exact ⟨hsteps.take, hsteps events event [] middle rfl hmiddle⟩
  · rintro ⟨hsteps, hlast⟩
    refine hsteps.concat fun state hstate ↦ ?_
    obtain rfl := Option.some.inj (hmiddle.symm.trans hstate)
    exact hlast

/-- The first step of a run, and the others. -/
theorem everyStep_cons_iff {event : Event} {rest : List Event} :
    EveryStep step start (event :: rest) condition ↔
      condition start event ∧
        ∀ next, step start event = some next → EveryStep step next rest condition := by
  constructor
  · intro hsteps
    refine ⟨hsteps [] event rest start rfl rfl, fun next hnext before other after state hsplit hrun ↦
      hsteps (event :: before) other after state (congrArg _ hsplit) ?_⟩
    rw [run_cons, hnext, Option.bind_some, hrun]
  · rintro ⟨hfirst, hrest⟩ before other after state hsplit hrun
    cases before with
    | nil =>
      obtain ⟨rfl, -⟩ := List.cons_eq_cons.mp hsplit
      exact Option.some.inj hrun ▸ hfirst
    | cons same before =>
      rw [List.cons_append, List.cons.injEq] at hsplit
      obtain ⟨rfl, hsplit⟩ := hsplit
      obtain ⟨next, hnext, hrun⟩ := Option.bind_eq_some_iff.mp ((run_cons ..).symm.trans hrun)
      exact hrest next hnext before other after state hsplit hrun

/-- The condition checked along a run. -/
def StepsMeet (step : State → Event → Option State) (condition : State → Event → Prop) :
    State → List Event → Prop
  | _, [] => True
  | state, event :: rest =>
    condition state event ∧ ((step state event).elim True fun next ↦ StepsMeet step condition next rest)

theorem everyStep_iff_stepsMeet :
    EveryStep step start events condition ↔ StepsMeet step condition start events := by
  induction events generalizing start with
  | nil => exact iff_of_true everyStep_nil trivial
  | cons event rest ih =>
    rw [everyStep_cons_iff, StepsMeet]
    cases hnext : step start event with
    | none => simp
    | some next => simp [ih]

instance decidableStepsMeet (step : State → Event → Option State)
    (condition : State → Event → Prop) [∀ state event, Decidable (condition state event)] :
    ∀ start events, Decidable (StepsMeet step condition start events)
  | _, [] => isTrue trivial
  | start, event :: rest =>
    @instDecidableAnd _ _ _ (match step start event with
      | none => isTrue trivial
      | some next => decidableStepsMeet step condition next rest)

instance decidableEveryStep [∀ state event, Decidable (condition state event)] :
    Decidable (EveryStep step start events condition) :=
  decidable_of_iff _ everyStep_iff_stepsMeet.symm

/-- The invariant rule: what holds at the start and is preserved by every step that meets the
condition holds at the end of every run whose steps all meet it. -/
theorem invariant_of_everyStep (property : State → Prop)
    (hstep : ∀ state event next, property state → condition state event →
      step state event = some next → property next)
    (hstart : property start) (hsteps : EveryStep step start events condition)
    (hrun : run step start events = some finish) : property finish := by
  induction events using List.reverseRecOn generalizing finish with
  | nil =>
    rw [run_nil, Option.some_inj] at hrun
    exact hrun ▸ hstart
  | append_singleton events event ih =>
    obtain ⟨middle, hmiddle, hlast⟩ := run_concat_eq_some.mp hrun
    exact hstep middle event finish (ih hsteps.take hmiddle)
      (hsteps events event [] middle rfl hmiddle) hlast

/-- The invariant rule for every state passed through. -/
theorem everyState_of_everyStep (property : State → Prop)
    (hstep : ∀ state event next, property state → condition state event →
      step state event = some next → property next)
    (hstart : property start) (hsteps : EveryStep step start events condition) :
    EveryState step start events property := by
  intro before after state hsplit hrun
  subst hsplit
  exact invariant_of_everyStep property hstep hstart hsteps.take hrun

/-- The invariant rule for runs whose events are all of one kind. -/
theorem invariant_of_forall_mem (property : State → Prop) {kind : Event → Prop}
    (hstep : ∀ state event next, property state → kind event →
      step state event = some next → property next)
    (hstart : property start) (hkind : ∀ event ∈ events, kind event)
    (hrun : run step start events = some finish) : property finish :=
  invariant_of_everyStep property hstep hstart (everyStep_of_forall_mem hkind) hrun

/-- Two conditions that are the same in every state of an invariant, which steps that meet the first
one preserve: all steps of a run meet the first exactly when they all meet the second. -/
theorem everyStep_congr (invariant : State → Prop) {other : State → Event → Prop}
    (hstep : ∀ state event next, invariant state → condition state event →
      step state event = some next → invariant next)
    (hiff : ∀ state event, invariant state → (condition state event ↔ other state event))
    (hstart : invariant start) :
    EveryStep step start events condition ↔ EveryStep step start events other := by
  constructor
  · rintro hsteps before event after state rfl hrun
    have hstate := invariant_of_everyStep invariant hstep hstart hsteps.take hrun
    exact (hiff state event hstate).mp (hsteps before event after state rfl hrun)
  · rintro hsteps before event after state rfl hrun
    have hstate := invariant_of_everyStep invariant
      (fun state event next hkept hother ↦ hstep state event next hkept
        ((hiff state event hkept).mpr hother)) hstart hsteps.take hrun
    exact (hiff state event hstate).mpr (hsteps before event after state rfl hrun)

/-- Two properties that are the same in every state of an invariant, which steps of a kind from
states with one of them preserve: a run of such steps has the one throughout exactly when it has the
other. -/
theorem everyState_congr (invariant : State → Prop) {property other : State → Prop}
    {kind : Event → Prop}
    (hstep : ∀ state event next, invariant state → kind event → property state →
      step state event = some next → invariant next)
    (hiff : ∀ state, invariant state → (property state ↔ other state))
    (hstart : invariant start) (hkind : ∀ event ∈ events, kind event) :
    EveryState step start events property ↔ EveryState step start events other := by
  have hreached : ∀ before after state, events = before ++ after →
      EveryState step start events property ∨ EveryState step start events other →
      run step start before = some state → invariant state := by
    rintro before after state rfl hstates hrun
    induction before using List.reverseRecOn generalizing state after with
    | nil =>
      rw [run_nil, Option.some_inj] at hrun
      exact hrun ▸ hstart
    | append_singleton before event ih =>
      obtain ⟨middle, hmiddle, hlast⟩ := run_concat_eq_some.mp hrun
      rw [List.append_assoc] at hstates hkind
      have hkept := ih (event :: after) middle hkind hstates hmiddle
      refine hstep middle event state hkept (hkind event (by simp)) ?_ hlast
      rcases hstates with hproperty | hother
      · exact hproperty before _ middle rfl hmiddle
      · exact (hiff middle hkept).mpr (hother before _ middle rfl hmiddle)
  constructor
  · intro hstates before after state hsplit hrun
    have hkept := hreached before after state hsplit (Or.inl hstates) hrun
    exact (hiff state hkept).mp (hstates before after state hsplit hrun)
  · intro hstates before after state hsplit hrun
    have hkept := hreached before after state hsplit (Or.inr hstates) hrun
    exact (hiff state hkept).mpr (hstates before after state hsplit hrun)

/-- The rule for a property that a step keeps exactly when it meets the condition, and that no step
restores: a run keeps it exactly when all its steps meet the condition. -/
theorem property_iff_everyStep (invariant property : State → Prop)
    (hinvariant : ∀ state event next, invariant state → step state event = some next →
      invariant next)
    (hstep : ∀ state event next, invariant state → step state event = some next →
      (property next ↔ property state ∧ condition state event))
    (hstart : invariant start) (hproperty : property start)
    (hrun : run step start events = some finish) :
    property finish ↔ EveryStep step start events condition := by
  suffices h : invariant finish ∧ (property finish ↔ EveryStep step start events condition) from h.2
  induction events using List.reverseRecOn generalizing finish with
  | nil =>
    rw [run_nil, Option.some_inj] at hrun
    subst hrun
    refine ⟨hstart, iff_of_true hproperty fun before event after _ hsplit ↦ ?_⟩
    exact absurd hsplit.symm (List.append_ne_nil_of_right_ne_nil _ (List.cons_ne_nil _ _))
  | append_singleton events event ih =>
    obtain ⟨middle, hmiddle, hlast⟩ := run_concat_eq_some.mp hrun
    obtain ⟨hkept, hiff⟩ := ih hmiddle
    refine ⟨hinvariant middle event finish hkept hlast, ?_⟩
    rw [hstep middle event finish hkept hlast, hiff]
    constructor
    · rintro ⟨hsteps, hcondition⟩
      exact hsteps.concat fun state hstate ↦
        Option.some.inj (hmiddle.symm.trans hstate) ▸ hcondition
    · exact fun hsteps ↦ ⟨hsteps.take, hsteps events event [] middle rfl hmiddle⟩

/-- The rule for a property that a step keeps exactly when it meets the condition: a completed run
passes only through states that have it exactly when all its steps meet the condition. -/
theorem everyState_iff_everyStep (invariant property : State → Prop)
    (hinvariant : ∀ state event next, invariant state → step state event = some next →
      invariant next)
    (hstep : ∀ state event next, invariant state → property state →
      step state event = some next → (property next ↔ condition state event))
    (hstart : invariant start) (hproperty : property start)
    (hrun : run step start events = some finish) :
    EveryState step start events property ↔ EveryStep step start events condition := by
  have hreached : ∀ before state, run step start before = some state → invariant state :=
    fun before state hbefore ↦ invariant_of_forall_mem invariant
      (fun state event next hkept _ ↦ hinvariant state event next hkept) hstart
      (fun _ _ ↦ trivial) hbefore
  constructor
  · intro hstates before event after state hsplit hbefore
    have hcompleted := hrun
    rw [hsplit, List.append_cons, run_append_eq_some] at hcompleted
    obtain ⟨next, hnext, -⟩ := hcompleted
    obtain ⟨middle, hmiddle, hlast⟩ := run_concat_eq_some.mp hnext
    obtain rfl := Option.some.inj (hbefore.symm.trans hmiddle)
    refine (hstep state event next (hreached before state hbefore)
      (hstates before (event :: after) state hsplit hbefore) hlast).mp ?_
    exact hstates (before ++ [event]) after next (hsplit.trans (List.append_cons ..)) hnext
  · intro hsteps
    have hboth := everyState_of_everyStep (fun state ↦ invariant state ∧ property state)
      (fun state event next hkept hcondition hnext ↦
        ⟨hinvariant state event next hkept.1 hnext,
          (hstep state event next hkept.1 hkept.2 hnext).mpr hcondition⟩)
      ⟨hstart, hproperty⟩ hsteps
    exact fun before after state hsplit hbefore ↦ (hboth before after state hsplit hbefore).2

/-- The rule for a property that an invariant gives, where a step keeps the invariant when it meets
the condition, and loses the property when it does not. -/
theorem everyState_iff_everyStep_of_invariant (invariant property : State → Prop)
    (hproperty : ∀ state, invariant state → property state)
    (hkeep : ∀ state event next, invariant state → condition state event →
      step state event = some next → invariant next)
    (hlose : ∀ state event next, invariant state → step state event = some next →
      property next → condition state event)
    (hstart : invariant start) (hrun : run step start events = some finish) :
    EveryState step start events property ↔ EveryStep step start events condition := by
  constructor
  · intro hstates
    induction events using List.reverseRecOn generalizing finish with
    | nil => exact fun before event after _ hsplit ↦
        absurd hsplit.symm (List.append_ne_nil_of_right_ne_nil _ (List.cons_ne_nil _ _))
    | append_singleton events event ih =>
      obtain ⟨middle, hmiddle, hlast⟩ := run_concat_eq_some.mp hrun
      have hsteps := ih hmiddle fun before after state hsplit hbefore ↦
        hstates before (after ++ [event]) state (by rw [hsplit, List.append_assoc]) hbefore
      refine hsteps.concat fun state hstate ↦ ?_
      obtain rfl := Option.some.inj (hmiddle.symm.trans hstate)
      exact hlose middle event finish (invariant_of_everyStep invariant hkeep hstart hsteps hmiddle)
        hlast (hstates (events ++ [event]) [] finish (List.append_nil _).symm hrun)
  · intro hsteps before after state hsplit hbefore
    rw [hsplit] at hsteps
    exact hproperty state (invariant_of_everyStep invariant hkeep hstart hsteps.take hbefore)

/-! ### Termination -/

/-- A measure that falls at every step bounds the lengths of the runs. -/
theorem length_add_measure_le (measure : State → ℕ)
    (hfall : ∀ state event next, step state event = some next → measure next < measure state)
    (hrun : run step start events = some finish) :
    events.length + measure finish ≤ measure start := by
  induction events generalizing start with
  | nil =>
    obtain rfl := Option.some.inj hrun
    exact Nat.le_of_eq (Nat.zero_add _)
  | cons event rest ih =>
    obtain ⟨next, hnext, hrest⟩ := Option.bind_eq_some_iff.mp hrun
    have hlater := ih hrest
    have hlt := hfall start event next hnext
    rw [List.length_cons]
    omega

/-- Where the runs are bounded, and a step is possible in every state that is not done, a run ends
in a state that is. -/
theorem exists_run_of_bounded {done : State → Prop} (bound : ℕ)
    (hbound : ∀ events finish, run step start events = some finish → events.length ≤ bound)
    (hprogress : ∀ state, ¬done state → ∃ event next, step state event = some next) :
    ∃ events finish, run step start events = some finish ∧ done finish := by
  by_contra hnone
  push Not at hnone
  have hlonger : ∀ length, ∃ events finish, run step start events = some finish ∧
      events.length = length := by
    intro length
    induction length with
    | zero => exact ⟨[], start, rfl, rfl⟩
    | succ length ih =>
      obtain ⟨events, finish, hrun, rfl⟩ := ih
      obtain ⟨event, next, hnext⟩ := hprogress finish (hnone events finish hrun)
      exact ⟨events ++ [event], next, run_concat_eq_some.mpr ⟨finish, hrun, hnext⟩,
        List.length_append⟩
  obtain ⟨events, finish, hrun, hlength⟩ := hlonger (bound + 1)
  have hle := hbound events finish hrun
  omega

end Lnmp.Foundation.Runs
