import Lnmp.Alerts.Dispatcher
import Mathlib.Algebra.Order.Group.Int

/-!
# Flapping

An endpoint is flapping when four of its transitions lie within ten minutes. The dispatcher forgets
transitions in two places: `_check_flapping` drops those of its endpoint that are older than ten
minutes, and `_prune_memory_caches` those of all endpoints, with the time of another event.

What is forgotten is older than ten minutes at every later event, so that the answers are those for
the whole history, with or without the pruning (`flapping_exact`).
-/

set_option autoImplicit false
set_option relaxedAutoImplicit false

namespace Lnmp.Alerts

open Lnmp.Foundation

/-- A call that reads or forgets transitions. -/
inductive FlappingCall
  | check (endpoint : String) (now : ℤ)
  | prune (now : ℤ)
  deriving DecidableEq

namespace FlappingCall

/-- The time of the call. -/
def time : FlappingCall → ℤ
  | check _ now => now
  | prune now => now

/-- The call records an event. -/
def isCheck : FlappingCall → Bool
  | check _ _ => true
  | prune _ => false

/-- The caches after the call. -/
def perform (caches : Caches) : FlappingCall → Caches
  | check endpoint now => (caches.checkFlapping endpoint now).2
  | prune now => caches.pruneMemoryCaches now

/-- What the call answers. -/
def answer (caches : Caches) : FlappingCall → List Bool
  | check endpoint now => [(caches.checkFlapping endpoint now).1]
  | prune _ => []

/-- The time of the event that the call records for an endpoint. -/
def recordedFor (endpoint : String) : FlappingCall → Option ℤ
  | check other now => if other = endpoint then some now else none
  | prune _ => none

/-- The caches after a list of calls. -/
def performAll (calls : List FlappingCall) : Caches := calls.foldl perform Caches.empty

/-- The answers of a list of calls from given caches. -/
def answers : Caches → List FlappingCall → List Bool
  | _, [] => []
  | caches, call :: calls => call.answer caches ++ answers (call.perform caches) calls

/-- The times of the events of an endpoint. -/
def recorded (endpoint : String) (calls : List FlappingCall) : List ℤ :=
  calls.filterMap (recordedFor endpoint)

/-- The event times do not decrease, and no pruning is later than the next event. -/
def InOrder (calls : List FlappingCall) : Prop :=
  calls.Pairwise fun earlier later ↦ later.isCheck → earlier.time ≤ later.time

instance : DecidablePred InOrder := fun calls ↦
  inferInstanceAs (Decidable (calls.Pairwise fun earlier later ↦
    later.isCheck → earlier.time ≤ later.time))

variable {calls : List FlappingCall} {call : FlappingCall} {endpoint : String} {now : ℤ}

theorem performAll_concat (calls : List FlappingCall) (call : FlappingCall) :
    performAll (calls ++ [call]) = call.perform (performAll calls) := by
  rw [performAll, List.foldl_concat]
  rfl

theorem answers_concat (caches : Caches) (calls : List FlappingCall) (call : FlappingCall) :
    answers caches (calls ++ [call]) =
      answers caches calls ++ call.answer (calls.foldl perform caches) := by
  induction calls generalizing caches with
  | nil => simp [answers]
  | cons first rest ih => simp [answers, ih]

theorem recorded_concat (endpoint : String) (calls : List FlappingCall) (call : FlappingCall) :
    recorded endpoint (calls ++ [call]) =
      recorded endpoint calls ++ (call.recordedFor endpoint).toList := by
  rw [recorded, List.filterMap_append]
  cases hrecorded : call.recordedFor endpoint <;> simp [recorded, hrecorded]

/-- Only events are recorded. -/
theorem recorded_filter_isCheck (endpoint : String) (calls : List FlappingCall) :
    recorded endpoint (calls.filter isCheck) = recorded endpoint calls := by
  rw [recorded, List.filterMap_filter, recorded]
  congr 1
  funext call
  cases call <;> rfl

theorem time_le_of_mem_recorded {time : ℤ} (hmem : time ∈ recorded endpoint calls)
    {bound : ℤ} (hbound : ∀ call ∈ calls, call.time ≤ bound) : time ≤ bound := by
  obtain ⟨call, hcall, htime⟩ := List.mem_filterMap.mp hmem
  cases call with
  | check other now =>
    obtain rfl := Option.some.inj (Option.ite_none_right_eq_some.mp htime).2
    exact hbound _ hcall
  | prune now => cases htime

/-! ### Windows -/

/-- The transitions of an endpoint that the dispatcher has. -/
def window (caches : Caches) (endpoint : String) : List ℤ :=
  (caches.flappingTracker.get? endpoint).getD []

theorem get?_pruneEndpoint (now : ℤ) (tracker : Dict String (List ℤ)) (entry : String × List ℤ)
    (endpoint : String) :
    (Caches.pruneEndpoint now tracker entry).get? endpoint =
      if endpoint = entry.1 then
        let active := entry.2.filter fun time ↦ now - minutes 10 ≤ time
        if active = [] then none else some active
      else tracker.get? endpoint := by
  simp only [Caches.pruneEndpoint]
  split
  · rw [Dict.get?_erase]
  · rw [Dict.get?_set]

/-- Pruning drops what is older than ten minutes, for every endpoint. -/
theorem window_pruneMemoryCaches (now : ℤ) (caches : Caches) (endpoint : String) :
    window (caches.pruneMemoryCaches now) endpoint =
      (window caches endpoint).filter fun time ↦ now - minutes 10 ≤ time := by
  rw [window, Caches.pruneMemoryCaches]
  dsimp only
  rw [Dict.get?_foldl_entries (Caches.pruneEndpoint now)
    (fun _ entry _ ↦ let active := entry.filter fun time ↦ now - minutes 10 ≤ time
      if active = [] then none else some active)
    (fun tracker entry key ↦ get?_pruneEndpoint now tracker entry key), window]
  cases caches.flappingTracker.get? endpoint with
  | none => rfl
  | some times =>
    show (if _ then _ else _ : Option (List ℤ)).getD [] = _
    split
    · rename_i hempty
      exact hempty.symm
    · rfl

/-- A check drops what is older than ten minutes, for its endpoint. -/
theorem window_checkFlapping (caches : Caches) (endpoint : String) (now : ℤ) (other : String) :
    window (caches.checkFlapping endpoint now).2 other =
      if other = endpoint then
        (window caches endpoint ++ [now]).filter fun time ↦ now - minutes 10 ≤ time
      else window caches other := by
  rw [window, Caches.checkFlapping]
  dsimp only
  rw [Dict.get?_set]
  split <;> rfl

theorem fst_checkFlapping (caches : Caches) (endpoint : String) (now : ℤ) :
    (caches.checkFlapping endpoint now).1 = true ↔
      4 ≤ ((window caches endpoint ++ [now]).filter fun time ↦ now - minutes 10 ≤ time).length :=
  decide_eq_true_iff

/-- A later cutoff does not see what an earlier one dropped. -/
theorem filter_filter_cutoff {earlier later : ℤ} (hle : earlier ≤ later) (times : List ℤ) :
    (times.filter fun time ↦ earlier ≤ time).filter (fun time ↦ later ≤ time) =
      times.filter fun time ↦ later ≤ time := by
  rw [List.filter_filter]
  refine List.filter_congr fun time _ ↦ ?_
  rw [← Bool.decide_and]
  exact decide_eq_decide.mpr ⟨And.left, fun hlater ↦ ⟨hlater, hle.trans hlater⟩⟩

/-- Behind the cutoffs of all calls so far, the dispatcher has the whole history. -/
theorem filter_window_performAll (calls : List FlappingCall) (endpoint : String) {cutoff : ℤ}
    (hcutoff : ∀ call ∈ calls, call.time - minutes 10 ≤ cutoff) :
    (window (performAll calls) endpoint).filter (fun time ↦ cutoff ≤ time) =
      (recorded endpoint calls).filter fun time ↦ cutoff ≤ time := by
  induction calls using List.reverseRecOn with
  | nil => rfl
  | append_singleton calls call ih =>
    have hlast := hcutoff call List.mem_concat_self
    have hcalls := ih fun other hother ↦ hcutoff other (List.mem_append_left _ hother)
    rw [performAll_concat, recorded_concat, List.filter_append, ← hcalls]
    cases call with
    | prune now =>
      rw [time] at hlast
      rw [perform, window_pruneMemoryCaches, filter_filter_cutoff hlast]
      exact (List.append_nil _).symm
    | check other now =>
      rw [time] at hlast
      rw [perform, window_checkFlapping]
      by_cases hother : endpoint = other
      · rw [if_pos hother, filter_filter_cutoff hlast, List.filter_append, recordedFor,
          if_pos hother.symm, hother]
        rfl
      · rw [if_neg hother, recordedFor, if_neg (Ne.symm hother)]
        exact (List.append_nil _).symm

/-! ### The answers -/

/-- The answer of a check is the one for the whole history. -/
theorem fst_checkFlapping_performAll (hcalls : ∀ call ∈ calls, call.time ≤ now) :
    ((performAll calls).checkFlapping endpoint now).1 = true ↔
      4 ≤ ((recorded endpoint calls ++ [now]).filter fun time ↦
        now - minutes 10 ≤ time).length := by
  rw [fst_checkFlapping, List.filter_append, List.filter_append,
    filter_window_performAll calls endpoint fun call hcall ↦
      Int.sub_le_sub_right (hcalls call hcall) _]

theorem InOrder.time_le (hordered : InOrder (calls ++ [.check endpoint now])) :
    ∀ call ∈ calls, call.time ≤ now := fun call hcall ↦
  (List.pairwise_append.mp hordered).2.2 call hcall _ (List.mem_singleton_self _) rfl

/-- The answers do not depend on the pruning. -/
theorem answers_filter_isCheck (hordered : InOrder calls) :
    answers Caches.empty (calls.filter isCheck) = answers Caches.empty calls := by
  induction calls using List.reverseRecOn with
  | nil => rfl
  | append_singleton calls call ih =>
    have hcalls := ih (List.pairwise_append.mp hordered).1
    rw [List.filter_append, answers_concat]
    cases call with
    | prune now =>
      rw [List.filter_singleton, answer, List.append_nil, ← hcalls]
      exact congrArg (answers Caches.empty) (List.append_nil _)
    | check endpoint now =>
      have htimes := hordered.time_le
      rw [List.filter_singleton, isCheck, cond_true, answers_concat, hcalls, answer, answer]
      have hanswer : ((performAll (calls.filter isCheck)).checkFlapping endpoint now).1 =
          ((performAll calls).checkFlapping endpoint now).1 := by
        rw [Bool.eq_iff_iff, fst_checkFlapping_performAll htimes,
          fst_checkFlapping_performAll fun call hcall ↦ htimes call (List.mem_of_mem_filter hcall),
          recorded_filter_isCheck]
      exact congrArg (fun found ↦ answers Caches.empty calls ++ [found]) hanswer

/-- Flapping is four events of the endpoint within the ten minutes before an event, and the pruning
does not change an answer. -/
theorem flapping_exact (calls : List FlappingCall) (hordered : InOrder calls) :
    (∀ before endpoint now after, calls = before ++ .check endpoint now :: after →
      (((performAll before).checkFlapping endpoint now).1 = true ↔
        4 ≤ (recorded endpoint (before ++ [.check endpoint now])).countP fun time ↦
          now - minutes 10 ≤ time ∧ time ≤ now)) ∧
      answers Caches.empty calls = answers Caches.empty (calls.filter isCheck) := by
  refine ⟨fun before endpoint now after hsplit ↦ ?_, (answers_filter_isCheck hordered).symm⟩
  rw [hsplit, List.append_cons] at hordered
  have htimes := InOrder.time_le (List.pairwise_append.mp hordered).1
  have hlater : ∀ time ∈ recorded endpoint before ++ [now], time ≤ now := by
    intro time htime
    rcases List.mem_append.mp htime with hbefore | hnow
    · exact time_le_of_mem_recorded hbefore htimes
    · exact (List.mem_singleton.mp hnow).le
  have hrecorded : recorded endpoint (before ++ [.check endpoint now]) =
      recorded endpoint before ++ [now] := by
    rw [recorded_concat, recordedFor, if_pos rfl]
    rfl
  rw [fst_checkFlapping_performAll htimes, hrecorded, List.countP_eq_length_filter]
  refine iff_of_eq (congrArg (4 ≤ List.length ·) (List.filter_congr fun time htime ↦ ?_))
  exact decide_eq_decide.mpr ⟨fun hcutoff ↦ ⟨hcutoff, hlater time htime⟩, And.left⟩

/-- Four events of one endpoint, the first exactly ten minutes before the last, with events of
another endpoint and two prunings between them. -/
def flappingSample : List FlappingCall :=
  [.check "a" 0, .check "b" (minutes 1), .prune (minutes 5), .check "a" (minutes 6),
    .check "a" (minutes 7), .prune (minutes 10), .check "a" (minutes 10)]

theorem flapping_exact_flappingSample :
    (∀ before endpoint now after, flappingSample = before ++ .check endpoint now :: after →
      (((performAll before).checkFlapping endpoint now).1 = true ↔
        4 ≤ (recorded endpoint (before ++ [.check endpoint now])).countP fun time ↦
          now - minutes 10 ≤ time ∧ time ≤ now)) ∧
      answers Caches.empty flappingSample =
        answers Caches.empty (flappingSample.filter isCheck) :=
  flapping_exact flappingSample (by decide)

example : answers Caches.empty flappingSample = [false, false, false, false, true] := by decide

end FlappingCall

end Lnmp.Alerts
