import Mathlib.Order.CompletePartialOrder
import Mathlib.Order.Interval.Finset.Basic
import Mathlib.Order.Interval.Set.Disjoint

/-!
# Half-open spans of time

A span has a start, and a finish once it is closed. Its instants are those from the start on and
before the finish. A closed span that finishes by the start of another precedes it, and the two
have no instant in common (`Precedes.disjoint`).

A log of spans changes by revisions: one is started, or open ones are closed at one time.
`Revises` says what a revision does to one span. It takes instants away from a span, and only those
from the closing time on; a span that precedes another still does.
-/

set_option autoImplicit false
set_option relaxedAutoImplicit false

namespace Lnmp.Foundation

/-- A stretch of time from a start on, up to a finish unless it is still open. -/
structure Span (Time : Type*) where
  start : Time
  finish : Option Time

namespace Span

variable {Time : Type*} [LinearOrder Time] {first second third span revised : Span Time}
  {closing instant : Time}

/-- The instants of a span. -/
def instants (span : Span Time) : Set Time :=
  match span.finish with
  | none => Set.Ici span.start
  | some finish => Set.Ico span.start finish

theorem instants_of_open (hopen : span.finish = none) : span.instants = Set.Ici span.start := by
  rw [instants, hopen]

theorem instants_of_closed {finish : Time} (hclosed : span.finish = some finish) :
    span.instants = Set.Ico span.start finish := by
  rw [instants, hclosed]

theorem mem_instants_iff : instant ∈ span.instants ↔
    span.start ≤ instant ∧ ∀ finish, span.finish = some finish → instant < finish := by
  cases hfinish : span.finish with
  | none => simp [instants_of_open hfinish]
  | some finish => simp [instants_of_closed hfinish]

/-- A span that finishes no later than an instant does not contain it. -/
theorem notMem_instants_of_finish_le {finish : Time} (hclosed : span.finish = some finish)
    (hle : finish ≤ instant) : instant ∉ span.instants := fun hmem ↦
  absurd ((mem_instants_iff.mp hmem).2 finish hclosed) (not_lt.mpr hle)

/-- The instants of a span from one instant on and before another one. -/
def instantsWithin [LocallyFiniteOrder Time] (lower upper : Time) (span : Span Time) :
    Finset Time :=
  Finset.Ico (max span.start lower) (min (span.finish.getD upper) upper)

theorem mem_instantsWithin_iff [LocallyFiniteOrder Time] {lower upper : Time} :
    instant ∈ span.instantsWithin lower upper ↔
      (lower ≤ instant ∧ instant < upper) ∧ instant ∈ span.instants := by
  rw [instantsWithin, Finset.mem_Ico, max_le_iff, lt_min_iff, mem_instants_iff]
  cases hfinish : span.finish with
  | none =>
    simp only [Option.getD_none, reduceCtorEq, false_implies, implies_true, and_true, and_self]
    rw [and_assoc, and_comm]
  | some finish =>
    simp only [Option.getD_some, Option.some.injEq, forall_eq']
    constructor
    · rintro ⟨⟨hstart, hlower⟩, hbefore, hupper⟩
      exact ⟨⟨hlower, hupper⟩, hstart, hbefore⟩
    · rintro ⟨⟨hlower, hupper⟩, hstart, hbefore⟩
      exact ⟨⟨hstart, hlower⟩, hbefore, hupper⟩

/-- The first span starts before the second and finishes no later than the second starts. -/
structure Precedes (first second : Span Time) : Prop where
  starts : first.start < second.start
  finishes : ∃ finish, first.finish = some finish ∧ finish ≤ second.start

theorem Precedes.disjoint (hprecedes : first.Precedes second) :
    Disjoint first.instants second.instants := by
  obtain ⟨finish, hfinish, hle⟩ := hprecedes.finishes
  rw [Set.disjoint_left]
  intro instant hfirst hsecond
  have hstart := (mem_instants_iff.mp hsecond).1
  exact notMem_instants_of_finish_le hfinish (hle.trans hstart) hfirst

/-! ### Revisions -/

/-- A revision of a span: it keeps the start, a closed span stays as it is, and an open one stays
open or is closed at the closing time. -/
structure Revises (closing : Time) (span revised : Span Time) : Prop where
  start : revised.start = span.start
  closed : ∀ finish, span.finish = some finish → revised.finish = some finish
  opened : span.finish = none → revised.finish = none ∨ revised.finish = some closing

omit [LinearOrder Time] in
theorem Revises.refl (closing : Time) (span : Span Time) : span.Revises closing span where
  start := rfl
  closed := fun _ hfinish ↦ hfinish
  opened := Or.inl

omit [LinearOrder Time] in
/-- The finish of a revised span is one that it had, or the closing time. -/
theorem Revises.finish_eq (hrevises : span.Revises closing revised) {finish : Time}
    (hfinish : revised.finish = some finish) :
    span.finish = some finish ∨ span.finish = none ∧ finish = closing := by
  cases hold : span.finish with
  | some old => exact Or.inl ((hrevises.closed old hold).symm.trans hfinish)
  | none =>
    rcases hrevises.opened hold with hopen | hclosed
    · exact absurd (hopen.symm.trans hfinish) (Option.some_ne_none _).symm
    · exact Or.inr ⟨rfl, Option.some.inj (hfinish.symm.trans hclosed)⟩

/-- A revision takes instants away. -/
theorem Revises.subset (hrevises : span.Revises closing revised) :
    revised.instants ⊆ span.instants := by
  intro instant hmem
  obtain ⟨hstart, hfinish⟩ := mem_instants_iff.mp hmem
  rw [hrevises.start] at hstart
  exact mem_instants_iff.mpr ⟨hstart, fun finish h ↦ hfinish finish (hrevises.closed finish h)⟩

/-- A revision takes away only instants from the closing time on. -/
theorem Revises.mem_instants (hrevises : span.Revises closing revised)
    (hmem : instant ∈ span.instants) (hbefore : instant < closing) :
    instant ∈ revised.instants := by
  obtain ⟨hstart, hfinish⟩ := mem_instants_iff.mp hmem
  refine mem_instants_iff.mpr ⟨hrevises.start.le.trans hstart, fun finish hrevised ↦ ?_⟩
  rcases hrevises.finish_eq hrevised with hold | ⟨-, rfl⟩
  · exact hfinish finish hold
  · exact hbefore

theorem Revises.precedes {firstRevised secondRevised : Span Time}
    (hfirst : first.Revises closing firstRevised)
    (hsecond : second.Revises closing secondRevised) (hprecedes : first.Precedes second) :
    firstRevised.Precedes secondRevised := by
  obtain ⟨hstarts, finish, hfinish, hle⟩ := hprecedes
  rw [← hfirst.start, ← hsecond.start] at hstarts
  exact ⟨hstarts, finish, hfirst.closed finish hfinish, hle.trans hsecond.start.ge⟩

end Span

end Lnmp.Foundation
