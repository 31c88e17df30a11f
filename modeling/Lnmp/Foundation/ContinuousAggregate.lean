import Mathlib.Data.List.Induction
import Mathlib.Data.List.Nodup

/-!
# Aggregates that are refreshed

A continuous aggregate has the rows of a query for the buckets of a table. A refresh replaces the
rows of the buckets in its window by those that the query has at that time, and leaves the others as
they are.

`mem_materialized_iff` says what the aggregate has after any run of writes and refreshes: for each
bucket the rows of the query over the table as it was at the last refresh that covered the bucket
(`Shown`).
-/

set_option autoImplicit false
set_option relaxedAutoImplicit false

namespace Lnmp.Foundation.ContinuousAggregate

/-- What happens to the table and to the aggregate. -/
inductive Step (Table Window : Type*)
  | write (table : Table)
  | refresh (window : Window)

/-- The table and the rows of the aggregate. -/
structure Aggregate (Table Row : Type*) where
  table : Table
  materialized : List Row

/-- The table and, for each bucket, the table that the aggregate shows there. -/
structure Shown (Table Bucket : Type*) where
  table : Table
  shown : Bucket → Table

variable {Table Row Bucket Window Key : Type*}

/-- The table that a step writes. -/
def Step.written? : Step Table Window → Option Table
  | .write table => some table
  | .refresh _ => none

/-- A step of the aggregate. -/
def Aggregate.next (query : Table → List Row) (bucket : Row → Bucket)
    (covers : Window → Bucket → Bool) (aggregate : Aggregate Table Row) :
    Step Table Window → Aggregate Table Row
  | .write table => { aggregate with table := table }
  | .refresh window =>
    { aggregate with
      materialized :=
        (aggregate.materialized.filter fun row ↦ !covers window (bucket row)) ++
          (query aggregate.table).filter fun row ↦ covers window (bucket row) }

/-- A step of what is shown. -/
def Shown.next (covers : Window → Bucket → Bool) (state : Shown Table Bucket) :
    Step Table Window → Shown Table Bucket
  | .write table => { state with table := table }
  | .refresh window =>
    { state with
      shown := fun bucket ↦ if covers window bucket then state.table else state.shown bucket }

/-- The aggregate after some steps. It is empty at first. -/
def aggregateOf (query : Table → List Row) (bucket : Row → Bucket)
    (covers : Window → Bucket → Bool) (empty : Table) (steps : List (Step Table Window)) :
    Aggregate Table Row :=
  steps.foldl (Aggregate.next query bucket covers) ⟨empty, []⟩

/-- What is shown after some steps. -/
def shownOf (covers : Window → Bucket → Bool) (empty : Table) (steps : List (Step Table Window)) :
    Shown Table Bucket :=
  steps.foldl (Shown.next covers) ⟨empty, fun _ ↦ empty⟩

/-- The aggregate has the rows of the tables that are shown. -/
structure Refines (query : Table → List Row) (bucket : Row → Bucket)
    (aggregate : Aggregate Table Row) (state : Shown Table Bucket) : Prop where
  table_eq : aggregate.table = state.table
  mem_iff : ∀ row, row ∈ aggregate.materialized ↔ row ∈ query (state.shown (bucket row))

variable {query : Table → List Row} {bucket : Row → Bucket} {covers : Window → Bucket → Bool}
  {empty : Table}

theorem Refines.next {aggregate : Aggregate Table Row} {state : Shown Table Bucket}
    (hrefines : Refines query bucket aggregate state) (step : Step Table Window) :
    Refines query bucket (aggregate.next query bucket covers step) (state.next covers step) := by
  cases step with
  | write table => exact ⟨rfl, hrefines.mem_iff⟩
  | refresh window =>
    refine ⟨hrefines.table_eq, fun row ↦ ?_⟩
    rw [Aggregate.next, Shown.next, List.mem_append, List.mem_filter, List.mem_filter,
      hrefines.mem_iff, hrefines.table_eq]
    show _ ↔ row ∈ query (if covers window (bucket row) then state.table
      else state.shown (bucket row))
    cases hcovers : covers window (bucket row) <;> simp

theorem shownOf_concat (steps : List (Step Table Window)) (step : Step Table Window) :
    shownOf covers empty (steps ++ [step]) =
      Shown.next covers (shownOf covers empty steps : Shown Table Bucket) step :=
  List.foldl_concat ..

theorem aggregateOf_concat (steps : List (Step Table Window)) (step : Step Table Window) :
    aggregateOf query bucket covers empty (steps ++ [step]) =
      (aggregateOf query bucket covers empty steps).next query bucket covers step :=
  List.foldl_concat ..

/-- After any steps the aggregate has, for each bucket, the rows of the table that is shown. -/
theorem refines_of_steps (hempty : query empty = []) (steps : List (Step Table Window)) :
    Refines query bucket (aggregateOf query bucket covers empty steps)
      (shownOf covers empty steps) := by
  induction steps using List.reverseRecOn with
  | nil =>
    exact ⟨rfl, fun row ↦ by rw [aggregateOf, shownOf, List.foldl_nil, List.foldl_nil, hempty]⟩
  | append_singleton steps step ih =>
    rw [aggregateOf_concat, shownOf_concat]
    exact ih.next step

/-- What is shown was written, but for the table at the start. -/
theorem shown_eq_or_mem (steps : List (Step Table Window)) :
    ((shownOf covers empty steps : Shown Table Bucket).table = empty ∨
        (shownOf covers empty steps : Shown Table Bucket).table ∈ steps.filterMap Step.written?) ∧
      ∀ bucket, (shownOf covers empty steps).shown bucket = empty ∨
        (shownOf covers empty steps).shown bucket ∈ steps.filterMap Step.written? := by
  induction steps using List.reverseRecOn with
  | nil => exact ⟨Or.inl rfl, fun _ ↦ Or.inl rfl⟩
  | append_singleton steps step ih =>
    rw [shownOf_concat, List.filterMap_append]
    obtain ⟨htable, hshown⟩ := ih
    cases step with
    | write table =>
      exact ⟨Or.inr (List.mem_append_right _ (List.mem_singleton_self table)),
        fun bucket ↦ (hshown bucket).imp_right (List.mem_append_left _)⟩
    | refresh window =>
      refine ⟨htable.imp_right (List.mem_append_left _), fun bucket ↦ ?_⟩
      rw [Shown.next]
      dsimp only
      split
      · exact htable.imp_right (List.mem_append_left _)
      · exact (hshown bucket).imp_right (List.mem_append_left _)

theorem mem_materialized_iff (hempty : query empty = []) (steps : List (Step Table Window))
    (row : Row) : row ∈ (aggregateOf query bucket covers empty steps).materialized ↔
      row ∈ query ((shownOf covers empty steps).shown (bucket row)) :=
  (refines_of_steps hempty steps).mem_iff row

/-- The aggregate has a key at most once, when the query does. -/
theorem nodup_materialized {key : Row → Key} (bucketOf : Key → Bucket)
    (hbucket : ∀ row, bucketOf (key row) = bucket row)
    (hnodup : ∀ table, ((query table).map key).Nodup) (steps : List (Step Table Window)) :
    ((aggregateOf query bucket covers empty steps).materialized.map key).Nodup := by
  have hnext : ∀ (aggregate : Aggregate Table Row) (step : Step Table Window),
      (aggregate.materialized.map key).Nodup →
        ((aggregate.next query bucket covers step).materialized.map key).Nodup := by
    intro aggregate step hkeys
    cases step with
    | write table => exact hkeys
    | refresh window =>
      rw [Aggregate.next, List.map_append]
      refine List.Nodup.append (hkeys.sublist (List.filter_sublist.map key))
        ((hnodup aggregate.table).sublist (List.filter_sublist.map key)) ?_
      -- the buckets in the window have no old rows
      intro shared hold hnew
      obtain ⟨old, hmemOld, rfl⟩ := List.mem_map.mp hold
      obtain ⟨new, hmemNew, hsame⟩ := List.mem_map.mp hnew
      have hout := (List.mem_filter.mp hmemOld).2
      have hin := (List.mem_filter.mp hmemNew).2
      rw [← hbucket, ← hsame, hbucket, hin] at hout
      exact absurd hout Bool.false_ne_true
  induction steps using List.reverseRecOn with
  | nil => exact List.nodup_nil
  | append_singleton steps step ih =>
    rw [aggregateOf_concat]
    exact hnext _ step ih

/-- The rows of a bucket are those of the query over the table that is shown there. -/
theorem perm_filter_materialized [DecidableEq Bucket] {key : Row → Key} (bucketOf : Key → Bucket)
    (hbucket : ∀ row, bucketOf (key row) = bucket row)
    (hnodup : ∀ table, ((query table).map key).Nodup) (hempty : query empty = [])
    (steps : List (Step Table Window)) (found : Bucket) :
    ((aggregateOf query bucket covers empty steps).materialized.filter (bucket · = found)).Perm
      ((query ((shownOf covers empty steps).shown found)).filter (bucket · = found)) := by
  refine (List.perm_ext_iff_of_nodup ?_ ?_).mpr fun row ↦ ?_
  · exact (List.Nodup.of_map _ (nodup_materialized bucketOf hbucket hnodup steps)).filter _
  · exact (List.Nodup.of_map _ (hnodup _)).filter _
  · rw [List.mem_filter, List.mem_filter, decide_eq_true_eq, mem_materialized_iff hempty]
    exact and_congr_left fun hfound ↦ hfound ▸ Iff.rfl

end Lnmp.Foundation.ContinuousAggregate
