import Mathlib.Data.List.DropRight
import Mathlib.Data.List.Nodup
import Mathlib.Tactic.Common

/-!
# Queues of bounded length

A queue keeps the last items that were pushed, up to its capacity. `push` drops the oldest items
when there are too many, so that a queue with the last items of all that were pushed keeps having
them (`push_rtake`). `pushNew` does nothing with an item that the queue holds, so that such a queue
holds the last of the items that it did not hold when they came (`foldl_pushNew`).

When every item comes twice in a row, a queue that takes duplicates holds half as many different
items (`mem_rtake_twice`), and one that does not holds as many as before (`misses_twice`).
-/

set_option autoImplicit false
set_option relaxedAutoImplicit false

namespace Lnmp.Foundation.BoundedQueue

variable {Item : Type*} {capacity : ℕ} {items : List Item} {item : Item}

theorem rtake_eq_self (hlength : items.length ≤ capacity) : items.rtake capacity = items := by
  rw [List.rtake, Nat.sub_eq_zero_of_le hlength, List.drop_zero]

theorem length_rtake (items : List Item) (capacity : ℕ) :
    (items.rtake capacity).length = min capacity items.length := by
  rw [List.rtake, List.length_drop]
  omega

theorem rtake_sublist (items : List Item) (capacity : ℕ) :
    (items.rtake capacity).Sublist items :=
  List.drop_sublist ..

/-- Of the last items the last ones are taken. -/
theorem rtake_rtake_of_le {smaller : ℕ} (hle : smaller ≤ capacity) :
    (items.rtake capacity).rtake smaller = items.rtake smaller := by
  rw [List.rtake_eq_reverse_take_reverse, List.rtake_eq_reverse_take_reverse,
    List.rtake_eq_reverse_take_reverse, List.reverse_reverse, List.take_take, min_eq_left hle]

/-- Dropping what is among the first items leaves the others. -/
theorem filter_notMem_take {Key : Type*} [DecidableEq Key] (key : Item → Key)
    (hnodup : (items.map key).Nodup) (count : ℕ) :
    items.filter (fun item ↦ key item ∉ (items.map key).take count) = items.drop count := by
  induction items generalizing count with
  | nil => simp
  | cons first rest ih =>
    obtain ⟨hfirst, hrest⟩ := List.nodup_cons.mp hnodup
    cases count with
    | zero => simp
    | succ count =>
      have hsame : rest.filter (fun item ↦ key item ∉ ((first :: rest).map key).take (count + 1)) =
          rest.filter (fun item ↦ key item ∉ (rest.map key).take count) := by
        refine List.filter_congr fun item hitem ↦ ?_
        have hne : key item ≠ key first := fun hsame ↦
          hfirst (List.mem_map.mpr ⟨item, hitem, hsame⟩)
        simp [hne]
      rw [List.filter_cons_of_neg (by simp), hsame, ih hrest, List.drop_succ_cons]

/-- Dropping what is behind the first items leaves these. -/
theorem filter_notMem_drop [DecidableEq Item] (hnodup : items.Nodup) (count : ℕ) :
    items.filter (· ∉ items.drop count) = items.take count := by
  have hfirst : (items.take count).filter (· ∉ items.drop count) = items.take count := by
    refine List.filter_eq_self.mpr fun item hitem ↦ decide_eq_true fun hlater ↦ ?_
    exact List.disjoint_take_drop hnodup le_rfl hitem hlater
  have hlast : (items.drop count).filter (· ∉ items.drop count) = [] := by
    refine List.filter_eq_nil_iff.mpr fun item hitem hkept ↦ ?_
    exact of_decide_eq_true hkept hitem
  calc items.filter (· ∉ items.drop count)
      = (items.take count ++ items.drop count).filter (· ∉ items.drop count) := by
        rw [List.take_append_drop]
    _ = items.take count := by rw [List.filter_append, hfirst, hlast, List.append_nil]

/-- Append an item, and drop the oldest items beyond the capacity. -/
def push (capacity : ℕ) (queue : List Item) (item : Item) : List Item :=
  (queue ++ [item]).rtake capacity

/-- What was dropped before is dropped afterwards. -/
theorem push_rtake :
    push capacity (items.rtake capacity) item = (items ++ [item]).rtake capacity := by
  cases capacity with
  | zero => simp [push]
  | succ capacity =>
    rw [push, List.rtake_concat_succ, List.rtake_concat_succ, rtake_rtake_of_le (Nat.le_succ _)]

/-! ### Queues without duplicates -/

section New

variable [DecidableEq Item]

/-- Push an item that the queue does not hold. -/
def pushNew (capacity : ℕ) (queue : List Item) (item : Item) : List Item :=
  if item ∈ queue then queue else push capacity queue item

/-- The items that the queue did not hold when they came. -/
def misses (capacity : ℕ) (items : List Item) : List Item :=
  items.foldl (fun missed item ↦
    if item ∈ missed.rtake capacity then missed else missed ++ [item]) []

theorem misses_concat (items : List Item) (item : Item) :
    misses capacity (items ++ [item]) =
      if item ∈ (misses capacity items).rtake capacity then misses capacity items
      else misses capacity items ++ [item] := by
  rw [misses, List.foldl_concat]
  rfl

/-- A queue without duplicates holds the last items of those that it did not hold when they came. -/
theorem foldl_pushNew (items : List Item) :
    items.foldl (pushNew capacity) [] = (misses capacity items).rtake capacity := by
  induction items using List.reverseRecOn with
  | nil => simp [misses]
  | append_singleton items item ih =>
    rw [List.foldl_concat, ih, pushNew, misses_concat]
    split
    · rfl
    · exact push_rtake

end New

/-! ### Items that come twice -/

/-- Every item twice in a row. -/
def twice (items : List Item) : List Item := items.flatMap fun item ↦ [item, item]

theorem twice_concat (items : List Item) (item : Item) :
    twice (items ++ [item]) = twice items ++ [item] ++ [item] := by
  simp [twice]

/-- Of items that come twice, a queue holds half as many. -/
theorem mem_rtake_twice (items : List Item) (capacity : ℕ) :
    item ∈ (twice items).rtake capacity ↔ item ∈ items.rtake ((capacity + 1) / 2) := by
  induction items using List.reverseRecOn generalizing capacity with
  | nil => simp [twice]
  | append_singleton items last ih =>
    match capacity with
    | 0 => simp
    | 1 =>
      have hleft : (twice (items ++ [last])).rtake 1 = [last] := by
        rw [twice_concat]
        exact (List.rtake_concat_succ _ 0 last).trans (by simp)
      have hright : (items ++ [last]).rtake ((1 + 1) / 2) = [last] :=
        (List.rtake_concat_succ _ 0 last).trans (by simp)
      rw [hleft, hright]
    | capacity + 2 =>
      have hhalf : (capacity + 2 + 1) / 2 = (capacity + 1) / 2 + 1 := by omega
      rw [twice_concat, List.rtake_concat_succ, List.rtake_concat_succ, hhalf,
        List.rtake_concat_succ, List.mem_append, List.mem_append, List.mem_append, ih, or_assoc,
        or_self]

/-- Of different items that come twice, a queue without duplicates misses each one once. -/
theorem misses_twice [DecidableEq Item] (hcapacity : 0 < capacity) (hitems : items.Nodup) :
    misses capacity (twice items) = items := by
  induction items using List.reverseRecOn with
  | nil => rfl
  | append_singleton items item ih =>
    obtain ⟨hrest, -, hfresh⟩ := List.nodup_append.mp hitems
    have hnew : item ∉ items := fun hmem ↦ hfresh item hmem item (List.mem_singleton_self _) rfl
    have hlast : item ∈ (items ++ [item]).rtake capacity := by
      obtain ⟨smaller, rfl⟩ := Nat.exists_eq_succ_of_ne_zero hcapacity.ne'
      rw [List.rtake_concat_succ]
      exact List.mem_append_right _ (List.mem_singleton_self _)
    rw [twice_concat, misses_concat, misses_concat, ih hrest,
      if_neg fun hmem ↦ hnew ((rtake_sublist _ _).subset hmem), if_pos hlast]

/-- Half a queue holds the same items as a whole one exactly when there are few items, or the half
is the whole. -/
theorem mem_rtake_half_iff (hitems : items.Nodup) :
    (∀ item, item ∈ items.rtake ((capacity + 1) / 2) ↔ item ∈ items.rtake capacity) ↔
      min items.length capacity ≤ (capacity + 1) / 2 := by
  constructor
  · intro hsame
    have hperm := (List.perm_ext_iff_of_nodup (hitems.sublist (rtake_sublist _ _))
      (hitems.sublist (rtake_sublist _ _))).mpr hsame
    have hlength := hperm.length_eq
    rw [length_rtake, length_rtake] at hlength
    omega
  · intro hfew item
    rcases le_total items.length capacity with hle | hle
    · rw [rtake_eq_self hle, rtake_eq_self (by omega)]
    · rw [show (capacity + 1) / 2 = capacity by omega]

end Lnmp.Foundation.BoundedQueue
