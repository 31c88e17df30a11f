import Mathlib.Algebra.BigOperators.Ring.Finset

/-!
# Lists of finite sets

A list of finite sets covers the points of its sets, and may cover a point more than once. The sizes
of the sets add up to the size of their union when no point is covered twice
(`card_union_of_pairwise`), which is the case exactly when the sets are disjoint
(`countP_mem_le_one_iff`).
-/

set_option autoImplicit false
set_option relaxedAutoImplicit false

namespace Lnmp.Foundation.Cover

variable {Point : Type*} [DecidableEq Point] {part : Finset Point} {parts : List (Finset Point)}

/-- The points that are covered. -/
def union (parts : List (Finset Point)) : Finset Point := parts.foldr (· ∪ ·) ∅

@[simp] theorem union_nil : union ([] : List (Finset Point)) = ∅ := rfl

@[simp] theorem union_cons : union (part :: parts) = part ∪ union parts := rfl

theorem mem_union {point : Point} : point ∈ union parts ↔ ∃ part ∈ parts, point ∈ part := by
  induction parts with
  | nil => simp
  | cons part parts ih => simp [ih]

/-- A set that is disjoint from every other is disjoint from their union. -/
theorem disjoint_union_iff :
    Disjoint part (union parts) ↔ ∀ other ∈ parts, Disjoint part other := by
  simp only [Finset.disjoint_left, mem_union, not_exists, not_and]
  constructor
  · intro hunion other hother point hpoint
    exact hunion hpoint other hother
  · intro hparts point hpoint other hother
    exact hparts other hother hpoint

/-- The sizes of disjoint sets add up. -/
theorem card_union_of_pairwise (hdisjoint : parts.Pairwise Disjoint) :
    (union parts).card = (parts.map Finset.card).sum := by
  induction parts with
  | nil => rfl
  | cons part parts ih =>
    obtain ⟨hpart, hparts⟩ := List.pairwise_cons.mp hdisjoint
    rw [union_cons, Finset.card_union_of_disjoint (disjoint_union_iff.mpr hpart), ih hparts,
      List.map_cons, List.sum_cons]

/-- How often a point is covered. -/
theorem countP_mem_cons (point : Point) :
    (part :: parts).countP (point ∈ ·) =
      parts.countP (point ∈ ·) + if point ∈ part then 1 else 0 := by
  rw [List.countP_cons]
  simp

/-- No point is covered twice exactly when the sets are disjoint. -/
theorem countP_mem_le_one_iff :
    (∀ point, parts.countP (point ∈ ·) ≤ 1) ↔ parts.Pairwise Disjoint := by
  induction parts with
  | nil => simp
  | cons part parts ih =>
    simp only [countP_mem_cons]
    rw [List.pairwise_cons, ← ih]
    constructor
    · intro hcount
      refine ⟨fun other hother ↦ Finset.disjoint_left.mpr fun point hpart hmem ↦ ?_,
        fun point ↦ (Nat.le_add_right _ _).trans (hcount point)⟩
      have htwice : 0 < parts.countP (point ∈ ·) :=
        List.countP_pos_iff.mpr ⟨other, hother, decide_eq_true hmem⟩
      have hbound := hcount point
      rw [if_pos hpart] at hbound
      omega
    · rintro ⟨hdisjoint, hcount⟩ point
      by_cases hpart : point ∈ part
      · have hnone : parts.countP (point ∈ ·) = 0 := by
          refine List.countP_eq_zero.mpr fun other hother hmem ↦ ?_
          exact Finset.disjoint_left.mp (hdisjoint other hother) hpart (of_decide_eq_true hmem)
        rw [hnone, if_pos hpart]
      · rw [if_neg hpart]
        exact hcount point

end Lnmp.Foundation.Cover
