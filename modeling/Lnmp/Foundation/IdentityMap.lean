import Mathlib.Algebra.Order.BigOperators.Group.List
import Mathlib.Data.List.Nodup
import Mathlib.Tactic.Linarith

/-!
# Rows read as objects

A session has one object for a key. Rows with one key are all read as the first of them, so that
what is read depends on the order of the rows.

`forall_sum_map_loaded_eq_iff` says when a sum over the objects does not: when rows with one key
weigh the same. Rows that are alone with their keys are read as they are (`filter_loaded`).
-/

set_option autoImplicit false
set_option relaxedAutoImplicit false

namespace Lnmp.Foundation.IdentityMap

variable {Row Key : Type*} [DecidableEq Key] (key : Row → Key)

/-- The object for a row: the first of the rows with its key. -/
def objectOf (rows : List Row) (row : Row) : Row :=
  (rows.find? fun first ↦ key first = key row).getD row

/-- The objects for some rows. -/
def loaded (rows : List Row) : List Row := rows.map (objectOf key rows)

variable {key} {rows : List Row} {row first second : Row}

theorem key_objectOf (rows : List Row) (row : Row) : key (objectOf key rows row) = key row := by
  rw [objectOf]
  cases hfind : rows.find? fun first ↦ key first = key row with
  | none => rfl
  | some first => simpa using List.find?_some hfind

theorem objectOf_mem (hrow : row ∈ rows) : objectOf key rows row ∈ rows := by
  rw [objectOf]
  cases hfind : rows.find? fun first ↦ key first = key row with
  | none => exact hrow
  | some first => exact List.mem_of_find?_eq_some hfind

theorem objectOf_cons_of_eq (hkey : key first = key row) :
    objectOf key (first :: rows) row = first := by
  simp [objectOf, hkey]

theorem objectOf_cons_of_ne (hkey : key first ≠ key row) :
    objectOf key (first :: rows) row = objectOf key rows row := by
  simp [objectOf, hkey]

/-- A row that is alone with its key is its object. -/
theorem objectOf_eq_self (hrow : row ∈ rows)
    (halone : ∀ other ∈ rows, key other = key row → other = row) : objectOf key rows row = row :=
  halone _ (objectOf_mem hrow) (key_objectOf rows row)

/-- Rows with keys of their own are read as they are. -/
theorem loaded_eq_self (hapart : (rows.map key).Nodup) : loaded key rows = rows :=
  (List.map_congr_left fun _ hrow ↦ objectOf_eq_self hrow fun _ hother hkey ↦
    List.inj_on_of_nodup_map hapart hother hrow hkey).trans (List.map_id rows)

/-- Among the objects, the selected ones are the selected rows, when these are alone with their
keys. -/
theorem filter_map_objectOf {selects : Row → Bool} {among : List Row}
    (hsubset : ∀ row ∈ among, row ∈ rows)
    (halone : ∀ row ∈ rows, selects row = true → ∀ other ∈ rows, key other = key row →
      other = row) :
    (among.map (objectOf key rows)).filter selects = among.filter selects := by
  have hself : ∀ row ∈ among, selects row = true → objectOf key rows row = row :=
    fun row hrow hselects ↦ objectOf_eq_self (hsubset row hrow) (halone row (hsubset row hrow)
      hselects)
  have hsame : ∀ row ∈ among, (selects ∘ objectOf key rows) row = selects row := by
    intro row hrow
    have hrow := hsubset row hrow
    rw [Function.comp_apply]
    cases hselects : selects (objectOf key rows row) with
    | true =>
      have hobject := halone _ (objectOf_mem hrow) hselects row hrow (key_objectOf rows row).symm
      rw [hobject, hselects]
    | false =>
      refine (Bool.eq_false_iff.mpr fun hrowSelected ↦ ?_).symm
      rw [objectOf_eq_self hrow (halone row hrow hrowSelected), hrowSelected] at hselects
      exact absurd hselects.symm Bool.false_ne_true
  rw [List.filter_map, List.filter_congr hsame]
  refine (List.map_congr_left fun row hrow ↦ ?_).trans (List.map_id _)
  exact hself row (List.mem_of_mem_filter hrow) (List.mem_filter.mp hrow).2

/-! ### Sums over the objects -/

variable {weight : Row → ℤ}

/-- Rows with one key that weigh the same weigh as much as their objects. -/
theorem sum_map_loaded (halike : ∀ first ∈ rows, ∀ second ∈ rows, key first = key second →
    weight first = weight second) :
    ((loaded key rows).map weight).sum = (rows.map weight).sum := by
  rw [loaded, List.map_map]
  refine congrArg List.sum (List.map_congr_left fun row hrow ↦ ?_)
  exact halike _ (objectOf_mem hrow) row hrow (key_objectOf rows row)

/-- When the first of two rows with one key is the lighter one, the objects weigh less than when it
is the other one. -/
theorem sum_map_loaded_lt (hkey : key first = key second) (hlt : weight first < weight second)
    (rest : List Row) :
    ((loaded key (first :: second :: rest)).map weight).sum <
      ((loaded key (second :: first :: rest)).map weight).sum := by
  have hle : ∀ row ∈ rest, weight (objectOf key (first :: second :: rest) row) ≤
      weight (objectOf key (second :: first :: rest) row) := by
    intro row _
    by_cases hrow : key first = key row
    · rw [objectOf_cons_of_eq hrow, objectOf_cons_of_eq (hkey.symm.trans hrow)]
      exact hlt.le
    · have hother : key second ≠ key row := fun hsame ↦ hrow (hkey.trans hsame)
      rw [objectOf_cons_of_ne hrow, objectOf_cons_of_ne hother, objectOf_cons_of_ne hother,
        objectOf_cons_of_ne hrow]
  have hrest := List.sum_le_sum hle
  simp only [loaded, List.map_cons, List.map_map, List.sum_cons, objectOf_cons_of_eq rfl,
    objectOf_cons_of_eq hkey, objectOf_cons_of_eq hkey.symm]
  simp only [Function.comp_def]
  linarith

/-- A sum over the objects is the same in every order of the rows exactly when rows with one key
weigh the same, and it is the sum over the rows then. -/
theorem forall_sum_map_loaded_eq_iff {total : ℤ} :
    (∀ order : List Row, order.Perm rows → ((loaded key order).map weight).sum = total) ↔
      (∀ first ∈ rows, ∀ second ∈ rows, key first = key second → weight first = weight second) ∧
        (rows.map weight).sum = total := by
  constructor
  · intro hsame
    have halike : ∀ first ∈ rows, ∀ second ∈ rows, key first = key second →
        weight first = weight second := by
      intro first hfirst second hsecond hkey
      by_contra hne
      have hdistinct : first ≠ second := fun heq ↦ hne (congrArg weight heq)
      obtain ⟨before, after, rfl⟩ := List.append_of_mem hfirst
      have hfront : (before ++ first :: after).Perm (first :: (before ++ after)) :=
        List.perm_middle
      have hother : second ∈ before ++ after :=
        (List.mem_cons.mp (hfront.mem_iff.mp hsecond)).resolve_left hdistinct.symm
      obtain ⟨left, right, hrest⟩ := List.append_of_mem hother
      have hforth : (first :: second :: (left ++ right)).Perm (before ++ first :: after) := by
        refine (List.Perm.cons first ?_).trans hfront.symm
        exact hrest ▸ List.perm_middle.symm
      have hback := (List.Perm.swap first second (left ++ right)).trans hforth
      have hboth := (hsame _ hforth).trans (hsame _ hback).symm
      rcases lt_or_gt_of_ne hne with hlt | hgt
      · exact (sum_map_loaded_lt hkey hlt _).ne hboth
      · exact (sum_map_loaded_lt hkey.symm hgt _).ne' hboth
    exact ⟨halike, (sum_map_loaded halike).symm.trans (hsame rows (List.Perm.refl rows))⟩
  · rintro ⟨halike, htotal⟩ order hperm
    rw [sum_map_loaded fun first hfirst second hsecond ↦
      halike first (hperm.subset hfirst) second (hperm.subset hsecond),
      (hperm.map weight).sum_eq, htotal]

end Lnmp.Foundation.IdentityMap
