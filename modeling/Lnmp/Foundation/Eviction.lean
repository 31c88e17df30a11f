import Lnmp.Foundation.Dict
import Mathlib.Data.List.Sort

/-!
# Eviction of the oldest entries

A dictionary that holds at most a number of entries drops the oldest ones. `byAge` puts the entries
in the order of their ages, and entries of one age in the order of the dictionary; `evictOldest`
drops the first ones beyond the capacity.

An entry is evicted when enough others are behind it in that order (`get?_evictOldest`), and with
fewer entries there are fewer behind it (`length_behind_filter_le`).

By the ages in the dual order the youngest entries come first. That is the reverse of the order of
the ages exactly when no two items have one age (`reverse_byAge_toDual_iff`), since items of one age
stay in their order both ways.
-/

set_option autoImplicit false
set_option relaxedAutoImplicit false

namespace Lnmp.Foundation.Eviction

section Order

variable {Item Age : Type*} [LinearOrder Age] (age : Item → Age)

/-- The items in the order of their ages. -/
def byAge (items : List Item) : List Item :=
  items.insertionSort fun first second ↦ age first ≤ age second

variable {items : List Item}

theorem perm_byAge (items : List Item) : (byAge age items).Perm items :=
  List.perm_insertionSort _ _

theorem pairwise_byAge (items : List Item) :
    (byAge age items).Pairwise fun first second ↦ age first ≤ age second := by
  have : Std.Total fun first second : Item ↦ age first ≤ age second :=
    ⟨fun first second ↦ le_total (age first) (age second)⟩
  have : IsTrans Item fun first second ↦ age first ≤ age second :=
    ⟨fun _ _ _ ↦ le_trans⟩
  exact List.pairwise_insertionSort _ _

/-- Items that are in order stay as they are. -/
theorem byAge_eq_self (horder : items.Pairwise fun first second ↦ age first ≤ age second) :
    byAge age items = items :=
  horder.insertionSort_eq

/-- Inserting an item and then selecting is selecting and then inserting it, when it is selected. -/
theorem filter_orderedInsert (selects : Item → Bool) (item : Item)
    (horder : items.Pairwise fun first second ↦ age first ≤ age second) :
    (items.orderedInsert (fun first second ↦ age first ≤ age second) item).filter selects =
      if selects item then
        (items.filter selects).orderedInsert (fun first second ↦ age first ≤ age second) item
      else items.filter selects := by
  induction items with
  | nil => cases hselects : selects item <;> simp [hselects]
  | cons first rest ih =>
    obtain ⟨hfirst, hrest⟩ := List.pairwise_cons.mp horder
    by_cases hle : age item ≤ age first
    · -- All that follow are older than the item, also after the selection.
      have hall : ∀ other ∈ (first :: rest).filter selects, age item ≤ age other := by
        intro other hother
        rcases List.mem_cons.mp (List.mem_of_mem_filter hother) with rfl | hmem
        · exact hle
        · exact hle.trans (hfirst other hmem)
      have hfront : ((first :: rest).filter selects).orderedInsert
          (fun first second ↦ age first ≤ age second) item =
            item :: (first :: rest).filter selects := by
        cases hselected : (first :: rest).filter selects with
        | nil => rfl
        | cons other others =>
          rw [List.orderedInsert_cons, if_pos (hall other (hselected ▸ List.mem_cons_self ..))]
      rw [List.orderedInsert_cons, if_pos hle, List.filter_cons, hfront]
    · rw [List.orderedInsert_cons, if_neg hle, List.filter_cons, ih hrest, List.filter_cons]
      cases selects item <;> cases selects first <;> simp [hle]

/-- Selecting items does not change the order of the others. -/
theorem byAge_filter (selects : Item → Bool) (items : List Item) :
    byAge age (items.filter selects) = (byAge age items).filter selects := by
  induction items with
  | nil => rfl
  | cons item rest ih =>
    have hinsert := filter_orderedInsert age selects item (pairwise_byAge age rest)
    rw [show byAge age (item :: rest) = (byAge age rest).orderedInsert _ item from rfl, hinsert,
      List.filter_cons, ← ih]
    split <;> rfl

/-- Items of one age stay in their order, so that the first of them does not change. -/
theorem find?_byAge (value : Age) (items : List Item) :
    (byAge age items).find? (fun item ↦ age item = value) =
      items.find? fun item ↦ age item = value := by
  have hsame : (items.filter fun item ↦ age item = value).Pairwise fun first second ↦
      age first ≤ age second := by
    refine List.pairwise_of_forall_mem_list fun first hfirst second hsecond ↦ ?_
    rw [List.mem_filter, decide_eq_true_eq] at hfirst hsecond
    exact (hfirst.2.trans hsecond.2.symm).le
  rw [← List.head?_filter, ← byAge_filter, byAge_eq_self age hsame, List.head?_filter]

/-- An item that is older than all others comes first, wherever it stood. -/
theorem byAge_concat {item : Item} (hitem : ∀ other ∈ items, age item < age other) :
    byAge age (items ++ [item]) = item :: byAge age items := by
  induction items with
  | nil => rfl
  | cons first rest ih =>
    have hrest := ih fun other hother ↦ hitem other (List.mem_cons_of_mem _ hother)
    have hfirst := hitem first (List.mem_cons_self ..)
    show (byAge age (rest ++ [item])).orderedInsert _ first = _
    rw [hrest, List.orderedInsert_cons, if_neg hfirst.not_ge]
    rfl

/-- In a list without duplicates two items stand in one order only. -/
theorem not_sublist_swap {first second : Item} (hnodup : items.Nodup)
    (hforth : [first, second].Sublist items) : ¬[second, first].Sublist items := by
  intro hback
  induction items with
  | nil => exact absurd hforth.length_le (by simp)
  | cons head tail ih =>
    obtain ⟨hhead, htail⟩ := List.nodup_cons.mp hnodup
    have hne : second ≠ first := by
      have hpair := hnodup.sublist hforth
      simpa [eq_comm] using hpair
    rcases List.sublist_cons_iff.mp hforth with hforth | ⟨rest, hrest, hforth⟩
    · rcases List.sublist_cons_iff.mp hback with hback | ⟨rest, hrest, -⟩
      · exact ih htail hforth hback
      · obtain ⟨hsecond, -⟩ := List.cons.inj hrest
        exact hhead (hsecond ▸ hforth.subset (List.mem_cons_of_mem _ (List.mem_singleton_self _)))
    · obtain ⟨hfirst, -⟩ := List.cons.inj hrest
      rcases List.sublist_cons_iff.mp hback with hback | ⟨rest, hrest, -⟩
      · exact hhead (hfirst ▸ hback.subset (List.mem_cons_of_mem _ (List.mem_singleton_self _)))
      · exact hne ((List.cons.inj hrest).1.trans hfirst.symm)

/-- A list without duplicates that is its own reverse has one item at most. -/
theorem eq_of_reverse_eq {first second : Item} (hnodup : items.Nodup)
    (hreverse : items.reverse = items) (hfirst : first ∈ items) (hsecond : second ∈ items) :
    first = second := by
  have hpairwise : items.Pairwise fun _ _ ↦ False := by
    refine List.pairwise_iff_forall_sublist.mpr fun {first second} hpair ↦ ?_
    refine not_sublist_swap hnodup hpair ?_
    rw [← hreverse]
    exact hpair.reverse
  cases items with
  | nil => exact absurd hfirst List.not_mem_nil
  | cons item rest =>
    have hrest : rest = [] := List.eq_nil_iff_forall_not_mem.mpr (List.pairwise_cons.mp hpairwise).1
    rw [hrest, List.mem_singleton] at hfirst hsecond
    exact hfirst.trans hsecond.symm

/-- The keys of the youngest items first, reversed, are those of the oldest items first exactly when
no two items have one age. -/
theorem reverse_byAge_toDual_iff {Key : Type*} (key : Item → Key) (hnodup : (items.map key).Nodup) :
    ((byAge (fun item ↦ OrderDual.toDual (age item)) items).map key).reverse =
        (byAge age items).map key ↔
      items.Pairwise fun first second ↦ age first ≠ age second := by
  constructor
  · intro hsame
    refine List.pairwise_iff_forall_sublist.mpr fun {first second} hpair hage ↦ ?_
    have hup : [first, second].Sublist (byAge age items) :=
      List.pair_sublist_insertionSort hage.le hpair
    have hdown : [first, second].Sublist (byAge (fun item ↦ OrderDual.toDual (age item)) items) :=
      List.pair_sublist_insertionSort hage.ge hpair
    have hkeys := ((perm_byAge age items).map key).nodup_iff.mpr hnodup
    refine not_sublist_swap hkeys (hup.map key) ?_
    rw [← hsame]
    exact (hdown.map key).reverse
  · intro hdistinct
    have hinj := List.inj_on_of_nodup_map (List.pairwise_map.mpr hdistinct)
    rw [← List.map_reverse]
    refine congrArg (List.map key) (List.Perm.eq_of_pairwise ?_
      (List.pairwise_reverse.mpr (pairwise_byAge (fun item ↦ OrderDual.toDual (age item)) items))
      (pairwise_byAge age items) ?_)
    · intro first second hfirst hsecond hforth hback
      rw [List.mem_reverse, (perm_byAge _ items).mem_iff] at hfirst
      rw [(perm_byAge age items).mem_iff] at hsecond
      exact hinj hfirst hsecond (le_antisymm hforth hback)
    · exact ((List.reverse_perm _).trans (perm_byAge _ items)).trans (perm_byAge age items).symm

end Order

/-! ### Dictionaries -/

variable {Key Value Age : Type*} [DecidableEq Key] [LinearOrder Age] (age : Value → Age)

/-- The entries, the oldest first. -/
def oldestFirst (dict : Dict Key Value) : List (Key × Value) :=
  byAge (fun entry ↦ age entry.2) dict.entries

/-- Drop the oldest entries beyond the capacity. -/
def evictOldest (capacity : ℕ) (dict : Dict Key Value) : Dict Key Value :=
  (((oldestFirst age dict).map Prod.fst).take (dict.entries.length - capacity)).foldl Dict.erase
    dict

/-- The entries behind the one of a key. -/
def behind (dict : Dict Key Value) (key : Key) : List (Key × Value) :=
  ((oldestFirst age dict).dropWhile fun entry ↦ entry.1 ≠ key).tail

variable {dict : Dict Key Value} {key : Key} {capacity : ℕ}

/-- Of items with different keys, one is among the first beyond a capacity when as many are behind
it as the capacity is. -/
theorem mem_take_iff {entries : List (Key × Value)} (hnodup : (entries.map Prod.fst).Nodup)
    (hmem : key ∈ entries.map Prod.fst) :
    key ∈ (entries.map Prod.fst).take (entries.length - capacity) ↔
      capacity ≤ (entries.dropWhile fun entry ↦ entry.1 ≠ key).tail.length := by
  obtain ⟨⟨first, value⟩, hentry, rfl⟩ := List.mem_map.mp hmem
  obtain ⟨before, after, rfl⟩ := List.append_of_mem hentry
  rw [List.map_append, List.map_cons] at hnodup
  have hfresh : first ∉ before.map Prod.fst := fun hbefore ↦
    (List.disjoint_of_nodup_append hnodup) hbefore (List.mem_cons_self ..)
  have hdrop : (before ++ (first, value) :: after).dropWhile (fun entry ↦ entry.1 ≠ first) =
      (first, value) :: after := by
    rw [List.dropWhile_append_of_pos, List.dropWhile_cons_of_neg (by simp)]
    intro entry hentry
    exact decide_eq_true fun hsame ↦ hfresh (hsame ▸ List.mem_map_of_mem hentry)
  rw [hdrop, List.tail_cons, List.map_append, List.map_cons, List.take_append, List.mem_append,
    or_iff_right fun htake ↦ hfresh (List.mem_of_mem_take htake), List.length_map,
    List.length_append, List.length_cons]
  constructor
  · intro htake
    by_contra hfew
    rw [Nat.sub_eq_zero_of_le (by omega), List.take_zero] at htake
    exact absurd htake List.not_mem_nil
  · intro hmany
    obtain ⟨count, hcount⟩ : ∃ count,
        before.length + (after.length + 1) - capacity - before.length = count + 1 :=
      ⟨after.length - capacity, by omega⟩
    rw [hcount, List.take_succ_cons]
    exact List.mem_cons_self ..

/-- An entry is evicted when as many are behind it as the capacity is. -/
theorem get?_evictOldest :
    (evictOldest age capacity dict).get? key =
      if capacity ≤ (behind age dict key).length then none else dict.get? key := by
  have hperm := perm_byAge (fun entry : Key × Value ↦ age entry.2) dict.entries
  rw [evictOldest, Dict.get?_foldl_erase]
  by_cases hmem : key ∈ dict.keys
  · have hnodup := (hperm.map Prod.fst).nodup_iff.mpr dict.nodup_keys
    have hkey := (hperm.map Prod.fst).mem_iff.mpr hmem
    rw [← hperm.length_eq]
    exact if_congr (mem_take_iff hnodup hkey) rfl rfl
  · rw [(Dict.get?_eq_none_iff _ _).mpr hmem, ite_self, ite_self]

/-- The entry itself is not behind it. -/
theorem length_behind_le_pred : (behind age dict key).length ≤ dict.entries.length - 1 := by
  rw [behind, List.length_tail, ← (perm_byAge (fun entry ↦ age entry.2) dict.entries).length_eq]
  exact Nat.sub_le_sub_right (List.dropWhile_sublist _).length_le 1

/-- With fewer entries, fewer are behind one. -/
theorem length_behind_le {smaller : Dict Key Value} (selects : Key × Value → Bool)
    (hentries : smaller.entries = dict.entries.filter selects) :
    (behind age smaller key).length ≤ (behind age dict key).length := by
  have hsublist : ∀ entries : List (Key × Value),
      ((entries.filter selects).dropWhile fun entry ↦ entry.1 ≠ key).tail.Sublist
        (entries.dropWhile fun entry ↦ entry.1 ≠ key).tail := by
    intro entries
    induction entries with
    | nil => exact List.Sublist.refl _
    | cons entry rest ih =>
      by_cases hkey : entry.1 = key
      · rw [List.dropWhile_cons_of_neg (l := rest) (by simpa using hkey), List.tail_cons]
        refine List.Sublist.trans ?_ (List.filter_sublist (p := selects))
        rw [List.filter_cons]
        split
        · rw [List.dropWhile_cons_of_neg (by simpa using hkey), List.tail_cons]
        · exact (List.tail_sublist _).trans (List.dropWhile_sublist _)
      · rw [List.dropWhile_cons_of_pos (l := rest) (by simpa using hkey), List.filter_cons]
        split
        · rwa [List.dropWhile_cons_of_pos (by simpa using hkey)]
        · exact ih
  rw [behind, behind, oldestFirst, oldestFirst, hentries, byAge_filter]
  exact (hsublist _).length_le

end Lnmp.Foundation.Eviction
