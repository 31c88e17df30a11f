import Mathlib.Algebra.BigOperators.Group.List.Basic
import Mathlib.Data.List.Nodup
import Mathlib.Tactic.Abel

/-!
# Insertion-ordered dictionaries

A `Dict` is a list of entries with distinct keys, in the order in which the keys were first set.
Setting a key that is present keeps its place, setting a new one appends it, and `erase` removes
it. The key order decides the order in which a program that iterates over the dictionary sees the
entries; `get?` is the part of a dictionary that does not depend on it.

`sumBy` adds up a weight over the entries. It changes by the difference of the weights when a key
is set (`sumBy_set`), and depends on the dictionary only through `get?` (`sumBy_congr`).
-/

set_option autoImplicit false
set_option relaxedAutoImplicit false

namespace Lnmp.Foundation

/-- A dictionary: entries with distinct keys, in insertion order. -/
structure Dict (Key Value : Type*) where
  entries : List (Key × Value)
  nodup_keys : (entries.map Prod.fst).Nodup
  deriving DecidableEq

namespace Dict

variable {Key Value : Type*}

/-- The empty dictionary. -/
def empty : Dict Key Value where
  entries := []
  nodup_keys := List.nodup_nil

/-- The keys, in insertion order. -/
def keys (dict : Dict Key Value) : List Key := dict.entries.map Prod.fst

/-- The values, in insertion order of their keys. -/
def values (dict : Dict Key Value) : List Value := dict.entries.map Prod.snd

/-- A dictionary with no entries. -/
def isEmpty (dict : Dict Key Value) : Bool := dict.entries.isEmpty

variable [DecidableEq Key]

/-- The value under a key. -/
def get? (dict : Dict Key Value) (key : Key) : Option Value :=
  (dict.entries.find? fun entry ↦ entry.1 = key).map Prod.snd

theorem get?_eq_some_iff (dict : Dict Key Value) (key : Key) (value : Value) :
    dict.get? key = some value ↔ (key, value) ∈ dict.entries := by
  obtain ⟨entries, hnodup⟩ := dict
  show (entries.find? _).map Prod.snd = some value ↔ (key, value) ∈ entries
  induction entries with
  | nil => simp
  | cons entry rest ih =>
    obtain ⟨first, stored⟩ := entry
    rw [List.map_cons, List.nodup_cons] at hnodup
    by_cases hkey : first = key
    · subst hkey
      have hfresh : (first, value) ∉ rest := fun hmem ↦
        hnodup.1 (List.mem_map.mpr ⟨_, hmem, rfl⟩)
      simp [hfresh, eq_comm]
    · have hne : (key, value) ≠ (first, stored) := fun h ↦ hkey (Prod.ext_iff.mp h).1.symm
      rw [List.find?_cons_of_neg (by simpa using hkey), ih hnodup.2, List.mem_cons]
      simp [hne]

theorem get?_eq_none_iff (dict : Dict Key Value) (key : Key) :
    dict.get? key = none ↔ key ∉ dict.keys := by
  simp only [get?, keys, Option.map_eq_none_iff, List.find?_eq_none, List.mem_map, Prod.exists,
    decide_eq_true_eq, not_exists, not_and, Prod.forall]

theorem mem_keys_iff_exists (dict : Dict Key Value) (key : Key) :
    key ∈ dict.keys ↔ ∃ value, dict.get? key = some value := by
  rw [← Option.isSome_iff_exists, ← not_iff_not, ← get?_eq_none_iff, Bool.not_eq_true,
    Option.isSome_eq_false_iff, Option.isNone_iff_eq_none]

theorem mem_keys_of_get? {dict : Dict Key Value} {key : Key} {value : Value}
    (hget : dict.get? key = some value) : key ∈ dict.keys :=
  (mem_keys_iff_exists dict key).mpr ⟨value, hget⟩

@[simp] theorem get?_empty (key : Key) : (empty : Dict Key Value).get? key = none := rfl

theorem isEmpty_iff_get? (dict : Dict Key Value) :
    dict.isEmpty = true ↔ ∀ key, dict.get? key = none := by
  constructor
  · intro hempty key
    rw [isEmpty, List.isEmpty_iff] at hempty
    simp [get?, hempty]
  · intro hnone
    rw [isEmpty, List.isEmpty_iff, List.eq_nil_iff_forall_not_mem]
    rintro ⟨key, value⟩ hmem
    rw [← get?_eq_some_iff, hnone key] at hmem
    exact absurd hmem (Option.some_ne_none value).symm

/-- Replace the value under a key in a list of entries. -/
def replaceEntry (key : Key) (value : Value) (entry : Key × Value) : Key × Value :=
  if entry.1 = key then (key, value) else entry

theorem map_replaceEntry_keys (key : Key) (value : Value) (entries : List (Key × Value)) :
    (entries.map (replaceEntry key value)).map Prod.fst = entries.map Prod.fst := by
  rw [List.map_map]
  refine List.map_congr_left fun entry _ ↦ ?_
  by_cases hkey : entry.1 = key <;> simp [replaceEntry, hkey]

/-- Set the value under a key: in place when the key is present, at the end when it is not. -/
def set (dict : Dict Key Value) (key : Key) (value : Value) : Dict Key Value :=
  if h : key ∈ dict.keys then
    { entries := dict.entries.map (replaceEntry key value)
      nodup_keys := by
        rw [map_replaceEntry_keys]
        exact dict.nodup_keys }
  else
    { entries := dict.entries ++ [(key, value)]
      nodup_keys := by
        rw [List.map_append, List.nodup_append]
        refine ⟨dict.nodup_keys, List.nodup_singleton _, ?_⟩
        rintro first hfirst second hsecond rfl
        rw [List.map_singleton, List.mem_singleton] at hsecond
        subst hsecond
        exact h hfirst }

/-- Remove a key. -/
def erase (dict : Dict Key Value) (key : Key) : Dict Key Value where
  entries := dict.entries.filter fun entry ↦ entry.1 ≠ key
  nodup_keys := dict.nodup_keys.sublist ((List.filter_sublist ..).map _)

theorem mem_entries_set (dict : Dict Key Value) (key : Key) (value : Value)
    (entry : Key × Value) :
    entry ∈ (dict.set key value).entries ↔
      entry = (key, value) ∨ entry ∈ dict.entries ∧ entry.1 ≠ key := by
  by_cases hkey : key ∈ dict.keys
  · simp only [set, dif_pos hkey, List.mem_map]
    constructor
    · rintro ⟨old, hold, rfl⟩
      by_cases hsame : old.1 = key
      · exact Or.inl (by simp [replaceEntry, hsame])
      · exact Or.inr (by simpa [replaceEntry, hsame] using hold)
    · rintro (rfl | ⟨hmem, hne⟩)
      · obtain ⟨old, hold, hsame⟩ := List.mem_map.mp hkey
        exact ⟨old, hold, by simp [replaceEntry, hsame]⟩
      · exact ⟨entry, hmem, by simp [replaceEntry, hne]⟩
  · simp only [set, dif_neg hkey, List.mem_append, List.mem_singleton]
    constructor
    · rintro (hmem | rfl)
      · exact Or.inr ⟨hmem, fun hsame ↦ hkey (hsame ▸ List.mem_map.mpr ⟨entry, hmem, rfl⟩)⟩
      · exact Or.inl rfl
    · rintro (rfl | ⟨hmem, -⟩)
      · exact Or.inr rfl
      · exact Or.inl hmem

/-- What a dictionary holds after a key is set. -/
theorem get?_set (dict : Dict Key Value) (key : Key) (value : Value) (other : Key) :
    (dict.set key value).get? other = if other = key then some value else dict.get? other := by
  refine Option.ext fun stored ↦ ?_
  rw [get?_eq_some_iff, mem_entries_set]
  by_cases hsame : other = key
  · subst hsame
    simp [eq_comm]
  · simp [hsame, get?_eq_some_iff]

/-- What a dictionary holds after a key is removed. -/
theorem get?_erase (dict : Dict Key Value) (key other : Key) :
    (dict.erase key).get? other = if other = key then none else dict.get? other := by
  refine Option.ext fun stored ↦ ?_
  rw [get?_eq_some_iff, erase, List.mem_filter]
  by_cases hsame : other = key
  · simp [hsame]
  · simp [hsame, get?_eq_some_iff]

/-- What a dictionary holds after several keys are removed. -/
theorem get?_foldl_erase (dict : Dict Key Value) (keys : List Key) (key : Key) :
    (keys.foldl erase dict).get? key = if key ∈ keys then none else dict.get? key := by
  induction keys generalizing dict with
  | nil => rfl
  | cons first rest ih =>
    rw [List.foldl_cons, ih, get?_erase]
    by_cases hfirst : key = first
    · simp [hfirst]
    · simp [hfirst]

/-- The entries after several keys are removed. -/
theorem entries_foldl_erase (dict : Dict Key Value) (keys : List Key) :
    (keys.foldl erase dict).entries = dict.entries.filter fun entry ↦ entry.1 ∉ keys := by
  induction keys generalizing dict with
  | nil => simp
  | cons first rest ih =>
    rw [List.foldl_cons, ih, erase, List.filter_filter]
    refine List.filter_congr fun entry _ ↦ ?_
    simp [Bool.and_comm]

/-- Collect the keys of the entries that are selected, and remove them. -/
def eraseWhere (dict : Dict Key Value) (selects : Key × Value → Bool) : Dict Key Value :=
  ((dict.entries.filter selects).map Prod.fst).foldl erase dict

/-- The entries that are not selected stay. -/
theorem entries_eraseWhere (dict : Dict Key Value) (selects : Key × Value → Bool) :
    (dict.eraseWhere selects).entries = dict.entries.filter fun entry ↦ !selects entry := by
  rw [eraseWhere, entries_foldl_erase]
  refine List.filter_congr fun entry hentry ↦ ?_
  have hiff : entry.1 ∈ (dict.entries.filter selects).map Prod.fst ↔ selects entry = true := by
    constructor
    · intro hmem
      obtain ⟨other, hother, hsame⟩ := List.mem_map.mp hmem
      obtain ⟨hother, hselects⟩ := List.mem_filter.mp hother
      exact List.inj_on_of_nodup_map dict.nodup_keys hother hentry hsame ▸ hselects
    · exact fun hselects ↦ List.mem_map_of_mem (List.mem_filter.mpr ⟨hentry, hselects⟩)
  simp [hiff]

/-- What a dictionary holds after the selected entries are removed. -/
theorem get?_eraseWhere (dict : Dict Key Value) (selects : Key × Value → Bool) (key : Key) :
    (dict.eraseWhere selects).get? key =
      (dict.get? key).filter fun value ↦ !selects (key, value) := by
  refine Option.ext fun value ↦ ?_
  rw [get?_eq_some_iff, entries_eraseWhere, List.mem_filter, ← get?_eq_some_iff,
    Option.filter_eq_some_iff]

/-- Erasing a key that is not stored changes nothing. -/
theorem erase_eq_self {dict : Dict Key Value} {key : Key} (hget : dict.get? key = none) :
    dict.erase key = dict := by
  have hentries : dict.entries.filter (·.1 ≠ key) = dict.entries := by
    refine List.filter_eq_self.mpr fun entry hentry ↦ decide_eq_true fun hsame ↦ ?_
    rw [get?_eq_none_iff] at hget
    exact hget (hsame ▸ List.mem_map_of_mem hentry)
  obtain ⟨entries, hnodup⟩ := dict
  rw [erase]
  congr

/-- Setting what is stored changes nothing. -/
theorem set_eq_self {dict : Dict Key Value} {key : Key} {value : Value}
    (hget : dict.get? key = some value) : dict.set key value = dict := by
  have hentries : dict.entries.map (replaceEntry key value) = dict.entries := by
    refine (List.map_congr_left fun entry hentry ↦ ?_).trans (List.map_id _)
    rw [replaceEntry, id]
    split_ifs with hkey
    · have hsame := (get?_eq_some_iff dict entry.1 entry.2).mpr hentry
      rw [hkey, hget, Option.some_inj] at hsame
      exact Prod.ext hkey.symm hsame
    · rfl
  rw [set, dif_pos (mem_keys_of_get? hget)]
  obtain ⟨entries, hnodup⟩ := dict
  congr

/-- The keys after a key is set. -/
theorem mem_keys_set (dict : Dict Key Value) (key : Key) (value : Value) (other : Key) :
    other ∈ (dict.set key value).keys ↔ other = key ∨ other ∈ dict.keys := by
  rw [mem_keys_iff_exists, mem_keys_iff_exists, get?_set]
  by_cases hother : other = key <;> simp [hother]

/-- Set keys one after the other. -/
def update (dict : Dict Key Value) (writes : List (Key × Value)) : Dict Key Value :=
  writes.foldl (fun dict write ↦ dict.set write.1 write.2) dict

theorem update_append (dict : Dict Key Value) (first second : List (Key × Value)) :
    dict.update (first ++ second) = (dict.update first).update second :=
  List.foldl_append ..

/-- Keys that are new come behind the others, in the order in which they are written. -/
theorem entries_update_of_nodup (dict : Dict Key Value) {writes : List (Key × Value)}
    (hnodup : (dict.keys ++ writes.map Prod.fst).Nodup) :
    (dict.update writes).entries = dict.entries ++ writes := by
  induction writes generalizing dict with
  | nil => exact (List.append_nil _).symm
  | cons write writes ih =>
    have hnew : write.1 ∉ dict.keys := fun hmem ↦
      (List.nodup_append.mp hnodup).2.2 write.1 hmem write.1 (List.mem_cons_self ..) rfl
    have hentries : (dict.set write.1 write.2).entries = dict.entries ++ [write] := by
      rw [set, dif_neg hnew]
    have hkeys : (dict.set write.1 write.2).keys = dict.keys ++ [write.1] := by
      rw [keys, hentries, List.map_append]
      rfl
    have hrest := ih (dict.set write.1 write.2) (by
      rwa [hkeys, List.append_assoc])
    rw [hentries, List.append_assoc] at hrest
    exact hrest

/-- A key that is not written keeps its value. -/
theorem get?_update_of_not_mem (dict : Dict Key Value) {writes : List (Key × Value)} {key : Key}
    (hkey : key ∉ writes.map Prod.fst) : (dict.update writes).get? key = dict.get? key := by
  induction writes generalizing dict with
  | nil => rfl
  | cons write writes ih =>
    rw [List.map_cons, List.mem_cons, not_or] at hkey
    exact (ih (dict.set write.1 write.2) hkey.2).trans (by rw [get?_set, if_neg hkey.1])

/-- A key that is written has one of the values that were written. -/
theorem exists_get?_update (dict : Dict Key Value) {writes : List (Key × Value)} {key : Key}
    (hkey : key ∈ writes.map Prod.fst) :
    ∃ value, (key, value) ∈ writes ∧ (dict.update writes).get? key = some value := by
  induction writes generalizing dict with
  | nil => exact absurd hkey List.not_mem_nil
  | cons write writes ih =>
    by_cases hlater : key ∈ writes.map Prod.fst
    · obtain ⟨value, hmem, hget⟩ := ih (dict.set write.1 write.2) hlater
      exact ⟨value, List.mem_cons_of_mem _ hmem, hget⟩
    · rw [List.map_cons, List.mem_cons, or_iff_left hlater] at hkey
      refine ⟨write.2, hkey ▸ List.mem_cons_self .., ?_⟩
      rw [show dict.update (write :: writes) = (dict.set write.1 write.2).update writes from rfl,
        get?_update_of_not_mem _ hlater, get?_set, if_pos hkey]

/-- The rule for a loop over a dictionary of changes whose body changes the key of the entry
only. -/
theorem get?_foldl_entries {Change : Type*}
    (change : Dict Key Value → Key × Change → Dict Key Value)
    (result : Key → Change → Option Value → Option Value)
    (hchange : ∀ dict entry key, (change dict entry).get? key =
      if key = entry.1 then result key entry.2 (dict.get? key) else dict.get? key)
    (dict : Dict Key Value) (changes : Dict Key Change) (key : Key) :
    (changes.entries.foldl change dict).get? key =
      (changes.get? key).elim (dict.get? key) fun entry ↦ result key entry (dict.get? key) := by
  obtain ⟨entries, hnodup⟩ := changes
  show (entries.foldl change dict).get? key =
    ((entries.find? fun entry ↦ entry.1 = key).map Prod.snd).elim _ _
  induction entries generalizing dict with
  | nil => rfl
  | cons entry rest ih =>
    rw [List.map_cons, List.nodup_cons] at hnodup
    rw [List.foldl_cons, ih _ hnodup.2, hchange]
    by_cases hkey : key = entry.1
    · -- the later entries have other keys
      have hrest : rest.find? (fun other ↦ other.1 = key) = none := by
        refine List.find?_eq_none.mpr fun other hother hsame ↦ hnodup.1 ?_
        exact hkey ▸ of_decide_eq_true hsame ▸ List.mem_map_of_mem hother
      have hfirst : (entry :: rest).find? (fun other ↦ other.1 = key) = some entry :=
        List.find?_cons_of_pos (decide_eq_true hkey.symm)
      rw [hrest, hfirst, if_pos hkey]
      rfl
    · rw [List.find?_cons_of_neg (by simpa using Ne.symm hkey), if_neg hkey]

/-- The rule for such a loop that changes nothing: none of its steps changes anything. -/
theorem foldl_entries_eq_self_iff {Change : Type*}
    (change : Dict Key Value → Key × Change → Dict Key Value)
    (result : Key → Change → Option Value → Option Value)
    (hchange : ∀ dict entry key, (change dict entry).get? key =
      if key = entry.1 then result key entry.2 (dict.get? key) else dict.get? key)
    (dict : Dict Key Value)
    (hself : ∀ key entry, result key entry (dict.get? key) = dict.get? key →
      change dict (key, entry) = dict)
    (changes : Dict Key Change) :
    changes.entries.foldl change dict = dict ↔
      ∀ key entry, changes.get? key = some entry →
        result key entry (dict.get? key) = dict.get? key := by
  constructor
  · intro hsame key entry hentry
    have hget := get?_foldl_entries change result hchange dict changes key
    rw [hsame, hentry, Option.elim_some] at hget
    exact hget.symm
  · intro hall
    refine List.foldlRecOn _ change (motive := fun after ↦ after = dict) rfl ?_
    rintro _ rfl ⟨key, entry⟩ hentry
    exact hself key entry (hall key entry ((get?_eq_some_iff ..).mpr hentry))

/-- Set all keys of another dictionary. -/
theorem get?_update_entries (dict other : Dict Key Value) (key : Key) :
    (dict.update other.entries).get? key = (other.get? key).or (dict.get? key) := by
  cases hget : other.get? key with
  | none =>
    rw [Option.none_or]
    refine get?_update_of_not_mem dict fun hkey ↦ ?_
    exact absurd ((get?_eq_none_iff other key).mp hget) (not_not.mpr hkey)
  | some value =>
    obtain ⟨found, hmem, hfound⟩ := exists_get?_update dict (mem_keys_of_get? hget)
    rw [hfound, Option.some_or, ← hget, (get?_eq_some_iff other key found).mpr hmem]

/-! ### Values -/

section Values

variable {Other : Type*}

omit [DecidableEq Key] in
theorem map_keys_of_map_snd (change : Key → Value → Other) (entries : List (Key × Value)) :
    (entries.map fun entry ↦ (entry.1, change entry.1 entry.2)).map Prod.fst =
      entries.map Prod.fst := by
  rw [List.map_map]
  rfl

/-- Change every value, by its key. -/
def mapEntries (dict : Dict Key Value) (change : Key → Value → Other) : Dict Key Other where
  entries := dict.entries.map fun entry ↦ (entry.1, change entry.1 entry.2)
  nodup_keys := (map_keys_of_map_snd change dict.entries).symm ▸ dict.nodup_keys

/-- Change every value. -/
def mapValues (dict : Dict Key Value) (change : Value → Other) : Dict Key Other :=
  dict.mapEntries fun _ ↦ change

theorem get?_mapEntries (dict : Dict Key Value) (change : Key → Value → Other) (key : Key) :
    (dict.mapEntries change).get? key = (dict.get? key).map (change key) := by
  refine Option.ext fun stored ↦ ?_
  rw [get?_eq_some_iff, mapEntries, List.mem_map, Option.map_eq_some_iff]
  constructor
  · rintro ⟨⟨found, value⟩, hmem, hentry⟩
    obtain ⟨rfl, rfl⟩ := Prod.mk.inj hentry
    exact ⟨value, (get?_eq_some_iff ..).mpr hmem, rfl⟩
  · rintro ⟨value, hvalue, rfl⟩
    exact ⟨(key, value), (get?_eq_some_iff ..).mp hvalue, rfl⟩

theorem get?_mapValues (dict : Dict Key Value) (change : Value → Other) (key : Key) :
    (dict.mapValues change).get? key = (dict.get? key).map change :=
  dict.get?_mapEntries (fun _ ↦ change) key

end Values

section Sum

variable {Total : Type*} [AddCommMonoid Total]

/-- The sum of a weight over the entries. -/
def sumBy (dict : Dict Key Value) (weight : Key → Value → Total) : Total :=
  (dict.entries.map fun entry ↦ weight entry.1 entry.2).sum

omit [DecidableEq Key] in
@[simp] theorem sumBy_empty (weight : Key → Value → Total) :
    (empty : Dict Key Value).sumBy weight = 0 := rfl

/-- The sum over a dictionary depends only on what the dictionary holds. -/
theorem sumBy_congr {first second : Dict Key Value} (weight : Key → Value → Total)
    (hget : ∀ key, first.get? key = second.get? key) :
    first.sumBy weight = second.sumBy weight := by
  have hperm : first.entries.Perm second.entries := by
    refine (List.perm_ext_iff_of_nodup first.nodup_keys.of_map second.nodup_keys.of_map).mpr ?_
    rintro ⟨key, value⟩
    rw [← get?_eq_some_iff, ← get?_eq_some_iff, hget]
  exact (hperm.map _).sum_eq

/-- The weight of the value under a key, zero when the key is absent. -/
def weightAt (dict : Dict Key Value) (weight : Key → Value → Total) (key : Key) : Total :=
  (dict.get? key).elim 0 (weight key)

/-- The sum over a dictionary is the weight under a key plus the sum over the other keys. -/
theorem sumBy_eq_weightAt_add_erase (dict : Dict Key Value) (weight : Key → Value → Total)
    (key : Key) :
    dict.sumBy weight = dict.weightAt weight key + (dict.erase key).sumBy weight := by
  cases hget : dict.get? key with
  | none =>
    have hsame : (dict.erase key).sumBy weight = dict.sumBy weight := by
      refine sumBy_congr weight fun other ↦ ?_
      rw [get?_erase]
      by_cases hother : other = key
      · rw [if_pos hother, hother, hget]
      · rw [if_neg hother]
    rw [hsame, weightAt, hget, Option.elim_none, zero_add]
  | some value =>
    have hnodup : ((key, value) :: (dict.erase key).entries).Nodup := by
      refine List.nodup_cons.mpr ⟨fun hmem ↦ ?_, (dict.erase key).nodup_keys.of_map⟩
      have herased := (get?_eq_some_iff _ _ _).mpr hmem
      rw [get?_erase, if_pos rfl] at herased
      exact absurd herased (Option.some_ne_none value).symm
    have hperm : dict.entries.Perm ((key, value) :: (dict.erase key).entries) := by
      refine (List.perm_ext_iff_of_nodup dict.nodup_keys.of_map hnodup).mpr ?_
      rintro ⟨other, stored⟩
      rw [List.mem_cons, ← get?_eq_some_iff, ← get?_eq_some_iff, get?_erase]
      by_cases hother : other = key
      · subst hother
        simp [hget, eq_comm]
      · simp [hother]
    rw [weightAt, hget, Option.elim_some]
    exact (hperm.map _).sum_eq.trans List.sum_cons

/-- The sum after a key is set. -/
theorem sumBy_set_eq (dict : Dict Key Value) (weight : Key → Value → Total) (key : Key)
    (value : Value) :
    (dict.set key value).sumBy weight = weight key value + (dict.erase key).sumBy weight := by
  have hrest : ((dict.set key value).erase key).sumBy weight = (dict.erase key).sumBy weight := by
    refine sumBy_congr weight fun other ↦ ?_
    rw [get?_erase, get?_erase, get?_set]
    by_cases hother : other = key <;> simp [hother]
  have hvalue : (dict.set key value).weightAt weight key = weight key value := by
    rw [weightAt, get?_set, if_pos rfl, Option.elim_some]
  rw [sumBy_eq_weightAt_add_erase _ weight key, hvalue, hrest]

/-- Setting one key and removing another can be exchanged in a sum. -/
theorem sumBy_erase_set (dict : Dict Key Value) (weight : Key → Value → Total) {key other : Key}
    (hne : key ≠ other) (value : Value) :
    ((dict.set key value).erase other).sumBy weight =
      weight key value + ((dict.erase other).erase key).sumBy weight := by
  rw [← sumBy_set_eq]
  refine sumBy_congr weight fun found ↦ ?_
  rw [get?_erase, get?_set, get?_set, get?_erase]
  by_cases hfound : found = other
  · rw [if_pos hfound, if_pos hfound, if_neg fun h ↦ hne (h.symm.trans hfound)]
  · rw [if_neg hfound, if_neg hfound]

/-- Setting a key replaces its weight in the sum. -/
theorem sumBy_set (dict : Dict Key Value) (weight : Key → Value → Total) (key : Key)
    (value : Value) :
    (dict.set key value).sumBy weight + dict.weightAt weight key =
      dict.sumBy weight + weight key value := by
  rw [sumBy_set_eq, sumBy_eq_weightAt_add_erase dict weight key]
  abel

omit [DecidableEq Key] in
theorem sumBy_mapValues {Other : Type*} (dict : Dict Key Value) (change : Value → Other)
    (weight : Key → Other → Total) :
    (dict.mapValues change).sumBy weight =
      dict.sumBy fun key value ↦ weight key (change value) := by
  rw [sumBy, mapValues, mapEntries, List.map_map, sumBy]
  rfl

end Sum

end Dict

end Lnmp.Foundation
