import Lnmp.Foundation.Dict
import Mathlib.Algebra.Group.Hom.Defs
import Mathlib.Algebra.Order.Group.Int
import Mathlib.Data.List.Induction

/-!
# Write-behind ledgers

A ledger is a dictionary of amounts. Amounts are credited to keys while a snapshot of the ledger
is being written elsewhere; afterwards the snapshot is subtracted entry by entry, and an entry
whose count has reached zero is deleted (`settle`). The count is one component of the amount.

`Holds ledger postings` says that a ledger holds exactly what crediting a list of postings to an
empty ledger gives. It is kept by `credit`, and `holds_settle` is the main fact: when a ledger
holds `flushed ++ later`, a snapshot holds `flushed`, and every later posting counts, then after
`settle` the ledger holds `later`. The deletion rule loses nothing because a key whose count
returns to zero has no later posting.

`collect` groups the entries of a ledger under a coarser key, one row a group, and
`sumBy_collect` says that grouping keeps every total. `Holds.sumBy_eq` expresses a total over a
ledger as the total over the postings it holds.
-/

set_option autoImplicit false
set_option relaxedAutoImplicit false

namespace Lnmp.Foundation.Ledger

variable {Key Amount : Type*} [DecidableEq Key] [AddCommGroup Amount]

/-- Add an amount to the balance of a key, opening the entry when it is absent. -/
def credit (ledger : Dict Key Amount) (key : Key) (amount : Amount) : Dict Key Amount :=
  match ledger.get? key with
  | none => ledger.set key amount
  | some balance => ledger.set key (balance + amount)

/-- The balance of two ledgers together under one key. -/
def merge : Option Amount → Option Amount → Option Amount
  | none, second => second
  | some first, none => some first
  | some first, some second => some (first + second)

@[simp] theorem merge_none_right (first : Option Amount) : merge first none = first := by
  cases first <;> rfl

@[simp] theorem merge_none_left (second : Option Amount) : merge none second = second := rfl

theorem merge_assoc (first second third : Option Amount) :
    merge (merge first second) third = merge first (merge second third) := by
  cases first <;> cases second <;> cases third <;> simp [merge, add_assoc]

/-- What a ledger holds after a credit. -/
theorem get?_credit (ledger : Dict Key Amount) (key : Key) (amount : Amount) (other : Key) :
    (credit ledger key amount).get? other =
      if other = key then merge (ledger.get? key) (some amount) else ledger.get? other := by
  unfold credit
  cases hget : ledger.get? key <;> simp [Dict.get?_set, merge]

/-- Two credits of one key are one credit of the sum. -/
theorem get?_credit_credit (ledger : Dict Key Amount) (key : Key) (first second : Amount)
    (other : Key) :
    (credit (credit ledger key first) key second).get? other =
      (credit ledger key (first + second)).get? other := by
  simp only [get?_credit]
  by_cases hsame : other = key
  · simp only [hsame, ↓reduceIte, merge_assoc]
    rfl
  · simp only [hsame, ↓reduceIte]

/-- Credit a list of postings in order. -/
def post (ledger : Dict Key Amount) (postings : List (Key × Amount)) : Dict Key Amount :=
  postings.foldl (fun current posting ↦ credit current posting.1 posting.2) ledger

theorem post_concat (ledger : Dict Key Amount) (postings : List (Key × Amount))
    (posting : Key × Amount) :
    post ledger (postings ++ [posting]) = credit (post ledger postings) posting.1 posting.2 := by
  rw [post, List.foldl_append]
  rfl

/-- Posting to a ledger adds to what it holds what the postings alone give. -/
theorem get?_post (ledger : Dict Key Amount) (postings : List (Key × Amount)) (key : Key) :
    (post ledger postings).get? key =
      merge (ledger.get? key) ((post Dict.empty postings).get? key) := by
  induction postings using List.reverseRecOn with
  | nil => simp [post]
  | append_singleton postings posting ih =>
    rw [post_concat, post_concat, get?_credit, get?_credit]
    by_cases hsame : key = posting.1
    · rw [if_pos hsame, if_pos hsame, ← hsame, ih, merge_assoc]
    · rw [if_neg hsame, if_neg hsame, ih]

/-- The ledger holds exactly what the postings give. -/
def Holds (ledger : Dict Key Amount) (postings : List (Key × Amount)) : Prop :=
  ∀ key, ledger.get? key = (post Dict.empty postings).get? key

theorem holds_empty : Holds (Dict.empty : Dict Key Amount) [] := fun _ ↦ rfl

/-- A ledger that holds no postings has no entries. -/
theorem Holds.get?_eq_none {ledger : Dict Key Amount} (hholds : Holds ledger []) (key : Key) :
    ledger.get? key = none := hholds key

theorem merge_some_right_ne_none (first : Option Amount) (second : Amount) :
    merge first (some second) ≠ none := by
  cases first <;> exact Option.some_ne_none _

/-- The key of a posting has an entry. -/
theorem get?_post_ne_none {postings : List (Key × Amount)} {key : Key}
    (hkey : key ∈ postings.map Prod.fst) : (post Dict.empty postings).get? key ≠ none := by
  induction postings using List.reverseRecOn with
  | nil => exact absurd hkey List.not_mem_nil
  | append_singleton postings posting ih =>
    rw [post_concat, get?_credit]
    by_cases hsame : key = posting.1
    · rw [if_pos hsame]
      exact merge_some_right_ne_none _ _
    · rw [if_neg hsame]
      rw [List.map_append, List.mem_append] at hkey
      exact ih (hkey.resolve_right fun hlast ↦ hsame (List.mem_singleton.mp hlast))

/-- A key without posting keeps its entry. -/
theorem get?_post_of_notMem {ledger : Dict Key Amount} {postings : List (Key × Amount)} {key : Key}
    (hkey : key ∉ postings.map Prod.fst) : (post ledger postings).get? key = ledger.get? key := by
  induction postings using List.reverseRecOn with
  | nil => rfl
  | append_singleton postings posting ih =>
    rw [List.map_append, List.mem_append, not_or] at hkey
    have hlast : key ≠ posting.1 := fun hsame ↦ hkey.2 (List.mem_singleton.mpr hsame)
    rw [post_concat, get?_credit, if_neg hlast, ih hkey.1]

/-- A ledger without entries holds no postings. -/
theorem Holds.eq_nil {ledger : Dict Key Amount} {postings : List (Key × Amount)}
    (hholds : Holds ledger postings) (hempty : ∀ key, ledger.get? key = none) : postings = [] := by
  cases postings with
  | nil => rfl
  | cons posting rest =>
    have hget := (hholds posting.1).symm.trans (hempty posting.1)
    exact absurd hget (get?_post_ne_none (List.mem_cons_self ..))

/-- Crediting adds a posting to what a ledger holds. -/
theorem Holds.credit {ledger : Dict Key Amount} {postings : List (Key × Amount)}
    (hholds : Holds ledger postings) (key : Key) (amount : Amount) :
    Holds (credit ledger key amount) (postings ++ [(key, amount)]) := by
  intro other
  rw [post_concat, get?_credit, get?_credit, hholds key, hholds other]

/-- Posting a list adds it to what a ledger holds. -/
theorem Holds.post {ledger : Dict Key Amount} {postings : List (Key × Amount)}
    (hholds : Holds ledger postings) (later : List (Key × Amount)) :
    Holds (post ledger later) (postings ++ later) := by
  intro key
  rw [get?_post, hholds key, ← get?_post, Ledger.post, Ledger.post, Ledger.post, List.foldl_append]

/-- A ledger that holds two lists of postings holds, under each key, their balances together. -/
theorem Holds.get?_append {ledger : Dict Key Amount} {first second : List (Key × Amount)}
    (hholds : Holds ledger (first ++ second)) (key : Key) :
    ledger.get? key =
      merge ((Ledger.post Dict.empty first).get? key)
        ((Ledger.post Dict.empty second).get? key) := by
  rw [hholds key, ← get?_post, Ledger.post, Ledger.post, Ledger.post, List.foldl_append]

section Settle

variable (count : Amount →+ ℤ)

/-- Subtract one snapshot entry from a ledger, and delete the entry when its count is used up. -/
def settleEntry (ledger : Dict Key Amount) (entry : Key × Amount) : Dict Key Amount :=
  match ledger.get? entry.1 with
  | none => ledger
  | some balance =>
    if count (balance - entry.2) ≤ 0 then ledger.erase entry.1
    else ledger.set entry.1 (balance - entry.2)

/-- Subtract a snapshot from a ledger, entry by entry. -/
def settle (ledger snapshot : Dict Key Amount) : Dict Key Amount :=
  snapshot.entries.foldl (settleEntry count) ledger

/-- The balance left of a key when a snapshot entry is subtracted. -/
def settled (balance : Option Amount) (flushed : Amount) : Option Amount :=
  balance.bind fun amount ↦ if count (amount - flushed) ≤ 0 then none else some (amount - flushed)

theorem get?_settleEntry (ledger : Dict Key Amount) (entry : Key × Amount) (key : Key) :
    (settleEntry count ledger entry).get? key =
      if key = entry.1 then settled count (ledger.get? key) entry.2 else ledger.get? key := by
  unfold settleEntry settled
  by_cases hkey : key = entry.1
  · rw [if_pos hkey, hkey]
    cases hget : ledger.get? entry.1 with
    | none => simp [hget]
    | some balance =>
      by_cases hzero : count (balance - entry.2) ≤ 0
      · simp only [if_pos hzero, Dict.get?_erase, Option.bind_some, ↓reduceIte]
      · simp only [if_neg hzero, Dict.get?_set, Option.bind_some, ↓reduceIte]
  · rw [if_neg hkey]
    cases hget : ledger.get? entry.1 with
    | none => rfl
    | some balance =>
      by_cases hzero : count (balance - entry.2) ≤ 0
      · simp only [if_pos hzero, Dict.get?_erase, if_neg hkey]
      · simp only [if_neg hzero, Dict.get?_set, if_neg hkey]

/-- Subtracting a list of entries with distinct keys subtracts under each key its own entry. -/
theorem get?_foldl_settleEntry (entries : List (Key × Amount)) (ledger : Dict Key Amount)
    (hnodup : (entries.map Prod.fst).Nodup) (key : Key) :
    (entries.foldl (settleEntry count) ledger).get? key =
      match (entries.find? fun entry ↦ entry.1 = key).map Prod.snd with
      | none => ledger.get? key
      | some flushed => settled count (ledger.get? key) flushed := by
  induction entries generalizing ledger with
  | nil => rfl
  | cons entry rest ih =>
    rw [List.map_cons, List.nodup_cons] at hnodup
    rw [List.foldl_cons, ih _ hnodup.2, get?_settleEntry]
    by_cases hkey : entry.1 = key
    · have hfresh : (rest.find? fun other ↦ other.1 = key) = none := by
        rw [List.find?_eq_none]
        intro other hother hsame
        exact hnodup.1 (List.mem_map.mpr ⟨other, hother, (of_decide_eq_true hsame).trans hkey.symm⟩)
      rw [hfresh, if_pos hkey.symm, List.find?_cons_of_pos (by simpa using hkey)]
      rfl
    · rw [if_neg fun h ↦ hkey h.symm, List.find?_cons_of_neg (by simpa using hkey)]

/-- What a ledger holds after a snapshot is subtracted. -/
theorem get?_settle (ledger snapshot : Dict Key Amount) (key : Key) :
    (settle count ledger snapshot).get? key =
      match snapshot.get? key with
      | none => ledger.get? key
      | some flushed => settled count (ledger.get? key) flushed :=
  get?_foldl_settleEntry count snapshot.entries ledger snapshot.nodup_keys key

variable {count}

/-- The balance of postings that all count has a positive count. -/
theorem count_pos_of_post {postings : List (Key × Amount)}
    (hcounts : ∀ posting ∈ postings, 0 < count posting.2) {key : Key} {balance : Amount}
    (hget : (post Dict.empty postings).get? key = some balance) : 0 < count balance := by
  induction postings using List.reverseRecOn generalizing balance with
  | nil => simp [post] at hget
  | append_singleton postings posting ih =>
    have hlast := hcounts posting (List.mem_append_right _ (List.mem_singleton_self _))
    have hinit : ∀ other ∈ postings, 0 < count other.2 := fun other hother ↦
      hcounts other (List.mem_append_left _ hother)
    rw [post_concat, get?_credit] at hget
    by_cases hsame : key = posting.1
    · rw [if_pos hsame, ← hsame] at hget
      cases hbefore : (post Dict.empty postings).get? key with
      | none =>
        rw [hbefore, merge_none_left, Option.some_inj] at hget
        exact hget ▸ hlast
      | some before =>
        have hpos := ih hinit hbefore
        rw [hbefore, merge, Option.some_inj] at hget
        rw [← hget, map_add]
        omega
    · rw [if_neg hsame] at hget
      exact ih hinit hget

/-- Subtracting a snapshot leaves exactly the postings made since. Assumes: the snapshot holds the
first part of what the ledger holds, and every later posting counts. -/
theorem holds_settle {ledger snapshot : Dict Key Amount} {flushed later : List (Key × Amount)}
    (hsnapshot : Holds snapshot flushed) (hledger : Holds ledger (flushed ++ later))
    (hcounts : ∀ posting ∈ later, 0 < count posting.2) :
    Holds (settle count ledger snapshot) later := by
  intro key
  rw [get?_settle, hsnapshot key, hledger.get?_append key]
  cases hflushed : (post Dict.empty flushed).get? key with
  | none => rfl
  | some amount =>
    cases hlater : (post Dict.empty later).get? key with
    | none => simp [merge, settled]
    | some more =>
      have hpos : ¬ count more ≤ 0 := not_le.mpr (count_pos_of_post hcounts hlater)
      simp [merge, settled, hpos]

end Settle

section Totals

variable {Total : Type*} [AddCommGroup Total]

/-- Crediting adds the weight of the amount to a total over the ledger. -/
theorem sumBy_credit (ledger : Dict Key Amount) (weight : Key → Amount →+ Total) (key : Key)
    (amount : Amount) :
    (credit ledger key amount).sumBy (fun other value ↦ weight other value) =
      ledger.sumBy (fun other value ↦ weight other value) + weight key amount := by
  unfold credit
  cases hget : ledger.get? key with
  | none =>
    have hset := Dict.sumBy_set ledger (fun other value ↦ weight other value) key amount
    rw [Dict.weightAt, hget, Option.elim_none, add_zero] at hset
    exact hset
  | some balance =>
    have hset := Dict.sumBy_set ledger (fun other value ↦ weight other value) key
      (balance + amount)
    rw [Dict.weightAt, hget, Option.elim_some, map_add, add_comm (weight key balance),
      ← add_assoc] at hset
    exact add_right_cancel hset

/-- A total over a ledger is the total over the postings it holds. -/
theorem Holds.sumBy_eq {ledger : Dict Key Amount} {postings : List (Key × Amount)}
    (hholds : Holds ledger postings) (weight : Key → Amount →+ Total) :
    ledger.sumBy (fun key value ↦ weight key value) =
      (postings.map fun posting ↦ weight posting.1 posting.2).sum := by
  rw [Dict.sumBy_congr _ hholds]
  clear hholds
  induction postings using List.reverseRecOn with
  | nil => rfl
  | append_singleton postings posting ih =>
    rw [post_concat, sumBy_credit, ih, List.map_append, List.sum_append]
    simp

end Totals

section Collect

variable {Group Row : Type*} [DecidableEq Group] (group : Key → Group)
  (openRow : Key → Amount → Row) (mergeRow : Row → Key → Amount → Row)

/-- Add one ledger entry to the rows: open the row of its group, or merge into it. -/
def collectEntry (rows : Dict Group Row) (entry : Key × Amount) : Dict Group Row :=
  match rows.get? (group entry.1) with
  | none => rows.set (group entry.1) (openRow entry.1 entry.2)
  | some row => rows.set (group entry.1) (mergeRow row entry.1 entry.2)

/-- Group the entries of a ledger, in its order, one row a group. -/
def collect (ledger : Dict Key Amount) : Dict Group Row :=
  ledger.entries.foldl (collectEntry group openRow mergeRow) Dict.empty

variable {group openRow mergeRow}

omit [DecidableEq Key] [AddCommGroup Amount] in
/-- Every row built by grouping carries the key of its group. Assumes: opening a row gives it the
group of its entry, and merging does not change it. -/
theorem groupOf_collect {groupOf : Row → Group}
    (hopen : ∀ key amount, groupOf (openRow key amount) = group key)
    (hmerge : ∀ row key amount, groupOf (mergeRow row key amount) = groupOf row)
    (ledger : Dict Key Amount) {key : Group} {row : Row}
    (hget : (collect group openRow mergeRow ledger).get? key = some row) : groupOf row = key := by
  unfold collect at hget
  generalize ledger.entries = entries at hget
  induction entries using List.reverseRecOn generalizing key row with
  | nil => simp at hget
  | append_singleton entries entry ih =>
    rw [List.foldl_append, List.foldl_cons, List.foldl_nil, collectEntry] at hget
    cases hrow : (entries.foldl (collectEntry group openRow mergeRow) Dict.empty).get?
        (group entry.1) with
    | none =>
      rw [hrow, Dict.get?_set] at hget
      by_cases hsame : key = group entry.1
      · rw [if_pos hsame, Option.some_inj] at hget
        rw [← hget, hopen, hsame]
      · rw [if_neg hsame] at hget
        exact ih hget
    | some old =>
      rw [hrow, Dict.get?_set] at hget
      by_cases hsame : key = group entry.1
      · rw [if_pos hsame, Option.some_inj] at hget
        rw [← hget, hmerge, hsame]
        exact ih hrow
      · rw [if_neg hsame] at hget
        exact ih hget

omit [DecidableEq Key] [AddCommGroup Amount] in
/-- Every entry has a row. -/
theorem isSome_get?_collect (ledger : Dict Key Amount) {entry : Key × Amount}
    (hentry : entry ∈ ledger.entries) :
    ((collect group openRow mergeRow ledger).get? (group entry.1)).isSome := by
  unfold collect
  generalize ledger.entries = entries at hentry
  induction entries using List.reverseRecOn with
  | nil => exact absurd hentry (List.not_mem_nil)
  | append_singleton entries last ih =>
    rw [List.foldl_append, List.foldl_cons, List.foldl_nil, collectEntry]
    have hcase : group entry.1 = group last.1 ∨ entry ∈ entries := by
      rcases List.mem_append.mp hentry with hbefore | hlast
      · exact Or.inr hbefore
      · exact Or.inl (by rw [List.mem_singleton.mp hlast])
    split <;>
    · rw [Dict.get?_set]
      rcases hcase with hsame | hbefore
      · rw [if_pos hsame, Option.isSome_some]
      · split
        · rfl
        · exact ih hbefore

omit [DecidableEq Key] in
/-- Grouping keeps totals: the total over the rows, weighted by their group, is the total over the
ledger. Assumes: opening a row gives it the amount of its entry, and merging adds it. -/
theorem sumBy_collect {Total : Type*} [AddCommGroup Total] {amountOf : Row → Amount}
    (hopen : ∀ key amount, amountOf (openRow key amount) = amount)
    (hmerge : ∀ row key amount, amountOf (mergeRow row key amount) = amountOf row + amount)
    (weight : Group → Amount →+ Total) (ledger : Dict Key Amount) :
    (collect group openRow mergeRow ledger).sumBy (fun key row ↦ weight key (amountOf row)) =
      ledger.sumBy fun key amount ↦ weight (group key) amount := by
  unfold collect Dict.sumBy
  generalize ledger.entries = entries
  induction entries using List.reverseRecOn with
  | nil => rfl
  | append_singleton entries entry ih =>
    rw [List.foldl_append, List.foldl_cons, List.foldl_nil, collectEntry, List.map_append,
      List.sum_append, ← ih]
    cases hrow : (entries.foldl (collectEntry group openRow mergeRow) Dict.empty).get?
        (group entry.1) with
    | none =>
      have hset := Dict.sumBy_set (entries.foldl (collectEntry group openRow mergeRow) Dict.empty)
        (fun key row ↦ weight key (amountOf row)) (group entry.1) (openRow entry.1 entry.2)
      rw [Dict.weightAt, hrow, Option.elim_none, add_zero, hopen] at hset
      simpa [Dict.sumBy] using hset
    | some old =>
      have hset := Dict.sumBy_set (entries.foldl (collectEntry group openRow mergeRow) Dict.empty)
        (fun key row ↦ weight key (amountOf row)) (group entry.1) (mergeRow old entry.1 entry.2)
      rw [Dict.weightAt, hrow, Option.elim_some, hmerge, map_add,
        add_comm (weight (group entry.1) (amountOf old)), ← add_assoc] at hset
      simpa [Dict.sumBy] using add_right_cancel hset

end Collect

end Lnmp.Foundation.Ledger
