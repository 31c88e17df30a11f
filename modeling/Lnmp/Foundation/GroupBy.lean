import Lnmp.Foundation.Eviction
import Lnmp.Foundation.Ledger
import Mathlib.Algebra.BigOperators.Group.List.Basic

/-!
# Grouped totals

`SELECT group, SUM(amount) FROM table WHERE .. GROUP BY group ORDER BY group`: the entries of a
dictionary that have a group, one total a group (`totals`), in the order of the groups (`ordered`).

`get?_totals_of_holds` says that grouping a ledger is grouping the postings that it holds, so a query
over the ledger can be read as a query over the postings, also where the ledger has other keys
(`get?_totals_of_holds_regroup`).

`IsTop` is `ORDER BY total DESC LIMIT limit`, and `distinctOn` is `SELECT DISTINCT ON`.
-/

set_option autoImplicit false
set_option relaxedAutoImplicit false

namespace Lnmp.Foundation.GroupBy

variable {Key Group Outer Amount : Type*} [DecidableEq Key] [DecidableEq Group] [DecidableEq Outer]

/-! ### Postings under other keys -/

/-- The postings that have a group, under their groups. -/
def regroup (group : Key → Option Group) (postings : List (Key × Amount)) : List (Group × Amount) :=
  postings.filterMap fun posting ↦ (group posting.1).map fun other ↦ (other, posting.2)

variable {group : Key → Option Group}

omit [DecidableEq Key] [DecidableEq Group] in
theorem mem_regroup {postings : List (Key × Amount)} {posting : Group × Amount} :
    posting ∈ regroup group postings ↔
      ∃ key, group key = some posting.1 ∧ (key, posting.2) ∈ postings := by
  rw [regroup, List.mem_filterMap]
  constructor
  · rintro ⟨⟨key, amount⟩, hmem, hgroup⟩
    obtain ⟨other, hother, rfl⟩ := Option.map_eq_some_iff.mp hgroup
    exact ⟨key, hother, hmem⟩
  · rintro ⟨key, hgroup, hmem⟩
    exact ⟨(key, posting.2), hmem, by rw [hgroup]; rfl⟩

omit [DecidableEq Key] [DecidableEq Group] [DecidableEq Outer] in
/-- Grouping twice is grouping by the composed group. -/
theorem regroup_regroup (outer : Group → Option Outer) (postings : List (Key × Amount)) :
    regroup outer (regroup group postings) =
      regroup (fun key ↦ (group key).bind outer) postings := by
  rw [regroup, regroup, regroup, List.filterMap_filterMap]
  refine List.filterMap_congr fun posting _ ↦ ?_
  cases group posting.1 with
  | none => rfl
  | some other => rfl

omit [DecidableEq Key] [DecidableEq Group] in
theorem regroup_append (first second : List (Key × Amount)) :
    regroup group (first ++ second) = regroup group first ++ regroup group second :=
  List.filterMap_append

section Totals

variable [AddCommGroup Amount]

omit [DecidableEq Key] [DecidableEq Group] in
/-- The total of the postings of one group. -/
theorem sum_regroup {Total : Type*} [AddCommGroup Total] (weight : Group → Amount →+ Total)
    (postings : List (Key × Amount)) :
    ((regroup group postings).map fun posting ↦ weight posting.1 posting.2).sum =
      (postings.map fun posting ↦ (group posting.1).elim 0 fun other ↦
        weight other posting.2).sum := by
  induction postings with
  | nil => rfl
  | cons posting rest ih =>
    rw [regroup, List.filterMap_cons, List.map_cons, List.sum_cons, ← ih]
    cases hgroup : group posting.1 with
    | none => exact (zero_add _).symm
    | some other => exact List.sum_cons

/-! ### Balances -/

/-- The weight of a key as seen from another one. -/
def atKey (key other : Key) : Amount →+ Amount := if other = key then AddMonoidHom.id _ else 0

theorem atKey_apply (key other : Key) (amount : Amount) :
    atKey key other amount = if other = key then amount else 0 := by
  rw [atKey]
  split_ifs <;> rfl

/-- The balance of a key is the sum of its postings. -/
theorem getD_post (postings : List (Key × Amount)) (key : Key) :
    ((Ledger.post Dict.empty postings).get? key).getD 0 =
      (postings.map fun posting ↦ atKey key posting.1 posting.2).sum := by
  induction postings using List.reverseRecOn with
  | nil => rfl
  | append_singleton postings posting ih =>
    rw [Ledger.post_concat, Ledger.get?_credit, List.map_append, List.sum_append, ← ih,
      List.map_singleton, List.sum_singleton, atKey_apply]
    by_cases hsame : key = posting.1
    · rw [if_pos hsame, if_pos hsame.symm, ← hsame]
      cases (Ledger.post Dict.empty postings).get? key with
      | none => exact (zero_add _).symm
      | some balance => rfl
    · rw [if_neg hsame, if_neg (Ne.symm hsame), add_zero]

/-- The keys with a balance are those of the postings. -/
theorem mem_keys_post {postings : List (Key × Amount)} {key : Key} :
    key ∈ (Ledger.post Dict.empty postings).keys ↔ key ∈ postings.map Prod.fst := by
  rw [← not_iff_not, ← Dict.get?_eq_none_iff]
  refine ⟨fun hnone hmem ↦ Ledger.get?_post_ne_none hmem hnone, fun hnot ↦ ?_⟩
  rw [Ledger.get?_post_of_notMem hnot]
  rfl

/-- Dictionaries that both have a key, or both not, with one balance, hold the same for it. -/
theorem get?_eq_of_getD_eq_at {first second : Dict Key Amount} {key : Key}
    (hkey : key ∈ first.keys ↔ key ∈ second.keys)
    (hbalance : (first.get? key).getD 0 = (second.get? key).getD 0) :
    first.get? key = second.get? key := by
  have hnone := (Dict.get?_eq_none_iff first key).trans
    ((not_congr hkey).trans (Dict.get?_eq_none_iff second key).symm)
  cases hfirst : first.get? key with
  | none => exact (hnone.mp hfirst).symm
  | some amount =>
    cases hsecond : second.get? key with
    | none => exact absurd (hfirst.symm.trans (hnone.mpr hsecond)) (Option.some_ne_none _)
    | some other =>
      rw [hfirst, hsecond] at hbalance
      exact congrArg some hbalance

/-- Two dictionaries with the same keys and the same balances hold the same. -/
theorem get?_eq_of_getD_eq {first second : Dict Key Amount}
    (hkeys : ∀ key, key ∈ first.keys ↔ key ∈ second.keys)
    (hbalance : ∀ key, (first.get? key).getD 0 = (second.get? key).getD 0) (key : Key) :
    first.get? key = second.get? key :=
  get?_eq_of_getD_eq_at (hkeys key) (hbalance key)

/-- A dictionary is the ledger of its own entries. -/
theorem get?_post_entries (dict : Dict Key Amount) (key : Key) :
    (Ledger.post Dict.empty dict.entries).get? key = dict.get? key := by
  refine get?_eq_of_getD_eq (fun _ ↦ mem_keys_post) (fun other ↦ ?_) key
  have hrest : ((dict.erase other).sumBy fun found amount ↦ atKey other found amount) = 0 := by
    refine List.sum_eq_zero fun total htotal ↦ ?_
    obtain ⟨entry, hentry, rfl⟩ := List.mem_map.mp htotal
    exact (atKey_apply ..).trans (if_neg (of_decide_eq_true (List.mem_filter.mp hentry).2))
  have hsplit := dict.sumBy_eq_weightAt_add_erase (fun found amount ↦ atKey other found amount) other
  rw [hrest, add_zero, Dict.weightAt] at hsplit
  refine (getD_post dict.entries other).trans (hsplit.trans ?_)
  cases dict.get? other with
  | none => rfl
  | some amount => exact (atKey_apply other other amount).trans (if_pos rfl)

/-! ### Totals -/

/-- One total for each group of postings. -/
def totals (group : Key → Option Group) (postings : List (Key × Amount)) : Dict Group Amount :=
  Ledger.post Dict.empty (regroup group postings)

omit [DecidableEq Key] in
theorem mem_keys_totals {postings : List (Key × Amount)} {other : Group} :
    other ∈ (totals group postings).keys ↔
      ∃ key ∈ postings.map Prod.fst, group key = some other := by
  rw [totals, mem_keys_post, List.mem_map]
  constructor
  · rintro ⟨posting, hposting, rfl⟩
    obtain ⟨key, hgroup, hmem⟩ := mem_regroup.mp hposting
    exact ⟨key, List.mem_map_of_mem hmem, hgroup⟩
  · rintro ⟨key, hkey, hgroup⟩
    obtain ⟨posting, hposting, rfl⟩ := List.mem_map.mp hkey
    exact ⟨(other, posting.2), mem_regroup.mpr ⟨posting.1, hgroup, hposting⟩, rfl⟩

omit [DecidableEq Key] in
/-- The total of a group. -/
theorem getD_totals (group : Key → Option Group) (postings : List (Key × Amount)) (other : Group) :
    ((totals group postings).get? other).getD 0 =
      (postings.map fun posting ↦ if group posting.1 = some other then posting.2 else 0).sum := by
  rw [totals, getD_post, sum_regroup (atKey other)]
  refine congrArg List.sum (List.map_congr_left fun posting _ ↦ ?_)
  cases group posting.1 with
  | none => exact (if_neg (Option.some_ne_none other).symm).symm
  | some found =>
    rw [Option.elim_some, atKey_apply]
    exact if_congr Option.some_inj.symm rfl rfl

omit [DecidableEq Key] in
/-- The total of a group depends on its postings alone. Assumes: `covers` has them all. -/
theorem get?_totals_of_perm {first second : List (Key × Amount)} {other : Group}
    {covers : Key → Bool} (hcovers : ∀ key, group key = some other → covers key = true)
    (hperm : (first.filter (covers ·.1)).Perm (second.filter (covers ·.1))) :
    (totals group first).get? other = (totals group second).get? other := by
  have hkeys : ∀ postings : List (Key × Amount), other ∈ (totals group postings).keys ↔
      ∃ posting ∈ postings.filter (covers ·.1), group posting.1 = some other := by
    intro postings
    rw [mem_keys_totals]
    constructor
    · rintro ⟨key, hkey, hgroup⟩
      obtain ⟨posting, hmem, rfl⟩ := List.mem_map.mp hkey
      exact ⟨posting, List.mem_filter.mpr ⟨hmem, hcovers _ hgroup⟩, hgroup⟩
    · rintro ⟨posting, hmem, hgroup⟩
      exact ⟨posting.1, List.mem_map_of_mem (List.mem_of_mem_filter hmem), hgroup⟩
  have htotal : ∀ postings : List (Key × Amount), ((totals group postings).get? other).getD 0 =
      ((postings.filter (covers ·.1)).map fun posting ↦
        if group posting.1 = some other then posting.2 else 0).sum := by
    intro postings
    rw [getD_totals]
    induction postings with
    | nil => rfl
    | cons posting rest ih =>
      rw [List.map_cons, List.sum_cons, ih, List.filter_cons]
      cases hcovered : covers posting.1 with
      | true => rw [if_pos rfl, List.map_cons, List.sum_cons]
      | false =>
        rw [if_neg Bool.false_ne_true, if_neg, zero_add]
        exact fun hgroup ↦ Bool.false_ne_true (hcovered.symm.trans (hcovers _ hgroup))
  refine get?_eq_of_getD_eq_at ?_ ?_
  · rw [hkeys, hkeys]
    exact exists_congr fun _ ↦ and_congr_left fun _ ↦ hperm.mem_iff
  · rw [htotal, htotal, (hperm.map _).sum_eq]

omit [DecidableEq Key] in
/-- A sum over all groups is the sum over the postings that have a group. -/
theorem sumBy_totals {Total : Type*} [AddCommGroup Total] (group : Key → Option Group)
    (weight : Amount →+ Total) (postings : List (Key × Amount)) :
    (totals group postings).sumBy (fun _ amount ↦ weight amount) =
      (postings.map fun posting ↦ if (group posting.1).isSome then weight posting.2 else 0).sum := by
  have hholds : Ledger.Holds (totals group postings) (regroup group postings) := fun _ ↦ rfl
  rw [hholds.sumBy_eq fun _ ↦ weight, sum_regroup fun _ ↦ weight]
  refine congrArg List.sum (List.map_congr_left fun posting _ ↦ ?_)
  cases group posting.1 <;> rfl

/-- A sum over the entries of a ledger is a sum over the postings that it holds. -/
theorem sum_entries_of_holds {Total : Type*} [AddCommGroup Total] {ledger : Dict Key Amount}
    {postings : List (Key × Amount)} (hholds : Ledger.Holds ledger postings)
    (weight : Key → Amount →+ Total) :
    (ledger.entries.map fun entry ↦ weight entry.1 entry.2).sum =
      (postings.map fun posting ↦ weight posting.1 posting.2).sum :=
  hholds.sumBy_eq weight

theorem mem_keys_of_holds {ledger : Dict Key Amount} {postings : List (Key × Amount)}
    (hholds : Ledger.Holds ledger postings) {key : Key} :
    key ∈ ledger.keys ↔ key ∈ postings.map Prod.fst := by
  rw [← mem_keys_post, ← not_iff_not, ← Dict.get?_eq_none_iff, ← Dict.get?_eq_none_iff, hholds key]

/-- Weigh the amounts of postings by their keys. -/
def weigh {Other : Type*} (weight : Key → Amount → Other) (postings : List (Key × Amount)) :
    List (Key × Other) :=
  postings.map fun posting ↦ (posting.1, weight posting.1 posting.2)

omit [DecidableEq Key] [AddCommGroup Amount] in
theorem map_fst_weigh {Other : Type*} (weight : Key → Amount → Other)
    (postings : List (Key × Amount)) :
    (weigh weight postings).map Prod.fst = postings.map Prod.fst :=
  List.map_map ..

omit [DecidableEq Key] [AddCommGroup Amount] in
theorem filter_weigh {Other : Type*} (weight : Key → Amount → Other) (covers : Key → Bool)
    (postings : List (Key × Amount)) :
    (weigh weight postings).filter (covers ·.1) =
      weigh weight (postings.filter (covers ·.1)) :=
  List.filter_map

omit [DecidableEq Key] [AddCommGroup Amount] in
theorem get?_totals_weigh_of_perm {Other : Type*} [AddCommGroup Other]
    {first second : List (Key × Amount)} {other : Group} {covers : Key → Bool}
    (weight : Key → Amount → Other) (hcovers : ∀ key, group key = some other → covers key = true)
    (hperm : (first.filter (covers ·.1)).Perm (second.filter (covers ·.1))) :
    (totals group (weigh weight first)).get? other =
      (totals group (weigh weight second)).get? other := by
  refine get?_totals_of_perm hcovers ?_
  rw [filter_weigh, filter_weigh]
  exact hperm.map _

/-- Totals over the entries of a ledger are totals over the postings that it holds. -/
theorem get?_totals_of_holds {Other : Type*} [AddCommGroup Other] {ledger : Dict Key Amount}
    {postings : List (Key × Amount)} (hholds : Ledger.Holds ledger postings)
    (group : Key → Option Group) (weight : Key → Amount →+ Other) (other : Group) :
    (totals group (weigh (fun key amount ↦ weight key amount) ledger.entries)).get? other =
      (totals group (weigh (fun key amount ↦ weight key amount) postings)).get? other := by
  refine get?_eq_of_getD_eq (fun found ↦ ?_) (fun found ↦ ?_) other
  · rw [mem_keys_totals, mem_keys_totals, map_fst_weigh, map_fst_weigh]
    exact exists_congr fun key ↦ and_congr_left fun _ ↦ mem_keys_of_holds hholds
  · have hweight : ∀ (key : Key) (amount : Amount),
        (if group key = some found then weight key else 0) amount =
          if group key = some found then weight key amount else 0 := by
      intro key amount
      split_ifs <;> rfl
    have hsum := sum_entries_of_holds hholds fun key ↦
      if group key = some found then weight key else 0
    simp only [hweight] at hsum
    rw [getD_totals, getD_totals, weigh, weigh, List.map_map, List.map_map]
    exact hsum

omit [DecidableEq Key] [DecidableEq Group] [AddCommGroup Amount] in
theorem weigh_regroup {Other : Type*} (weight : Amount → Other) (postings : List (Key × Amount)) :
    weigh (fun _ amount ↦ weight amount) (regroup group postings) =
      regroup group (weigh (fun _ amount ↦ weight amount) postings) := by
  rw [weigh, weigh, regroup, regroup, List.map_filterMap, List.filterMap_map]
  refine List.filterMap_congr fun posting _ ↦ ?_
  rw [Function.comp_apply, Option.map_map]
  rfl

omit [DecidableEq Key] in
/-- Totals over a ledger of regrouped postings are totals over the postings. -/
theorem get?_totals_of_holds_regroup {Other : Type*} [AddCommGroup Other]
    {ledger : Dict Group Amount} {postings : List (Key × Amount)}
    (hholds : Ledger.Holds ledger (regroup group postings)) (outer : Group → Option Outer)
    (weight : Amount →+ Other) (other : Outer) :
    (totals outer (weigh (fun _ amount ↦ weight amount) ledger.entries)).get? other =
      (totals (fun key ↦ (group key).bind outer)
        (weigh (fun _ amount ↦ weight amount) postings)).get? other := by
  rw [get?_totals_of_holds hholds outer (fun _ ↦ weight), weigh_regroup, totals, totals,
    regroup_regroup]

omit [DecidableEq Key] in
/-- Totals over a ledger of postings under other keys are totals over the postings, also where the
weights depend on the keys. -/
theorem get?_totals_of_holds_map {Other : Type*} [AddCommGroup Other] {ledger : Dict Group Amount}
    {postings : List (Key × Amount)} {view : Key → Group}
    (hholds : Ledger.Holds ledger (regroup (fun key ↦ some (view key)) postings))
    (outer : Group → Option Outer) (weight : Group → Amount →+ Other) (other : Outer) :
    (totals outer (weigh (fun key amount ↦ weight key amount) ledger.entries)).get? other =
      (totals (fun key ↦ outer (view key))
        (weigh (fun key amount ↦ weight (view key) amount) postings)).get? other := by
  rw [get?_totals_of_holds hholds outer weight, totals, totals, weigh, weigh, regroup, regroup,
    regroup, List.map_filterMap, List.filterMap_filterMap, List.filterMap_map]
  rfl

omit [DecidableEq Key] in
/-- Totals over the entries of a ledger, without weights. -/
theorem get?_totals_entries {ledger : Dict Group Amount} {postings : List (Group × Amount)}
    (hholds : Ledger.Holds ledger postings) (outer : Group → Option Outer) (other : Outer) :
    (totals outer ledger.entries).get? other = (totals outer postings).get? other := by
  have hid : ∀ list : List (Group × Amount),
      weigh (fun _ amount ↦ AddMonoidHom.id Amount amount) list = list := List.map_id
  have hweighed := get?_totals_of_holds hholds outer (fun _ ↦ AddMonoidHom.id Amount) other
  rwa [hid, hid] at hweighed

omit [DecidableEq Key] in
/-- Postings with the same totals by a group have the same totals by a coarser one. -/
theorem get?_totals_bind_congr {Source : Type*} {inner : Key → Option Group}
    {innerSource : Source → Option Group} {postings : List (Key × Amount)}
    {sources : List (Source × Amount)}
    (hsame : ∀ found, (totals inner postings).get? found = (totals innerSource sources).get? found)
    (outer : Group → Option Outer) (other : Outer) :
    (totals (fun key ↦ (inner key).bind outer) postings).get? other =
      (totals (fun source ↦ (innerSource source).bind outer) sources).get? other := by
  have hpostings : Ledger.Holds (totals inner postings) (regroup inner postings) := fun _ ↦ rfl
  have hsources : Ledger.Holds (totals inner postings) (regroup innerSource sources) := hsame
  have htotals := (get?_totals_entries hpostings outer other).symm.trans
    (get?_totals_entries hsources outer other)
  rwa [totals, totals, regroup_regroup, regroup_regroup] at htotals

omit [DecidableEq Key] in
/-- A ledger that holds postings holds others with the same balances in place of the last ones. -/
theorem holds_append_congr {ledger : Dict Group Amount} {first second third : List (Group × Amount)}
    (hholds : Ledger.Holds ledger (first ++ second))
    (hsame : ∀ key, (Ledger.post Dict.empty second).get? key =
      (Ledger.post Dict.empty third).get? key) : Ledger.Holds ledger (first ++ third) := by
  intro key
  have hthird : Ledger.Holds (Ledger.post Dict.empty (first ++ third)) (first ++ third) :=
    fun _ ↦ rfl
  rw [hholds.get?_append, hthird.get?_append, hsame]

omit [DecidableEq Key] in
/-- The rows that `Ledger.collect` makes of the groups have the totals. Assumes: opening a row gives
it the amount of its entry, and merging adds it. -/
theorem holds_mapValues_collect {Row : Type*} {find : Key → Group} {openRow : Key → Amount → Row}
    {mergeRow : Row → Key → Amount → Row} {amountOf : Row → Amount}
    (hopen : ∀ key amount, amountOf (openRow key amount) = amount)
    (hmerge : ∀ row key amount, amountOf (mergeRow row key amount) = amountOf row + amount)
    (ledger : Dict Key Amount) :
    Ledger.Holds ((Ledger.collect find openRow mergeRow ledger).mapValues amountOf)
      (regroup (fun key ↦ some (find key)) ledger.entries) := by
  unfold Ledger.collect
  generalize ledger.entries = entries
  induction entries using List.reverseRecOn with
  | nil => exact fun _ ↦ rfl
  | append_singleton entries entry ih =>
    intro key
    have hlast : regroup (fun key ↦ some (find key)) [entry] = [(find entry.1, entry.2)] := rfl
    rw [regroup_append, hlast, Ledger.post_concat,
      Ledger.get?_credit, ← ih (find entry.1), ← ih key, List.foldl_append, List.foldl_cons,
      List.foldl_nil, Ledger.collectEntry, Dict.get?_mapValues, Dict.get?_mapValues,
      Dict.get?_mapValues]
    cases hrow : (entries.foldl (Ledger.collectEntry find openRow mergeRow) Dict.empty).get?
        (find entry.1) with
    | none =>
      dsimp only
      rw [Dict.get?_set]
      split_ifs
      · rw [Option.map_some, Option.map_none, hopen, Ledger.merge_none_left]
      · rfl
    | some row =>
      dsimp only
      rw [Dict.get?_set]
      split_ifs
      · rw [Option.map_some, Option.map_some, hmerge]
        rfl
      · rfl

end Totals

/-! ### First rows -/

section DistinctOn

variable {Row : Type*} (groupOf : Row → Group)

/-- A row is taken when no row of its group was. -/
def takeFirst (taken : Dict Group Row) (row : Row) : Dict Group Row :=
  if (taken.get? (groupOf row)).isSome then taken else taken.set (groupOf row) row

/-- `SELECT DISTINCT ON (group) .. ORDER BY group, ..`: of the rows in their order, the first of each
group. -/
def distinctOn (rows : List Row) : Dict Group Row := rows.foldl (takeFirst groupOf) Dict.empty

theorem get?_foldl_takeFirst (taken : Dict Group Row) (rows : List Row) (group : Group) :
    (rows.foldl (takeFirst groupOf) taken).get? group =
      (taken.get? group).or (rows.find? fun row ↦ groupOf row = group) := by
  induction rows generalizing taken with
  | nil => exact (Option.or_none ..).symm
  | cons row rest ih =>
    rw [List.foldl_cons, ih, List.find?_cons, takeFirst]
    by_cases hgroup : groupOf row = group
    · subst hgroup
      cases htaken : taken.get? (groupOf row) with
      | none => simp [Dict.get?_set]
      | some first => simp [htaken]
    · rw [decide_eq_false hgroup]
      split_ifs
      · rfl
      · rw [Dict.get?_set, if_neg (Ne.symm hgroup)]

theorem get?_distinctOn (rows : List Row) (group : Group) :
    (distinctOn groupOf rows).get? group = rows.find? fun row ↦ groupOf row = group :=
  get?_foldl_takeFirst groupOf Dict.empty rows group

end DistinctOn

/-! ### The largest totals -/

section Top

variable {Value Weight : Type*} [LinearOrder Weight] {weight : Value → Weight} {limit : ℕ}
  {dict : Dict Group Value} {rows : List (Group × Value)}

/-- `ORDER BY weight DESC LIMIT limit`: the first of the entries in a descending order. Entries of
the same weight come in any order. -/
def IsTop (weight : Value → Weight) (limit : ℕ) (dict : Dict Group Value)
    (rows : List (Group × Value)) : Prop :=
  ∃ sorted : List (Group × Value), sorted.Perm dict.entries ∧
    sorted.Pairwise (fun first second ↦ weight second.2 ≤ weight first.2) ∧ rows = sorted.take limit

/-- The answer that keeps the order of the entries of the same weight. -/
def top (weight : Value → Weight) (limit : ℕ) (dict : Dict Group Value) : List (Group × Value) :=
  (Eviction.byAge (fun entry ↦ OrderDual.toDual (weight entry.2)) dict.entries).take limit

omit [DecidableEq Group] in
theorem isTop_top (weight : Value → Weight) (limit : ℕ) (dict : Dict Group Value) :
    IsTop weight limit dict (top weight limit dict) :=
  ⟨_, Eviction.perm_byAge _ _,
    (Eviction.pairwise_byAge (fun entry ↦ OrderDual.toDual (weight entry.2)) dict.entries).imp
      OrderDual.toDual_le_toDual.mp, rfl⟩

omit [DecidableEq Group] in
theorem IsTop.length_le (htop : IsTop weight limit dict rows) : rows.length ≤ limit := by
  obtain ⟨sorted, -, -, rfl⟩ := htop
  exact List.length_take_le ..

omit [DecidableEq Group] in
theorem IsTop.nodup (htop : IsTop weight limit dict rows) : (rows.map Prod.fst).Nodup := by
  obtain ⟨sorted, hperm, -, rfl⟩ := htop
  have hsorted : (sorted.map Prod.fst).Nodup := (hperm.map Prod.fst).nodup_iff.mpr dict.nodup_keys
  rw [List.map_take]
  exact hsorted.sublist (List.take_sublist ..)

/-- A listed row is an entry. -/
theorem IsTop.get? (htop : IsTop weight limit dict rows) {row : Group × Value} (hrow : row ∈ rows) :
    dict.get? row.1 = some row.2 := by
  obtain ⟨sorted, hperm, -, rfl⟩ := htop
  exact (Dict.get?_eq_some_iff ..).mpr (hperm.mem_iff.mp (List.mem_of_mem_take hrow))

/-- An entry that is not listed had no place, and is not larger than a listed one. -/
theorem IsTop.le_of_notMem (htop : IsTop weight limit dict rows) {group : Group} {value : Value}
    (hget : dict.get? group = some value) (hgroup : group ∉ rows.map Prod.fst) :
    rows.length = limit ∧ ∀ row ∈ rows, weight value ≤ weight row.2 := by
  obtain ⟨sorted, hperm, hsorted, rfl⟩ := htop
  have hmem : (group, value) ∈ sorted.take limit ++ sorted.drop limit := by
    rw [List.take_append_drop]
    exact hperm.mem_iff.mpr ((Dict.get?_eq_some_iff ..).mp hget)
  have hbehind : (group, value) ∈ sorted.drop limit :=
    (List.mem_append.mp hmem).resolve_left fun hfront ↦ hgroup (List.mem_map_of_mem hfront)
  refine ⟨?_, fun row hrow ↦ ?_⟩
  · have hlength := List.length_pos_of_mem hbehind
    rw [List.length_drop] at hlength
    rw [List.length_take]
    omega
  · rw [← List.take_append_drop limit sorted, List.pairwise_append] at hsorted
    exact hsorted.2.2 row hrow _ hbehind

end Top

/-! ### Order -/

section Order

variable {Value : Type*} [LinearOrder Group]

/-- The entries in the order of their keys. -/
def ordered (dict : Dict Group Value) : List (Group × Value) := Eviction.byAge Prod.fst dict.entries

omit [DecidableEq Group] in
theorem perm_ordered (dict : Dict Group Value) : (ordered dict).Perm dict.entries :=
  Eviction.perm_byAge _ _

omit [DecidableEq Group] in
/-- Every key stands once, in ascending order. -/
theorem pairwise_ordered (dict : Dict Group Value) :
    ((ordered dict).map Prod.fst).Pairwise (· < ·) := by
  have hnodup : ((ordered dict).map Prod.fst).Nodup :=
    ((perm_ordered dict).map Prod.fst).nodup_iff.mpr dict.nodup_keys
  refine List.Pairwise.imp₂ (fun _ _ hle hne ↦ lt_of_le_of_ne hle hne) ?_ hnodup
  exact List.pairwise_map.mpr (Eviction.pairwise_byAge _ _)

theorem mem_ordered {dict : Dict Group Value} {entry : Group × Value} :
    entry ∈ ordered dict ↔ dict.get? entry.1 = some entry.2 := by
  rw [(perm_ordered dict).mem_iff, Dict.get?_eq_some_iff]

omit [DecidableEq Group] in
theorem mem_map_fst_ordered {dict : Dict Group Value} {key : Group} :
    key ∈ (ordered dict).map Prod.fst ↔ key ∈ dict.keys :=
  ((perm_ordered dict).map Prod.fst).mem_iff

omit [DecidableEq Group] in
/-- A sum over the ordered entries is the sum over the dictionary. -/
theorem sum_ordered {Total : Type*} [AddCommMonoid Total] (dict : Dict Group Value)
    (weight : Group → Value → Total) :
    ((ordered dict).map fun entry ↦ weight entry.1 entry.2).sum = dict.sumBy weight :=
  ((perm_ordered dict).map _).sum_eq

/-- The total of an ordered group of the entries of a ledger, in terms of its postings. -/
theorem total_of_mem_ordered [AddCommGroup Value]
    {ledger : Dict Key Value} {postings : List (Key × Value)}
    (hholds : Ledger.Holds ledger postings) {group : Key → Option Group} {entry : Group × Value}
    (hentry : entry ∈ ordered (totals group ledger.entries)) :
    entry.2 = (postings.map fun posting ↦
      if group posting.1 = some entry.1 then posting.2 else 0).sum := by
  have hget := mem_ordered.mp hentry
  rw [get?_totals_entries hholds] at hget
  rw [← getD_totals, hget, Option.getD_some]

end Order

end Lnmp.Foundation.GroupBy
