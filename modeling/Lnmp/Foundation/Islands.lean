import Mathlib.Algebra.BigOperators.Ring.Finset
import Mathlib.Data.List.Dedup
import Mathlib.Data.List.TakeWhile

/-!
# Gaps and islands

The islands of a list are its longest stretches of selected items (`mem_islands_iff`). A query finds
them with two windows: `LAG` flags the rows whose state is not that of the row in front, and a
running sum of the flags, over the rows that are left after a selection, numbers the groups.

`map_groupRows_eq_islands` says that the groups are the islands, although the rows between them are
gone when the flags are added up: the first row of an island is flagged, and no other row of it is.
-/

set_option autoImplicit false
set_option relaxedAutoImplicit false

namespace Lnmp.Foundation.Islands

variable {Item : Type*}

/-! ### Islands -/

section Islands

variable (selects : Item → Bool)

/-- The longest stretches of selected items. -/
def islands (items : List Item) : List (List Item) :=
  (items.splitOnP fun item ↦ !selects item).filter fun stretch ↦ !stretch.isEmpty

@[simp] theorem islands_nil : islands selects [] = [] := rfl

variable {selects} {items front rest island : List Item} {gap : Item}

/-- A gap separates what is in front of it from what is behind it. -/
theorem islands_append_cons (front rest : List Item) (hgap : selects gap = false) :
    islands selects (front ++ gap :: rest) = islands selects front ++ islands selects rest := by
  rw [islands, List.splitOnP_append_cons _ _ (by simpa using hgap), List.filter_append]
  rfl

/-- A stretch without gaps is an island. -/
theorem islands_of_all (hne : front ≠ []) (hfront : ∀ item ∈ front, selects item = true) :
    islands selects front = [front] := by
  rw [islands, List.splitOnP_eq_singleton fun item hitem ↦ by simp [hfront item hitem],
    List.filter_cons_of_pos (by simpa using hne), List.filter_nil]

/-- A list has no gap, or it goes up to a gap and on behind it. -/
theorem gap_induction (selects : Item → Bool) {motive : List Item → Prop}
    (last : ∀ front, (∀ item ∈ front, selects item = true) → motive front)
    (split : ∀ front gap rest, (∀ item ∈ front, selects item = true) → selects gap = false →
      motive rest → motive (front ++ gap :: rest)) (items : List Item) : motive items := by
  induction hlength : items.length using Nat.strong_induction_on generalizing items with
  | _ length ih =>
    have hfront : ∀ item ∈ items.takeWhile selects, selects item = true :=
      fun item hitem ↦ List.mem_takeWhile_imp hitem
    cases hrest : items.dropWhile selects with
    | nil =>
      rw [List.dropWhile_eq_nil_iff] at hrest
      exact last items hrest
    | cons gap rest =>
      have hitems : items.takeWhile selects ++ gap :: rest = items := by
        rw [← hrest]
        exact List.takeWhile_append_dropWhile
      have hgap : selects gap = false := by
        have hhead := List.head?_dropWhile_not selects items
        simpa [hrest] using hhead
      have hless : rest.length < length := by
        rw [← hlength, ← hitems, List.length_append, List.length_cons]
        omega
      rw [← hitems]
      exact split _ gap rest hfront hgap (ih _ hless rest rfl)

/-- The islands have the selected items, in their order. -/
theorem flatten_islands (selects : Item → Bool) (items : List Item) :
    (islands selects items).flatten = items.filter selects := by
  have hall : ∀ front : List Item, (∀ item ∈ front, selects item = true) →
      (islands selects front).flatten = front.filter selects := by
    intro front hfront
    rw [List.filter_eq_self.mpr hfront]
    by_cases hne : front = []
    · rw [hne]
      rfl
    · rw [islands_of_all hne hfront, List.flatten_singleton]
  induction items using gap_induction selects with
  | last front hfront => exact hall front hfront
  | split front gap rest hfront hgap ih =>
    rw [islands_append_cons front rest hgap, List.flatten_append, ih, hall front hfront,
      List.filter_append, List.filter_cons_of_neg (by simp [hgap])]

theorem ne_nil_of_mem_islands (hisland : island ∈ islands selects items) : island ≠ [] := by
  simpa using (List.mem_filter.mp hisland).2

theorem selects_of_mem_islands (hisland : island ∈ islands selects items) {item : Item}
    (hitem : item ∈ island) : selects item = true := by
  have hmem : item ∈ (islands selects items).flatten := List.mem_flatten_of_mem hisland hitem
  rw [flatten_islands] at hmem
  exact (List.mem_filter.mp hmem).2

/-- In front of an island and behind it there is a gap or nothing. -/
theorem exists_split_of_mem_islands (hisland : island ∈ islands selects items) :
    ∃ before after, items = before ++ island ++ after ∧
      (∀ gap ∈ before.getLast?, selects gap = false) ∧
      ∀ gap ∈ after.head?, selects gap = false := by
  induction items using gap_induction selects with
  | last front hfront =>
    have hne : front ≠ [] := by
      rintro rfl
      exact absurd hisland List.not_mem_nil
    rw [islands_of_all hne hfront, List.mem_singleton] at hisland
    exact ⟨[], [], by simp [hisland], by simp, by simp⟩
  | split front gap rest hfront hgap ih =>
    rw [islands_append_cons front rest hgap, List.mem_append] at hisland
    rcases hisland with hisland | hisland
    · have hne : front ≠ [] := by
        rintro rfl
        exact absurd hisland List.not_mem_nil
      rw [islands_of_all hne hfront, List.mem_singleton] at hisland
      exact ⟨[], gap :: rest, by simp [hisland], by simp, by simpa using hgap⟩
    · obtain ⟨before, after, rfl, hbefore, hafter⟩ := ih hisland
      refine ⟨front ++ gap :: before, after, by simp, fun other hother ↦ ?_, hafter⟩
      rw [List.getLast?_append_cons, List.getLast?_cons, Option.mem_some_iff] at hother
      cases hlast : before.getLast? with
      | none => simpa [hlast, ← hother] using hgap
      | some last => exact hbefore other (by simp [hlast, ← hother])

/-- A stretch with a gap or nothing on either side is an island. -/
theorem mem_islands_append {before after : List Item} (hne : island ≠ [])
    (hall : ∀ item ∈ island, selects item = true)
    (hbefore : ∀ gap ∈ before.getLast?, selects gap = false)
    (hafter : ∀ gap ∈ after.head?, selects gap = false) :
    island ∈ islands selects (before ++ island ++ after) := by
  have hown : island ∈ islands selects island := by
    rw [islands_of_all hne hall]
    exact List.mem_singleton_self island
  have hbehind : island ∈ islands selects (island ++ after) := by
    cases after with
    | nil => simpa using hown
    | cons gap after =>
      rw [islands_append_cons island after (hafter gap rfl)]
      exact List.mem_append_left _ hown
  rcases List.eq_nil_or_concat before with rfl | ⟨before, gap, rfl⟩
  · exact hbehind
  · have hgap : selects gap = false := hbefore gap (by simp)
    have hsplit : before.concat gap ++ island ++ after = before ++ gap :: (island ++ after) := by
      simp
    rw [hsplit, islands_append_cons before _ hgap]
    exact List.mem_append_right _ hbehind

/-- The islands are the stretches of selected items with a gap or nothing on either side. -/
theorem mem_islands_iff :
    island ∈ islands selects items ↔
      island ≠ [] ∧ (∀ item ∈ island, selects item = true) ∧
        ∃ before after, items = before ++ island ++ after ∧
          (∀ gap ∈ before.getLast?, selects gap = false) ∧
          ∀ gap ∈ after.head?, selects gap = false := by
  constructor
  · intro hisland
    exact ⟨ne_nil_of_mem_islands hisland, fun _ ↦ selects_of_mem_islands hisland,
      exists_split_of_mem_islands hisland⟩
  · rintro ⟨hne, hall, before, after, rfl, hbefore, hafter⟩
    exact mem_islands_append hne hall hbefore hafter

/-- Islands of a list that increases come one after the other. -/
theorem pairwise_islands {relation : Item → Item → Prop} (hitems : items.Pairwise relation) :
    (islands selects items).Pairwise fun first second ↦
      ∀ item ∈ first, ∀ other ∈ second, relation item other := by
  have hflatten : (islands selects items).flatten.Pairwise relation := by
    rw [flatten_islands]
    exact hitems.filter _
  exact (List.pairwise_flatten.mp hflatten).2

theorem pairwise_of_mem_islands {relation : Item → Item → Prop} (hitems : items.Pairwise relation)
    (hisland : island ∈ islands selects items) : island.Pairwise relation := by
  have hflatten : (islands selects items).flatten.Pairwise relation := by
    rw [flatten_islands]
    exact hitems.filter _
  exact (List.pairwise_flatten.mp hflatten).1 island hisland

end Islands

/-! ### Windows and groups -/

section Windows

variable {Key State Time : Type*}

/-- `LAG(state) OVER (..)` for each row: the state of the row in front. -/
def lag (state : Item → State) (rows : List Item) : List (Option State × Item) :=
  (none :: rows.map fun row ↦ some (state row)).zip rows

/-- `sum(term) OVER (ORDER BY time)` at a row: all rows up to its time count. -/
def runningSum [LinearOrder Time] (time : Item → Time) (term : Item → ℕ) (rows : List Item)
    (row : Item) : ℕ :=
  ((rows.filter fun other ↦ time other ≤ time row).map term).sum

/-- `GROUP BY key`: the rows of each key. -/
def groupRows [DecidableEq Key] (key : Item → Key) (rows : List Item) : List (List Item) :=
  (rows.map key).dedup.map fun value ↦ rows.filter fun row ↦ key row = value

variable [DecidableEq Key] {key : Item → Key}

theorem groupRows_nil (key : Item → Key) : groupRows key [] = [] := rfl

/-- A key that the rows in front have, and none behind them, is the first of the keys. -/
theorem dedup_map_append {front rest : List Item} (value : Key) (hne : front ≠ [])
    (hfront : ∀ row ∈ front, key row = value) (hrest : ∀ row ∈ rest, key row ≠ value) :
    ((front ++ rest).map key).dedup = value :: (rest.map key).dedup := by
  induction front with
  | nil => exact absurd rfl hne
  | cons first others ih =>
    have hfirst := hfront first (List.mem_cons_self ..)
    rw [List.cons_append, List.map_cons, hfirst]
    rcases others with _ | ⟨second, others⟩
    · refine List.dedup_cons_of_notMem fun hmem ↦ ?_
      obtain ⟨row, hrow, hkey⟩ := List.mem_map.mp hmem
      exact hrest row hrow hkey
    · have hothers : ∀ row ∈ second :: others, key row = value :=
        fun row hrow ↦ hfront row (List.mem_cons_of_mem _ hrow)
      have hmem : value ∈ (second :: others ++ rest).map key :=
        List.mem_map.mpr ⟨second, by simp, hothers second (List.mem_cons_self ..)⟩
      rw [List.dedup_cons_of_mem hmem]
      exact ih (List.cons_ne_nil _ _) hothers

/-- The rows of a key that no later row has are a group. -/
theorem groupRows_append {front rest : List Item} (value : Key) (hne : front ≠ [])
    (hfront : ∀ row ∈ front, key row = value) (hrest : ∀ row ∈ rest, key row ≠ value) :
    groupRows key (front ++ rest) = front :: groupRows key rest := by
  have hown : (front ++ rest).filter (fun row ↦ key row = value) = front := by
    rw [List.filter_append, List.filter_eq_self.mpr (by simpa using hfront),
      List.filter_eq_nil_iff.mpr (by simpa using hrest), List.append_nil]
  rw [groupRows, dedup_map_append value hne hfront hrest, List.map_cons, hown, groupRows]
  refine congrArg _ (List.map_congr_left fun other hother ↦ ?_)
  obtain ⟨row, hrow, rfl⟩ := List.mem_map.mp (List.mem_dedup.mp hother)
  have hnone : front.filter (fun first ↦ key first = key row) = [] := by
    refine List.filter_eq_nil_iff.mpr fun first hfirst hkey ↦ ?_
    rw [decide_eq_true_eq, hfront first hfirst] at hkey
    exact hrest row hrow hkey.symm
  rw [List.filter_append, hnone, List.nil_append]

/-- Keys that tell the same rows apart give the same groups. -/
theorem groupRows_of_injective {Other : Type*} [DecidableEq Other] {other : Item → Other}
    {change : Key → Other} (hchange : Function.Injective change) {rows : List Item}
    (hrows : ∀ row ∈ rows, other row = change (key row)) :
    groupRows other rows = groupRows key rows := by
  have hkeys : rows.map other = (rows.map key).map change := by
    rw [List.map_map]
    exact List.map_congr_left hrows
  rw [groupRows, hkeys, List.dedup_map_of_injective hchange, List.map_map, groupRows]
  refine List.map_congr_left fun value _ ↦ List.filter_congr fun row hrow ↦ ?_
  rw [hrows row hrow, decide_eq_decide, hchange.eq_iff]

/-! ### Flags -/

variable [DecidableEq State] {state : Item → State} {chosen : State}

/-- The rows, each with 1 when its state is not that of the row in front. -/
def flagged (state : Item → State) : Option State → List Item → List (Item × ℕ)
  | _, [] => []
  | prev, row :: rest =>
    (row, if prev = some (state row) then 0 else 1) :: flagged state (some (state row)) rest

/-- The rows, each with the sum of the terms up to it. -/
def summed : ℕ → List (Item × ℕ) → List (Item × ℕ)
  | _, [] => []
  | sum, row :: rest => (row.1, sum + row.2) :: summed (sum + row.2) rest

/-- The flags of a query with `LAG`. -/
theorem map_lag (rows : List Item) :
    (lag state rows).map (fun row ↦ (row.2, if row.1 = some (state row.2) then 0 else 1)) =
      flagged state none rows := by
  have hzip : ∀ prev : Option State, ((prev :: rows.map fun row ↦ some (state row)).zip rows).map
      (fun row ↦ (row.2, if row.1 = some (state row.2) then 0 else 1)) =
        flagged state prev rows := by
    induction rows with
    | nil => exact fun _ ↦ rfl
    | cons row rest ih =>
      intro prev
      rw [List.map_cons, List.zip_cons_cons, List.map_cons, ih, flagged]
  exact hzip none

/-- The rows up to the time of a row are those in front of it, when times increase. -/
theorem map_runningSum [LinearOrder Time] {time : Item → Time} {rows : List (Item × ℕ)}
    (htimes : rows.Pairwise fun first second ↦ time first.1 < time second.1) :
    rows.map (fun row ↦ (row.1, runningSum (fun row ↦ time row.1) Prod.snd rows row)) =
      summed 0 rows := by
  have hoffset : ∀ sum, rows.map (fun row ↦
      (row.1, sum + runningSum (fun row ↦ time row.1) Prod.snd rows row)) = summed sum rows := by
    induction rows with
    | nil => exact fun _ ↦ rfl
    | cons row rest ih =>
      intro sum
      obtain ⟨hrow, hrest⟩ := List.pairwise_cons.mp htimes
      have hlater : rest.filter (fun other ↦ decide (time other.1 ≤ time row.1)) = [] :=
        List.filter_eq_nil_iff.mpr fun other hother ↦ by simpa using hrow other hother
      rw [List.map_cons, summed, ← ih hrest]
      congr 1
      · simp [runningSum, hlater]
      · refine List.map_congr_left fun other hother ↦ ?_
        simp [runningSum, (hrow other hother).le, add_assoc]
  simpa using hoffset 0

theorem flagged_append (state : Item → State) (prev : Option State) (front rest : List Item) :
    ∃ last, flagged state prev (front ++ rest) =
      flagged state prev front ++ flagged state last rest := by
  induction front generalizing prev with
  | nil => exact ⟨prev, rfl⟩
  | cons row others ih =>
    obtain ⟨last, hlast⟩ := ih (some (state row))
    exact ⟨last, by rw [List.cons_append, flagged, hlast, flagged]; rfl⟩

theorem summed_append (sum : ℕ) (front rest : List (Item × ℕ)) :
    summed sum (front ++ rest) =
      summed sum front ++ summed (sum + (front.map Prod.snd).sum) rest := by
  induction front generalizing sum with
  | nil => rfl
  | cons row others ih =>
    rw [List.cons_append, summed, ih, summed, List.map_cons, List.sum_cons, add_assoc]
    rfl

theorem le_of_mem_summed {sum : ℕ} {rows : List (Item × ℕ)} {row : Item × ℕ}
    (hrow : row ∈ summed sum rows) : sum ≤ row.2 := by
  induction rows generalizing sum with
  | nil => exact absurd hrow List.not_mem_nil
  | cons first rest ih =>
    rcases List.mem_cons.mp hrow with rfl | hrow
    · exact Nat.le_add_right _ _
    · exact (Nat.le_add_right _ _).trans (ih hrow)

section Numbers

variable {front rest rows : List Item} {prev : Option State} {sum : ℕ}

/-- The selected rows, each with its running sum of flags. -/
def numbered (state : Item → State) (chosen : State) (prev : Option State) (sum : ℕ)
    (rows : List Item) : List (Item × ℕ) :=
  summed sum ((flagged state prev rows).filter fun row ↦ state row.1 = chosen)

/-- Behind a row of the state no row of an island is flagged. -/
theorem flagged_of_same (hfront : ∀ row ∈ front, state row = chosen) :
    flagged state (some chosen) front = front.map fun row ↦ (row, 0) := by
  induction front with
  | nil => rfl
  | cons row others ih =>
    have hrow := hfront row (List.mem_cons_self ..)
    rw [flagged, hrow, if_pos rfl,
      ih fun other hother ↦ hfront other (List.mem_cons_of_mem _ hother)]
    rfl

theorem summed_map_zero (sum : ℕ) (rows : List Item) :
    summed sum (rows.map fun row ↦ (row, 0)) = rows.map fun row ↦ (row, sum) := by
  induction rows with
  | nil => rfl
  | cons row others ih => rw [List.map_cons, summed, add_zero, ih, List.map_cons]

/-- The rows of an island behind a gap have the next number. -/
theorem summed_flagged (sum : ℕ) (hprev : prev ≠ some chosen) (hne : front ≠ [])
    (hfront : ∀ row ∈ front, state row = chosen) :
    summed sum (flagged state prev front) = front.map (fun row ↦ (row, sum + 1)) ∧
      ((flagged state prev front).map Prod.snd).sum = 1 := by
  cases front with
  | nil => exact absurd rfl hne
  | cons row others =>
    have hrow := hfront row (List.mem_cons_self ..)
    rw [flagged, hrow, if_neg hprev,
      flagged_of_same fun other hother ↦ hfront other (List.mem_cons_of_mem _ hother)]
    exact ⟨by rw [summed, summed_map_zero, List.map_cons], by simp [Function.comp_def]⟩

/-- A selected row in front of which there is a gap has a higher number. -/
theorem lt_of_mem_numbered (hprev : prev ≠ some chosen) {row : Item × ℕ}
    (hrow : row ∈ numbered state chosen prev sum rows) : sum < row.2 := by
  induction rows generalizing prev with
  | nil => exact absurd hrow List.not_mem_nil
  | cons first others ih =>
    by_cases hfirst : state first = chosen
    · rw [numbered, flagged, List.filter_cons_of_pos (by simpa using hfirst), hfirst,
        if_neg hprev, summed] at hrow
      rcases List.mem_cons.mp hrow with rfl | hrow
      · exact Nat.lt_succ_self _
      · exact le_of_mem_summed hrow
    · rw [numbered, flagged, List.filter_cons_of_neg (by simpa using hfirst)] at hrow
      exact ih (fun hsame ↦ hfirst (Option.some.inj hsame)) hrow

theorem map_fst_flagged (state : Item → State) (prev : Option State) (rows : List Item) :
    (flagged state prev rows).map Prod.fst = rows := by
  induction rows generalizing prev with
  | nil => rfl
  | cons row others ih => rw [flagged, List.map_cons, ih]

/-- The rows of a stretch are all selected. -/
theorem filter_flagged_of_all (hfront : ∀ row ∈ front, state row = chosen) :
    (flagged state prev front).filter (fun row ↦ state row.1 = chosen) =
      flagged state prev front :=
  List.filter_eq_self.mpr fun row hrow ↦ by
    have hmem := List.mem_map_of_mem (f := Prod.fst) hrow
    rw [map_fst_flagged] at hmem
    simpa using hfront row.1 hmem

/-- What a gap ends is numbered before what is behind it. -/
theorem numbered_append_cons {gap : Item} (hfront : ∀ row ∈ front, state row = chosen)
    (hgap : state gap ≠ chosen) :
    numbered state chosen prev sum (front ++ gap :: rest) =
      summed sum (flagged state prev front) ++
        numbered state chosen (some (state gap))
          (sum + ((flagged state prev front).map Prod.snd).sum) rest := by
  obtain ⟨last, hsplit⟩ := flagged_append state prev front (gap :: rest)
  rw [numbered, hsplit, flagged, List.filter_append, filter_flagged_of_all hfront,
    List.filter_cons_of_neg (by simpa using hgap), summed_append]
  rfl

/-- The groups of the numbers are the islands. -/
theorem groupRows_numbered (hprev : prev ≠ some chosen) (rows : List Item) :
    (groupRows Prod.snd (numbered state chosen prev sum rows)).map (List.map Prod.fst) =
      islands (fun row ↦ state row = chosen) rows := by
  have hrows : ∀ (front : List Item) (value : ℕ),
      (front.map fun row ↦ (row, value)).map Prod.fst = front := by
    intro front value
    simp [Function.comp_def]
  induction rows using gap_induction (fun row ↦ decide (state row = chosen))
    generalizing prev sum with
  | last front hfront =>
    have hchosen : ∀ row ∈ front, state row = chosen := by simpa using hfront
    rw [numbered, filter_flagged_of_all hchosen]
    by_cases hne : front = []
    · rw [hne]
      rfl
    · rw [(summed_flagged sum hprev hne hchosen).1, islands_of_all hne hfront]
      have hgroup : groupRows Prod.snd (front.map (fun row ↦ (row, sum + 1)) ++ []) = _ :=
        groupRows_append (sum + 1) (by simpa using hne) (by simp) (by simp)
      rw [List.append_nil, groupRows_nil] at hgroup
      rw [hgroup, List.map_singleton, hrows]
  | split front gap rest hfront hgap ih =>
    have hchosen : ∀ row ∈ front, state row = chosen := by simpa using hfront
    have hgap' : state gap ≠ chosen := by simpa using hgap
    have hislands : islands (fun row ↦ decide (state row = chosen)) (front ++ gap :: rest) = _ :=
      islands_append_cons front rest hgap
    have hnext : some (state gap) ≠ some chosen := fun hsame ↦ hgap' (Option.some.inj hsame)
    rw [numbered_append_cons hchosen hgap', hislands]
    by_cases hne : front = []
    · subst hne
      exact ih hnext
    · obtain ⟨hsummed, hsum⟩ := summed_flagged sum hprev hne hchosen
      rw [hsummed, hsum, groupRows_append (sum + 1) (by simpa using hne) (by simp)
        fun row hrow ↦ (lt_of_mem_numbered hnext hrow).ne', List.map_cons, hrows, ih hnext,
        islands_of_all hne hfront]
      rfl

end Numbers

/-- The groups that the query finds are the islands, when times increase. -/
theorem map_groupRows_eq_islands [LinearOrder Time] (state : Item → State) (chosen : State)
    {time : Item → Time} {rows : List Item}
    (htimes : rows.Pairwise fun first second ↦ time first < time second)
    {flags : List (Item × ℕ)}
    (hflags : flags = ((lag state rows).map fun row ↦
      (row.2, if row.1 = some (state row.2) then 0 else 1)).filter
        fun row ↦ state row.1 = chosen) :
    (groupRows Prod.snd (flags.map fun row ↦
      (row.1, runningSum (fun row ↦ time row.1) Prod.snd flags row))).map (List.map Prod.fst) =
        islands (fun row ↦ state row = chosen) rows := by
  have horder : (flagged state none rows).Pairwise
      fun first second ↦ time first.1 < time second.1 := by
    rw [← List.pairwise_map (f := Prod.fst) (R := fun first second ↦ time first < time second),
      map_fst_flagged]
    exact htimes
  rw [map_lag] at hflags
  rw [map_runningSum (hflags ▸ horder.filter _), hflags]
  exact groupRows_numbered (Option.some_ne_none chosen).symm rows

end Windows

end Lnmp.Foundation.Islands
