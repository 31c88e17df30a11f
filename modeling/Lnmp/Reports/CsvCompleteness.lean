import Lnmp.Reports.CsvExport

/-!
# When the CSV export is complete

The generator ends after some rounds, since each cursor is behind the one before. It gives at least
as many rows as there are events, and exactly as many when each full page ends with an event that
starts apart from the one in front of it: otherwise the next page repeats events.
-/

set_option autoImplicit false
set_option relaxedAutoImplicit false

namespace Lnmp.Reports

open Lnmp.Foundation Lnmp.Foundation.CsvText Lnmp.Foundation.Eviction Lnmp.Monitoring

/-! ### The objects of a page -/

section Loaded

variable {formats : ExportFormats} {selectedCols : List ExportColumn}
  {rows : List (ExportEvent × ExportEndpoint)} {first second : ExportEvent}

theorem length_loadedRows (rows : List (ExportEvent × ExportEndpoint)) :
    (loadedRows rows).length = rows.length := List.length_map _

/-- Two events look alike when they do for one endpoint. -/
theorem lookAlike_iff (endpoint : ExportEndpoint) :
    LookAlike formats selectedCols first second ↔
      exportFields formats selectedCols (first, endpoint) =
        exportFields formats selectedCols (second, endpoint) := by
  refine ⟨fun halike ↦ halike endpoint, fun hsame other ↦ ?_⟩
  refine List.map_congr_left fun column hcolumn ↦ ?_
  have hfield := List.map_inj_left.mp hsame column hcolumn
  cases column with
  | hostname => rfl
  | ipAddress => rfl
  | deviceType => rfl
  | endpointId => exact hfield
  | timestamp => exact hfield
  | operationalState => exact hfield
  | detailedState => exact hfield
  | packetSuccessRate => exact hfield
  | avgRttMs => exact hfield

theorem LookAlike.symm (halike : LookAlike formats selectedCols first second) :
    LookAlike formats selectedCols second first := fun endpoint ↦ (halike endpoint).symm

theorem LookAlike.trans {third : ExportEvent}
    (halike : LookAlike formats selectedCols first second)
    (hnext : LookAlike formats selectedCols second third) :
    LookAlike formats selectedCols first third :=
  fun endpoint ↦ (halike endpoint).trans (hnext endpoint)

/-- The object of a row is the first of the page with its start. -/
theorem exists_first (hrow : second ∈ rows.map Prod.fst) :
    ∃ before row behind, rows = before ++ row :: behind ∧ row.1.startTime = second.startTime ∧
      (∀ other ∈ before, other.1.startTime ≠ second.startTime) ∧
      rows.find? (fun other ↦ other.1.startTime = second.startTime) = some row := by
  obtain ⟨own, hown, rfl⟩ := List.mem_map.mp hrow
  cases hfind : rows.find? fun other ↦ other.1.startTime = own.1.startTime with
  | none =>
    have hnone := List.find?_eq_none.mp hfind own hown
    exact absurd (decide_eq_true rfl) hnone
  | some row =>
    obtain ⟨hstart, before, behind, rfl, hbefore⟩ := List.find?_eq_some_iff_append.mp hfind
    exact ⟨before, row, behind, rfl, by simpa using hstart, by simpa using hbefore, rfl⟩

/-- The rows of a page look as they should exactly when events that start together look alike. -/
theorem map_exportFields_loadedRows_iff :
    (loadedRows rows).map (exportFields formats selectedCols) =
        rows.map (exportFields formats selectedCols) ↔
      (rows.map Prod.fst).Pairwise fun first second ↦
        first.startTime = second.startTime → LookAlike formats selectedCols first second := by
  rw [loadedRows, List.map_map, List.map_inj_left]
  constructor
  · intro hsame
    have hfirst : ∀ row ∈ rows, ∀ object,
        rows.find? (fun other ↦ other.1.startTime = row.1.startTime) = some object →
          LookAlike formats selectedCols object.1 row.1 := by
      intro row hrow object hobject
      have hfields := hsame row hrow
      rw [Function.comp_apply, hobject] at hfields
      exact (lookAlike_iff row.2).mpr hfields
    rw [List.pairwise_map]
    refine List.pairwise_of_forall_mem_list fun row hrow other hother hstart ↦ ?_
    obtain ⟨-, object, -, -, -, -, hobject⟩ := exists_first (List.mem_map_of_mem hrow)
    have hobject' := hobject
    rw [hstart] at hobject'
    exact (hfirst row hrow object hobject).symm.trans (hfirst other hother object hobject')
  · intro hpairwise row hrow
    obtain ⟨before, object, behind, hrows, hstart, hbefore, hobject⟩ :=
      exists_first (List.mem_map_of_mem hrow)
    rw [Function.comp_apply, hobject]
    refine (lookAlike_iff row.2).mp ?_
    rw [hrows] at hrow hpairwise
    rcases List.mem_append.mp hrow with hmem | hmem
    · exact absurd rfl (hbefore row hmem)
    · rcases List.mem_cons.mp hmem with rfl | hmem
      · exact fun _ ↦ rfl
      · rw [List.map_append, List.map_cons] at hpairwise
        exact (List.pairwise_cons.mp (List.pairwise_append.mp hpairwise).2.1).1 row.1
          (List.mem_map_of_mem hmem) hstart

/-- The objects of a page look like its rows, whatever is behind, when both parts do. -/
theorem map_exportFields_loadedRows_append_iff
    {read behind : List (ExportEvent × ExportEndpoint)} :
    (loadedRows rows ++ read).map (exportFields formats selectedCols) =
        (rows ++ behind).map (exportFields formats selectedCols) ↔
      (loadedRows rows).map (exportFields formats selectedCols) =
          rows.map (exportFields formats selectedCols) ∧
        read.map (exportFields formats selectedCols) =
          behind.map (exportFields formats selectedCols) := by
  rw [List.map_append, List.map_append]
  refine ⟨fun hsame ↦ List.append_inj hsame ?_, fun hboth ↦ by rw [hboth.1, hboth.2]⟩
  rw [List.length_map, List.length_map, length_loadedRows]

end Loaded

/-! ### The ends of pages -/

section Ends

variable {formats : ExportFormats} {selectedCols : List ExportColumn} {limit : ℕ}
  {events : List ExportEvent}

theorem isReadable_nil : IsReadable formats selectedCols limit [] where
  alike := List.Pairwise.nil
  apart := fun _ _ hlast ↦ absurd hlast (Option.not_mem_none _)

/-- The pages are the first page and those behind it. -/
theorem arePagesReadable_iff :
    ArePagesReadable formats selectedCols limit events ↔
      IsReadable formats selectedCols limit (events.take limit) ∧
        ArePagesReadable formats selectedCols limit (events.drop limit) := by
  constructor
  · intro hall
    refine ⟨by simpa using hall 0, fun number ↦ ?_⟩
    have hnext := hall (number + 1)
    rwa [Nat.succ_mul, Nat.add_comm, ← List.drop_drop] at hnext
  · rintro ⟨hfirst, hrest⟩ number
    cases number with
    | zero => simpa using hfirst
    | succ number =>
      rw [Nat.succ_mul, Nat.add_comm, ← List.drop_drop]
      exact hrest number

theorem arePagesReadable_nil : ArePagesReadable formats selectedCols limit [] := by
  intro number
  rw [List.drop_nil, List.take_nil]
  exact isReadable_nil

/-- A full page in front. -/
theorem arePagesReadable_append_iff {front : List ExportEvent} (hlength : front.length = limit) :
    ArePagesReadable formats selectedCols limit (front ++ events) ↔
      IsReadable formats selectedCols limit front ∧
        ArePagesReadable formats selectedCols limit events := by
  rw [arePagesReadable_iff, List.take_left' hlength, List.drop_left' hlength]

/-- The events of a page that start with its last one are one event exactly when the last two events
of the page start apart. -/
theorem apart_iff {before behind : List ExportEvent} {first : ExportEvent}
    (horder : (before ++ first :: behind).Pairwise fun event other ↦
      event.startTime ≤ other.startTime)
    (hbefore : ∀ other ∈ before, other.startTime ≠ first.startTime)
    (hlast : ∀ last ∈ (first :: behind).getLast?, last.startTime = first.startTime) :
    (∀ last ∈ (before ++ first :: behind).getLast?,
      ∀ other ∈ (before ++ first :: behind).dropLast.getLast?,
        other.startTime ≠ last.startTime) ↔ behind = [] := by
  rcases List.eq_nil_or_concat behind with rfl | ⟨middle, last, rfl⟩
  · refine iff_of_true ?_ rfl
    rw [List.getLast?_concat, List.dropLast_concat]
    intro last hmem other hother
    obtain rfl := Option.some.inj hmem
    exact hbefore other (List.mem_of_getLast? hother)
  · refine iff_of_false (fun hapart ↦ ?_) (by simp)
    have hpage : before ++ first :: middle.concat last = (before ++ first :: middle) ++ [last] := by
      simp
    rw [hpage] at hapart horder
    rw [List.getLast?_concat, List.dropLast_concat] at hapart
    have hend : (first :: middle.concat last).getLast? = some last := by
      rw [List.concat_eq_append, ← List.cons_append, List.getLast?_concat]
    -- the event in front of the last one starts between the first one and it
    cases hother : (first :: middle).getLast? with
    | none => exact absurd (List.getLast?_eq_none_iff.mp hother) (List.cons_ne_nil _ _)
    | some other =>
      have hmem := List.mem_of_getLast? hother
      refine hapart last rfl other ?_ (le_antisymm ?_ ?_)
      · rw [List.getLast?_append_of_ne_nil _ (List.cons_ne_nil _ _)]
        exact hother
      · exact (List.pairwise_append.mp horder).2.2 other (List.mem_append_right _ hmem) last
          (List.mem_singleton_self last)
      · rw [hlast last hend]
        rcases List.mem_cons.mp hmem with rfl | hmiddle
        · exact le_rfl
        · exact List.rel_of_pairwise_cons (List.pairwise_append.mp
            (List.pairwise_append.mp horder).1).2.1 hmiddle

end Ends

/-! ### The walk over the pages -/

section Walk

variable {formats : ExportFormats} {selectedCols : List ExportColumn} {limit : ℕ}
  {page : Option (ℤ ×ₗ ℕ) → List (ExportEvent × ExportEndpoint)}
  {write : ExportBuffer → ExportEvent × ExportEndpoint → ExportBuffer}
  {rest : List (ExportEvent × ExportEndpoint)} {cursor : Option (ℤ ×ₗ ℕ)}

/-- What the loop reads from a cursor on, whatever is buffered: all the rows, and these only when
the pages are readable. -/
def ReadsFrom (formats : ExportFormats) (selectedCols : List ExportColumn)
    (page : Option (ℤ ×ₗ ℕ) → List (ExportEvent × ExportEndpoint))
    (write : ExportBuffer → ExportEvent × ExportEndpoint → ExportBuffer) (limit : ℕ)
    (cursor : Option (ℤ ×ₗ ℕ)) (rest read : List (ExportEvent × ExportEndpoint)) : Prop :=
  (∃ enough, ∀ rounds, enough ≤ rounds → ∀ buffer,
    exportPages page write limit rounds cursor buffer = some (read.foldl write buffer)) ∧
  rest.length ≤ read.length ∧
  (read.map (exportFields formats selectedCols) = rest.map (exportFields formats selectedCols) ↔
    ArePagesReadable formats selectedCols limit (rest.map Prod.fst))

/-- The last page: it is empty, or has fewer rows than the limit. -/
theorem readsFrom_last (hcursor : page cursor = rest) (hlength : rest.length < limit) :
    ReadsFrom formats selectedCols page write limit cursor rest (loadedRows rest) := by
  have htake : rest.take limit = rest := List.take_of_length_le hlength.le
  refine ⟨⟨1, fun rounds hrounds buffer ↦ ?_⟩, (length_loadedRows rest).ge, ?_⟩
  · obtain ⟨rounds, rfl⟩ := Nat.exists_eq_add_of_le' hrounds
    rw [exportPages, hcursor, htake]
    dsimp only
    cases hlast : (loadedRows rest).getLast? with
    | none => rw [List.getLast?_eq_none_iff.mp hlast]; rfl
    | some last =>
      dsimp only
      rw [if_pos (by rwa [length_loadedRows])]
  · rw [map_exportFields_loadedRows_iff, arePagesReadable_iff, ← List.map_take, ← List.map_drop,
      htake, List.drop_of_length_le hlength.le]
    constructor
    · intro halike
      refine ⟨⟨halike, fun hfull ↦ ?_⟩, arePagesReadable_nil⟩
      rw [List.length_map] at hfull
      exact absurd hfull hlength.ne
    · exact fun hreadable ↦ hreadable.1.alike

/-- The object of the last row of a page is that row exactly when the last two events start
apart. -/
theorem apart_map_fst_iff {before behind : List (ExportEvent × ExportEndpoint)}
    {object last : ExportEvent × ExportEndpoint}
    (hlast : (before ++ object :: behind).getLast? = some last)
    (hstart : object.1.startTime = last.1.startTime)
    (hbefore : ∀ other ∈ before, other.1.startTime ≠ last.1.startTime)
    (horder : (before ++ object :: behind).Pairwise fun row other ↦
      row.1.startTime ≤ other.1.startTime) :
    (∀ last ∈ ((before ++ object :: behind).map Prod.fst).getLast?,
      ∀ other ∈ ((before ++ object :: behind).map Prod.fst).dropLast.getLast?,
        other.startTime ≠ last.startTime) ↔ behind = [] := by
  have hpage : (before ++ object :: behind).map Prod.fst =
      before.map Prod.fst ++ object.1 :: behind.map Prod.fst := by
    rw [List.map_append, List.map_cons]
  have hsorted : ((before ++ object :: behind).map Prod.fst).Pairwise fun event other ↦
      event.startTime ≤ other.startTime := List.pairwise_map.mpr horder
  have hlast' : ∀ event ∈ (object.1 :: behind.map Prod.fst).getLast?,
      event.startTime = object.1.startTime := by
    intro event hevent
    rw [← List.getLast?_append_of_ne_nil (before.map Prod.fst) (List.cons_ne_nil _ _), ← hpage,
      List.getLast?_map, hlast, Option.map_some, Option.mem_some_iff] at hevent
    rw [← hevent, hstart]
  have hbefore' : ∀ other ∈ before.map Prod.fst, other.startTime ≠ object.1.startTime := by
    intro other hother
    obtain ⟨row, hrow, rfl⟩ := List.mem_map.mp hother
    rw [hstart]
    exact hbefore row hrow
  rw [hpage] at hsorted ⊢
  rw [apart_iff hsorted hbefore' hlast', List.map_eq_nil_iff]

/-- A full page is written, and the loop goes on behind the object of its last row. -/
theorem exportPages_full {before behind tail : List (ExportEvent × ExportEndpoint)}
    {object last : ExportEvent × ExportEndpoint}
    (hcursor : page cursor = before ++ object :: behind ++ tail)
    (hlength : (before ++ object :: behind).length = limit)
    (hlast : (before ++ object :: behind).getLast? = some last)
    (hobject : (before ++ object :: behind).find?
      (fun other ↦ other.1.startTime = last.1.startTime) = some object)
    (rounds : ℕ) (buffer : ExportBuffer) :
    exportPages page write limit (rounds + 1) cursor buffer =
      exportPages page write limit rounds (some (exportKey object.1))
        ((loadedRows (before ++ object :: behind)).foldl write buffer) := by
  have htake : (before ++ object :: behind ++ tail).take limit = before ++ object :: behind := by
    rw [← hlength, List.take_left']
    rfl
  have hloaded : (loadedRows (before ++ object :: behind)).getLast? = some (object.1, last.2) := by
    rw [loadedRows, List.getLast?_map, hlast, Option.map_some, hobject]
    rfl
  rw [exportPages, hcursor, htake]
  dsimp only
  rw [hloaded]
  dsimp only
  rw [if_neg (by rw [length_loadedRows, hlength]; exact lt_irrefl _)]

/-- A full page, and what is read behind the object of its last row. -/
theorem readsFrom_full {before behind tail read : List (ExportEvent × ExportEndpoint)}
    {object last : ExportEvent × ExportEndpoint}
    (hcursor : page cursor = before ++ object :: behind ++ tail)
    (hlength : (before ++ object :: behind).length = limit)
    (hlast : (before ++ object :: behind).getLast? = some last)
    (hobject : (before ++ object :: behind).find?
      (fun other ↦ other.1.startTime = last.1.startTime) = some object)
    (hstart : object.1.startTime = last.1.startTime)
    (hbefore : ∀ other ∈ before, other.1.startTime ≠ last.1.startTime)
    (horder : (before ++ object :: behind).Pairwise fun row other ↦
      row.1.startTime ≤ other.1.startTime)
    (hnext : ReadsFrom formats selectedCols page write limit (some (exportKey object.1))
      (behind ++ tail) read) :
    ReadsFrom formats selectedCols page write limit cursor (before ++ object :: behind ++ tail)
      (loadedRows (before ++ object :: behind) ++ read) := by
  obtain ⟨⟨enough, hrounds⟩, hmore, hread⟩ := hnext
  have hends := apart_map_fst_iff hlast hstart hbefore horder
  refine ⟨⟨enough + 1, fun rounds hle buffer ↦ ?_⟩, ?_, ?_⟩
  · obtain ⟨rounds, rfl⟩ := Nat.exists_eq_add_of_le' ((Nat.succ_le_succ (Nat.zero_le _)).trans hle)
    rw [exportPages_full hcursor hlength hlast hobject,
      hrounds rounds (Nat.succ_le_succ_iff.mp hle), List.foldl_append]
  · simp only [List.length_append, length_loadedRows] at hmore ⊢
    omega
  · have hpage : ((before ++ object :: behind).map Prod.fst).length = limit := by
      rwa [List.length_map]
    rw [List.map_append (f := Prod.fst), arePagesReadable_append_iff hpage]
    by_cases hempty : behind = []
    · subst hempty
      rw [List.nil_append] at hread
      rw [map_exportFields_loadedRows_append_iff, map_exportFields_loadedRows_iff, hread]
      exact and_congr_left' ⟨fun halike ↦ ⟨halike, fun _ ↦ hends.mpr rfl⟩, IsReadable.alike⟩
    · refine iff_of_false (fun hsame ↦ ?_) fun hboth ↦ ?_
      · -- the next page repeats the rows behind the object of the last one
        have hlengths := congrArg List.length hsame
        have hpos := List.length_pos_iff.mpr hempty
        simp only [List.length_map, List.length_append, List.length_cons, length_loadedRows]
          at hlengths hmore
        omega
      · exact hempty (hends.mp (hboth.1.apart hpage))

/-- From every cursor the loop reads all the rows, and exactly those when the pages are
readable. -/
theorem exists_readsFrom (hlimit : 0 < limit) {rows : List (ExportEvent × ExportEndpoint)}
    (horder : rows.Pairwise fun row other ↦ row.1.startTime ≤ other.1.startTime)
    (hpage : ∀ before row behind, rows = before ++ row :: behind →
      page (some (exportKey row.1)) = behind)
    {done : List (ExportEvent × ExportEndpoint)} (hrows : rows = done ++ rest)
    (hcursor : page cursor = rest) :
    ∃ read, ReadsFrom formats selectedCols page write limit cursor rest read := by
  induction hcount : rest.length using Nat.strong_induction_on generalizing rest done cursor with
  | _ count ih =>
    rcases lt_or_ge rest.length limit with hless | hfull
    · exact ⟨_, readsFrom_last hcursor hless⟩
    · have hlength : (rest.take limit).length = limit := by
        rw [List.length_take]
        omega
      cases hlast : (rest.take limit).getLast? with
      | none =>
        rw [List.getLast?_eq_none_iff.mp hlast] at hlength
        exact absurd hlength hlimit.ne
      | some last =>
        obtain ⟨before, object, behind, hsplit, hstart, hbefore, hobject⟩ :=
          exists_first (List.mem_map_of_mem (List.mem_of_getLast? hlast))
        have hrest : rest = before ++ object :: behind ++ rest.drop limit := by
          rw [← hsplit, List.take_append_drop]
        rw [hsplit] at hlength hlast hobject
        have hsorted : (before ++ object :: behind).Pairwise fun row other ↦
            row.1.startTime ≤ other.1.startTime := by
          rw [← hsplit]
          rw [hrows] at horder
          exact (List.pairwise_append.mp horder).2.1.sublist (List.take_sublist _ _)
        have hbehind : rows = (done ++ before) ++ object :: (behind ++ rest.drop limit) := by
          rw [hrows]
          conv_lhs => rw [hrest]
          simp
        have hshorter : (behind ++ rest.drop limit).length < count := by
          have hlengths := congrArg List.length hrest
          simp only [List.length_append, List.length_cons] at hlengths ⊢
          omega
        have hdone : rows = (done ++ before ++ [object]) ++ (behind ++ rest.drop limit) := by
          rw [hbehind]
          simp
        obtain ⟨read, hread⟩ := ih _ hshorter hdone (hpage _ _ _ hbehind) rfl
        refine ⟨loadedRows (before ++ object :: behind) ++ read, ?_⟩
        have hfinal := readsFrom_full (hcursor.trans hrest) hlength hlast hobject hstart hbefore
          hsorted hread
        rwa [← hrest] at hfinal

end Walk

/-! ### The rows of the query -/

section Query

variable (formats : ExportFormats) (tables : ExportTables) (endpointIds : List EndpointId)
  (startTime endTime : ℤ)

/-- Behind a cursor the query gives the rows behind it. -/
theorem queryRows_eq_filter (cursor : Option (ℤ ×ₗ ℕ)) :
    queryRows tables endpointIds startTime endTime cursor =
      (queryRows tables endpointIds startTime endTime none).filter fun row ↦
        cursor.all (· < exportKey row.1) := by
  have hselect : (tables.events.filter fun event ↦
      isSelected endpointIds startTime endTime event ∧ cursor.all (· < exportKey event)) =
        (tables.events.filter fun event ↦ isSelected endpointIds startTime endTime event ∧
          (none : Option (ℤ ×ₗ ℕ)).all (· < exportKey event)).filter fun event ↦
            cursor.all (· < exportKey event) := by
    rw [List.filter_filter]
    refine List.filter_congr fun event _ ↦ ?_
    simp [Bool.and_comm]
  rw [queryRows, queryRows, hselect, byAge_filter, List.filterMap_filter, List.filter_filterMap]
  refine List.filterMap_congr fun event _ ↦ ?_
  cases tables.endpoints.get? event.endpointId <;> simp [Option.filter]

theorem queryRows_none :
    queryRows tables endpointIds startTime endTime none =
      (selectedInOrder tables endpointIds startTime endTime).filterMap fun event ↦
        (tables.endpoints.get? event.endpointId).map fun endpoint ↦ (event, endpoint) := by
  rw [queryRows, selectedInOrder]
  simp

/-- The selected events are in strict order, since no two of them have one id. -/
theorem pairwise_selectedInOrder :
    (selectedInOrder tables endpointIds startTime endTime).Pairwise fun event other ↦
      exportKey event < exportKey other := by
  have hkeys : (tables.events.filter
      (isSelected endpointIds startTime endTime)).Pairwise fun event other ↦
        exportKey event ≠ exportKey other := by
    have hids := (List.pairwise_map.mp tables.nodup).filter
      (isSelected endpointIds startTime endTime)
    refine hids.imp fun hid hkey ↦ hid ?_
    exact BitVec.eq_of_toNat_eq (Prod.mk.inj (toLex.injective hkey)).2
  have hsorted := (perm_byAge exportKey (tables.events.filter
    (isSelected endpointIds startTime endTime))).symm.pairwise hkeys fun hne ↦ hne.symm
  exact ((pairwise_byAge exportKey _).and hsorted).imp fun hboth ↦ lt_of_le_of_ne hboth.1 hboth.2

theorem pairwise_queryRows :
    (queryRows tables endpointIds startTime endTime none).Pairwise fun row other ↦
      exportKey row.1 < exportKey other.1 := by
  rw [queryRows_none, List.pairwise_filterMap]
  refine (pairwise_selectedInOrder tables endpointIds startTime endTime).imp ?_
  intro event other hless row hrow otherRow hother
  obtain ⟨-, -, rfl⟩ := Option.map_eq_some_iff.mp hrow
  obtain ⟨-, -, rfl⟩ := Option.map_eq_some_iff.mp hother
  exact hless

/-- A cursor at a row gives the rows behind it. -/
theorem queryRows_exportKey {before behind : List (ExportEvent × ExportEndpoint)}
    {row : ExportEvent × ExportEndpoint}
    (hrows : queryRows tables endpointIds startTime endTime none = before ++ row :: behind) :
    queryRows tables endpointIds startTime endTime (some (exportKey row.1)) = behind := by
  have horder := pairwise_queryRows tables endpointIds startTime endTime
  rw [hrows] at horder
  obtain ⟨-, hbehind, hbefore⟩ := List.pairwise_append.mp horder
  rw [queryRows_eq_filter, hrows, List.filter_append, List.filter_cons_of_neg (by simp),
    List.filter_eq_nil_iff.mpr, List.filter_eq_self.mpr, List.nil_append]
  · intro other hother
    simpa using (List.pairwise_cons.mp hbehind).1 other hother
  · intro other hother
    simpa using (hbefore other hother row (List.mem_cons_self ..)).le

/-- Rows of the selected events, each with its endpoint, are those of the query. -/
theorem eq_queryRows_none {rows : List (ExportEvent × ExportEndpoint)}
    (hevents : rows.map Prod.fst = selectedInOrder tables endpointIds startTime endTime)
    (hendpoints : ∀ row ∈ rows, tables.endpoints.get? row.1.endpointId = some row.2) :
    rows = queryRows tables endpointIds startTime endTime none := by
  rw [queryRows_none, ← hevents, List.filterMap_map]
  symm
  calc rows.filterMap _ = rows.filterMap some := List.filterMap_congr fun row hrow ↦ by
        rw [Function.comp_apply, hendpoints row hrow, Option.map_some]
    _ = rows := List.filterMap_some

/-- Each selected event has a row in the query. -/
theorem map_fst_queryRows_none :
    (queryRows tables endpointIds startTime endTime none).map Prod.fst =
      selectedInOrder tables endpointIds startTime endTime := by
  rw [queryRows_none, List.map_filterMap]
  calc (selectedInOrder tables endpointIds startTime endTime).filterMap _
      = (selectedInOrder tables endpointIds startTime endTime).filterMap some :=
        List.filterMap_congr fun event hevent ↦ by
          have hmem := (perm_byAge _ _).mem_iff.mp hevent
          obtain ⟨endpoint, hget⟩ := tables.foreignKey event (List.mem_of_mem_filter hmem)
          rw [hget, Option.map_some, Option.map_some]
    _ = selectedInOrder tables endpointIds startTime endTime := List.filterMap_some

theorem get?_of_mem_queryRows {row : ExportEvent × ExportEndpoint}
    (hrow : row ∈ queryRows tables endpointIds startTime endTime none) :
    tables.endpoints.get? row.1.endpointId = some row.2 := by
  obtain ⟨event, -, hevent⟩ := List.mem_filterMap.mp hrow
  obtain ⟨endpoint, hget, rfl⟩ := Option.map_eq_some_iff.mp hevent
  exact hget

/-- The chunks are complete when they are the header and the rows of the query. -/
theorem isComplete_iff_flatten (columns : List String) (chunks : List (List Char)) :
    IsComplete formats tables endpointIds startTime endTime columns chunks ↔
      chunks.flatten = headerText (resolveExportColumns formats columns) ++
        (queryRows tables endpointIds startTime endTime none).flatMap fun row ↦
          rowText (exportFields formats (resolveExportColumns formats columns) row) := by
  constructor
  · rintro ⟨rows, hevents, hendpoints, hflatten⟩
    rwa [eq_queryRows_none tables endpointIds startTime endTime hevents hendpoints] at hflatten
  · exact fun hflatten ↦ ⟨_, map_fst_queryRows_none tables endpointIds startTime endTime,
      fun row hrow ↦ get?_of_mem_queryRows tables endpointIds startTime endTime hrow, hflatten⟩

end Query

/-- The host names and the addresses are always exported. -/
theorem two_le_length_resolveExportColumns (formats : ExportFormats) (columns : List String) :
    2 ≤ (resolveExportColumns formats columns).length := by
  rw [resolveExportColumns]
  split_ifs
  · decide
  · have hboth : [ExportColumn.hostname, ExportColumn.ipAddress] =
        standardOrder.filter fun column ↦ column = .hostname ∨ column = .ipAddress := by decide
    have hsublist := List.monotone_filter_right standardOrder
      (p := fun column ↦ decide (column = .hostname ∨ column = .ipAddress))
      (q := fun column ↦ decide (column ∈ columns.filterMap (requestedColumn formats) ∨
        column = .hostname ∨ column = .ipAddress))
      fun column hcolumn ↦ decide_eq_true (Or.inr (of_decide_eq_true hcolumn))
    rw [← hboth] at hsublist
    exact hsublist.length_le

/-- Texts of rows are the same when the rows look the same. -/
theorem flatMap_rowText_iff (formats : ExportFormats) (columns : List String)
    (read rows : List (ExportEvent × ExportEndpoint)) :
    (read.flatMap fun row ↦
        rowText (exportFields formats (resolveExportColumns formats columns) row)) =
      (rows.flatMap fun row ↦
        rowText (exportFields formats (resolveExportColumns formats columns) row)) ↔
      read.map (exportFields formats (resolveExportColumns formats columns)) =
        rows.map (exportFields formats (resolveExportColumns formats columns)) := by
  have hlength : ∀ rows : List (ExportEvent × ExportEndpoint), ∀ fields ∈
      rows.map (exportFields formats (resolveExportColumns formats columns)),
        2 ≤ fields.length := by
    intro rows fields hfields
    obtain ⟨row, -, rfl⟩ := List.mem_map.mp hfields
    rw [exportFields, List.length_map]
    exact two_le_length_resolveExportColumns formats columns
  have htext : ∀ rows : List (ExportEvent × ExportEndpoint), (rows.flatMap fun row ↦
      rowText (exportFields formats (resolveExportColumns formats columns) row)) =
        (rows.map (exportFields formats (resolveExportColumns formats columns))).flatMap
          rowText := by
    intro rows
    rw [List.flatMap_map]
  rw [htext, htext]
  exact ⟨rowTexts_inj (hlength read) (hlength rows), congrArg _⟩

/-- `csv_generator` ends, and its chunks are the header and one row for each selected event exactly
when the pages are readable. -/
theorem exists_csvGenerator_isComplete_iff (formats : ExportFormats) (tables : ExportTables)
    (endpointIds : List EndpointId) (startTime endTime : ℤ) (columns : List String) :
    ∃ chunks, (∃ enough, ∀ rounds, enough ≤ rounds →
        csvGenerator formats tables endpointIds startTime endTime columns rounds = some chunks) ∧
      (IsComplete formats tables endpointIds startTime endTime columns chunks ↔
        ArePagesReadable formats (resolveExportColumns formats columns) 1000
          (selectedInOrder tables endpointIds startTime endTime)) := by
  by_cases hempty : endpointIds = []
  · subst hempty
    have hnone : selectedInOrder tables [] startTime endTime = [] := by
      rw [selectedInOrder, List.filter_eq_nil_iff.mpr fun event _ ↦ by simp [isSelected]]
      rfl
    refine ⟨[headerText (resolveExportColumns formats columns)], ⟨0, fun rounds _ ↦ ?_⟩,
      iff_of_true ?_ ?_⟩
    · rw [csvGenerator, if_pos rfl]
    · rw [isComplete_iff_flatten, queryRows_none, hnone]
      simp
    · rw [hnone]
      exact arePagesReadable_nil
  · have horder := (pairwise_queryRows tables endpointIds startTime endTime).imp fun hless ↦
      (Prod.Lex.toLex_lt_toLex.mp hless).elim le_of_lt fun hsame ↦ hsame.1.le
    have hreads : ∃ read, ReadsFrom formats (resolveExportColumns formats columns)
        (queryRows tables endpointIds startTime endTime)
        (ExportBuffer.write formats (resolveExportColumns formats columns) 500) 1000 none
        (queryRows tables endpointIds startTime endTime none) read :=
      exists_readsFrom (by decide) horder
        (fun _ _ _ ↦ queryRows_exportKey tables endpointIds startTime endTime)
        (List.nil_append _).symm rfl
    obtain ⟨read, ⟨enough, hrounds⟩, -, hread⟩ := hreads
    let header : ExportBuffer := ⟨[headerText (resolveExportColumns formats columns)], [], 0⟩
    let write := ExportBuffer.write formats (resolveExportColumns formats columns) 500
    refine ⟨(read.foldl write header).finish, ⟨enough, fun rounds hle ↦ ?_⟩, ?_⟩
    · rw [csvGenerator, if_neg hempty, hrounds rounds hle]
      rfl
    · rw [isComplete_iff_flatten, ExportBuffer.flatten_finish_foldl fun _ ↦ rfl,
        ← map_fst_queryRows_none, ← hread, ← flatMap_rowText_iff]
      simp [ExportBuffer.text, header]

/-! ### Two endpoints that change at once -/

/-- Times and numbers without digits. -/
def plainFormats : ExportFormats where
  lower := id
  isoformat := fun _ ↦ []
  twoDecimals := fun _ ↦ []

/-- An endpoint goes down at the moment at which another comes up. -/
def simultaneousTables : ExportTables where
  endpoints := (Dict.empty.set 1 ⟨"a".toList, "10.0.0.1".toList, "SERVER".toList⟩).set 2
    ⟨"b".toList, "10.0.0.2".toList, "SERVER".toList⟩
  events := [⟨1, 1, .down, .down, 0, none, 5⟩, ⟨2, 2, .up, .up, 100, none, 5⟩]
  nodup := by simp
  foreignKey := by
    intro event hevent
    simp only [List.mem_cons, List.not_mem_nil, or_false] at hevent
    rcases hevent with rfl | rfl
    · exact ⟨_, rfl⟩
    · exact ⟨_, rfl⟩

/-- The rows of the two events. -/
def simultaneousRows : List (ExportEvent × ExportEndpoint) :=
  [(⟨1, 1, .down, .down, 0, none, 5⟩, ⟨"a".toList, "10.0.0.1".toList, "SERVER".toList⟩),
    (⟨2, 2, .up, .up, 100, none, 5⟩, ⟨"b".toList, "10.0.0.2".toList, "SERVER".toList⟩)]

theorem queryRows_simultaneousTables :
    queryRows simultaneousTables [1, 2] 0 9 none = simultaneousRows := by decide

/-- Both rows are those of the first event: the second endpoint is reported down. -/
theorem csvGenerator_simultaneousTables :
    ∃ chunks, (∀ rounds, 0 < rounds → csvGenerator plainFormats simultaneousTables [1, 2] 0 9 []
        rounds = some chunks) ∧
      ¬ IsComplete plainFormats simultaneousTables [1, 2] 0 9 [] chunks := by
  let header : ExportBuffer := ⟨[headerText standardOrder], [], 0⟩
  let write := ExportBuffer.write plainFormats standardOrder 500
  refine ⟨((loadedRows simultaneousRows).foldl write header).finish, fun rounds hrounds ↦ ?_, ?_⟩
  · obtain ⟨rounds, rfl⟩ := Nat.exists_eq_add_of_le' hrounds
    rw [csvGenerator, if_neg (by decide), exportPages, queryRows_simultaneousTables]
    rfl
  · have hcolumns : standardOrder = resolveExportColumns plainFormats [] := rfl
    rw [isComplete_iff_flatten, queryRows_simultaneousTables,
      ExportBuffer.flatten_finish_foldl fun _ ↦ rfl, hcolumns]
    intro htext
    have hrows := (flatMap_rowText_iff plainFormats [] _ _).mp (List.append_cancel_left htext)
    -- the texts of the endpoint ids of the second rows
    have hid := congrArg (fun rows ↦ (rows[1]?.bind List.head?)) hrows
    exact absurd hid (by decide)

end Lnmp.Reports
