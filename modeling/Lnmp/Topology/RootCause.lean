import Lnmp.Foundation.IpClasses
import Lnmp.Topology.Hops

/-!
# Differential root cause analysis

`run_differential_rca` (`services/rca_engine.py`) compares the hops of a trace that was made after a
failure with the baseline route of the endpoint. A hop of the baseline is compared with the live hop
of its number, and with the live hop at its place in the list when there is none. The first hop that
differs has failed.

`localises_iff` says when this is the first hop with an address that the live trace does not answer.
A silent router of the baseline always differs, and a place in the list can hold the address of a
hop whose number the live trace lacks.

Every hop has a number or a null in its place.
-/

set_option autoImplicit false
set_option relaxedAutoImplicit false

namespace Lnmp.Topology

open Lnmp.Foundation Lnmp.Foundation.IpAddress
open Lnmp.Monitoring (isTruthy)

/-! ### Evaluation -/

/-- What an evaluation finds. -/
structure Finding where
  failedHopNumber : Option ℤ
  failedHopIp : String
  lastKnownGoodHopIp : Option String
  rcaSummary : String
  deriving DecidableEq

/-- The text of a hop number. -/
def hopNumberText : Option ℤ → String
  | some number => toString number
  | none => "None"

/-- `ip or target_ip`. -/
def addressOr (targetIp : String) (ip : Option String) : String :=
  (ip.filter (· ≠ "")).getD targetIp

/-- `live_hops_by_num`. -/
def liveHopsByNum (liveHops : List Hop) : Dict ℤ Hop :=
  Dict.empty.update (liveHops.filterMap fun h ↦ h.hop.map fun number ↦ (number, h))

/-- `l_hop`. -/
def liveHop (liveHops : List Hop) (idx : ℕ) (bHop : Hop) : Option Hop :=
  (bHop.hop.bind (liveHopsByNum liveHops).get?).or liveHops[idx]?

/-- The check of divergence and timeout. -/
def diverges (liveHops : List Hop) (idx : ℕ) (bHop : Hop) : Bool :=
  (liveHop liveHops idx bHop).all fun lHop ↦ lHop.ip = none ∨ lHop.ip ≠ bHop.ip

/-- The hop at which the loop over the baseline breaks, with its place. -/
def firstDivergence (baselineHops liveHops : List Hop) : Option (Hop × ℕ) :=
  baselineHops.zipIdx.find? fun entry ↦ diverges liveHops entry.2 entry.1

/-- The address of the hop in front of a place, if there is one. -/
def addressBefore (baselineHops : List Hop) (idx : ℕ) : Option String :=
  if 0 < idx then (baselineHops[idx - 1]?.bind Hop.ip).filter (· ≠ "") else none

/-- What the loop finds where it breaks. It raises on a number that is null in front of which a hop
has an address. -/
def divergedFinding (isGlobal : Bool) (targetIp : String) (baselineHops : List Hop)
    (bHop : Hop) (idx : ℕ) : Option Finding :=
  let failedHopIp := addressOr targetIp bHop.ip
  let number := hopNumberText bHop.hop
  match addressBefore baselineHops idx with
  | some lastGood => bHop.hop.map fun hopNum : ℤ ↦
    { failedHopNumber := bHop.hop
      failedHopIp := failedHopIp
      lastKnownGoodHopIp := some lastGood
      rcaSummary := s!"Transit failure at Hop {number} ({failedHopIp}). " ++
        s!"Path confirmed operational through Hop {hopNum - 1} ({lastGood})." }
  | none => some
    { failedHopNumber := bHop.hop
      failedHopIp := failedHopIp
      lastKnownGoodHopIp := none
      rcaSummary :=
        if isGlobal then
          s!"Remote L3 Routed Destination ({targetIp}). " ++
            s!"Failure at Hop {number} ({failedHopIp}). Path blocked across WAN/carrier network."
        else s!"Transit failure at Hop {number} ({failedHopIp}). " ++ "No prior operational hop." }

/-- What is found when the loop ends. -/
def destinationFinding (isGlobal : Bool) (targetIp : String) (baselineHops : List Hop) :
    Option Finding :=
  let lastBHop := baselineHops.getLast?.getD ⟨some 1, some targetIp, none⟩
  let failedHopIp := addressOr targetIp lastBHop.ip
  let number := hopNumberText lastBHop.hop
  match addressBefore baselineHops (baselineHops.length - 1) with
  | some lastGood => lastBHop.hop.map fun failedHopNumber : ℤ ↦
    { failedHopNumber := lastBHop.hop
      failedHopIp := failedHopIp
      lastKnownGoodHopIp := some lastGood
      rcaSummary := s!"Failure at destination endpoint {failedHopIp} (Hop {number}). " ++
        s!"Path confirmed operational through Hop {failedHopNumber - 1} ({lastGood})." }
  | none => some
    { failedHopNumber := lastBHop.hop
      failedHopIp := failedHopIp
      lastKnownGoodHopIp := none
      rcaSummary :=
        if isGlobal then
          s!"Remote L3 Routed Destination ({targetIp}). " ++
            "Failure isolated to destination host or intermediate WAN carrier path."
        else s!"Failure at Hop {number} ({failedHopIp})." }

/-- The endpoint is attached directly. -/
def isDirect (isL2Segment isGlobal : Bool) (baselineHops liveHops : List Hop) : Bool :=
  isL2Segment || (!isGlobal && decide (liveHops.length ≤ 1) && decide (baselineHops.length ≤ 1))

/-- The evaluation of `run_differential_rca`, `none` when it raises. -/
def evaluateRca (isL2Segment : Bool) (targetIp : String) (baselineHops liveHops : List Hop) :
    Option Finding :=
  let isGlobal := (ipAddress targetIp).any Address.isGlobal
  if isDirect isL2Segment isGlobal baselineHops liveHops then
    some
      { failedHopNumber := some 1
        failedHopIp := targetIp
        lastKnownGoodHopIp := none
        rcaSummary := "Direct Layer 2 Attachment (Same Subnet). " ++
          "No intermediate L3 routers detected. " ++
          "Failure isolated to local host, NIC, or local L2 switch port." }
  else
    match firstDivergence baselineHops liveHops with
    | some (bHop, idx) => divergedFinding isGlobal targetIp baselineHops bHop idx
    | none => destinationFinding isGlobal targetIp baselineHops

/-! ### The hop that failed -/

/-- Hops as `run_traceroute` returns them for a target, with numbers that increase. -/
structure IsTrace (targetIp : String) (hops : List Hop) : Prop where
  sanitized : ∃ parsed, hops = sanitizeTracerouteHops parsed (some targetIp)
  addresses : ∀ h ∈ hops, h.ip ≠ some ""
  numbered : ∃ numbers : List ℤ, hops.map Hop.hop = numbers.map some ∧ numbers.Pairwise (· < ·)

/-- The live trace answers the number of a hop with its address. -/
def Answers (liveHops : List Hop) (h : Hop) : Prop :=
  ∃ lHop ∈ liveHops, lHop.hop = h.hop ∧ lHop.ip = h.ip

/-- The hop that failed, with its place: the first with an address that the live trace does not
answer, and the last of all when there is none. -/
structure FailsAt (baselineHops liveHops : List Hop) (place : ℕ) (failed : Hop) : Prop where
  found : baselineHops[place]? = some failed
  earlier : ∀ before < place, ∀ h, baselineHops[before]? = some h →
    h.ip = none ∨ Answers liveHops h
  first : (failed.ip ≠ none ∧ ¬ Answers liveHops failed) ∨ place + 1 = baselineHops.length

/-- The finding is about the hop that failed, which has an address, and about the last address in
front of it. -/
def Localises (finding : Option Finding) (baselineHops liveHops : List Hop) : Prop :=
  ∃ found place failed, finding = some found ∧ FailsAt baselineHops liveHops place failed ∧
    found.failedHopNumber = failed.hop ∧ failed.ip = some found.failedHopIp ∧
    found.lastKnownGoodHopIp = ((baselineHops.take place).filterMap Hop.ip).getLast?

/-- No silent hop is in front of the hop that failed. Where the live trace lacks its number, its
place does not hold its address, unless it is the last. -/
structure Visible (baselineHops liveHops : List Hop) (place : ℕ) (failed : Hop) : Prop where
  addressed : ∀ before < place, ∀ h, baselineHops[before]? = some h → h.ip ≠ none
  unmatched : place + 1 < baselineHops.length → (∀ lHop ∈ liveHops, lHop.hop ≠ failed.hop) →
    liveHops[place]?.bind Hop.ip ≠ failed.ip

namespace IsTrace

variable {targetIp : String} {hops : List Hop} {h other : Hop}

theorem hop_ne_none (htrace : IsTrace targetIp hops) (hmem : h ∈ hops) : h.hop ≠ none := by
  obtain ⟨numbers, hnumbers, -⟩ := htrace.numbered
  obtain ⟨number, -, hnumber⟩ := List.mem_map.mp (hnumbers ▸ List.mem_map_of_mem hmem)
  exact hnumber ▸ Option.some_ne_none number

/-- No two hops have one number. -/
theorem nodup_hop (htrace : IsTrace targetIp hops) : (hops.map Hop.hop).Nodup := by
  obtain ⟨numbers, hnumbers, hincreasing⟩ := htrace.numbered
  rw [hnumbers]
  exact List.Nodup.map (Option.some_injective ℤ) (hincreasing.imp ne_of_lt)

theorem eq_of_hop_eq (htrace : IsTrace targetIp hops) (hmem : h ∈ hops) (hother : other ∈ hops)
    (hsame : h.hop = other.hop) : h = other :=
  List.inj_on_of_nodup_map htrace.nodup_hop hmem hother hsame

/-- Hops with one number are at one place. -/
theorem place_eq (htrace : IsTrace targetIp hops) {place otherPlace : ℕ}
    (hfound : hops[place]? = some h) (hother : hops[otherPlace]? = some other)
    (hsame : h.hop = other.hop) : place = otherPlace := by
  have hplace : place < (hops.map Hop.hop).length := by
    rw [List.length_map]
    exact (List.getElem?_eq_some_iff.mp hfound).1
  refine (List.getElem?_inj hplace htrace.nodup_hop).mp ?_
  rw [List.getElem?_map, List.getElem?_map, hfound, hother, Option.map_some, Option.map_some, hsame]

/-- The last hop is the target. -/
theorem ip_getLast? (htrace : IsTrace targetIp hops) (htarget : targetIp ≠ "")
    (hlast : hops.getLast? = some h) : h.ip = some targetIp := by
  obtain ⟨parsed, rfl⟩ := htrace.sanitized
  rw [sanitizeTracerouteHops, if_pos (by simpa [isTruthy] using htarget)] at hlast
  dsimp only at hlast
  split at hlast
  · obtain rfl := Option.some.inj hlast
    rfl
  · rename_i lastHop hcollapsed
    split at hlast
    · rename_i hip
      exact Option.some.inj (hcollapsed.symm.trans hlast) ▸ hip
    · rw [List.getLast?_concat] at hlast
      obtain rfl := Option.some.inj hlast
      rfl

theorem mem_writes_liveHopsByNum {number : ℤ} :
    (number, h) ∈ (hops.filterMap fun h ↦ h.hop.map fun number ↦ (number, h)) ↔
      h ∈ hops ∧ h.hop = some number := by
  simp only [List.mem_filterMap, Option.map_eq_some_iff, Prod.mk.injEq]
  constructor
  · rintro ⟨other, hmem, value, hvalue, rfl, rfl⟩
    exact ⟨hmem, hvalue⟩
  · rintro ⟨hmem, hnumber⟩
    exact ⟨h, hmem, number, hnumber, rfl, rfl⟩

/-- The live hop of a number. -/
theorem get?_liveHopsByNum (htrace : IsTrace targetIp hops) (hmem : h ∈ hops) {number : ℤ}
    (hnumber : h.hop = some number) : (liveHopsByNum hops).get? number = some h := by
  have hkey := List.mem_map_of_mem (f := Prod.fst)
    (mem_writes_liveHopsByNum.mpr ⟨hmem, hnumber⟩)
  obtain ⟨found, hfound, hget⟩ := Dict.exists_get?_update Dict.empty hkey
  obtain ⟨hfoundMem, hfoundNumber⟩ := mem_writes_liveHopsByNum.mp hfound
  rw [liveHopsByNum, hget, htrace.eq_of_hop_eq hfoundMem hmem (hfoundNumber.trans hnumber.symm)]

theorem get?_liveHopsByNum_eq_none {number : ℤ} (hnone : ∀ h ∈ hops, h.hop ≠ some number) :
    (liveHopsByNum hops).get? number = none := by
  refine Dict.get?_update_of_not_mem Dict.empty fun hkey ↦ ?_
  obtain ⟨⟨key, found⟩, hfound, rfl⟩ := List.mem_map.mp hkey
  obtain ⟨hmem, hnumber⟩ := mem_writes_liveHopsByNum.mp hfound
  exact hnone found hmem hnumber

end IsTrace

/-! ### What the loop reports -/

section Report

variable {targetIp : String} {isL2Segment : Bool} {baselineHops liveHops : List Hop}
  {place : ℕ} {bHop : Hop}

/-- A hop of the baseline differs when it is silent, or when the live trace does not answer it,
unless its place holds its address and its number is lacking. -/
theorem diverges_iff (hlive : IsTrace targetIp liveHops) (place : ℕ)
    (hnumber : bHop.hop ≠ none) :
    diverges liveHops place bHop = true ↔
      bHop.ip = none ∨ (¬ Answers liveHops bHop ∧
        ((∀ lHop ∈ liveHops, lHop.hop ≠ bHop.hop) → liveHops[place]?.bind Hop.ip ≠ bHop.ip)) := by
  obtain ⟨number, hnumber⟩ := Option.ne_none_iff_exists'.mp hnumber
  rw [diverges, liveHop, hnumber, Option.bind_some]
  by_cases hlacks : ∀ lHop ∈ liveHops, lHop.hop ≠ some number
  · have hanswers : ¬ Answers liveHops bHop := fun ⟨lHop, hmem, hsame, _⟩ ↦
      hlacks lHop hmem (hsame.trans hnumber)
    rw [IsTrace.get?_liveHopsByNum_eq_none hlacks, Option.none_or, forall_prop_of_true hlacks]
    cases liveHops[place]? with
    | none => cases bHop.ip <;> simp [hanswers]
    | some lHop => cases bHop.ip <;> simp +contextual [hanswers]
  · push Not at hlacks
    obtain ⟨lHop, hmem, hsame⟩ := hlacks
    have hanswers : Answers liveHops bHop ↔ lHop.ip = bHop.ip := by
      constructor
      · rintro ⟨other, hother, hotherHop, hip⟩
        rw [← hip, hlive.eq_of_hop_eq hmem hother (hsame.trans (hotherHop.trans hnumber).symm)]
      · exact fun hip ↦ ⟨lHop, hmem, hsame.trans hnumber.symm, hip⟩
    rw [hlive.get?_liveHopsByNum hmem hsame, hanswers]
    cases hip : bHop.ip <;> cases hlip : lHop.ip <;> simp <;> grind

/-- What the loop reports on: a place in front of which nothing differs, and which differs or is the
last. -/
structure ReportsAt (baselineHops liveHops : List Hop) (place : ℕ) (bHop : Hop) : Prop where
  found : baselineHops[place]? = some bHop
  earlier : ∀ before < place, ∀ h, baselineHops[before]? = some h →
    diverges liveHops before h = false
  first : diverges liveHops place bHop = true ∨ place + 1 = baselineHops.length

theorem reportsAt_of_firstDivergence
    (hfirst : firstDivergence baselineHops liveHops = some (bHop, place)) :
    ReportsAt baselineHops liveHops place bHop := by
  obtain ⟨hdiverges, index, hindex, hentry, hbefore⟩ := List.find?_eq_some_iff_getElem.mp hfirst
  rw [List.getElem_zipIdx, Nat.zero_add, Prod.mk.injEq] at hentry
  obtain ⟨hhop, rfl⟩ := hentry
  rw [List.length_zipIdx] at hindex
  refine ⟨List.getElem?_eq_some_iff.mpr ⟨hindex, hhop⟩, fun before hlt h hfound ↦ ?_,
    Or.inl hdiverges⟩
  have hother := hbefore before hlt
  rw [List.getElem_zipIdx, Nat.zero_add, Bool.not_eq_true'] at hother
  obtain ⟨hlength, rfl⟩ := List.getElem?_eq_some_iff.mp hfound
  exact hother

theorem reportsAt_of_getLast? (hnone : firstDivergence baselineHops liveHops = none)
    (hlast : baselineHops.getLast? = some bHop) :
    ReportsAt baselineHops liveHops (baselineHops.length - 1) bHop := by
  have hpos : 0 < baselineHops.length := by
    refine List.length_pos_iff.mpr fun hempty ↦ ?_
    rw [hempty] at hlast
    exact absurd hlast (Option.some_ne_none bHop).symm
  refine ⟨List.getLast?_eq_getElem? ▸ hlast, fun before _ h hfound ↦ ?_, Or.inr (by omega)⟩
  have hentry : (h, before) ∈ baselineHops.zipIdx := List.mem_zipIdx_iff_getElem?.mpr hfound
  exact Bool.eq_false_of_not_eq_true (List.find?_eq_none.mp hnone (h, before) hentry)

/-- The finding about a place. -/
structure IsAbout (found : Finding) (targetIp : String) (baselineHops : List Hop) (place : ℕ)
    (bHop : Hop) : Prop where
  failedHopNumber : found.failedHopNumber = bHop.hop
  failedHopIp : found.failedHopIp = addressOr targetIp bHop.ip
  lastKnownGoodHopIp : found.lastKnownGoodHopIp = addressBefore baselineHops place

theorem isAbout_divergedFinding (isGlobal : Bool) (targetIp : String) (baselineHops : List Hop)
    (place : ℕ) (hnumber : bHop.hop ≠ none) :
    ∃ found, divergedFinding isGlobal targetIp baselineHops bHop place = some found ∧
      IsAbout found targetIp baselineHops place bHop := by
  obtain ⟨number, hnumber⟩ := Option.ne_none_iff_exists'.mp hnumber
  rw [divergedFinding]
  cases hbefore : addressBefore baselineHops place with
  | none => exact ⟨_, rfl, rfl, rfl, hbefore.symm⟩
  | some lastGood =>
    simp only [hnumber, Option.map_some]
    exact ⟨_, rfl, hnumber.symm, rfl, hbefore.symm⟩

theorem isAbout_destinationFinding (isGlobal : Bool) (targetIp : String)
    (hnumber : bHop.hop ≠ none) (hlast : baselineHops.getLast? = some bHop) :
    ∃ found, destinationFinding isGlobal targetIp baselineHops = some found ∧
      IsAbout found targetIp baselineHops (baselineHops.length - 1) bHop := by
  obtain ⟨number, hnumber⟩ := Option.ne_none_iff_exists'.mp hnumber
  rw [destinationFinding, hlast]
  cases hbefore : addressBefore baselineHops (baselineHops.length - 1) with
  | none => exact ⟨_, rfl, rfl, rfl, hbefore.symm⟩
  | some lastGood =>
    simp only [Option.getD_some, hnumber, Option.map_some]
    exact ⟨_, rfl, hnumber.symm, rfl, hbefore.symm⟩

/-- The evaluation finds something about the place that the loop reports. -/
theorem exists_evaluateRca_eq (hbaseline : IsTrace targetIp baselineHops)
    (hne : baselineHops ≠ [])
    (hmulti : isDirect isL2Segment ((ipAddress targetIp).any Address.isGlobal) baselineHops
      liveHops = false) :
    ∃ found place bHop,
      evaluateRca isL2Segment targetIp baselineHops liveHops = some found ∧
      ReportsAt baselineHops liveHops place bHop ∧
      IsAbout found targetIp baselineHops place bHop := by
  rw [evaluateRca]
  simp only [hmulti]
  cases hfirst : firstDivergence baselineHops liveHops with
  | some entry =>
    have hreports := reportsAt_of_firstDivergence hfirst
    obtain ⟨found, hfound, habout⟩ := isAbout_divergedFinding
      ((ipAddress targetIp).any Address.isGlobal) targetIp baselineHops entry.2
      (hbaseline.hop_ne_none (List.mem_of_getElem? hreports.found))
    exact ⟨found, entry.2, entry.1, hfound, hreports, habout⟩
  | none =>
    have hlast := List.getLast?_eq_some_getLast hne
    obtain ⟨found, hfound, habout⟩ := isAbout_destinationFinding
      ((ipAddress targetIp).any Address.isGlobal) targetIp
      (hbaseline.hop_ne_none (List.getLast_mem hne)) hlast
    exact ⟨found, _, _, hfound, reportsAt_of_getLast? hfirst hlast, habout⟩

end Report

/-! ### Localisation -/

section Localisation

variable {targetIp : String} {isL2Segment : Bool} {baselineHops liveHops : List Hop}
  {place : ℕ} {failed bHop : Hop}

/-- With addresses only in front of a place, the last address in front is that of the hop there. -/
theorem getLast?_filterMap_take (hbaseline : IsTrace targetIp baselineHops)
    (hplace : place < baselineHops.length)
    (haddressed : ∀ before < place, ∀ h, baselineHops[before]? = some h → h.ip ≠ none) :
    ((baselineHops.take place).filterMap Hop.ip).getLast? = addressBefore baselineHops place := by
  cases place with
  | zero => rfl
  | succ before =>
    have hlt : before < baselineHops.length := Nat.lt_of_succ_lt hplace
    have hfound := List.getElem?_eq_getElem hlt
    obtain ⟨ip, hip⟩ := Option.ne_none_iff_exists'.mp
      (haddressed before (Nat.lt_succ_self before) _ hfound)
    have hnonempty : ip ≠ "" := fun hempty ↦
      hbaseline.addresses _ (List.getElem_mem hlt) (hempty ▸ hip)
    rw [List.take_succ_eq_append_getElem hlt, List.filterMap_append,
      List.filterMap_cons_some hip, List.filterMap_nil, List.getLast?_concat, addressBefore,
      if_pos (Nat.succ_pos before), Nat.add_sub_cancel, hfound, Option.bind_some, hip,
      Option.filter_some, if_pos (decide_eq_true hnonempty)]

/-- The loop reports on the hop that failed exactly when it is visible. -/
theorem reportsAt_iff (hbaseline : IsTrace targetIp baselineHops)
    (hlive : IsTrace targetIp liveHops)
    (hfails : FailsAt baselineHops liveHops place failed) :
    ReportsAt baselineHops liveHops place failed ↔
      Visible baselineHops liveHops place failed := by
  have hnumber : ∀ {before : ℕ} {h : Hop}, baselineHops[before]? = some h → h.hop ≠ none :=
    fun hfound ↦ hbaseline.hop_ne_none (List.mem_of_getElem? hfound)
  constructor
  · intro hreports
    refine ⟨fun before hlt h hfound hsilent ↦ ?_, fun hmore ↦ ?_⟩
    · have hdiverges := (diverges_iff hlive before (hnumber hfound)).mpr
        (Or.inl hsilent)
      exact absurd hdiverges (Bool.eq_false_iff.mp (hreports.earlier before hlt h hfound))
    · have haddressed := (hfails.first.resolve_right hmore.ne).1
      have hdiverges := hreports.first.resolve_right hmore.ne
      have hcases := (diverges_iff hlive place (hnumber hfails.found)).mp hdiverges
      exact (hcases.resolve_left haddressed).2
  · intro hvisible
    refine ⟨hfails.found, fun before hlt h hfound ↦ ?_, ?_⟩
    · rw [Bool.eq_false_iff, ne_eq, diverges_iff hlive before (hnumber hfound)]
      rintro (hsilent | ⟨hunanswered, -⟩)
      · exact hvisible.addressed before hlt h hfound hsilent
      · exact ((hfails.earlier before hlt h hfound).resolve_left
          (hvisible.addressed before hlt h hfound)) |> hunanswered
    · rcases hfails.first with ⟨-, hunanswered⟩ | hlast
      · by_cases hlast : place + 1 = baselineHops.length
        · exact Or.inr hlast
        · have hlt := (List.getElem?_eq_some_iff.mp hfails.found).1
          exact Or.inl ((diverges_iff hlive place (hnumber hfails.found)).mpr
            (Or.inr ⟨hunanswered, hvisible.unmatched (by omega)⟩))
      · exact Or.inr hlast

theorem ReportsAt.place_le {otherPlace : ℕ} {other : Hop}
    (hreports : ReportsAt baselineHops liveHops place bHop)
    (hother : ReportsAt baselineHops liveHops otherPlace other) : place ≤ otherPlace := by
  by_contra hlt
  have hlength := (List.getElem?_eq_some_iff.mp hreports.found).1
  have hdiverges := hother.first.resolve_right (by omega)
  have hagrees := hreports.earlier otherPlace (not_le.mp hlt) other hother.found
  exact absurd hdiverges (Bool.eq_false_iff.mp hagrees)

theorem FailsAt.place_le {otherPlace : ℕ} {other : Hop}
    (hfails : FailsAt baselineHops liveHops place failed)
    (hother : FailsAt baselineHops liveHops otherPlace other) : place ≤ otherPlace := by
  by_contra hlt
  have hlength := (List.getElem?_eq_some_iff.mp hfails.found).1
  obtain ⟨haddressed, hunanswered⟩ := hother.first.resolve_right (by omega)
  rcases hfails.earlier otherPlace (not_le.mp hlt) other hother.found with hsilent | hanswers
  · exact haddressed hsilent
  · exact hunanswered hanswers

/-- Some hop failed. -/
theorem exists_failsAt (liveHops : List Hop) (hne : baselineHops ≠ []) :
    ∃ place failed, FailsAt baselineHops liveHops place failed := by
  classical
  by_cases hsome : ∃ place : ℕ, ∃ h, baselineHops[place]? = some h ∧ h.ip ≠ none ∧
      ¬ Answers liveHops h
  · obtain ⟨failed, hfound, hfirst⟩ := Nat.find_spec hsome
    refine ⟨Nat.find hsome, failed, hfound, fun before hlt h hbefore ↦ ?_, Or.inl hfirst⟩
    have hnot := Nat.find_min hsome hlt
    push Not at hnot
    exact or_iff_not_imp_left.mpr (hnot h hbefore)
  · push Not at hsome
    have hlast := List.getLast?_eq_some_getLast hne
    have hpos := List.length_pos_iff.mpr hne
    exact ⟨baselineHops.length - 1, _, List.getLast?_eq_getElem? ▸ hlast,
      fun before _ h hfound ↦ or_iff_not_imp_left.mpr (hsome before h hfound),
      Or.inr (by omega)⟩

/-- The hop that failed has an address. -/
theorem FailsAt.ip_ne_none (hbaseline : IsTrace targetIp baselineHops) (htarget : targetIp ≠ "")
    (hfails : FailsAt baselineHops liveHops place failed) : failed.ip ≠ none := by
  rcases hfails.first with ⟨haddressed, -⟩ | hlast
  · exact haddressed
  · have hgetLast : baselineHops.getLast? = some failed := by
      rw [List.getLast?_eq_getElem?, ← hlast, Nat.add_sub_cancel, hfails.found]
    rw [hbaseline.ip_getLast? htarget hgetLast]
    exact Option.some_ne_none targetIp

end Localisation

/-- The evaluation of routes of several hops finds the hop that failed exactly when no silent hop is
in front of it, and its place in the live trace does not hide that its number is lacking. -/
theorem localises_iff {targetIp : String} {isL2Segment : Bool} {baselineHops liveHops : List Hop}
    (htarget : targetIp ≠ "") (hbaseline : IsTrace targetIp baselineHops)
    (hlive : IsTrace targetIp liveHops) (hne : baselineHops ≠ [])
    (hmulti : isDirect isL2Segment ((ipAddress targetIp).any Address.isGlobal) baselineHops
      liveHops = false) :
    Localises (evaluateRca isL2Segment targetIp baselineHops liveHops) baselineHops liveHops ↔
      ∀ place failed, FailsAt baselineHops liveHops place failed →
        Visible baselineHops liveHops place failed := by
  obtain ⟨found, reported, bHop, hfound, hreports, habout⟩ :=
    exists_evaluateRca_eq hbaseline hne hmulti
  rw [hfound]
  constructor
  · rintro ⟨_, failedPlace, failed, hsame, hfails, hnumber, -, -⟩ place other hother
    obtain rfl := Option.some.inj hsame
    -- the hop that is reported is the one that failed, by its number
    have hreported := hbaseline.place_eq hreports.found hfails.found
      (habout.failedHopNumber.symm.trans hnumber)
    have hplace := le_antisymm (hother.place_le hfails) (hfails.place_le hother)
    subst hreported hplace
    have hhop := Option.some.inj (hreports.found.symm.trans hother.found)
    exact (reportsAt_iff hbaseline hlive hother).mp (hhop ▸ hreports)
  · intro hvisible
    obtain ⟨place, failed, hfails⟩ := exists_failsAt liveHops hne
    have hseen := hvisible place failed hfails
    have hreportsFailed := (reportsAt_iff hbaseline hlive hfails).mpr hseen
    have hplace := le_antisymm (hreports.place_le hreportsFailed)
      (hreportsFailed.place_le hreports)
    subst hplace
    obtain rfl := Option.some.inj (hreports.found.symm.trans hfails.found)
    obtain ⟨ip, hip⟩ := Option.ne_none_iff_exists'.mp (hfails.ip_ne_none hbaseline htarget)
    have hnonempty : ip ≠ "" := fun hempty ↦
      hbaseline.addresses _ (List.mem_of_getElem? hfails.found) (hempty ▸ hip)
    refine ⟨found, reported, bHop, rfl, hfails, habout.failedHopNumber, ?_, ?_⟩
    · rw [habout.failedHopIp, addressOr, hip, Option.filter_some,
        if_pos (decide_eq_true hnonempty), Option.getD_some]
    · rw [habout.lastKnownGoodHopIp, getLast?_filterMap_take hbaseline
        (List.getElem?_eq_some_iff.mp hfails.found).1 hseen.addressed]

/-- A hop of a trace. -/
def traceHop (number : ℤ) (ip : Option String) : Hop := ⟨some number, ip, none⟩

/-- A baseline whose second router is silent. -/
def silentBaseline : List Hop :=
  [traceHop 1 (some "192.168.1.1"), traceHop 2 none, traceHop 3 (some "10.1.0.1"),
    traceHop 4 (some "10.2.0.9")]

/-- A live trace that ends behind the silent router. -/
def silentLive : List Hop :=
  [traceHop 1 (some "192.168.1.1"), traceHop 2 none, traceHop 3 (some "10.2.0.9")]

theorem isTrace_silentBaseline : IsTrace "10.2.0.9" silentBaseline :=
  ⟨⟨silentBaseline, by decide⟩, by decide, ⟨[1, 2, 3, 4], rfl, by decide⟩⟩

theorem isTrace_silentLive : IsTrace "10.2.0.9" silentLive :=
  ⟨⟨silentLive, by decide⟩, by decide, ⟨[1, 2, 3], rfl, by decide⟩⟩

theorem localises_silentTrace_iff :
    Localises (evaluateRca false "10.2.0.9" silentBaseline silentLive) silentBaseline silentLive ↔
      ∀ place failed, FailsAt silentBaseline silentLive place failed →
        Visible silentBaseline silentLive place failed :=
  localises_iff (by decide) isTrace_silentBaseline isTrace_silentLive (by decide) (by decide)

/-- What is found for them. -/
def silentFinding : Finding where
  failedHopNumber := some 2
  failedHopIp := "10.2.0.9"
  lastKnownGoodHopIp := some "192.168.1.1"
  rcaSummary := "Transit failure at Hop 2 (10.2.0.9). " ++
    "Path confirmed operational through Hop 1 (192.168.1.1)."

theorem failsAt_silentTrace :
    FailsAt silentBaseline silentLive 2 (traceHop 3 (some "10.1.0.1")) := by
  refine ⟨rfl, fun before hlt h hfound ↦ ?_, Or.inl ⟨by decide, ?_⟩⟩
  · match before, hlt with
    | 0, _ =>
      obtain rfl := Option.some.inj hfound
      exact Or.inr ⟨traceHop 1 (some "192.168.1.1"), by decide, rfl, rfl⟩
    | 1, _ =>
      obtain rfl := Option.some.inj hfound
      exact Or.inl rfl
  · rintro ⟨lHop, hmem, hnumber, hip⟩
    have hother : ∀ h ∈ silentLive, h.hop = some 3 → h.ip ≠ some "10.1.0.1" := by decide
    exact hother lHop hmem hnumber hip

/-- The third router fails. The silent one in front of it is reported, at the address of the
target. -/
theorem not_localises_silentTrace :
    IsTrace "10.2.0.9" silentBaseline ∧ IsTrace "10.2.0.9" silentLive ∧
      isDirect false ((ipAddress "10.2.0.9").any Address.isGlobal) silentBaseline silentLive =
        false ∧
      evaluateRca false "10.2.0.9" silentBaseline silentLive = some silentFinding ∧
      FailsAt silentBaseline silentLive 2 (traceHop 3 (some "10.1.0.1")) ∧
      ¬ Localises (some silentFinding) silentBaseline silentLive := by
  refine ⟨isTrace_silentBaseline, isTrace_silentLive, by decide, by decide, failsAt_silentTrace,
    ?_⟩
  rintro ⟨found, place, failed, hfound, hfails, hnumber, hip, -⟩
  obtain rfl := Option.some.inj hfound
  have hsilent : ∀ h ∈ silentBaseline, h.hop = some 2 → h.ip = none := by decide
  have hmem := List.mem_of_getElem? hfails.found
  rw [hsilent failed hmem hnumber.symm] at hip
  exact absurd hip.symm (Option.some_ne_none _)

end Lnmp.Topology
