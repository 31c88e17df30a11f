import Lnmp.Topology.Hops
import Mathlib.Data.List.Chain

/-!
# Sanitizing hops is a projection

Whatever the hops and the target are, `sanitize_traceroute_hops` keeps the hops with an address,
leaves no two anonymous hops next to each other, and ends with the target or with an address. What
it gives stays as it is when it is sanitized again (`sanitizeTracerouteHops_isProjection`).

A target that is the empty text counts as none.
-/

set_option autoImplicit false
set_option relaxedAutoImplicit false

namespace Lnmp.Topology

open Lnmp.Monitoring (isTruthy)

/-- What sanitizing makes of some hops. The only hop that it adds is one for the target. -/
structure IsProjection (hops : List Hop) (targetIp : Option String) (sanitized : List Hop) :
    Prop where
  addresses : ∃ added, sanitized.filter (!·.isNull) = hops.filter (!·.isNull) ++ added ∧
    added.length ≤ 1 ∧ ∀ hop ∈ added, isTruthy targetIp = true ∧ hop.ip = targetIp
  collapsed : sanitized.IsChain fun first second ↦
    ¬ (first.isNull = true ∧ second.isNull = true)
  target : isTruthy targetIp = true → ∃ last ∈ sanitized.getLast?, last.ip = targetIp
  noTarget : isTruthy targetIp = false → ∀ last ∈ sanitized.getLast?, last.isNull = false
  stable : sanitizeTracerouteHops sanitized targetIp = sanitized

/-! ### Collapsed hops -/

section Collapsed

variable {hops : List Hop} {hop : Hop}

theorem filter_collapseHops (prevWasNull : Bool) (hops : List Hop) :
    (collapseHops prevWasNull hops).filter (!·.isNull) = hops.filter (!·.isNull) := by
  induction hops generalizing prevWasNull with
  | nil => rfl
  | cons h rest ih =>
    by_cases hnull : h.isNull = true
    · cases prevWasNull with
      | true => simp [collapseHops, hnull, ih]
      | false => simp [collapseHops, hnull, ih]
    · simp [collapseHops, hnull, ih]

theorem filter_rdropWhile_isNull (hops : List Hop) :
    (hops.rdropWhile Hop.isNull).filter (!·.isNull) = hops.filter (!·.isNull) := by
  induction hops using List.reverseRecOn with
  | nil => rfl
  | append_singleton init last ih =>
    by_cases hnull : last.isNull = true
    · rw [List.rdropWhile_concat_pos _ _ _ hnull, ih, List.filter_append,
        List.filter_cons_of_neg (by simp [hnull]), List.filter_nil, List.append_nil]
    · rw [List.rdropWhile_concat_neg _ _ _ hnull]

/-- Behind an anonymous hop a collapsed route goes on with an address. -/
theorem isNull_head?_collapseHops {hops : List Hop}
    (hhop : hop ∈ (collapseHops true hops).head?) : hop.isNull = false := by
  induction hops with
  | nil => exact absurd hhop (Option.not_mem_none hop)
  | cons h rest ih =>
    by_cases hnull : h.isNull = true
    · rw [collapseHops, if_pos hnull, if_pos rfl] at hhop
      exact ih hhop
    · rw [collapseHops, if_neg hnull, List.head?_cons, Option.mem_some_iff] at hhop
      exact hhop ▸ Bool.eq_false_of_not_eq_true hnull

/-- Two consecutive hops of a collapsed route are not both anonymous. -/
theorem isChain_collapseHops (prevWasNull : Bool) (hops : List Hop) :
    (collapseHops prevWasNull hops).IsChain fun first second ↦
      ¬ (first.isNull = true ∧ second.isNull = true) := by
  induction hops generalizing prevWasNull with
  | nil => exact List.IsChain.nil
  | cons h rest ih =>
    by_cases hnull : h.isNull = true
    · cases prevWasNull with
      | true =>
        rw [collapseHops, if_pos hnull, if_pos rfl]
        exact ih true
      | false =>
        rw [collapseHops, if_pos hnull, if_neg (by decide)]
        refine List.isChain_cons.mpr ⟨fun next hnext hboth ↦ ?_, ih true⟩
        exact absurd (isNull_head?_collapseHops hnext) (by simp [hboth.2])
    · rw [collapseHops, if_neg hnull]
      exact List.isChain_cons.mpr ⟨fun _ _ hboth ↦ hnull hboth.1, ih false⟩

end Collapsed

/-! ### Routes with a target -/

section Target

variable {hops : List Hop} {targetIp : Option String}

theorem isNull_of_ip (htarget : isTruthy targetIp = true) {hop : Hop} (hip : hop.ip = targetIp) :
    hop.isNull = false := by
  cases targetIp with
  | none => exact absurd htarget (by decide)
  | some ip => simp [Hop.isNull, hip]

/-- A route that ends with its target is only collapsed. -/
theorem sanitizeTracerouteHops_of_reached (htarget : isTruthy targetIp = true) {last : Hop}
    (hlast : (collapseHops false hops).getLast? = some last) (hip : last.ip = targetIp) :
    sanitizeTracerouteHops hops targetIp = collapseHops false hops := by
  rw [sanitizeTracerouteHops, if_pos htarget]
  dsimp only
  rw [hlast]
  exact if_pos hip

/-- A route with a target is collapsed, and gets a hop for the target unless it ends with it. -/
theorem exists_sanitizeTracerouteHops_eq_append (htarget : isTruthy targetIp = true)
    (hops : List Hop) :
    ∃ added, sanitizeTracerouteHops hops targetIp = collapseHops false hops ++ added ∧
      added.length ≤ 1 ∧ (∀ hop ∈ added, hop.ip = targetIp) ∧
      ∃ last ∈ (collapseHops false hops ++ added).getLast?, last.ip = targetIp := by
  cases hlast : (collapseHops false hops).getLast? with
  | none =>
    refine ⟨[⟨some 1, targetIp, none⟩], ?_, le_rfl, by simp, by simp⟩
    rw [sanitizeTracerouteHops, if_pos htarget]
    dsimp only
    rw [hlast, List.getLast?_eq_none_iff.mp hlast]
    rfl
  | some last =>
    by_cases hip : last.ip = targetIp
    · refine ⟨[], ?_, by simp, by simp, last, by simpa using hlast, hip⟩
      rw [sanitizeTracerouteHops_of_reached htarget hlast hip, List.append_nil]
    · refine ⟨[⟨some (nextHopNum (collapseHops false hops) last), targetIp, none⟩], ?_, le_rfl,
        by simp, by simp⟩
      rw [sanitizeTracerouteHops, if_pos htarget]
      dsimp only
      rw [hlast]
      exact if_neg hip

theorem isProjection_of_target (htarget : isTruthy targetIp = true) (hops : List Hop) :
    IsProjection hops targetIp (sanitizeTracerouteHops hops targetIp) := by
  obtain ⟨added, hsanitized, hlength, hadded, last, hlast, hip⟩ :=
    exists_sanitizeTracerouteHops_eq_append htarget hops
  have haddress : ∀ hop ∈ added, hop.isNull = false := fun hop hhop ↦
    isNull_of_ip htarget (hadded hop hhop)
  have hcollapsed : collapseHops false (collapseHops false hops ++ added) =
      collapseHops false hops ++ added := by
    match added, hlength with
    | [], _ => rw [List.append_nil, collapseHops_collapseHops]
    | [hop], _ =>
      rw [collapseHops_concat _ _ (haddress hop (List.mem_singleton_self hop)),
        collapseHops_collapseHops]
  have hreached : (collapseHops false (collapseHops false hops ++ added)).getLast? =
      some last := by
    rw [hcollapsed]
    exact hlast
  rw [hsanitized]
  refine ⟨⟨added, ?_, hlength, fun hop hhop ↦ ⟨htarget, hadded hop hhop⟩⟩, ?_,
    fun _ ↦ ⟨last, hlast, hip⟩, fun hnone ↦ ?_, ?_⟩
  · have hkept : added.filter (!·.isNull) = added :=
      List.filter_eq_self.mpr fun hop hhop ↦ by simp [haddress hop hhop]
    rw [List.filter_append, filter_collapseHops, hkept]
  · rw [← hcollapsed]
    exact isChain_collapseHops false _
  · rw [htarget] at hnone
    exact absurd hnone (by decide)
  · rw [sanitizeTracerouteHops_of_reached htarget hreached hip, hcollapsed]

/-- Without a target, a route is collapsed up to its last address. -/
theorem isProjection_of_noTarget (htarget : isTruthy targetIp = false) (hops : List Hop) :
    IsProjection hops targetIp (sanitizeTracerouteHops hops targetIp) := by
  have hnone : ∀ route : List Hop,
      sanitizeTracerouteHops route targetIp = sanitizeTracerouteHops route none := by
    intro route
    rw [sanitizeTracerouteHops, if_neg (by simp [htarget]), sanitizeTracerouteHops_none]
  rw [hnone]
  refine ⟨⟨[], ?_, Nat.zero_le 1, by simp⟩, isChain_collapseHops false _, fun hsome ↦ ?_,
    fun _ last hlast ↦ ?_, ?_⟩
  · rw [sanitizeTracerouteHops_none, filter_collapseHops, filter_rdropWhile_isNull,
      List.append_nil]
  · rw [htarget] at hsome
    exact absurd hsome (by decide)
  · rw [sanitizeTracerouteHops_none] at hlast
    rcases List.eq_nil_or_concat (hops.rdropWhile Hop.isNull) with hempty | ⟨init, hop, hconcat⟩
    · rw [hempty] at hlast
      exact absurd hlast (Option.not_mem_none last)
    · have hne : hops.rdropWhile Hop.isNull ≠ [] := by simp [hconcat]
      have haddress := List.rdropWhile_last_not Hop.isNull hops hne
      simp only [hconcat, List.concat_eq_append, List.getLast_append_singleton] at haddress
      rw [hconcat, List.concat_eq_append,
        collapseHops_concat _ _ (Bool.eq_false_of_not_eq_true haddress), List.getLast?_concat,
        Option.mem_some_iff] at hlast
      exact hlast ▸ Bool.eq_false_of_not_eq_true haddress
  · rw [hnone, sanitizeTracerouteHops_idem]

end Target

/-- Sanitizing the hops of a traceroute is a projection, with a target and without one. -/
theorem sanitizeTracerouteHops_isProjection (hops : List Hop) (targetIp : Option String) :
    IsProjection hops targetIp (sanitizeTracerouteHops hops targetIp) := by
  cases htarget : isTruthy targetIp with
  | true => exact isProjection_of_target htarget hops
  | false => exact isProjection_of_noTarget htarget hops

end Lnmp.Topology
