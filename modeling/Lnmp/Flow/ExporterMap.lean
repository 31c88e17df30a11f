import Mathlib.Data.List.Perm.Basic
import Lnmp.Flow.Accumulators

/-!
# The exporter map

`FlowCorrelator.refresh_from_db` (`monitoring/flow/correlator.py`). The map of exporters is filled
row by row, the primary address of an endpoint first and its aliases behind it, and a later row
overwrites what an earlier one wrote. The query has no `ORDER BY`.

`resolvesWell_iff` says when this does not matter: when no alias of an endpoint is an address of
another one, primary or alias.
-/

set_option autoImplicit false
set_option relaxedAutoImplicit false

namespace Lnmp.Flow

open Lnmp.Foundation Lnmp.Foundation.PythonText

/-! ### The refresh -/

/-- The columns of `endpoints` that the correlator reads. -/
structure Endpoint where
  id : UUID
  ipAddress : String
  flowExporterIps : Option (List String)
  endpointStatus : String
  deletedAt : Option ℤ
  deriving DecidableEq

/-- The primary address, as the maps have it. -/
def Endpoint.primaryIp (endpoint : Endpoint) : String := cleanIp endpoint.ipAddress

/-- The aliases, as the map of exporters has them. -/
def Endpoint.cleanAliases (endpoint : Endpoint) : List String :=
  ((endpoint.flowExporterIps.getD []).map cleanIp).filter (· ≠ "")

/-- The query selects the row. -/
def Endpoint.isSelected (endpoint : Endpoint) : Bool :=
  endpoint.deletedAt.isNone && endpoint.endpointStatus ≠ "DELETED"

/-- Write the addresses of an endpoint into the maps. -/
def FlowCorrelator.addEndpoint (maps : FlowCorrelator) (endpoint : Endpoint) : FlowCorrelator where
  participantMap := maps.participantMap.set endpoint.primaryIp endpoint.id
  exporterMap := endpoint.cleanAliases.foldl (fun map cleanAlias ↦ map.set cleanAlias endpoint.id)
    (maps.exporterMap.set endpoint.primaryIp endpoint.id)

/-- The maps after a refresh, for the rows of the table in the order in which they are returned. -/
def refreshFromDb (table : List Endpoint) : FlowCorrelator :=
  (table.filter Endpoint.isSelected).foldl FlowCorrelator.addEndpoint ⟨Dict.empty, Dict.empty⟩

/-! ### What is written -/

/-- All addresses under which an endpoint is an exporter. -/
def Endpoint.exporterIps (endpoint : Endpoint) : List String :=
  endpoint.primaryIp :: endpoint.cleanAliases

/-- What a row writes into the map of exporters. -/
def Endpoint.exporterWrites (endpoint : Endpoint) : List (String × UUID) :=
  endpoint.exporterIps.map (·, endpoint.id)

theorem exporterMap_foldl (endpoints : List Endpoint) (maps : FlowCorrelator) :
    (endpoints.foldl FlowCorrelator.addEndpoint maps).exporterMap =
      maps.exporterMap.update (endpoints.flatMap Endpoint.exporterWrites) := by
  induction endpoints generalizing maps with
  | nil => rfl
  | cons endpoint endpoints ih =>
    rw [List.foldl_cons, ih, List.flatMap_cons, Dict.update_append]
    refine congrArg (Dict.update · _) ?_
    rw [Endpoint.exporterWrites, Endpoint.exporterIps, List.map_cons, Dict.update, List.foldl_cons,
      List.foldl_map]
    rfl

theorem participantMap_foldl (endpoints : List Endpoint) (maps : FlowCorrelator) :
    (endpoints.foldl FlowCorrelator.addEndpoint maps).participantMap =
      maps.participantMap.update
        (endpoints.map fun endpoint ↦ (endpoint.primaryIp, endpoint.id)) := by
  induction endpoints generalizing maps with
  | nil => rfl
  | cons endpoint endpoints ih =>
    rw [List.foldl_cons, ih]
    rfl

theorem mem_exporterWrites {endpoints : List Endpoint} {ip : String} {id : UUID} :
    (ip, id) ∈ endpoints.flatMap Endpoint.exporterWrites ↔
      ∃ endpoint ∈ endpoints, endpoint.id = id ∧ ip ∈ endpoint.exporterIps := by
  simp only [List.mem_flatMap, Endpoint.exporterWrites, List.mem_map, Prod.mk.injEq]
  constructor
  · rintro ⟨endpoint, hmem, other, hother, rfl, rfl⟩
    exact ⟨endpoint, hmem, rfl, hother⟩
  · rintro ⟨endpoint, hmem, rfl, hip⟩
    exact ⟨endpoint, hmem, ip, hip, rfl, rfl⟩

theorem mem_keys_exporterWrites {endpoints : List Endpoint} {ip : String} :
    ip ∈ (endpoints.flatMap Endpoint.exporterWrites).map Prod.fst ↔
      ∃ endpoint ∈ endpoints, ip ∈ endpoint.exporterIps := by
  rw [List.mem_map]
  constructor
  · rintro ⟨⟨_, id⟩, hmem, rfl⟩
    obtain ⟨endpoint, hendpoint, -, hip⟩ := mem_exporterWrites.mp hmem
    exact ⟨endpoint, hendpoint, hip⟩
  · rintro ⟨endpoint, hendpoint, hip⟩
    exact ⟨(ip, endpoint.id), mem_exporterWrites.mpr ⟨endpoint, hendpoint, rfl, hip⟩, rfl⟩

/-- The last row that has an address decides about it. -/
theorem exporterMap_concat (table : List Endpoint) {endpoint : Endpoint}
    (hselected : endpoint.isSelected = true) {ip : String} (hip : ip ∈ endpoint.exporterIps) :
    (refreshFromDb (table ++ [endpoint])).exporterMap.get? ip = some endpoint.id := by
  rw [refreshFromDb, List.filter_append, List.filter_singleton, hselected, cond_true,
    exporterMap_foldl, List.flatMap_append, Dict.update_append, List.flatMap_singleton]
  have hwritten : ip ∈ endpoint.exporterWrites.map Prod.fst :=
    List.mem_map.mpr ⟨(ip, endpoint.id), List.mem_map_of_mem hip, rfl⟩
  obtain ⟨id, hmem, hget⟩ := Dict.exists_get?_update
    (Dict.empty.update ((table.filter Endpoint.isSelected).flatMap Endpoint.exporterWrites))
    hwritten
  obtain ⟨other, -, hsame⟩ := List.mem_map.mp hmem
  rw [hget, ← (Prod.mk.inj hsame).2]

/-! ### Resolution -/

/-- The map of exporters does not depend on the order of the rows, and the primary address of every
endpoint resolves to it, as exporter and as participant. -/
structure ResolvesWell (table : List Endpoint) : Prop where
  exporterMap_eq : ∀ rows rows' : List Endpoint, rows.Perm table → rows'.Perm table → ∀ ip,
    (refreshFromDb rows).exporterMap.get? ip = (refreshFromDb rows').exporterMap.get? ip
  correlate_primary : ∀ rows : List Endpoint, rows.Perm table → ∀ endpoint ∈ table,
    endpoint.isSelected = true →
      (refreshFromDb rows).correlate endpoint.ipAddress endpoint.ipAddress endpoint.ipAddress =
        (some endpoint.id, some endpoint.id, some endpoint.id)

/-- No alias of an endpoint is an address of another one. -/
def AliasesApart (table : List Endpoint) : Prop :=
  ∀ endpoint ∈ table, endpoint.isSelected = true → ∀ cleanAlias ∈ endpoint.cleanAliases,
    ∀ other ∈ table, other.isSelected = true → other.id ≠ endpoint.id →
      cleanAlias ∉ other.exporterIps

section Table

variable {table rows : List Endpoint} {first second : Endpoint} {ip : String}

/-- Two endpoints that have an address in common are one. -/
theorem AliasesApart.id_eq (hapart : AliasesApart table)
    (hips : ((table.filter Endpoint.isSelected).map Endpoint.primaryIp).Nodup)
    (hfirst : first ∈ table.filter Endpoint.isSelected)
    (hsecond : second ∈ table.filter Endpoint.isSelected)
    (hip : ip ∈ first.exporterIps) (hip' : ip ∈ second.exporterIps) : first.id = second.id := by
  by_contra hne
  obtain ⟨hmem, hselected⟩ := List.mem_filter.mp hfirst
  obtain ⟨hmem', hselected'⟩ := List.mem_filter.mp hsecond
  rcases List.mem_cons.mp hip with rfl | halias
  · rcases List.mem_cons.mp hip' with hprimary | halias'
    · exact hne (congrArg Endpoint.id (List.inj_on_of_nodup_map hips hfirst hsecond hprimary))
    · exact hapart second hmem' hselected' _ halias' first hmem hselected hne hip
  · exact hapart first hmem hselected _ halias second hmem' hselected' (Ne.symm hne) hip'

/-- Every row that has an address decides about it. -/
theorem AliasesApart.exporterMap_eq_some_iff (hapart : AliasesApart table)
    (hips : ((table.filter Endpoint.isSelected).map Endpoint.primaryIp).Nodup)
    (hrows : rows.Perm table) {id : UUID} :
    (refreshFromDb rows).exporterMap.get? ip = some id ↔
      ∃ endpoint ∈ table.filter Endpoint.isSelected,
        endpoint.id = id ∧ ip ∈ endpoint.exporterIps := by
  have hmem : ∀ endpoint, endpoint ∈ rows.filter Endpoint.isSelected ↔
      endpoint ∈ table.filter Endpoint.isSelected := fun endpoint ↦ (hrows.filter _).mem_iff
  rw [refreshFromDb, exporterMap_foldl]
  constructor
  · intro hget
    by_cases hkey : ip ∈ ((rows.filter Endpoint.isSelected).flatMap
        Endpoint.exporterWrites).map Prod.fst
    · obtain ⟨value, hwritten, hvalue⟩ := Dict.exists_get?_update Dict.empty hkey
      obtain rfl := Option.some.inj (hget.symm.trans hvalue)
      obtain ⟨endpoint, hendpoint, hid, hip⟩ := mem_exporterWrites.mp hwritten
      exact ⟨endpoint, (hmem endpoint).mp hendpoint, hid, hip⟩
    · rw [Dict.get?_update_of_not_mem _ hkey] at hget
      exact absurd hget.symm (Option.some_ne_none id)
  · rintro ⟨endpoint, hendpoint, rfl, hip⟩
    obtain ⟨value, hwritten, hvalue⟩ := Dict.exists_get?_update Dict.empty
      (mem_keys_exporterWrites.mpr ⟨endpoint, (hmem endpoint).mpr hendpoint, hip⟩)
    obtain ⟨other, hother, rfl, hip'⟩ := mem_exporterWrites.mp hwritten
    rw [hvalue, hapart.id_eq hips hendpoint ((hmem other).mp hother) hip hip']

/-- A primary address belongs to its endpoint as a participant. -/
theorem participantMap_primaryIp
    (hips : ((table.filter Endpoint.isSelected).map Endpoint.primaryIp).Nodup)
    (hrows : rows.Perm table) {endpoint : Endpoint}
    (hendpoint : endpoint ∈ table.filter Endpoint.isSelected) :
    (refreshFromDb rows).participantMap.get? endpoint.primaryIp = some endpoint.id := by
  have hselected : (rows.filter Endpoint.isSelected).Perm (table.filter Endpoint.isSelected) :=
    hrows.filter _
  have hkey : endpoint.primaryIp ∈ ((rows.filter Endpoint.isSelected).map
      fun endpoint ↦ (endpoint.primaryIp, endpoint.id)).map Prod.fst := by
    rw [List.map_map]
    exact List.mem_map_of_mem (hselected.mem_iff.mpr hendpoint)
  obtain ⟨value, hwritten, hvalue⟩ := Dict.exists_get?_update Dict.empty hkey
  obtain ⟨other, hother, hsame⟩ := List.mem_map.mp hwritten
  obtain ⟨hprimary, rfl⟩ := Prod.mk.inj hsame
  obtain rfl := List.inj_on_of_nodup_map hips (hselected.mem_iff.mp hother) hendpoint hprimary
  rw [refreshFromDb, participantMap_foldl]
  exact hvalue

end Table

/-- Exporters are resolved the same way whatever the order of the rows, and every primary address
belongs to its own endpoint, exactly when no alias of an endpoint is an address of another one. -/
theorem resolvesWell_iff (table : List Endpoint)
    (hips : ((table.filter Endpoint.isSelected).map Endpoint.primaryIp).Nodup) :
    ResolvesWell table ↔ AliasesApart table := by
  constructor
  · intro hwell endpoint hmem hselected cleanAlias halias other hmem' hselected' hne hshared
    have hlast : ∀ last ∈ table, ∃ init : List Endpoint, (init ++ [last]).Perm table := by
      intro last hlast
      obtain ⟨before, after, rfl⟩ := List.append_of_mem hlast
      refine ⟨before ++ after, ?_⟩
      rw [List.append_assoc]
      exact List.perm_append_comm.append_left before
    obtain ⟨init, hperm⟩ := hlast endpoint hmem
    obtain ⟨init', hperm'⟩ := hlast other hmem'
    have hsame := hwell.exporterMap_eq _ _ hperm hperm' cleanAlias
    rw [exporterMap_concat init hselected (List.mem_cons_of_mem _ halias),
      exporterMap_concat init' hselected' hshared, Option.some_inj] at hsame
    exact hne hsame.symm
  · intro hapart
    refine ⟨fun rows rows' hrows hrows' ip ↦ Option.ext fun id ↦ ?_,
      fun rows hrows endpoint hmem hselected ↦ ?_⟩
    · rw [hapart.exporterMap_eq_some_iff hips hrows, hapart.exporterMap_eq_some_iff hips hrows']
    · have hendpoint := List.mem_filter.mpr ⟨hmem, hselected⟩
      have hexporter : (refreshFromDb rows).exporterMap.get? endpoint.primaryIp =
          some endpoint.id := (hapart.exporterMap_eq_some_iff hips hrows).mpr
        ⟨endpoint, hendpoint, rfl, List.mem_cons_self ..⟩
      have hparticipant := participantMap_primaryIp hips hrows hendpoint
      rw [FlowCorrelator.correlate, ← Endpoint.primaryIp, hexporter, hparticipant]

/-- An endpoint with an address, and another one that was mapped to the same address. -/
def claimedTwice : List Endpoint :=
  [⟨1, "192.0.2.1", some [], "ACTIVE", none⟩, ⟨2, "192.0.2.2", some ["192.0.2.1"], "ACTIVE", none⟩]

/-- The address of the first endpoint resolves to the second one, or to the first, by the order of
the rows. -/
theorem not_resolvesWell_claimedTwice :
    ((claimedTwice.filter Endpoint.isSelected).map Endpoint.primaryIp).Nodup ∧
      ¬ResolvesWell claimedTwice := by
  refine ⟨by decide, fun hwell ↦ ?_⟩
  have hsame := hwell.exporterMap_eq claimedTwice claimedTwice.reverse (List.Perm.refl _)
    (List.reverse_perm _) "192.0.2.1"
  exact absurd hsame (by decide)

/-- An endpoint with an alias of its own, and another one. -/
def claimedOnce : List Endpoint :=
  [⟨1, "192.0.2.1", some ["198.51.100.1/32"], "ACTIVE", none⟩,
    ⟨2, "192.0.2.2", none, "ACTIVE", none⟩]

theorem resolvesWell_claimedOnce : ResolvesWell claimedOnce ↔ AliasesApart claimedOnce :=
  resolvesWell_iff claimedOnce (by decide)

end Lnmp.Flow
