import Lnmp.Foundation.Runs
import Lnmp.Flow.ExporterRequests

/-!
# Mapped exporters

What the correlator makes of the requests that map exporters, after a refresh. An endpoint gets its
addresses back as a whole list, so that a request can drop what another one has added meanwhile, and
an address that is mapped to a second endpoint stays with the first.

`everyState_mappingsEffective` says when every answered mapping takes effect: when a commit drops no
alias of its endpoint, and writes no address that another endpoint has.
-/

set_option autoImplicit false
set_option relaxedAutoImplicit false

namespace Lnmp.Flow

open Lnmp.Foundation Lnmp.Foundation.Runs

/-! ### Disjoint addresses -/

/-- No two endpoints have an exporter address in common. -/
def ExportersDisjoint (table : List EndpointRow) : Prop :=
  ∀ first ∈ table, first.isSelected = true → ∀ second ∈ table, second.isSelected = true →
    second.id ≠ first.id → ∀ ip ∈ first.exporterIps, ip ∉ second.exporterIps

section Table

variable {table : List EndpointRow} {row : EndpointRow} {ip : String}

theorem Endpoint.primaryIp_mem_exporterIps (endpoint : Endpoint) :
    endpoint.primaryIp ∈ endpoint.exporterIps := List.mem_cons_self ..

theorem EndpointRow.mem_exporterIps_of_mem_aliases (hmem : ip ∈ row.aliases)
    (hne : cleanIp ip ≠ "") : cleanIp ip ∈ row.exporterIps := by
  refine List.mem_cons_of_mem _ (List.mem_filter.mpr ⟨List.mem_map_of_mem hmem, ?_⟩)
  exact decide_eq_true hne

/-- A row that is not deleted is one that the correlator selects. -/
theorem EndpointRow.isSelected_iff : row.isSelected = true ↔ row.deletedAt = none := by
  have hstatus := row.status_eq_iff
  cases hdeleted : row.deletedAt with
  | none => simp_all [Endpoint.isSelected]
  | some time => simp [Endpoint.isSelected, hdeleted]

/-- A refresh resolves every exporter address of an endpoint to it, in every order of the rows. -/
theorem ExportersDisjoint.exporterMap_eq (hdisjoint : ExportersDisjoint table)
    (hids : (table.map (·.id)).Nodup) (hrow : row ∈ table) (hselected : row.isSelected = true)
    (hip : ip ∈ row.exporterIps) {rows : List Endpoint}
    (hrows : rows.Perm (table.map EndpointRow.toEndpoint)) :
    (refreshFromDb rows).exporterMap.get? ip = some row.id := by
  have hapart : AliasesApart (table.map EndpointRow.toEndpoint) := by
    intro endpoint hmem hlive cleanAlias halias other hother hotherLive hne
    obtain ⟨first, hfirst, rfl⟩ := List.mem_map.mp hmem
    obtain ⟨second, hsecond, rfl⟩ := List.mem_map.mp hother
    exact hdisjoint first hfirst hlive second hsecond hotherLive hne cleanAlias
      (List.mem_cons_of_mem _ halias)
  have hprimary : (((table.map EndpointRow.toEndpoint).filter Endpoint.isSelected).map
      Endpoint.primaryIp).Nodup := by
    have hpairs : ((table.map EndpointRow.toEndpoint).filter Endpoint.isSelected).Pairwise
        fun first second ↦ first.id ≠ second.id := by
      refine List.Pairwise.filter _ (List.pairwise_map.mpr ?_)
      exact List.pairwise_map.mp hids
    refine List.pairwise_map.mpr (hpairs.imp_of_mem ?_)
    intro first second hfirst hsecond hne hsame
    obtain ⟨hfirstMem, hfirstLive⟩ := List.mem_filter.mp hfirst
    obtain ⟨hsecondMem, hsecondLive⟩ := List.mem_filter.mp hsecond
    obtain ⟨one, hone, rfl⟩ := List.mem_map.mp hfirstMem
    obtain ⟨two, htwo, rfl⟩ := List.mem_map.mp hsecondMem
    have hshared : one.primaryIp ∈ two.exporterIps := by
      rw [hsame]
      exact two.primaryIp_mem_exporterIps
    exact hdisjoint one hone hfirstLive two htwo hsecondLive (Ne.symm hne) one.primaryIp
      one.primaryIp_mem_exporterIps hshared
  refine (hapart.exporterMap_eq_some_iff hprimary hrows).mpr ⟨row.toEndpoint, ?_, rfl, hip⟩
  exact List.mem_filter.mpr ⟨List.mem_map_of_mem hrow, hselected⟩

end Table

namespace ExporterService

variable {driver : InetDriver} {service next : ExporterService} {request : ℕ} {endpointId : UUID}
  {ip : String}

/-- The last answer for an address names an endpoint. -/
def LastMapped (service : ExporterService) (ip : String) (endpointId : UUID) : Prop :=
  ∃ before after, service.acknowledged = before ++ (ip, endpointId) :: after ∧
    ip ∉ after.map Prod.fst

/-- After a refresh, every address that was answered as mapped resolves to the endpoint of the last
answer, in every order of the rows, and it is among the aliases of every endpoint for which it was
answered. -/
structure MappingsEffective (service : ExporterService) : Prop where
  resolves : ∀ ip endpointId, service.LastMapped ip endpointId →
    ∀ rows : List Endpoint, rows.Perm (service.table.map EndpointRow.toEndpoint) →
    ∀ src dst, ((refreshFromDb rows).correlate ip src dst).1 = some endpointId
  mem_aliases : ∀ ip endpointId, (ip, endpointId) ∈ service.acknowledged →
    ∃ row ∈ service.table, row.id = endpointId ∧ ip ∈ row.aliases

/-- A commit drops no alias of its endpoint, and neither a commit nor an insert writes an address
that another endpoint has. -/
def KeepsAliases (driver : InetDriver) (service : ExporterService) : ExporterEvent → Prop
  | .commit request => ∀ endpointId existingIps ip,
    service.requests.get? request = some (.mapping endpointId existingIps ip) →
    (∀ row ∈ service.table, row.id = endpointId →
      row.aliases ⊆ existingIps ++ [driver.toText ip]) ∧
    ∀ row ∈ service.table, row.isSelected = true → row.id ≠ endpointId →
      cleanIp (driver.toText ip) ∉ row.exporterIps
  | .insert request _ => ∀ ip hostname,
    service.requests.get? request = some (.enrolling ip hostname) →
    service.hasPrimaryIp driver ip = false →
    ∀ row ∈ service.table, row.isSelected = true → cleanIp (driver.toText ip) ∉ row.exporterIps
  | .map .. | .enroll .. | .acknowledge _ | .fail _ => True

/-! ### The invariant -/

/-- An endpoint that the correlator selects has the address as an alias. -/
def Maps (service : ExporterService) (ip : String) (endpointId : UUID) : Prop :=
  cleanIp ip ≠ "" ∧
    ∃ row ∈ service.table, row.isSelected = true ∧ row.id = endpointId ∧ ip ∈ row.aliases

/-- What a request under way relies on: that the aliases which it has read are still there, or that
its mapping is in the table. -/
def Relies (driver : InetDriver) (service : ExporterService) : ExporterRequest → Prop
  | .mapping endpointId existingIps _ =>
    ∃ row ∈ service.table, row.isSelected = true ∧ row.id = endpointId ∧ existingIps ⊆ row.aliases
  | .enrolling _ _ => True
  | .mapped ip endpointId => service.Maps (driver.toText ip) endpointId

/-- Addresses are disjoint, and all mappings are in the table. -/
structure Consistent (driver : InetDriver) (service : ExporterService) : Prop where
  nodup_ids : (service.table.map (·.id)).Nodup
  disjoint : ExportersDisjoint service.table
  relies : ∀ request state, service.requests.get? request = some state →
    service.Relies driver state
  maps : ∀ ip endpointId, (ip, endpointId) ∈ service.acknowledged → service.Maps ip endpointId

theorem Consistent.mappingsEffective (hconsistent : service.Consistent driver) :
    service.MappingsEffective := by
  refine ⟨fun ip endpointId hlast rows hrows src dst ↦ ?_, fun ip endpointId hmem ↦ ?_⟩
  · obtain ⟨before, after, hsplit, -⟩ := hlast
    obtain ⟨hne, row, hrow, hselected, rfl, halias⟩ := hconsistent.maps ip endpointId
      (hsplit ▸ List.mem_append_right _ (List.mem_cons_self ..))
    exact hconsistent.disjoint.exporterMap_eq hconsistent.nodup_ids hrow hselected
      (EndpointRow.mem_exporterIps_of_mem_aliases halias hne) hrows
  · obtain ⟨-, row, hrow, -, hid, halias⟩ := hconsistent.maps ip endpointId hmem
    exact ⟨row, hrow, hid, halias⟩

/-- Every endpoint keeps its aliases. -/
def Grows (before after : List EndpointRow) : Prop :=
  ∀ row ∈ before, row.isSelected = true →
    ∃ other ∈ after, other.isSelected = true ∧ other.id = row.id ∧ row.aliases ⊆ other.aliases

theorem Maps.of_grows (hmaps : service.Maps ip endpointId)
    (hgrows : Grows service.table next.table) : next.Maps ip endpointId := by
  obtain ⟨hne, row, hrow, hselected, rfl, halias⟩ := hmaps
  obtain ⟨other, hother, hlive, hid, hsubset⟩ := hgrows row hrow hselected
  exact ⟨hne, other, hother, hlive, hid, hsubset halias⟩

theorem Relies.of_grows {state : ExporterRequest} (hrelies : service.Relies driver state)
    (hgrows : Grows service.table next.table) : next.Relies driver state := by
  cases state with
  | mapping endpointId existingIps ip =>
    obtain ⟨row, hrow, hselected, rfl, hread⟩ := hrelies
    obtain ⟨other, hother, hlive, hid, hsubset⟩ := hgrows row hrow hselected
    exact ⟨other, hother, hlive, hid, List.Subset.trans hread hsubset⟩
  | enrolling ip hostname => trivial
  | mapped ip endpointId => exact Maps.of_grows hrelies hgrows

/-- The table grows, and one request goes on. -/
theorem Consistent.of_grows {state : ExporterRequest} (hconsistent : service.Consistent driver)
    (table : List EndpointRow) (hids : (table.map (·.id)).Nodup)
    (hdisjoint : ExportersDisjoint table) (hgrows : Grows service.table table)
    (hstate : { service with table := table }.Relies driver state) :
    ({ service with table := table }.proceed request state).Consistent driver := by
  refine ⟨hids, hdisjoint, fun other found hfound ↦ ?_, fun ip endpointId hmem ↦ ?_⟩
  · have hget : (if other = request then some state else service.requests.get? other) =
        some found := (service.requests.get?_set request state other).symm.trans hfound
    split at hget
    · obtain rfl := Option.some.inj hget
      exact Relies.of_grows hstate fun row hrow hselected ↦
        ⟨row, hrow, hselected, rfl, List.Subset.refl _⟩
    · exact Relies.of_grows (hconsistent.relies other found hget) hgrows
  · exact Maps.of_grows (hconsistent.maps ip endpointId hmem) hgrows

theorem Grows.refl (table : List EndpointRow) : Grows table table :=
  fun row hrow hselected ↦ ⟨row, hrow, hselected, rfl, List.Subset.refl _⟩

/-- A request goes on, and the table stays. -/
theorem Consistent.proceed {state : ExporterRequest} (hconsistent : service.Consistent driver)
    (hstate : service.Relies driver state) :
    (service.proceed request state).Consistent driver :=
  hconsistent.of_grows service.table hconsistent.nodup_ids hconsistent.disjoint (Grows.refl _)
    hstate

/-- A request ends. -/
theorem Consistent.erase (hconsistent : service.Consistent driver) :
    { service with requests := service.requests.erase request }.Consistent driver := by
  refine ⟨hconsistent.nodup_ids, hconsistent.disjoint, fun other found hfound ↦ ?_,
    hconsistent.maps⟩
  have hget : (if other = request then none else service.requests.get? other) = some found :=
    (service.requests.get?_erase request other).symm.trans hfound
  exact hconsistent.relies other found (Option.ite_none_left_eq_some.mp hget).2

/-! ### Steps -/

theorem Consistent.receive {result : Except HttpError ExporterRequest}
    (hconsistent : service.Consistent driver)
    (hresult : ∀ state, result = .ok state → service.Relies driver state)
    (hstep : service.receive request result = some next) : next.Consistent driver := by
  rw [ExporterService.receive, Option.ite_none_right_eq_some] at hstep
  obtain rfl := Option.some.inj hstep.2
  cases result with
  | error error => exact hconsistent
  | ok state => exact hconsistent.proceed (hresult state rfl)

theorem of_findEndpoint {row : EndpointRow} (hfind : service.findEndpoint endpointId = .ok row) :
    row ∈ service.table ∧ row.isSelected = true ∧ row.id = endpointId := by
  simp only [findEndpoint] at hfind
  split at hfind
  · cases hfind
  · rename_i found hfound
    obtain rfl := Except.ok.inj hfind
    have hmatches := List.find?_some hfound
    obtain ⟨hid, hdeleted⟩ := of_decide_eq_true hmatches
    exact ⟨List.mem_of_find?_eq_some hfound, EndpointRow.isSelected_iff.mpr hdeleted, hid⟩

theorem relies_of_startMapping {state : ExporterRequest}
    (hstart : service.startMapping driver ip endpointId = .ok state) :
    service.Relies driver state := by
  rw [startMapping] at hstart
  cases hcheck : checkIp ip with
  | error error => simp [hcheck, bind, Except.bind] at hstart
  | ok clean =>
    cases hfind : service.findEndpoint endpointId with
    | error error => simp [hcheck, hfind, bind, Except.bind] at hstart
    | ok row =>
      obtain ⟨hrow, hselected, hid⟩ := of_findEndpoint hfind
      simp only [hcheck, hfind, bind, Except.bind, pure, Except.pure, Except.ok.injEq] at hstart
      subst hstart
      split
      · rename_i hcontains
        exact ⟨driver.cleanIp_toText_ne_empty clean, row, hrow, hselected, hid,
          driver.mem_of_contains _ _ hcontains⟩
      · exact ⟨row, hrow, hselected, hid, List.Subset.refl _⟩

theorem relies_of_startEnrolling {hostname : String} {state : ExporterRequest}
    (hstart : service.startEnrolling driver ip hostname = .ok state) :
    service.Relies driver state := by
  rw [startEnrolling] at hstart
  cases hcheck : checkIp ip with
  | error error => simp [hcheck, bind, Except.bind] at hstart
  | ok clean =>
    cases hfind : service.checkDuplicate driver clean (cleanHostname hostname clean) with
    | error error => simp [hcheck, hfind, bind, Except.bind] at hstart
    | ok _ =>
      simp only [hcheck, hfind, bind, Except.bind, pure, Except.pure, Except.ok.injEq] at hstart
      subst hstart
      trivial

section Commit

variable {existingIps : List String} {row : EndpointRow}

/-- The rows behind a commit. -/
def written (driver : InetDriver) (endpointId : UUID) (existingIps : List String) (ip : String)
    (row : EndpointRow) : EndpointRow :=
  if row.id = endpointId then row.setAliases (existingIps ++ [driver.toText ip]) else row

theorem id_written : (written driver endpointId existingIps ip row).id = row.id := by
  rw [written]
  split <;> rfl

theorem isSelected_written :
    (written driver endpointId existingIps ip row).isSelected = row.isSelected := by
  rw [written]
  split <;> rfl

/-- The exporter addresses behind a commit: those of the row before, and for the endpoint the new
one. -/
theorem mem_exporterIps_written {address : String}
    (hread : row.id = endpointId → existingIps ⊆ row.aliases)
    (hmem : address ∈ (written driver endpointId existingIps ip row).exporterIps) :
    address ∈ row.exporterIps ∨ row.id = endpointId ∧ address = cleanIp (driver.toText ip) := by
  rw [written] at hmem
  split at hmem
  · rename_i hid
    rcases List.mem_cons.mp hmem with hprimary | halias
    · exact Or.inl (hprimary ▸ row.primaryIp_mem_exporterIps)
    · obtain ⟨hclean, hne⟩ := List.mem_filter.mp halias
      obtain ⟨text, htext, rfl⟩ := List.mem_map.mp hclean
      rcases List.mem_append.mp htext with hold | hnew
      · exact Or.inl (EndpointRow.mem_exporterIps_of_mem_aliases (hread hid hold)
          (of_decide_eq_true hne))
      · exact Or.inr ⟨hid, by rw [List.mem_singleton.mp hnew]⟩
  · exact Or.inl hmem

theorem Consistent.commit (hconsistent : service.Consistent driver)
    (hrequest : service.requests.get? request = some (.mapping endpointId existingIps ip))
    (hkeeps : service.KeepsAliases driver (.commit request)) :
    ((service.writeAliases endpointId (existingIps ++ [driver.toText ip])).proceed request
      (.mapped ip endpointId)).Consistent driver := by
  obtain ⟨hdrops, hforeign⟩ := hkeeps endpointId existingIps ip hrequest
  obtain ⟨source, hsource, hlive, hid, hread⟩ := hconsistent.relies request _ hrequest
  -- Ids are unique, so that the row which was read is the one that is written.
  have hreads : ∀ row ∈ service.table, row.id = endpointId → existingIps ⊆ row.aliases := by
    intro row hrow hsame
    rw [List.inj_on_of_nodup_map hconsistent.nodup_ids hrow hsource (hsame.trans hid.symm)]
    exact hread
  refine hconsistent.of_grows (service.table.map (written driver endpointId existingIps ip)) ?_
    (fun first hfirst hfirstLive second hsecond hsecondLive hne address hmem hmem' ↦ ?_)
    (fun row hrow hselected ↦ ?_) ⟨driver.cleanIp_toText_ne_empty ip, ?_⟩
  · rw [List.map_map]
    exact (List.map_congr_left fun row _ ↦ id_written).symm ▸ hconsistent.nodup_ids
  · obtain ⟨one, hone, rfl⟩ := List.mem_map.mp hfirst
    obtain ⟨two, htwo, rfl⟩ := List.mem_map.mp hsecond
    rw [isSelected_written] at hfirstLive hsecondLive
    rw [id_written, id_written] at hne
    rcases mem_exporterIps_written (hreads one hone) hmem with hold | ⟨hnew, rfl⟩
    · rcases mem_exporterIps_written (hreads two htwo) hmem' with hold' | ⟨hnew', rfl⟩
      · exact hconsistent.disjoint one hone hfirstLive two htwo hsecondLive hne address hold hold'
      · exact hforeign one hone hfirstLive (fun hone ↦ hne (hnew'.trans hone.symm)) hold
    · rcases mem_exporterIps_written (hreads two htwo) hmem' with hold' | ⟨hnew', -⟩
      · exact hforeign two htwo hsecondLive (fun htwo ↦ hne (htwo.trans hnew.symm)) hold'
      · exact hne (hnew'.trans hnew.symm)
  · refine ⟨_, List.mem_map_of_mem hrow, isSelected_written.trans hselected, id_written, ?_⟩
    rw [written]
    split
    · rename_i hsame
      exact hdrops row hrow hsame
    · exact List.Subset.refl _
  · refine ⟨_, List.mem_map_of_mem hsource, isSelected_written.trans hlive,
      id_written.trans hid, ?_⟩
    rw [written, if_pos hid]
    exact List.mem_append_right _ (List.mem_singleton.mpr rfl)

end Commit

theorem Consistent.insert {hostname : String} (hconsistent : service.Consistent driver)
    (hrequest : service.requests.get? request = some (.enrolling ip hostname))
    (hfresh : endpointId ∉ service.table.map (·.id))
    (hprimary : service.hasPrimaryIp driver ip = false)
    (hkeeps : service.KeepsAliases driver (.insert request endpointId)) :
    ({ service with table := service.table ++ [exporterRow driver endpointId ip hostname]
      }.proceed request (.mapped ip endpointId)).Consistent driver := by
  have hforeign := hkeeps ip hostname hrequest hprimary
  have hnew : ∀ address ∈ (exporterRow driver endpointId ip hostname).exporterIps,
      address = cleanIp (driver.toText ip) := by
    intro address hmem
    rcases List.mem_cons.mp hmem with hprimary | halias
    · exact hprimary
    · obtain ⟨text, htext, rfl⟩ := List.mem_map.mp (List.mem_filter.mp halias).1
      rw [List.mem_singleton.mp htext]
  have hlast : exporterRow driver endpointId ip hostname ∈
      service.table ++ [exporterRow driver endpointId ip hostname] :=
    List.mem_append_right _ (List.mem_singleton.mpr rfl)
  refine hconsistent.of_grows (service.table ++ [exporterRow driver endpointId ip hostname]) ?_
    (fun first hfirst hfirstLive second hsecond hsecondLive hne address hmem hmem' ↦ ?_)
    (fun row hrow hselected ↦ ⟨row, List.mem_append_left _ hrow, hselected, rfl,
      List.Subset.refl _⟩)
    ⟨driver.cleanIp_toText_ne_empty ip, _, hlast, rfl, rfl, List.mem_singleton.mpr rfl⟩
  · rw [List.map_append, List.nodup_append]
    refine ⟨hconsistent.nodup_ids, List.nodup_singleton _, fun first hfirst second hsecond ↦ ?_⟩
    rintro rfl
    have hsame : first = endpointId := List.mem_singleton.mp hsecond
    exact hfresh (hsame ▸ hfirst)
  · rcases List.mem_append.mp hfirst with hold | hlast
    · rcases List.mem_append.mp hsecond with hold' | hlast'
      · exact hconsistent.disjoint first hold hfirstLive second hold' hsecondLive hne address hmem
          hmem'
      · rw [List.mem_singleton.mp hlast'] at hmem'
        exact hforeign first hold hfirstLive (hnew address hmem' ▸ hmem)
    · rw [List.mem_singleton.mp hlast] at hmem hne
      rcases List.mem_append.mp hsecond with hold' | hlast'
      · exact hforeign second hold' hsecondLive (hnew address hmem ▸ hmem')
      · exact hne (congrArg (fun row ↦ row.id) (List.mem_singleton.mp hlast'))

/-- The step lemma: a step that drops no alias and takes no address keeps the invariant. -/
theorem Consistent.step {event : ExporterEvent} (hconsistent : service.Consistent driver)
    (hkeeps : service.KeepsAliases driver event) (hstep : service.step driver event = some next) :
    next.Consistent driver := by
  cases event with
  | map request ip endpointId =>
    exact hconsistent.receive (fun _ hstart ↦ relies_of_startMapping hstart) hstep
  | enroll request ipAddress hostname =>
    exact hconsistent.receive (fun _ hstart ↦ relies_of_startEnrolling hstart) hstep
  | commit request =>
    simp only [ExporterService.step] at hstep
    split at hstep
    · rename_i hrequest
      obtain rfl := Option.some.inj hstep
      exact hconsistent.commit hrequest hkeeps
    · exact absurd hstep.symm (Option.some_ne_none next)
  | insert request endpointId =>
    simp only [ExporterService.step] at hstep
    split at hstep
    · rename_i hrequest
      split at hstep
      · exact absurd hstep.symm (Option.some_ne_none next)
      · rename_i hfresh
        split at hstep
        · obtain rfl := Option.some.inj hstep
          exact hconsistent.erase
        · rename_i hprimary
          obtain rfl := Option.some.inj hstep
          exact hconsistent.insert hrequest hfresh (Bool.eq_false_iff.mpr hprimary) hkeeps
    · exact absurd hstep.symm (Option.some_ne_none next)
  | acknowledge request =>
    simp only [ExporterService.step] at hstep
    split at hstep
    · rename_i ip endpointId hrequest
      obtain rfl := Option.some.inj hstep
      have herased : { service with requests := service.requests.erase request }.Consistent
          driver := hconsistent.erase
      obtain ⟨hids, hdisjoint, hrelies, -⟩ := herased
      refine ⟨hids, hdisjoint, hrelies, fun other id hmem ↦ ?_⟩
      rcases List.mem_append.mp hmem with hold | hnew
      · exact hconsistent.maps other id hold
      · obtain ⟨rfl, rfl⟩ := Prod.mk.inj (List.mem_singleton.mp hnew)
        exact hconsistent.relies request _ hrequest
    · exact absurd hstep.symm (Option.some_ne_none next)
  | fail request =>
    simp only [ExporterService.step] at hstep
    split at hstep
    · obtain rfl := Option.some.inj hstep
      exact hconsistent.erase
    · exact absurd hstep.symm (Option.some_ne_none next)

/-! ### Histories -/

/-- In every order of the steps of all requests in which no commit drops an alias, and no commit or
insert writes an address of another endpoint, every answered mapping takes effect at the next
refresh. -/
theorem everyState_mappingsEffective (driver : InetDriver) (table : List EndpointRow)
    (hids : (table.map (·.id)).Nodup) (hdisjoint : ExportersDisjoint table)
    (events : List ExporterEvent)
    (hkeeps : EveryStep (step driver) (start table) events (KeepsAliases driver)) :
    EveryState (step driver) (start table) events MappingsEffective := by
  have hstart : (start table).Consistent driver :=
    ⟨hids, hdisjoint, fun request state hstate ↦ absurd hstate.symm (Option.some_ne_none state),
      fun ip endpointId hmem ↦ absurd hmem List.not_mem_nil⟩
  intro before after service hsplit hrun
  have hconsistent := everyState_of_everyStep (Consistent driver)
    (fun _ _ _ hkept hkeep hstep ↦ hkept.step hkeep hstep) hstart hkeeps
  exact (hconsistent before after service hsplit hrun).mappingsEffective

/-- The text of an address in a driver that gives texts back. -/
def textOf (ip : String) : String := if cleanIp ip = "" then "0.0.0.0" else ip

theorem cleanIp_textOf_ne_empty (ip : String) : cleanIp (textOf ip) ≠ "" := by
  rw [textOf]
  split
  · decide
  · assumption

/-- A driver that gives texts back. -/
def textDriver : InetDriver where
  toText := textOf
  contains ips ip := textOf ip ∈ ips
  cleanIp_toText_ne_empty := cleanIp_textOf_ne_empty
  mem_of_contains _ _ := of_decide_eq_true

/-- A router without aliases. -/
def router : EndpointRow where
  id := 1
  ipAddress := "192.0.2.1"
  flowExporterIps := some []
  endpointStatus := "ACTIVE"
  deletedAt := none
  hostname := "router"
  status_eq_iff := active_eq_deleted_iff

theorem exportersDisjoint_router : ExportersDisjoint [router] := by
  intro first hfirst _ second hsecond _ hne
  rw [List.mem_singleton.mp hfirst, List.mem_singleton.mp hsecond] at hne
  exact absurd rfl hne

theorem everyState_mappingsEffective_router :
    EveryState (step textDriver) (start [router])
      (([.map 1 "198.51.100.1" 1] ++ [.commit 1]) ++ [.acknowledge 1]) MappingsEffective := by
  refine everyState_mappingsEffective textDriver [router] (List.nodup_singleton _)
    exportersDisjoint_router _ (EveryStep.concat (EveryStep.concat ?_ ?_) fun _ _ ↦ trivial)
  · intro before event after state hsplit _
    have hevent : event ∈ [ExporterEvent.map 1 "198.51.100.1" 1] :=
      hsplit ▸ List.mem_append_right _ (List.mem_cons_self ..)
    rw [List.mem_singleton.mp hevent]
    trivial
  · intro state hrun endpointId existingIps ip hrequest
    have hread : run (step textDriver) (start [router]) [.map 1 "198.51.100.1" 1] =
        some ⟨[router], Dict.empty.set 1 (.mapping 1 [] "198.51.100.1"), []⟩ := by
      decide
    obtain rfl := Option.some.inj (hrun.symm.trans hread)
    obtain ⟨rfl, rfl, rfl⟩ := ExporterRequest.mapping.inj (Option.some.inj hrequest)
    refine ⟨fun row hrow _ ↦ ?_, fun row hrow _ hne ↦ ?_⟩
    · rw [List.mem_singleton.mp hrow]
      exact List.nil_subset _
    · rw [List.mem_singleton.mp hrow] at hne
      exact absurd rfl hne

/-- Two addresses are mapped to one endpoint side by side. -/
def sideBySide : List ExporterEvent :=
  [.map 1 "198.51.100.1" 1, .map 2 "198.51.100.2" 1, .commit 1, .commit 2, .acknowledge 1,
    .acknowledge 2]

/-- The second commit drops the address of the first. -/
theorem exists_not_mappingsEffective :
    ¬∀ (driver : InetDriver) (table : List EndpointRow), (table.map (·.id)).Nodup →
      ExportersDisjoint table → ∀ events last,
      run (step driver) (start table) events = some last → last.requests.isEmpty = true →
      last.MappingsEffective := by
  intro hall
  have hany : (run (step textDriver) (start [router]) sideBySide).any (fun last ↦
      last.requests.isEmpty && decide (("198.51.100.1", (1 : UUID)) ∈ last.acknowledged) &&
        last.table.all fun row ↦ "198.51.100.1" ∉ row.aliases) = true := by
    decide
  obtain ⟨last, hrun, hlast⟩ := (Option.any_eq_true _ _).mp hany
  rw [Bool.and_eq_true, Bool.and_eq_true, decide_eq_true_eq, List.all_eq_true] at hlast
  obtain ⟨⟨hidle, hanswered⟩, hdropped⟩ := hlast
  have heffective := hall textDriver [router] (List.nodup_singleton _) exportersDisjoint_router
    sideBySide last hrun hidle
  obtain ⟨row, hrow, -, halias⟩ := heffective.mem_aliases _ _ hanswered
  exact of_decide_eq_true (hdropped row hrow) halias

end ExporterService

end Lnmp.Flow
