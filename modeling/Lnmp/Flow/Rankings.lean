import Lnmp.Flow.FleetCharts

/-!
# The largest applications and conversations

`get_applications_breakdown` and the conversations of `get_top_talkers` (`routers/bandwidth.py`).
The database may list totals of the same size in any order: an answer is any list of rows that
`IsTop` allows.

In every run of the aggregator the answers are right about the flows that their tables show
(`Ranks`): a row has all bytes of its flows, no group stands twice, and no group that is left out is
larger (`applications_of_history`, `conversations_of_run`). The rounded percentages of the
applications add up to 100 but for 0.075.
-/

set_option autoImplicit false
set_option relaxedAutoImplicit false

namespace Lnmp.Flow

open Lnmp.Foundation Lnmp.Foundation.Runs Lnmp.Foundation.GroupBy Lnmp.Foundation.IpAddress
open Lnmp.Foundation.ContinuousAggregate
open Lnmp.Foundation.PythonText (formatInt roundHalfEven abs_roundHalfEven_sub_le)

/-! ### Applications -/

/-- `PROTOCOL_MAP`. -/
def protocolMap : ℤ → Option String
  | 1 => some "ICMP"
  | 6 => some "TCP"
  | 17 => some "UDP"
  | 47 => some "GRE"
  | 50 => some "ESP"
  | 58 => some "IPv6-ICMP"
  | 89 => some "OSPF"
  | _ => none

/-- `PORT_LABEL_MAP`. -/
def portLabelMap : ℤ → Option String
  | 22 => some "SSH"
  | 53 => some "DNS"
  | 80 => some "HTTP"
  | 123 => some "NTP"
  | 161 => some "SNMP"
  | 443 => some "HTTPS"
  | 8080 => some "HTTP-Alt"
  | 8443 => some "HTTPS-Alt"
  | 3306 => some "MySQL"
  | 5432 => some "PostgreSQL"
  | 6379 => some "Redis"
  | 9200 => some "Elasticsearch"
  | 2055 => some "NetFlow"
  | 4739 => some "IPFIX"
  | _ => none

/-- A protocol and a port. -/
structure Application where
  protocol : ℤ
  dstPort : ℤ
  deriving DecidableEq

/-- The bucket and the application of a row. -/
def RollupView.application (row : RollupView) : ℤ × Application :=
  (row.bucket, ⟨row.protocol, row.dstPort⟩)

/-- `WHERE` of the applications. -/
def applicationSince (start : ℤ) (found : ℤ × Application) : Option Application :=
  if start ≤ found.1 then some found.2 else none

variable {Inet : Type*} [DecidableEq Inet]

/-- The bytes of the applications. -/
def applicationTotals (rows : List (RollupView × FlowCounters)) (start : ℤ) :
    Dict Application ℤ :=
  totals (fun row ↦ applicationSince start row.application)
    (weigh (fun _ counters ↦ bytesHom counters) rows)

/-- `LIMIT` of the applications. -/
def applicationLimit : ℕ := 15

/-- An application of the answer. -/
structure ApplicationDistributionItem where
  protocolName : String
  port : ℤ
  serviceLabel : String
  totalBytes : ℤ
  percentage : ℚ

/-- A percentage of all bytes, before it is rounded. -/
def share (overallBytes bytes : ℤ) : ℚ :=
  if 0 < overallBytes then (bytes : ℚ) / overallBytes * 100 else 0

/-- An application of the answer, from its row. -/
def applicationItem (overallBytes : ℤ) (row : Application × ℤ) : ApplicationDistributionItem :=
  let protocolText := (formatInt row.1.protocol).getD ""
  let name := (protocolMap row.1.protocol).getD ("P-" ++ protocolText)
  { protocolName := name
    port := row.1.dstPort
    serviceLabel :=
      (portLabelMap row.1.dstPort).getD (name ++ "/" ++ (formatInt row.1.dstPort).getD "")
    totalBytes := row.2
    percentage := roundHalfEven (share overallBytes row.2 * 100) / 100 }

/-- `get_applications_breakdown`, from the rows of its query. -/
def getApplicationsBreakdown (rows : List (Application × ℤ)) : List ApplicationDistributionItem :=
  rows.map (applicationItem (rows.map Prod.snd).sum)

/-! ### Conversations -/

/-- Two addresses, a protocol and a port. -/
structure Conversation (Inet : Type*) where
  srcIp : Inet
  dstIp : Inet
  protocol : ℤ
  dstPort : ℤ
  deriving DecidableEq

/-- The rows of `flow_minute_rollups`, with their endpoints. -/
def conversationRows (tables : Tables Inet) :
    List ((RollupKey Inet × Option UUID × Option UUID) × FlowCounters) :=
  tables.flowMinuteRollups.entries.map fun entry ↦
    ((entry.1, entry.2.srcEndpointId, entry.2.dstEndpointId), entry.2.counters)

/-- `WHERE` and `GROUP BY` of the conversations. -/
def SeriesQuery.conversationOf (query : SeriesQuery)
    (row : RollupKey Inet × Option UUID × Option UUID) : Option (Conversation Inet) :=
  if query.start ≤ row.1.bucket ∧
      (query.exporterId = none ∨ query.exporterId = some row.1.exporterId) ∧
      (query.endpointId = none ∨ row.2.1 = query.endpointId ∨ row.2.2 = query.endpointId) then
    some ⟨row.1.srcIp, row.1.dstIp, row.1.protocol, row.1.dstPort⟩
  else none

/-- The bytes and the number of flows. -/
def bytesAndFlows : FlowCounters →+ ℤ × ℤ :=
  AddMonoidHom.mk' (fun counters ↦ (counters.bytes, counters.flowCount)) fun _ _ ↦ rfl

/-- The bytes and the flows of the conversations. -/
def conversationTotals (tables : Tables Inet) (query : SeriesQuery) :
    Dict (Conversation Inet) (ℤ × ℤ) :=
  totals query.conversationOf
    (weigh (fun _ counters ↦ bytesAndFlows counters) (conversationRows tables))

/-- A conversation of the answer. -/
structure TopConversationItem where
  srcIp : String
  dstIp : String
  protocol : String
  dstPort : ℤ
  totalBytes : ℤ
  flowCount : ℤ

/-- `top_conversations` of `get_top_talkers`, from the rows of its query. -/
def topConversations (formatInet : Inet → String) (rows : List (Conversation Inet × ℤ × ℤ)) :
    List TopConversationItem :=
  rows.map fun row ↦
    { srcIp := formatInet row.1.srcIp
      dstIp := formatInet row.1.dstIp
      protocol := (protocolMap row.1.protocol).getD ("PROTO-" ++ (formatInt row.1.protocol).getD "")
      dstPort := row.1.dstPort
      totalBytes := row.2.1
      flowCount := row.2.2 }

/-! ### Rankings of flows -/

/-- Rows rank groups of flows: each group stands once and has the amounts of all its flows, and a
group that is left out had no place and weighs no more than a listed one. -/
structure Ranks {Group Amount : Type*} [AddCommGroup Amount] (limit : ℕ)
    (groupOf : ResolvedFlow → Option Group) (amount : ResolvedFlow → Amount) (weight : Amount → ℤ)
    (flows : List ResolvedFlow) (rows : List (Group × Amount)) [DecidableEq Group] : Prop where
  length_le : rows.length ≤ limit
  nodup : (rows.map Prod.fst).Nodup
  total : ∀ row ∈ rows,
    row.2 = ((flows.filter (groupOf · = some row.1)).map amount).sum
  rest : ∀ flow ∈ flows, ∀ group, groupOf flow = some group → group ∉ rows.map Prod.fst →
    rows.length = limit ∧ ∀ row ∈ rows,
      weight ((flows.filter (groupOf · = some group)).map amount).sum ≤ weight row.2

section Ranking

variable {Group Amount : Type*} [DecidableEq Group] [AddCommGroup Amount]
  {castInet : String → Option Inet} {tables : Tables Inet} {flows : List ResolvedFlow}

/-- The group of a flow, by its key in the table. -/
def ResolvedFlow.groupOf (castInet : String → Option Inet) (group : RollupKey Inet → Option Group)
    (flow : ResolvedFlow) : Option Group :=
  (tableKey castInet flow.key).bind group

omit [DecidableEq Inet] in
theorem getD_totals_posting (keyGroup : FlowKey → Option Group) (weight : FlowCounters →+ Amount)
    (flows : List ResolvedFlow) (group : Group) :
    ((totals keyGroup (weigh (fun _ counters ↦ weight counters)
        (flows.map ResolvedFlow.posting))).get? group).getD 0 =
      ((flows.filter (keyGroup ·.key = some group)).map fun flow ↦ weight flow.counters).sum := by
  rw [getD_totals, weigh, List.map_map, List.map_map]
  induction flows with
  | nil => rfl
  | cons flow rest ih =>
    rw [List.map_cons, List.sum_cons, ih, List.filter_cons]
    simp only [Function.comp_apply, ResolvedFlow.posting, decide_eq_true_eq]
    split_ifs
    · rw [List.map_cons, List.sum_cons]
    · exact zero_add _

omit [DecidableEq Inet] in
/-- The largest totals of the flows rank their groups. -/
theorem ranks_of_isTop (group : RollupKey Inet → Option Group) (weight : FlowCounters →+ Amount)
    {size : Amount → ℤ} {limit : ℕ} {dict : Dict Group Amount} {rows : List (Group × Amount)}
    (hget : ∀ other, dict.get? other = (totals (fun key ↦ (tableKey castInet key).bind group)
      (weigh (fun _ counters ↦ weight counters) (flows.map ResolvedFlow.posting))).get? other)
    (hrows : IsTop size limit dict rows) :
    Ranks limit (ResolvedFlow.groupOf castInet group) (fun flow ↦ weight flow.counters) size flows
      rows := by
  refine ⟨hrows.length_le, hrows.nodup, fun row hrow ↦ ?_, fun flow hflow other hgroup hother ↦ ?_⟩
  · have htotal := getD_totals_posting (fun key ↦ (tableKey castInet key).bind group) weight flows
      row.1
    rw [← hget, hrows.get? hrow, Option.getD_some] at htotal
    exact htotal
  · have hkey : other ∈ (totals (fun key ↦ (tableKey castInet key).bind group)
        (weigh (fun _ counters ↦ weight counters) (flows.map ResolvedFlow.posting))).keys := by
      rw [mem_keys_totals, map_fst_weigh]
      exact ⟨flow.key, List.mem_map_of_mem (List.mem_map_of_mem hflow), hgroup⟩
    obtain ⟨value, hvalue⟩ := (Dict.mem_keys_iff_exists _ _).mp hkey
    have htotal := getD_totals_posting (fun key ↦ (tableKey castInet key).bind group) weight flows
      other
    rw [hvalue, Option.getD_some] at htotal
    have hrest := hrows.le_of_notMem ((hget other).trans hvalue) hother
    rw [htotal] at hrest
    exact hrest

omit [DecidableEq Inet] in
/-- Groups of rows of the minute table that only depend on the key. -/
theorem totals_map_entries {Key : Type*} {keyGroup : Key → Option Group}
    (group : RollupKey Inet → Option Group)
    (row : RollupKey Inet × RollupRecord → Key × FlowCounters)
    (hgroup : ∀ entry, keyGroup (row entry).1 = group entry.1)
    (hcounters : ∀ entry, (row entry).2 = entry.2.counters) (weight : FlowCounters →+ Amount) :
    totals keyGroup (weigh (fun _ counters ↦ weight counters)
        (tables.flowMinuteRollups.entries.map row)) =
      totals group (weigh (fun _ counters ↦ weight counters) tables.minuteCounters.entries) := by
  rw [totals, totals, weigh, weigh, Tables.minuteCounters, Dict.mapValues, Dict.mapEntries, regroup,
    regroup, List.map_map, List.map_map, List.filterMap_map, List.filterMap_map]
  refine congrArg _ (List.filterMap_congr fun entry _ ↦ ?_)
  simp only [Function.comp_apply, hgroup, hcounters]

end Ranking

/-! ### The answers in a run -/

/-- The application of a row of the minute table, with its bucket in a model. -/
def RollupModel.application (model : RollupModel) (key : RollupKey Inet) : ℤ × Application :=
  (model.truncate key.bucket, ⟨key.protocol, key.dstPort⟩)

/-- The application of a row of the minute table, in a window. -/
def applicationKey (model : RollupModel) (start : ℤ) (key : RollupKey Inet) : Option Application :=
  applicationSince start (model.application key)

/-- The conversation of a row of the minute table. -/
def conversationKey (start : ℤ) (exporterId : Option UUID) (key : RollupKey Inet) :
    Option (Conversation Inet) :=
  if start ≤ key.bucket ∧ (exporterId = none ∨ exporterId = some key.exporterId) then
    some ⟨key.srcIp, key.dstIp, key.protocol, key.dstPort⟩
  else none

section Run

variable {castInet : String → Option Inet} {steps : List (Step (World Inet) Refresh)}
  {world : World Inet} {tables : Tables Inet}

/-- The bytes of an application in a bucket are those of the flows that are shown there. -/
theorem get?_totals_application (hhistory : RollupHistory castInet steps world)
    (model : RollupModel) (found : ℤ × Application) :
    (totals (fun row : RollupView ↦ some row.application)
        (weigh (fun _ counters ↦ bytesHom counters)
          (model.rows world.tables (rollupAggregates steps)))).get? found =
      (totals (fun key ↦ (tableKey castInet key).bind fun other ↦ some (model.application other))
        (weigh (fun _ counters ↦ bytesHom counters)
          ((shownFlows model steps world).map ResolvedFlow.posting))).get? found := by
  obtain ⟨bucket, application⟩ := found
  have hbucket : ∀ row : RollupView, some row.application = some (bucket, application) →
      row.bucket = bucket := fun row hrow ↦ congrArg Prod.fst (Option.some.inj hrow)
  have hcovers : ∀ key : FlowKey, ((tableKey castInet key).bind fun other ↦
      some (model.application other)) = some (bucket, application) →
        decide (model.truncate key.bucket = bucket) = true := by
    intro key hkey
    obtain ⟨other, hother, hsame⟩ := Option.bind_eq_some_iff.mp hkey
    rw [← (tableKey_eq_some hother).1]
    exact decide_eq_true (congrArg Prod.fst (Option.some.inj hsame))
  obtain ⟨events, hrun⟩ := hhistory.reached_shownWorld model bucket
  rw [get?_totals_rows model (fun _ ↦ bytesHom) steps world hbucket, minuteRows,
    totals_map_entries (fun key ↦ some (model.application key)) _ (fun _ ↦ rfl) (fun _ ↦ rfl)
      bytesHom,
    get?_totals_of_holds_regroup (postFlows_of_run hrun).flows _ bytesHom]
  refine (get?_totals_weigh_of_perm _ hcovers ?_).symm
  rw [List.filter_map, List.filter_map]
  exact (perm_filter_shownFlows model steps world bucket).map _

/-- The bytes of an application are those of the flows that are shown. -/
theorem get?_applicationTotals (hhistory : RollupHistory castInet steps world)
    (model : RollupModel) (start : ℤ) (application : Application) :
    (applicationTotals (model.rows world.tables (rollupAggregates steps)) start).get? application =
      (totals (fun key ↦ (tableKey castInet key).bind (applicationKey model start))
        (weigh (fun _ counters ↦ bytesHom counters)
          ((shownFlows model steps world).map ResolvedFlow.posting))).get? application := by
  have htotals := get?_totals_bind_congr (get?_totals_application hhistory model)
    (applicationSince start) application
  simp only [Option.bind_assoc] at htotals
  exact htotals

theorem conversationTotals_eq (start : ℤ) (exporterId : Option UUID) :
    conversationTotals tables ⟨start, exporterId, none⟩ =
      totals (conversationKey start exporterId) (weigh (fun _ counters ↦ bytesAndFlows counters)
        tables.minuteCounters.entries) := by
  refine totals_map_entries _ _ (fun entry ↦ ?_) (fun _ ↦ rfl) bytesAndFlows
  rw [SeriesQuery.conversationOf, conversationKey]
  refine if_congr ?_ rfl rfl
  exact and_congr_right fun _ ↦ and_iff_left (Or.inl rfl)

/-- The percentages of some rows are off by one half of a hundredth each. -/
theorem abs_sum_percentage_sub_le (overallBytes : ℤ) (rows : List (Application × ℤ)) :
    |((rows.map (applicationItem overallBytes)).map
        ApplicationDistributionItem.percentage).sum -
      (rows.map fun row ↦ share overallBytes row.2).sum| ≤ rows.length / 200 := by
  induction rows with
  | nil => simp
  | cons row rest ih =>
    have hround := abs_roundHalfEven_sub_le (share overallBytes row.2 * 100)
    simp only [List.map_cons, List.sum_cons, List.length_cons, Nat.cast_add, Nat.cast_one,
      applicationItem] at ih ⊢
    rw [abs_le] at hround ih ⊢
    constructor <;> linarith [hround.1, hround.2, ih.1, ih.2]

/-- The shares of some rows in their bytes add up to 100. -/
theorem sum_share {rows : List (Application × ℤ)} (hbytes : 0 < (rows.map Prod.snd).sum) :
    (rows.map fun row ↦ share (rows.map Prod.snd).sum row.2).sum = 100 := by
  have hscale : ∀ list : List (Application × ℤ),
      (list.map fun row ↦ share (rows.map Prod.snd).sum row.2).sum =
        ((list.map Prod.snd).sum : ℚ) / (rows.map Prod.snd).sum * 100 := by
    intro list
    induction list with
    | nil => simp
    | cons row rest ih =>
      rw [List.map_cons, List.sum_cons, ih, share, if_pos hbytes, List.map_cons, List.sum_cons]
      push_cast
      ring
  have hpos : ((rows.map Prod.snd).sum : ℚ) ≠ 0 := by exact_mod_cast hbytes.ne'
  rw [hscale, div_self hpos, one_mul]

/-- In every run with refreshes and for every window, the applications listed are the largest ones
of the flows that are shown, each as often as it was committed in the state that its bucket shows,
and their percentages add up to 100 but for 0.075. -/
theorem applications_of_history (hhistory : RollupHistory castInet steps world) (now : ℤ)
    (window : String) {rows : List (Application × ℤ)}
    (hrows : IsTop id applicationLimit (applicationTotals ((selectRollupModel window none).rows
      world.tables (rollupAggregates steps)) (startTime now window)) rows) :
    (∃ flows : List ResolvedFlow,
      (∀ flow, flows.count flow = (flowsOf (shownWorld (selectRollupModel window none) steps world
        ((selectRollupModel window none).truncate flow.key.bucket)).history.durable).count flow) ∧
      Ranks applicationLimit
        (ResolvedFlow.groupOf castInet
          (applicationKey (selectRollupModel window none) (startTime now window)))
        ResolvedFlow.flowBytes id flows rows) ∧
      (0 < (rows.map Prod.snd).sum →
        |((getApplicationsBreakdown rows).map ApplicationDistributionItem.percentage).sum - 100| ≤
          3 / 40) := by
  refine ⟨⟨_, count_shownFlows _ steps world, ranks_of_isTop _ bytesHom
    (get?_applicationTotals hhistory _ _) hrows⟩, fun hbytes ↦ ?_⟩
  have hround := abs_sum_percentage_sub_le (rows.map Prod.snd).sum rows
  rw [sum_share hbytes] at hround
  have hlength : (rows.length : ℚ) ≤ 15 := by exact_mod_cast hrows.length_le
  exact hround.trans (by linarith)

/-- In every run, the conversations listed are the largest ones of the flows committed, with their
bytes and the number of their flows. -/
theorem conversations_of_run {events : List Event}
    (hrun : run (step castInet) (World.initial Inet) events = some world) (now : ℤ)
    (window : String) (exporterId : Option UUID) (limit : ℕ) (formatInet : Inet → String)
    {rows : List (Conversation Inet × ℤ × ℤ)}
    (hrows : IsTop Prod.fst limit
      (conversationTotals world.tables ⟨startTime now window, exporterId, none⟩) rows) :
    Ranks limit (ResolvedFlow.groupOf castInet (conversationKey (startTime now window) exporterId))
        (fun flow ↦ (flow.flowBytes, 1)) Prod.fst (flowsOf world.history.durable) rows ∧
      (topConversations formatInet rows).map (fun item ↦ (item.totalBytes, item.flowCount)) =
        rows.map Prod.snd := by
  refine ⟨ranks_of_isTop _ bytesAndFlows (fun conversation ↦ ?_) hrows, ?_⟩
  · rw [conversationTotals_eq]
    exact get?_totals_of_holds_regroup (postFlows_of_run hrun).flows _ bytesAndFlows conversation
  · rw [topConversations, List.map_map]
    rfl

end Run

/-- The sample flow is all of the traffic of a day. -/
theorem applications_sampleWorld :
    ∃ rows : List (Application × ℤ), rows = [(⟨6, 443⟩, 1500)] ∧
      (∃ flows : List ResolvedFlow,
        (∀ flow, flows.count flow = (flowsOf (shownWorld .flowHourlyRollup sampleRefreshes
          sampleWorld (RollupModel.truncate .flowHourlyRollup
            flow.key.bucket)).history.durable).count flow) ∧
        Ranks applicationLimit
          (ResolvedFlow.groupOf ipAddress
            (applicationKey .flowHourlyRollup (startTime 1767232860000000 "24h")))
          ResolvedFlow.flowBytes id flows rows) ∧
        (0 < (rows.map Prod.snd).sum →
          |((getApplicationsBreakdown rows).map ApplicationDistributionItem.percentage).sum - 100| ≤
            3 / 40) :=
  ⟨top id applicationLimit (applicationTotals ((selectRollupModel "24h" none).rows
      sampleWorld.tables (rollupAggregates sampleRefreshes)) (startTime 1767232860000000 "24h")),
    by decide +kernel,
    applications_of_history rollupHistory_sampleRefreshes 1767232860000000 "24h"
      (isTop_top id applicationLimit _)⟩

theorem conversations_sampleWorld :
    ∃ rows : List (Conversation Address × ℤ × ℤ), rows.map Prod.snd = [(1500, 1)] ∧
      Ranks 10 (ResolvedFlow.groupOf ipAddress
          (conversationKey (startTime 1767225660000000 "1h") none))
        (fun flow ↦ (flow.flowBytes, 1)) Prod.fst (flowsOf sampleWorld.history.durable) rows ∧
      (topConversations (fun _ ↦ "") rows).map (fun item ↦ (item.totalBytes, item.flowCount)) =
        rows.map Prod.snd :=
  ⟨top Prod.fst 10 (conversationTotals sampleWorld.tables
      ⟨startTime 1767225660000000 "1h", none, none⟩), by decide +kernel,
    conversations_of_run (Option.some_get isSome_run_sampleEvents).symm 1767225660000000 "1h" none
      10 (fun _ ↦ "") (isTop_top Prod.fst 10 _)⟩

end Lnmp.Flow
