import Lnmp.Flow.Records

/-!
# The order of the times of a flow

An exporter gives the start and the end of a flow by its uptime, a clock of 32 bits that wraps. The
parsers take the time of the packet less the age of an uptime, and the time of the packet itself for
an age of more than 30 days, which they do not believe. They do so for each of the two on its own.

`uptimeTime_le_iff` says when the start comes out no later than the end: unless the start is not
believed and the end is, with an age that is not zero. The end is never later than the packet.
-/

set_option autoImplicit false
set_option relaxedAutoImplicit false

namespace Lnmp.Flow

open Lnmp.Foundation

/-- The milliseconds since an uptime on a clock of 32 bits. -/
def age (sysUptime uptimeMs : ℕ) : ℤ := ((sysUptime : ℤ) - uptimeMs) % 2 ^ 32

/-- An age is at most 30 days. -/
def Believed (milliseconds : ℤ) : Prop := milliseconds ≤ 2592000000

instance (milliseconds : ℤ) : Decidable (Believed milliseconds) :=
  inferInstanceAs (Decidable (milliseconds ≤ 2592000000))

/-- A flow starts no later than it ends, and ends no later than its packet was sent. -/
structure FlowDict.TimesOrdered (flow : FlowDict) (unixSecs : ℕ) : Prop where
  start_le_end : flow.startTime ≤ flow.endTime
  end_le_packet : flow.endTime ≤ unixSecs

/-- The times of a flow with a start and an end of some ages. They are in order unless only the end
is believed and has an age, and then the flow starts at the time of the packet. -/
structure FlowDict.TimesFollow (flow : FlowDict) (unixSecs : ℕ) (first last : ℤ) : Prop where
  ordered_iff : flow.TimesOrdered unixSecs ↔ (Believed last → last ≠ 0 → Believed first)
  end_le_packet : flow.endTime ≤ unixSecs
  fallback : ¬ Believed first → flow.startTime = unixSecs

/-! ### The time of an uptime -/

section Uptime

variable {sysUptime unixSecs first last : ℕ}

theorem age_nonneg (sysUptime uptimeMs : ℕ) : 0 ≤ age sysUptime uptimeMs :=
  Int.emod_nonneg _ (by decide)

theorem uptimeTime_of_believed (hbelieved : Believed (age sysUptime first)) :
    uptimeTime sysUptime unixSecs (some first) = unixSecs - (age sysUptime first : ℚ) / 1000 :=
  if_neg (not_lt.mpr hbelieved)

theorem uptimeTime_of_not_believed (hbelieved : ¬ Believed (age sysUptime first)) :
    uptimeTime sysUptime unixSecs (some first) = unixSecs :=
  if_pos (not_le.mp hbelieved)

/-- No time is later than that of the packet. -/
theorem uptimeTime_le (sysUptime unixSecs uptimeMs : ℕ) :
    uptimeTime sysUptime unixSecs (some uptimeMs) ≤ unixSecs := by
  by_cases hbelieved : Believed (age sysUptime uptimeMs)
  · have hnonneg : (0 : ℚ) ≤ age sysUptime uptimeMs := by
      exact_mod_cast age_nonneg sysUptime uptimeMs
    rw [uptimeTime_of_believed hbelieved]
    linarith
  · exact (uptimeTime_of_not_believed hbelieved).le

/-- The older uptime is no later, unless it is not believed and the other one is before the
packet. -/
theorem uptimeTime_le_iff (unixSecs : ℕ) (hage : age sysUptime last ≤ age sysUptime first) :
    uptimeTime sysUptime unixSecs (some first) ≤ uptimeTime sysUptime unixSecs (some last) ↔
      (Believed (age sysUptime last) → age sysUptime last ≠ 0 →
        Believed (age sysUptime first)) := by
  by_cases hfirst : Believed (age sysUptime first)
  · -- both are believed
    have hlast : Believed (age sysUptime last) := hage.trans hfirst
    rw [uptimeTime_of_believed hfirst, uptimeTime_of_believed hlast]
    have hcast : (age sysUptime last : ℚ) ≤ age sysUptime first := by exact_mod_cast hage
    refine iff_of_true ?_ fun _ _ ↦ hfirst
    linarith
  · rw [uptimeTime_of_not_believed hfirst]
    by_cases hlast : Believed (age sysUptime last)
    · -- the start is at the packet, and the end before it by its age
      rw [uptimeTime_of_believed hlast]
      have hnonneg := age_nonneg sysUptime last
      constructor
      · intro hle _ hne
        have hpos : (0 : ℚ) < age sysUptime last := by
          exact_mod_cast lt_of_le_of_ne hnonneg hne.symm
        linarith
      · intro hbelieved
        by_cases hzero : age sysUptime last = 0
        · rw [hzero]
          simp
        · exact absurd (hbelieved hlast hzero) hfirst
    · rw [uptimeTime_of_not_believed hlast]
      exact iff_of_true le_rfl fun h ↦ absurd h hlast

/-- The times of a flow whose start and end are those of two uptimes. -/
theorem timesFollow_of_uptimeTime {flow : FlowDict}
    (hstart : flow.startTime = uptimeTime sysUptime unixSecs (some first))
    (hend : flow.endTime = uptimeTime sysUptime unixSecs (some last))
    (hage : age sysUptime last ≤ age sysUptime first) :
    flow.TimesFollow unixSecs (age sysUptime first) (age sysUptime last) := by
  refine ⟨?_, ?_, fun hfirst ↦ ?_⟩
  · have hle := uptimeTime_le_iff unixSecs hage
    rw [← hstart, ← hend] at hle
    rw [← hle]
    exact ⟨fun hordered ↦ hordered.start_le_end,
      fun hle ↦ ⟨hle, hend ▸ uptimeTime_le sysUptime unixSecs last⟩⟩
  · rw [hend]
    exact uptimeTime_le sysUptime unixSecs last
  · rw [hstart]
    exact uptimeTime_of_not_believed hfirst

end Uptime

/-! ### Records -/

/-- `calc_flow_time` takes the time of an uptime of 32 bits. -/
theorem calcFlowTime_eq {sysUptime unixSecs uptimeMs : ℕ} (hsys : sysUptime < 256 ^ 4)
    (huptime : uptimeMs < 256 ^ 4) :
    calcFlowTime sysUptime unixSecs uptimeMs =
      uptimeTime sysUptime unixSecs (some uptimeMs) := by
  rw [calcFlowTime, uptimeTime, ← uptimeDiff_eq hsys huptime]

/-- `sys_uptime` of the header of a v5 packet. -/
def V5Record.sysUptime (record : V5Record) : ℕ := unsignedAt record.header 4 4

/-- `unix_secs` of the header of a v5 packet. -/
def V5Record.unixSecs (record : V5Record) : ℕ := unsignedAt record.header 8 4

/-- `first_ms` of a v5 record. -/
def V5Record.firstMs (record : V5Record) : ℕ := unsignedAt record.record 24 4

/-- `last_ms` of a v5 record. -/
def V5Record.lastMs (record : V5Record) : ℕ := unsignedAt record.record 28 4

/-- The uptime that a v9 record has last for a field type. -/
def TemplateRecord.lastUptime (record : TemplateRecord V9Context) (fieldType : ℕ) : Option ℕ :=
  lastOf (numberOf fieldType) (elements record.fields record.data)

theorem V5Record.timesFollow_flow {record : V5Record}
    (hage : age record.sysUptime record.lastMs ≤ age record.sysUptime record.firstMs) :
    record.flow.TimesFollow record.unixSecs (age record.sysUptime record.firstMs)
      (age record.sysUptime record.lastMs) :=
  timesFollow_of_uptimeTime
    (calcFlowTime_eq (unsignedAt_lt record.header 4 4) (unsignedAt_lt record.record 24 4))
    (calcFlowTime_eq (unsignedAt_lt record.header 4 4) (unsignedAt_lt record.record 28 4)) hage

theorem times_of_recordFlow {version : ℕ} {exporterIp : String}
    {fields : List (FieldSpec × List UInt8)} {startTime endTime : ℚ} {flow : FlowDict}
    (hflow : recordFlow version exporterIp fields startTime endTime = some flow) :
    flow.startTime = startTime ∧ flow.endTime = endTime := by
  unfold recordFlow at hflow
  split at hflow
  · rw [← Option.some.inj hflow]
    exact ⟨rfl, rfl⟩
  · cases hflow

theorem TemplateRecord.timesFollow_flow {record : TemplateRecord V9Context} {flow : FlowDict}
    {first last : ℕ} (hsys : record.context.sysUptime < 256 ^ 4)
    (hshort : ShortUptimes record.fields) (hfirst : record.lastUptime 22 = some first)
    (hlast : record.lastUptime 21 = some last)
    (hread : record.read v9Dialect = some (some flow))
    (hage : age record.context.sysUptime last ≤ age record.context.sysUptime first) :
    flow.TimesFollow record.context.unixSecs (age record.context.sysUptime first)
      (age record.context.sysUptime last) := by
  rw [read_v9 hsys hshort, Option.some_inj, v9Flow] at hread
  obtain ⟨hstart, hend⟩ := times_of_recordFlow hread
  rw [← TemplateRecord.lastUptime, hfirst] at hstart
  rw [← TemplateRecord.lastUptime, hlast] at hend
  exact timesFollow_of_uptimeTime hstart hend hage

/-- The times of the flows of both parsers. -/
theorem timesFollow_flows :
    (∀ record : V5Record,
      age record.sysUptime record.lastMs ≤ age record.sysUptime record.firstMs →
        record.flow.TimesFollow record.unixSecs (age record.sysUptime record.firstMs)
          (age record.sysUptime record.lastMs)) ∧
    ∀ (record : TemplateRecord V9Context) (flow : FlowDict) (first last : ℕ),
      record.context.sysUptime < 256 ^ 4 → ShortUptimes record.fields →
      record.lastUptime 22 = some first → record.lastUptime 21 = some last →
      record.read v9Dialect = some (some flow) →
      age record.context.sysUptime last ≤ age record.context.sysUptime first →
        flow.TimesFollow record.context.unixSecs (age record.context.sysUptime first)
          (age record.context.sysUptime last) :=
  ⟨fun _ hage ↦ V5Record.timesFollow_flow hage, fun _ _ _ _ hsys hshort hfirst hlast hread hage ↦
    TemplateRecord.timesFollow_flow hsys hshort hfirst hlast hread hage⟩

/-- A v5 record of an exporter that is up for 30 days and one millisecond, with some bytes for the
uptimes of its start and its end. -/
def v5RecordOf (firstMs lastMs : List UInt8) (hlength : firstMs.length + lastMs.length = 8) :
    V5Record where
  exporterIp := "192.0.2.1"
  header := [0, 5, 0, 1, 154, 126, 200, 1, 101, 0, 0, 0] ++ List.replicate 12 0
  record := List.replicate 24 0 ++ (firstMs ++ lastMs) ++ List.replicate 16 0
  header_length := rfl
  record_length := by
    rw [List.length_append, List.length_append, List.length_append, hlength]
    rfl

/-- A v9 record of that exporter, with the uptimes of its end and its start. -/
def v9Record : TemplateRecord V9Context where
  exporterIp := "192.0.2.1"
  context := ⟨2592000001, 1694498816⟩
  fields := [⟨8, 4, none⟩, ⟨12, 4, none⟩, ⟨21, 4, none⟩, ⟨22, 4, none⟩]
  data := [198, 51, 100, 1, 198, 51, 100, 2, 154, 126, 200, 0, 154, 126, 199, 0]
  complete := rfl

theorem timesFollow_flows_samples :
    (v5RecordOf [154, 126, 199, 0] [154, 126, 200, 0] rfl).flow.TimesFollow 1694498816 257 1 ∧
      ∃ flow, v9Record.read v9Dialect = some (some flow) ∧
        flow.TimesFollow 1694498816 257 1 := by
  refine ⟨timesFollow_flows.1 (v5RecordOf [154, 126, 199, 0] [154, 126, 200, 0] rfl) (by decide),
    ?_⟩
  have hshort : ShortUptimes v9Record.fields := by
    rw [ShortUptimes]
    decide
  have hread : v9Record.read v9Dialect = some (v9Flow v9Record.exporterIp v9Record.context
      (elements v9Record.fields v9Record.data)) := read_v9 (by decide) hshort
  obtain ⟨flow, hflow⟩ := Option.isSome_iff_exists.mp
    (show (v9Flow v9Record.exporterIp v9Record.context
      (elements v9Record.fields v9Record.data)).isSome by decide)
  rw [hflow] at hread
  exact ⟨flow, hread, timesFollow_flows.2 v9Record flow 2591999744 2592000000 (by decide) hshort
    rfl rfl hread (by decide)⟩

/-- A flow that began more than 30 days before its end starts after it. -/
theorem exists_not_timesOrdered : ∃ record : V5Record,
    age record.sysUptime record.lastMs ≤ age record.sysUptime record.firstMs ∧
      ¬ record.flow.TimesOrdered record.unixSecs := by
  refine ⟨v5RecordOf [0, 0, 0, 0] [154, 126, 200, 0] rfl, by decide, ?_⟩
  rw [(V5Record.timesFollow_flow (by decide)).ordered_iff]
  decide

end Lnmp.Flow
