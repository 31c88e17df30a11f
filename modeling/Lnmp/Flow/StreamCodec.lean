import Lnmp.Flow.Collector

/-!
# The stream codec

The collector writes a flow as a dictionary of strings, and the aggregator reads the dictionary
under its own names, with its own defaults, and checks it again. `accumulateFlow_streamEntry` says
that nothing of a flow is lost on the way when its numbers have the widths of their elements and its
start time is a whole number of milliseconds: `accumulate_flow` is called with the flow's own values
(`FlowArguments.Carries`), and puts it into the minute of its start time.

A start time that is not a whole number of milliseconds is rounded to one, and an interface index
beyond 31 bits arrives as zero.
-/

set_option autoImplicit false
set_option relaxedAutoImplicit false

namespace Lnmp.Flow

open Lnmp.Foundation Lnmp.Foundation.PythonText Lnmp.Foundation.IpAddress

/-! ### Flows that have the widths of their elements -/

/-- The numbers of a flow fit the widths of their elements. -/
structure FlowDict.NaturalWidths (flow : FlowDict) : Prop where
  srcPort : flow.srcPort < 2 ^ 16
  dstPort : flow.dstPort < 2 ^ 16
  protocol : flow.protocol < 2 ^ 8
  bytes : flow.bytes < 2 ^ 64
  packets : flow.packets < 2 ^ 64
  tcpFlags : flow.tcpFlags < 2 ^ 16
  inputIf : flow.inputIf < 2 ^ 32
  outputIf : flow.outputIf < 2 ^ 32

/-- A time is a whole number of milliseconds. -/
def IsMillis (time : ℚ) : Prop := ∃ millis : ℤ, time = millis / 1000

/-- A time lies in the years that a datetime has. -/
def InDatetimeRange (time : ℚ) : Prop := -62135596800 ≤ time ∧ time < 253402300800

/-- The minute that starts at a number of microseconds contains a time in seconds. -/
structure InMinute (bucket : ℤ) (time : ℚ) : Prop where
  dvd : 60000000 ∣ bucket
  start_le : (bucket : ℚ) ≤ time * 1000000
  lt_end : time * 1000000 < bucket + 60000000

/-- The arguments of `accumulate_flow` are the values of a flow. -/
structure FlowArguments.Carries (arguments : FlowArguments) (flow : FlowDict) : Prop where
  exporterIp : arguments.exporterIp = flow.exporterIp
  srcIp : arguments.srcIp = flow.srcIp
  dstIp : arguments.dstIp = flow.dstIp
  srcPort : arguments.srcPort = flow.srcPort
  dstPort : arguments.dstPort = flow.dstPort
  protocol : arguments.protocol = flow.protocol
  flowBytes : arguments.flowBytes = flow.bytes
  flowPackets : arguments.flowPackets = flow.packets
  startTimeUnix : arguments.startTimeUnix = .finite flow.startTime
  inIf : arguments.inIf =
    if 1 ≤ flow.inputIf ∧ flow.inputIf ≤ 2 ^ 31 - 1 then (flow.inputIf : ℤ) else 0
  outIf : arguments.outIf =
    if 1 ≤ flow.outputIf ∧ flow.outputIf ≤ 2 ^ 31 - 1 then (flow.outputIf : ℤ) else 0

/-- Every number of a flow that has the widths of its elements can be written. -/
theorem DecodedFlow.exists_streamEntry (decoded : DecodedFlow)
    (hwidths : decoded.flow.NaturalWidths) : ∃ entry, streamEntry decoded.flow = some entry := by
  obtain ⟨-, -, hversion⟩ := decoded.isAddressText_flow
  have hwide : decoded.flow.version < 2 ^ 64 := by
    simp only [List.mem_cons, List.not_mem_nil, or_false] at hversion
    omega
  refine Option.isSome_iff_exists.mp ((isSome_streamEntry_iff decoded.flow).mpr
    ⟨lt_maxStrDigits hwide, fun ieId hieId ↦ lt_maxStrDigits ?_⟩)
  have := hwidths.srcPort
  have := hwidths.dstPort
  have := hwidths.protocol
  have := hwidths.bytes
  have := hwidths.packets
  have := hwidths.tcpFlags
  have := hwidths.inputIf
  have := hwidths.outputIf
  simp only [numberElements, List.mem_cons, List.not_mem_nil, or_false] at hieId
  rcases hieId with rfl | rfl | rfl | rfl | rfl | rfl | rfl | rfl <;>
    simp only [FlowDict.number] <;> omega

/-! ### Times -/

/-- The thousandths of a whole number of milliseconds. -/
theorem milli_div (millis : ℤ) : milli ((millis : ℚ) / 1000) = millis.natAbs := by
  have hscale : |(millis : ℚ) / 1000| * 1000 = ((|millis| : ℤ) : ℚ) := by
    rw [abs_div, abs_of_pos (by norm_num : (0 : ℚ) < 1000), Int.cast_abs,
      div_mul_cancel₀ _ (by norm_num)]
  rw [milli, hscale, roundHalfEven_intCast, Int.abs_eq_natAbs, Int.toNat_natCast]

/-- The years of a datetime are far below the largest float. -/
theorem datetime_lt_floatOverflow : (253402300800 : ℚ) < floatOverflow := by
  have hpow : (1 : ℚ) ≤ 2 ^ 970 := one_le_pow₀ (by norm_num)
  calc (253402300800 : ℚ) < 2 ^ 54 - 1 := by norm_num
    _ ≤ 2 ^ 970 * (2 ^ 54 - 1) := le_mul_of_one_le_left (by norm_num) hpow
    _ = floatOverflow := by rw [floatOverflow, mul_sub_one, ← pow_add]

/-- A whole number of milliseconds arrives as it is. -/
theorem IsMillis.arrivedTime {time : ℚ} (hmillis : IsMillis time) (hrange : InDatetimeRange time) :
    arrivedTime time = .finite time := by
  obtain ⟨millis, rfl⟩ := hmillis
  have hbound : |(millis : ℚ) / 1000| < floatOverflow := by
    refine (abs_lt.mpr ⟨?_, hrange.2⟩).trans datetime_lt_floatOverflow
    linarith [hrange.1]
  unfold Flow.arrivedTime
  rw [milli_div, toPyFloat]
  by_cases hneg : (millis : ℚ) / 1000 < 0
  · have hmillis : millis < 0 := by
      rw [div_lt_iff₀ (by norm_num), zero_mul] at hneg
      exact_mod_cast hneg
    have habs : ((millis.natAbs : ℕ) : ℚ) = -millis := by
      rw [Nat.cast_natAbs, abs_of_neg hmillis, Int.cast_neg]
    rw [if_pos hneg, habs, neg_div, abs_neg, if_pos hbound, PyFloat.neg, neg_neg]
  · have hmillis : 0 ≤ millis := by
      rw [not_lt, le_div_iff₀ (by norm_num), zero_mul] at hneg
      exact_mod_cast hneg
    have habs : ((millis.natAbs : ℕ) : ℚ) = millis := by
      rw [Nat.cast_natAbs, abs_of_nonneg hmillis]
    rw [if_neg hneg, habs, if_pos hbound]

/-- A whole number of milliseconds is a datetime, to the microsecond. -/
theorem IsMillis.exists_fromTimestamp {time : ℚ} (hmillis : IsMillis time)
    (hrange : InDatetimeRange time) :
    ∃ micros : ℤ, fromTimestamp (.finite time) = some micros ∧ (micros : ℚ) = time * 1000000 := by
  obtain ⟨millis, rfl⟩ := hmillis
  have hmicros : (millis : ℚ) / 1000 * 1000000 = ((millis * 1000 : ℤ) : ℚ) := by
    push_cast
    ring
  refine ⟨millis * 1000, ?_, hmicros.symm⟩
  have hlow : (-62135596800 * 1000000 : ℚ) ≤ ((millis * 1000 : ℤ) : ℚ) := by
    rw [← hmicros]
    exact mul_le_mul_of_nonneg_right hrange.1 (by norm_num)
  have hhigh : ((millis * 1000 : ℤ) : ℚ) < (253402300800 * 1000000 : ℚ) := by
    rw [← hmicros]
    exact mul_lt_mul_of_pos_right hrange.2 (by norm_num)
  rw [fromTimestamp, hmicros, roundHalfEven_intCast, if_pos ⟨by exact_mod_cast hlow,
    by exact_mod_cast hhigh⟩]

/-- A datetime lies in the minute that it is truncated to. -/
theorem inMinute_truncateToMinute {micros : ℤ} {time : ℚ}
    (hmicros : (micros : ℚ) = time * 1000000) : InMinute (truncateToMinute micros) time := by
  have hbucket : 60000000 ∣ truncateToMinute micros ∧ truncateToMinute micros ≤ micros ∧
      micros < truncateToMinute micros + 60000000 := by
    unfold truncateToMinute
    omega
  refine ⟨hbucket.1, ?_, ?_⟩
  · rw [← hmicros]
    exact_mod_cast hbucket.2.1
  · rw [← hmicros]
    exact_mod_cast hbucket.2.2

/-! ### Through the stream -/

/-- An interface index arrives when it has 31 bits. -/
theorem boundedInterface_natCast (index : ℕ) :
    boundedInterface index = if 1 ≤ index ∧ index ≤ 2 ^ 31 - 1 then (index : ℤ) else 0 := by
  unfold boundedInterface
  split_ifs <;> omega

/-- The call for a flow that went through the stream carries the flow. -/
theorem FlowDict.carries_arguments {flow : FlowDict} (hmillis : IsMillis flow.startTime)
    (hrange : InDatetimeRange flow.startTime) : flow.arguments.Carries flow where
  exporterIp := rfl
  srcIp := rfl
  dstIp := rfl
  srcPort := rfl
  dstPort := rfl
  protocol := rfl
  flowBytes := rfl
  flowPackets := rfl
  startTimeUnix := hmillis.arrivedTime hrange
  inIf := boundedInterface_natCast flow.inputIf
  outIf := boundedInterface_natCast flow.outputIf

/-- The consumer makes the call for the flow of every entry that a flush writes for it. -/
theorem DecodedFlow.exists_decodeMessage (decoded : DecodedFlow)
    (hwidths : decoded.flow.NaturalWidths) :
    ∃ entry, streamEntry decoded.flow = some entry ∧
      ∀ now, decodeMessage now entry = some decoded.flow.arguments := by
  obtain ⟨hsrc, hdst, -⟩ := decoded.isAddressText_flow
  obtain ⟨entry, hentry⟩ := decoded.exists_streamEntry hwidths
  exact ⟨entry, hentry, fun now ↦ decodeMessage_streamEntry now hsrc hdst hentry⟩

/-- A flush writes one entry for every flow of the queue, in order, and the consumer reads that flow
from it. Assumes: the numbers of the flows have the widths of their elements, and their start times
are whole numbers of milliseconds that a datetime can hold. -/
theorem Pipeline.flush_carries (pipeline : Pipeline) {flows : List DecodedFlow}
    (hqueue : pipeline.collector.queue = flows.map DecodedFlow.flow)
    (hflows : ∀ decoded ∈ flows, decoded.flow.NaturalWidths ∧ IsMillis decoded.flow.startTime ∧
      InDatetimeRange decoded.flow.startTime) :
    ∃ entries, pipeline.flush.pushed = pipeline.pushed ++ entries ∧
      List.Forall₂ (fun decoded entry ↦ ∀ now, ∃ arguments,
        decodeMessage now entry = some arguments ∧ arguments.Carries decoded.flow)
        flows entries := by
  suffices h : ∃ entries, (flows.map DecodedFlow.flow).mapM streamEntry = some entries ∧
      List.Forall₂ (fun decoded entry ↦ ∀ now, ∃ arguments,
        decodeMessage now entry = some arguments ∧ arguments.Carries decoded.flow)
        flows entries by
    obtain ⟨entries, hentries, hcarries⟩ := h
    refine ⟨entries, ?_, hcarries⟩
    rw [Pipeline.flush, hqueue, hentries, Option.getD_some]
  clear hqueue
  induction flows with
  | nil => exact ⟨[], rfl, .nil⟩
  | cons decoded flows ih =>
    obtain ⟨⟨hwidths, hmillis, hrange⟩, hrest⟩ := List.forall_mem_cons.mp hflows
    obtain ⟨entry, hentry, hdecode⟩ := decoded.exists_decodeMessage hwidths
    obtain ⟨entries, hentries, hcarries⟩ := ih hrest
    refine ⟨entry :: entries, ?_, .cons (fun now ↦ ⟨_, hdecode now,
      FlowDict.carries_arguments hmillis hrange⟩) hcarries⟩
    rw [List.map_cons, List.mapM_cons, hentry, hentries]
    rfl

/-- The call for a flow that went through the stream is accumulated, in the minute of its start
time. -/
theorem DecodedFlow.exists_resolveFlow (decoded : DecodedFlow)
    (hmillis : IsMillis decoded.flow.startTime) (hrange : InDatetimeRange decoded.flow.startTime)
    (correlator : FlowCorrelator) :
    ∃ resolved, resolveFlow correlator decoded.flow.arguments = some resolved ∧
      resolved.counters = ⟨decoded.flow.bytes, decoded.flow.packets, 1⟩ ∧
        InMinute resolved.key.bucket decoded.flow.startTime ∧
          resolved.key.srcIp = decoded.flow.srcIp ∧ resolved.key.dstIp = decoded.flow.dstIp ∧
            resolved.key.protocol = decoded.flow.protocol := by
  obtain ⟨hsrc, hdst, -⟩ := decoded.isAddressText_flow
  obtain ⟨micros, hmicros, hsame⟩ := hmillis.exists_fromTimestamp hrange
  have hvalid : validAddresses decoded.flow.arguments.srcIp decoded.flow.arguments.dstIp := by
    simp [validAddresses, FlowDict.arguments, hsrc.1, hsrc.2, hdst.1, hdst.2]
  have htime : decoded.flow.arguments.startTimeUnix = .finite decoded.flow.startTime :=
    hmillis.arrivedTime hrange
  rw [resolveFlow, if_pos hvalid, htime, hmicros]
  exact ⟨_, rfl, rfl, inMinute_truncateToMinute hsame, rfl, rfl, rfl⟩

/-- Nothing is lost through the stream. Assumes: the numbers of the flow have the widths of their
elements, and its start time is a whole number of milliseconds that a datetime can hold. Then the
flow can be encoded, the consumer calls `accumulate_flow` with its values, and the call credits its
bytes and packets to the minute of its start time, under its addresses and protocol. -/
theorem accumulateFlow_streamEntry (decoded : DecodedFlow) (hwidths : decoded.flow.NaturalWidths)
    (hmillis : IsMillis decoded.flow.startTime) (hrange : InDatetimeRange decoded.flow.startTime) :
    ∃ entry arguments, streamEntry decoded.flow = some entry ∧
      (∀ now, decodeMessage now entry = some arguments) ∧ arguments.Carries decoded.flow ∧
        ∀ correlator accumulators, ∃ next key,
          accumulateFlow correlator accumulators arguments = some next ∧
            next.accumulator = Ledger.credit accumulators.accumulator key
              ⟨decoded.flow.bytes, decoded.flow.packets, 1⟩ ∧
            InMinute key.bucket decoded.flow.startTime ∧ key.srcIp = decoded.flow.srcIp ∧
              key.dstIp = decoded.flow.dstIp ∧ key.protocol = decoded.flow.protocol := by
  obtain ⟨entry, hentry, hdecode⟩ := decoded.exists_decodeMessage hwidths
  refine ⟨entry, decoded.flow.arguments, hentry, hdecode,
    FlowDict.carries_arguments hmillis hrange, fun correlator accumulators ↦ ?_⟩
  obtain ⟨resolved, hresolved, hcounters, hkey⟩ :=
    decoded.exists_resolveFlow hmillis hrange correlator
  obtain ⟨next, hnext, hcredit, -⟩ := accumulateFlow_of_resolveFlow accumulators hresolved
  exact ⟨next, resolved.key, hnext, hcounters ▸ hcredit, hkey⟩

/-- A v5 record of 1500 bytes in three packets that came in by interface 7 and started one
millisecond before the second of its packet was sent. -/
def sampleV5Record : V5Record where
  exporterIp := "192.0.2.1"
  header := [0, 5, 0, 1, 0, 0, 3, 232, 0x65, 0, 0, 0] ++ List.replicate 12 0
  record := [198, 51, 100, 1, 198, 51, 100, 2, 0, 0, 0, 0, 0, 7, 0, 0, 0, 0, 0, 3, 0, 0, 5, 220] ++
    [0, 0, 3, 231, 0, 0, 3, 232, 195, 80, 1, 187, 0, 0, 6, 0] ++ List.replicate 8 0
  header_length := rfl
  record_length := rfl

/-- That flow arrives. -/
theorem accumulateFlow_sampleV5Record :
    ∃ entry arguments, streamEntry sampleV5Record.flow = some entry ∧
      (∀ now, decodeMessage now entry = some arguments) ∧
        arguments.Carries sampleV5Record.flow := by
  have htime : sampleV5Record.flow.startTime = 1694498815999 / 1000 := by decide +kernel
  have hwidths : sampleV5Record.flow.NaturalWidths := by
    constructor <;> decide
  have hrange : InDatetimeRange sampleV5Record.flow.startTime := by
    rw [htime]
    constructor <;> norm_num
  obtain ⟨entry, arguments, hentry, hdecode, hcarries, -⟩ :=
    accumulateFlow_streamEntry (DecodedFlow.ofV5 sampleV5Record) hwidths
      ⟨1694498815999, htime.trans (by norm_num)⟩ hrange
  exact ⟨entry, arguments, hentry, hdecode, hcarries⟩

end Lnmp.Flow
