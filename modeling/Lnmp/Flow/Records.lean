import Lnmp.Flow.Elements

/-!
# The flow of a record

What a data record means, from its fields and their bytes alone: the addresses, numbers and times
of its flow are those of the last fields that have them, and a record without both addresses has no
flow (`v9Flow`, `ipfixFlow`). `read_v9` and `read_ipfix` say that the loops of the parsers over the
fields compute exactly this.
-/

set_option autoImplicit false
set_option relaxedAutoImplicit false

namespace Lnmp.Flow

open Lnmp.Foundation Lnmp.Foundation.PythonText Lnmp.Foundation.IpAddress

/-! ### The last fields -/

variable {Value : Type}

/-- The value of the last field that has one. -/
def lastOf (valueOf : FieldSpec × List UInt8 → Option Value)
    (fields : List (FieldSpec × List UInt8)) : Option Value := (fields.filterMap valueOf).getLast?

@[simp] theorem lastOf_nil (valueOf : FieldSpec × List UInt8 → Option Value) :
    lastOf valueOf [] = none := rfl

theorem lastOf_concat (valueOf : FieldSpec × List UInt8 → Option Value)
    (fields : List (FieldSpec × List UInt8)) (element : FieldSpec × List UInt8) :
    lastOf valueOf (fields ++ [element]) = (valueOf element).or (lastOf valueOf fields) := by
  rw [lastOf, List.filterMap_append]
  cases helement : valueOf element with
  | none => simp [helement, lastOf]
  | some value => simp [helement]

theorem lastOf_eq_none {valueOf : FieldSpec × List UInt8 → Option Value}
    {fields : List (FieldSpec × List UInt8)} (hnone : ∀ element ∈ fields, valueOf element = none) :
    lastOf valueOf fields = none := by
  rw [lastOf, List.getLast?_eq_none_iff, List.filterMap_eq_nil_iff]
  exact hnone

/-- An address: four bytes of one element, or sixteen of another. -/
def addressOf (v4Id v6Id : ℕ) (element : FieldSpec × List UInt8) : Option String :=
  if element.1.isElement v4Id ∧ element.2.length = 4 then some (inetNtopV4 (octets element.2))
  else if element.1.isElement v6Id ∧ element.2.length = 16 then
    some (inetNtopV6 (octets element.2))
  else none

/-- The number of an element. -/
def numberOf (ieId : ℕ) (element : FieldSpec × List UInt8) : Option ℕ :=
  if element.1.isElement ieId then some (fromBytes element.2) else none

/-- A time: seconds in one element, or milliseconds in another. -/
def secondsOf (secondsId millisId : ℕ) (element : FieldSpec × List UInt8) : Option ℚ :=
  if element.1.isElement secondsId then some (fromBytes element.2)
  else if element.1.isElement millisId then some (fromBytes element.2 / 1000)
  else none

/-! ### Flows -/

/-- The flow of the fields of a record, which is nothing unless they have both addresses. -/
def recordFlow (version : ℕ) (exporterIp : String) (fields : List (FieldSpec × List UInt8))
    (startTime endTime : ℚ) : Option FlowDict :=
  match lastOf (addressOf 8 27) fields, lastOf (addressOf 12 28) fields with
  | some srcIp, some dstIp =>
    some
      { version := version
        exporterIp := exporterIp
        srcIp := srcIp
        dstIp := dstIp
        srcPort := lastNumber fields 7
        dstPort := lastNumber fields 11
        protocol := lastNumber fields 4
        bytes := lastNumber fields 1
        packets := lastNumber fields 2
        tcpFlags := lastNumber fields 6
        inputIf := lastNumber fields 10
        outputIf := lastNumber fields 14
        startTime := startTime
        endTime := endTime }
  | _, _ => none

/-- The time of an uptime: the time of the packet, less what has passed since on the clock of the
exporter, which rolls over after 32 bits. More than 30 days are not believed. -/
def uptimeTime (sysUptime unixSecs : ℕ) : Option ℕ → ℚ
  | none => unixSecs
  | some uptimeMs =>
    let elapsed : ℤ := ((sysUptime : ℤ) - uptimeMs) % 0x100000000
    if 2592000000 < elapsed then unixSecs else unixSecs - (elapsed : ℚ) / 1000

/-- The flow of a NetFlow v9 record. -/
def v9Flow (exporterIp : String) (context : V9Context) (fields : List (FieldSpec × List UInt8)) :
    Option FlowDict :=
  recordFlow 9 exporterIp fields
    (uptimeTime context.sysUptime context.unixSecs (lastOf (numberOf 22) fields))
    (uptimeTime context.sysUptime context.unixSecs (lastOf (numberOf 21) fields))

/-- The flow of an IPFIX record. -/
def ipfixFlow (exporterIp : String) (exportTime : ℕ) (fields : List (FieldSpec × List UInt8)) :
    Option FlowDict :=
  recordFlow 10 exporterIp fields ((lastOf (secondsOf 150 152) fields).getD exportTime)
    ((lastOf (secondsOf 151 153) fields).getD exportTime)

theorem recordFlow_eq_none {version : ℕ} {exporterIp : String}
    {fields : List (FieldSpec × List UInt8)} {startTime endTime : ℚ}
    (hnone : lastOf (addressOf 8 27) fields = none ∨ lastOf (addressOf 12 28) fields = none) :
    recordFlow version exporterIp fields startTime endTime = none := by
  unfold recordFlow
  split
  · rename_i hsrc hdst
    rw [hsrc, hdst] at hnone
    exact absurd hnone (by simp)
  · rfl

/-- An address takes at least four bytes. -/
theorem addressOf_eq_none {v4Id v6Id : ℕ} {element : FieldSpec × List UInt8}
    (hshort : element.2.length < 4) : addressOf v4Id v6Id element = none := by
  rw [addressOf, if_neg fun h ↦ by omega, if_neg fun h ↦ by omega]

/-! ### The loop over the fields -/

variable {Context Time : Type} {dialect : Dialect Context Time}

/-- The elements of addresses and numbers. -/
def plainElements : List ℕ := [8, 12, 27, 28] ++ numberElements

/-- Addresses and numbers leave the times as they are. -/
def Dialect.IgnoresPlain (dialect : Dialect Context Time) : Prop :=
  ∀ times, ∀ ieId ∈ plainElements, ∀ value, dialect.assignTime times ieId value = some times

theorem ignoresPlain_v9 : v9Dialect.IgnoresPlain := by
  intro times ieId hplain value
  simp only [plainElements, numberElements, List.mem_append, List.mem_cons, List.not_mem_nil,
    or_false] at hplain
  simp only [v9Dialect]
  split <;> first | rfl | omega

theorem ignoresPlain_ipfix : ipfixDialect.IgnoresPlain := by
  intro times ieId hplain value
  simp only [plainElements, numberElements, List.mem_append, List.mem_cons, List.not_mem_nil,
    or_false] at hplain
  simp only [ipfixDialect]
  split <;> first | rfl | omega

/-- What the loop does to the times. -/
def Dialect.timesStep (dialect : Dialect Context Time) (times : RecordTimes Time)
    (element : FieldSpec × List UInt8) : Option (RecordTimes Time) :=
  if element.1.enterpriseNumber ≠ none then some times
  else dialect.assignTime times element.1.ieId (fromBytes element.2)

theorem Dialect.times_assign (hplain : dialect.IgnoresPlain) (vars : RecordVars Time)
    (element : FieldSpec × List UInt8) :
    (dialect.assign vars element).map RecordVars.times = dialect.timesStep vars.times element := by
  unfold Dialect.assign Dialect.timesStep
  split_ifs with henterprise hsrc4 hdst4 hsrc6 hdst6
  · rfl
  · exact (hplain _ _ (by rw [hsrc4.1]; decide) _).symm
  · exact (hplain _ _ (by rw [hdst4.1]; decide) _).symm
  · exact (hplain _ _ (by rw [hsrc6.1]; decide) _).symm
  · exact (hplain _ _ (by rw [hdst6.1]; decide) _).symm
  · by_cases hnumber : element.1.ieId ∈ numberElements
    · obtain ⟨next, hnext, -⟩ := vars.exists_assignNumber hnumber (fromBytes element.2)
      rw [hnext, hplain _ _ (List.mem_append_right _ hnumber)]
      unfold RecordVars.assignNumber at hnext
      split at hnext <;> first | exact congrArg (·.map RecordVars.times) hnext.symm | skip
      exact absurd hnext (Option.some_ne_none _).symm
    · rw [vars.assignNumber_of_notMem hnumber]
      dsimp only
      rw [Option.map_map]
      exact Option.map_id'

/-- An element changes an address when it is one, and the other variables never change it. -/
theorem Dialect.addresses_assign {vars next : RecordVars Time}
    {element : FieldSpec × List UInt8} (hlength : element.2.length = element.1.length)
    (hassign : dialect.assign vars element = some next) :
    next.srcIp = (addressOf 8 27 element).or vars.srcIp ∧
      next.dstIp = (addressOf 12 28 element).or vars.dstIp := by
  have haddress : ∀ v4Id v6Id, addressOf v4Id v6Id element =
      if element.1.enterpriseNumber ≠ none then none
      else if element.1.ieId = v4Id ∧ element.1.length = 4 then
        some (inetNtopV4 (octets element.2))
      else if element.1.ieId = v6Id ∧ element.1.length = 16 then
        some (inetNtopV6 (octets element.2))
      else none := by
    intro v4Id v6Id
    rw [addressOf, hlength]
    by_cases henterprise : element.1.enterpriseNumber = none <;>
      simp [FieldSpec.isElement, henterprise]
  rw [haddress, haddress]
  unfold Dialect.assign at hassign
  split_ifs at hassign with henterprise hsrc4 hdst4 hsrc6 hdst6
  · obtain rfl := Option.some.inj hassign
    simp [henterprise]
  · obtain rfl := Option.some.inj hassign
    simp [henterprise, hsrc4]
  · obtain rfl := Option.some.inj hassign
    simp [henterprise, hdst4]
  · obtain rfl := Option.some.inj hassign
    simp [henterprise, hsrc6]
  · obtain rfl := Option.some.inj hassign
    simp [henterprise, hdst6]
  · have hkept : next.srcIp = vars.srcIp ∧ next.dstIp = vars.dstIp := by
      by_cases hnumber : element.1.ieId ∈ numberElements
      · obtain ⟨assigned, hassigned, hsrc, hdst, -⟩ :=
          vars.exists_assignNumber hnumber (fromBytes element.2)
        rw [hassigned] at hassign
        exact Option.some.inj hassign ▸ ⟨hsrc, hdst⟩
      · rw [vars.assignNumber_of_notMem hnumber] at hassign
        obtain ⟨times, -, rfl⟩ := Option.map_eq_some_iff.mp hassign
        exact ⟨rfl, rfl⟩
    simp [hsrc4, hdst4, hsrc6, hdst6, hkept]

/-- A fold that a view of its state follows. -/
theorem map_foldlM {State View Item : Type} {view : State → View}
    {step : State → Item → Option State} {viewStep : View → Item → Option View}
    (hview : ∀ state item, (step state item).map view = viewStep (view state) item)
    (items : List Item) (state : State) :
    (items.foldlM step state).map view = items.foldlM viewStep (view state) := by
  induction items generalizing state with
  | nil => rfl
  | cons item items ih =>
    rw [List.foldlM_cons, List.foldlM_cons, ← hview]
    cases step state item with
    | none => rfl
    | some next => exact ih next

/-- The elements of a record are its fields. -/
theorem fst_mem_of_mem_elements {fields : List FieldSpec} {data : List UInt8}
    {element : FieldSpec × List UInt8} (hmem : element ∈ elements fields data) :
    element.1 ∈ fields := by
  induction fields generalizing data with
  | nil => exact absurd hmem List.not_mem_nil
  | cons field fields ih =>
    rcases List.mem_cons.mp hmem with rfl | hrest
    · exact List.mem_cons_self ..
    · exact List.mem_cons_of_mem _ (ih hrest)

/-- The times after the loop. -/
theorem TemplateRecord.times_vars (hplain : dialect.IgnoresPlain)
    (record : TemplateRecord Context) :
    (record.vars dialect).map RecordVars.times =
      (elements record.fields record.data).foldlM dialect.timesStep ⟨none, none⟩ :=
  map_foldlM (dialect.times_assign hplain) _ (RecordVars.initial Time)

/-- After the loop, an address is the last one. -/
theorem TemplateRecord.addresses_vars {record : TemplateRecord Context} {vars : RecordVars Time}
    (hvars : record.vars dialect = some vars) :
    vars.srcIp = lastOf (addressOf 8 27) (elements record.fields record.data) ∧
      vars.dstIp = lastOf (addressOf 12 28) (elements record.fields record.data) := by
  have hlengths := length_of_mem_elements record.complete
  unfold TemplateRecord.vars at hvars
  generalize elements record.fields record.data = fields at hvars hlengths ⊢
  change Runs.run dialect.assign (RecordVars.initial Time) fields = some vars at hvars
  induction fields using List.reverseRecOn generalizing vars with
  | nil =>
    obtain rfl := Option.some.inj hvars
    exact ⟨rfl, rfl⟩
  | append_singleton fields element ih =>
    obtain ⟨middle, hmiddle, hlast⟩ := Runs.run_concat_eq_some.mp hvars
    obtain ⟨hsrc, hdst⟩ :=
      ih (fun other hother ↦ hlengths other (List.mem_append_left _ hother)) hmiddle
    have hlength := hlengths element (List.mem_append_right _ (List.mem_singleton_self _))
    rw [lastOf_concat, lastOf_concat, ← hsrc, ← hdst]
    exact dialect.addresses_assign hlength hlast

/-- A record is read as the flow of its fields, with the times that the dialect gives it. -/
theorem TemplateRecord.read_eq {record : TemplateRecord Context} {times : RecordTimes Time}
    {startTime endTime : ℚ} (htimes : (record.vars dialect).map RecordVars.times = some times)
    (hstart : dialect.flowTime record.context times.startTime = some startTime)
    (hend : dialect.flowTime record.context times.endTime = some endTime) :
    record.read dialect = some (recordFlow dialect.version record.exporterIp
      (elements record.fields record.data) startTime endTime) := by
  obtain ⟨vars, hvars, rfl⟩ := Option.map_eq_some_iff.mp htimes
  obtain ⟨hsrc, hdst⟩ := TemplateRecord.addresses_vars hvars
  have hnumber : ∀ ieId ∈ numberElements,
      lastNumber (elements record.fields record.data) ieId = vars.number ieId :=
    fun ieId hmem ↦ (TemplateRecord.number_vars hvars hmem).symm
  simp only [numberElements, List.forall_mem_cons] at hnumber
  obtain ⟨h7, h11, h4, h1, h2, h6, h10, h14, -⟩ := hnumber
  rw [recordFlow, h7, h11, h4, h1, h2, h6, h10, h14, ← hsrc, ← hdst, TemplateRecord.read, hvars]
  cases hsrcIp : vars.srcIp with
  | none => simp [hsrcIp]
  | some srcIp =>
    cases hdstIp : vars.dstIp with
    | none => simp [hsrcIp, hdstIp]
    | some dstIp => simp [hsrcIp, hdstIp, hstart, hend, RecordVars.number]

/-! ### NetFlow v9 records -/

theorem timesStep_v9 (times : RecordTimes ℕ) (element : FieldSpec × List UInt8) :
    v9Dialect.timesStep times element =
      some ⟨(numberOf 22 element).or times.startTime, (numberOf 21 element).or times.endTime⟩ := by
  simp only [Dialect.timesStep, v9Dialect, numberOf, FieldSpec.isElement]
  by_cases henterprise : element.1.enterpriseNumber = none
  · split
    · contradiction
    · split <;> simp_all
  · simp [henterprise]

/-- The times of a v9 record are the last uptimes. -/
theorem foldlM_timesStep_v9 (fields : List (FieldSpec × List UInt8)) :
    fields.foldlM v9Dialect.timesStep ⟨none, none⟩ =
      some ⟨lastOf (numberOf 22) fields, lastOf (numberOf 21) fields⟩ := by
  induction fields using List.reverseRecOn with
  | nil => rfl
  | append_singleton fields element ih =>
    rw [List.foldlM_append, ih, lastOf_concat, lastOf_concat]
    simp [timesStep_v9]

theorem two_pow_lt_sub {small large : ℕ} (hsmall : 33 ≤ small) (hlarge : small < large) :
    (2 : ℚ) ^ 32 < 2 ^ large - 2 ^ small := by
  have hdouble : (2 : ℚ) ^ small * 2 ≤ 2 ^ large := by
    rw [← pow_succ]
    exact pow_le_pow_right₀ one_le_two hlarge
  have hbase : (2 : ℚ) ^ 33 ≤ 2 ^ small := pow_le_pow_right₀ one_le_two hsmall
  linarith

/-- Numbers of 32 bits are no floats out of range. -/
theorem lt_floatOverflow {value : ℚ} (hvalue : value ≤ 2 ^ 32) : value < floatOverflow :=
  hvalue.trans_lt (two_pow_lt_sub (by decide) (by decide))

theorem uptimeDiff_of_le {sysUptime uptimeMs : ℕ} (hle : uptimeMs ≤ sysUptime) :
    uptimeDiff sysUptime uptimeMs = (sysUptime : ℤ) - uptimeMs := by
  rw [uptimeDiff, if_neg (by omega)]

/-- An uptime that is ahead of the clock is taken to be from before the clock rolled over. -/
theorem uptimeDiff_of_lt {sysUptime uptimeMs : ℕ} (hlt : sysUptime < uptimeMs) :
    uptimeDiff sysUptime uptimeMs = (sysUptime : ℤ) - uptimeMs + 2 ^ 32 := by
  rw [uptimeDiff, if_pos (by omega)]
  rfl

/-- Between two uptimes of 32 bits the clock of the exporter has rolled over once at most. -/
theorem uptimeDiff_eq {sysUptime uptimeMs : ℕ} (hsys : sysUptime < 256 ^ 4)
    (huptime : uptimeMs < 256 ^ 4) :
    uptimeDiff sysUptime uptimeMs = ((sysUptime : ℤ) - uptimeMs) % 0x100000000 := by
  rcases lt_or_ge sysUptime uptimeMs with hahead | hbehind
  · rw [uptimeDiff_of_lt hahead]
    omega
  · rw [uptimeDiff_of_le hbehind]
    omega

/-- An uptime of 32 bits gives the time that has passed since on the clock of the exporter. -/
theorem calcV9Time_eq {context : V9Context} {uptime : Option ℕ}
    (hsys : context.sysUptime < 256 ^ 4) (huptime : ∀ uptimeMs ∈ uptime, uptimeMs < 256 ^ 4) :
    calcV9Time context uptime = some (uptimeTime context.sysUptime context.unixSecs uptime) := by
  cases uptime with
  | none => rfl
  | some uptimeMs =>
    have helapsed := uptimeDiff_eq hsys (huptime uptimeMs rfl)
    have hbound : uptimeDiff context.sysUptime uptimeMs < 2 ^ 32 := by
      rw [helapsed]
      omega
    have hpos : 0 ≤ uptimeDiff context.sysUptime uptimeMs := by
      rw [helapsed]
      omega
    have hdivide : divideMillis (uptimeDiff context.sysUptime uptimeMs) =
        some ((uptimeDiff context.sysUptime uptimeMs : ℚ) / 1000) := by
      rw [divideMillis, if_pos]
      refine lt_floatOverflow ?_
      rw [abs_of_nonneg (by exact_mod_cast hpos)]
      exact_mod_cast hbound.le
    rw [calcV9Time, uptimeTime, ← helapsed, hdivide]
    split_ifs <;> rfl

/-- Uptimes take at most four bytes. -/
def ShortUptimes (fields : List FieldSpec) : Prop :=
  ∀ field ∈ fields, field.ieId = 21 ∨ field.ieId = 22 → field.length ≤ 4

/-- The last number of an element fits the bytes that its fields have at most. -/
theorem lastOf_numberOf_lt {fields : List (FieldSpec × List UInt8)} {ieId size : ℕ}
    (hshort : ∀ element ∈ fields, element.1.ieId = ieId → element.2.length ≤ size) :
    ∀ value ∈ lastOf (numberOf ieId) fields, value < 256 ^ size := by
  intro value hvalue
  obtain ⟨element, helement, hnumber⟩ := List.mem_filterMap.mp (List.mem_of_getLast? hvalue)
  obtain ⟨his, hsome⟩ := Option.ite_none_right_eq_some.mp hnumber
  obtain rfl := Option.some.inj hsome
  have hieId : element.1.ieId = ieId := by
    rw [FieldSpec.isElement, decide_eq_true_eq] at his
    exact his.2
  refine (fromBytes_lt element.2).trans_le ?_
  exact Nat.pow_le_pow_right (by decide) (hshort element helement hieId)

/-- A v9 record with short uptimes is read as its flow. -/
theorem read_v9 {record : TemplateRecord V9Context} (hsys : record.context.sysUptime < 256 ^ 4)
    (hshort : ShortUptimes record.fields) :
    record.read v9Dialect = some (v9Flow record.exporterIp record.context
      (elements record.fields record.data)) := by
  have hlengths := length_of_mem_elements record.complete
  have huptime : ∀ ieId, ieId = 21 ∨ ieId = 22 → ∀ uptimeMs ∈
      lastOf (numberOf ieId) (elements record.fields record.data), uptimeMs < 256 ^ 4 := by
    intro ieId hieId
    refine lastOf_numberOf_lt fun element helement hsame ↦ ?_
    rw [hlengths element helement]
    exact hshort _ (fst_mem_of_mem_elements helement) (hsame ▸ hieId)
  refine TemplateRecord.read_eq ((TemplateRecord.times_vars ignoresPlain_v9 record).trans
    (foldlM_timesStep_v9 _)) ?_ ?_
  · exact calcV9Time_eq hsys (huptime 22 (Or.inr rfl))
  · exact calcV9Time_eq hsys (huptime 21 (Or.inl rfl))

/-! ### IPFIX records -/

/-- A time is too large for a float. -/
def overflowsTime (element : FieldSpec × List UInt8) : Bool :=
  element.1.enterpriseNumber = none && [150, 151, 152, 153].contains element.1.ieId &&
    floatOverflow ≤ (fromBytes element.2 : ℚ)

theorem floatOfNat_eq (number : ℕ) :
    floatOfNat number = if floatOverflow ≤ (number : ℚ) then none else some (number : ℚ) := by
  rw [floatOfNat]
  by_cases hlarge : floatOverflow ≤ (number : ℚ)
  · rw [if_pos hlarge, if_neg (not_lt.mpr hlarge)]
  · rw [if_neg hlarge, if_pos (not_le.mp hlarge)]

theorem divideMillis_eq (number : ℕ) :
    divideMillis number =
      if floatOverflow ≤ (number : ℚ) then none else some ((number : ℚ) / 1000) := by
  rw [divideMillis, Int.cast_natCast, abs_of_nonneg (Nat.cast_nonneg _)]
  by_cases hlarge : floatOverflow ≤ (number : ℚ)
  · rw [if_pos hlarge, if_neg (not_lt.mpr hlarge)]
  · rw [if_neg hlarge, if_pos (not_le.mp hlarge)]

theorem timesStep_ipfix (times : RecordTimes ℚ) (element : FieldSpec × List UInt8) :
    ipfixDialect.timesStep times element =
      if overflowsTime element then none
      else some ⟨(secondsOf 150 152 element).or times.startTime,
        (secondsOf 151 153 element).or times.endTime⟩ := by
  simp only [Dialect.timesStep, ipfixDialect, secondsOf, FieldSpec.isElement, overflowsTime]
  by_cases henterprise : element.1.enterpriseNumber = none
  · by_cases hlarge : floatOverflow ≤ (fromBytes element.2 : ℚ)
    · split
      · contradiction
      · split <;> simp_all [floatOfNat_eq, divideMillis_eq]
    · split
      · contradiction
      · split <;> simp_all [floatOfNat_eq, divideMillis_eq, -not_le]
  · simp [henterprise]

/-- The times of an IPFIX record are its last times, unless one is too large. -/
theorem foldlM_timesStep_ipfix (fields : List (FieldSpec × List UInt8)) :
    fields.foldlM ipfixDialect.timesStep ⟨none, none⟩ =
      if fields.any overflowsTime then none
      else some ⟨lastOf (secondsOf 150 152) fields, lastOf (secondsOf 151 153) fields⟩ := by
  induction fields using List.reverseRecOn with
  | nil => rfl
  | append_singleton fields element ih =>
    rw [List.foldlM_append, ih, lastOf_concat, lastOf_concat, List.any_append]
    by_cases hany : fields.any overflowsTime = true
    · simp [hany]
    · simp [hany, timesStep_ipfix]

/-- An IPFIX record is read as its flow, unless one of its times is too large. -/
theorem read_ipfix (record : TemplateRecord ℕ) :
    record.read ipfixDialect =
      if (elements record.fields record.data).any overflowsTime then none
      else some (ipfixFlow record.exporterIp record.context
        (elements record.fields record.data)) := by
  have htimes := (TemplateRecord.times_vars ignoresPlain_ipfix record).trans
    (foldlM_timesStep_ipfix _)
  split_ifs with hany
  · rw [if_pos hany, Option.map_eq_none_iff] at htimes
    rw [TemplateRecord.read, htimes]
    rfl
  · rw [if_neg hany] at htimes
    exact TemplateRecord.read_eq htimes rfl rfl

/-- Times of at most four bytes are floats. -/
def ShortTimes (fields : List FieldSpec) : Prop :=
  ∀ field ∈ fields, field.ieId ∈ [150, 151, 152, 153] → field.length ≤ 4

theorem not_overflowsTime {element : FieldSpec × List UInt8}
    (hshort : element.1.ieId ∈ [150, 151, 152, 153] → element.2.length ≤ 4) :
    overflowsTime element = false := by
  rw [overflowsTime, Bool.and_eq_false_iff]
  by_cases htime : element.1.ieId ∈ [150, 151, 152, 153]
  · have hvalue : fromBytes element.2 < 256 ^ 4 :=
      (fromBytes_lt _).trans_le (Nat.pow_le_pow_right (by decide) (hshort htime))
    have hsmall : (fromBytes element.2 : ℚ) ≤ 2 ^ 32 := by
      have hle : fromBytes element.2 ≤ 2 ^ 32 := by omega
      exact_mod_cast hle
    exact Or.inr (decide_eq_false (not_le.mpr (lt_floatOverflow hsmall)))
  · refine Or.inl ?_
    rw [Bool.and_eq_false_iff]
    exact Or.inr (by simpa using htime)

end Lnmp.Flow
