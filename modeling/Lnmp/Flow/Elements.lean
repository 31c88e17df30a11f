import Lnmp.Flow.TemplateParser
import Lnmp.Foundation.Runs

/-!
# What a template record says

The loop over the fields of a record keeps, for each of its variables, the last element that is
assigned to it. `number_flow` reads the numbers of a flow off the record: a number is the last value
of its element on the wire, of whatever length the template says. `isAddressText_flow` says
that the addresses of a flow are addresses.
-/

set_option autoImplicit false
set_option relaxedAutoImplicit false

namespace Lnmp.Flow

open Lnmp.Foundation Lnmp.Foundation.IpAddress

/-- The elements that hold numbers: ports, protocol, octets, packets, flags and interfaces. -/
def numberElements : List ℕ := [7, 11, 4, 1, 2, 6, 10, 14]

/-- A field is a given element of the standard. -/
def FieldSpec.isElement (field : FieldSpec) (ieId : ℕ) : Bool :=
  field.enterpriseNumber = none ∧ field.ieId = ieId

/-- The last value of an element on the wire, zero when there is none. -/
def lastNumber (fields : List (FieldSpec × List UInt8)) (ieId : ℕ) : ℕ :=
  ((fields.filter fun element ↦ element.1.isElement ieId).getLast?.map fun element ↦
    fromBytes element.2).getD 0

theorem lastNumber_concat (fields : List (FieldSpec × List UInt8))
    (element : FieldSpec × List UInt8) (ieId : ℕ) :
    lastNumber (fields ++ [element]) ieId =
      if element.1.isElement ieId then fromBytes element.2 else lastNumber fields ieId := by
  unfold lastNumber
  rw [List.filter_append]
  by_cases helement : element.1.isElement ieId = true
  · simp [helement]
  · simp [helement]

/-- The bytes of an element have the length that the template says. -/
theorem length_of_mem_elements {fields : List FieldSpec} {data : List UInt8}
    (hcomplete : data.length = totalLength fields) :
    ∀ element ∈ elements fields data, element.2.length = element.1.length := by
  induction fields generalizing data with
  | nil => exact fun _ hmem ↦ absurd hmem List.not_mem_nil
  | cons field fields ih =>
    rw [totalLength, List.map_cons, List.sum_cons] at hcomplete
    intro element helement
    rcases List.mem_cons.mp helement with rfl | hrest
    · show (data.take field.length).length = field.length
      rw [List.length_take]
      omega
    · refine ih ?_ element hrest
      rw [List.length_drop, totalLength]
      omega

variable {Context Time : Type} {dialect : Dialect Context Time}

/-! ### Numbers -/

/-- The variable that an element with a number is assigned to. -/
def RecordVars.number (vars : RecordVars Time) : ℕ → ℕ
  | 7 => vars.srcPort
  | 11 => vars.dstPort
  | 4 => vars.protocol
  | 1 => vars.octets
  | 2 => vars.packets
  | 6 => vars.tcpFlags
  | 10 => vars.inputIf
  | 14 => vars.outputIf
  | _ => 0

/-- The number of a flow that an element gives. -/
def FlowDict.number (flow : FlowDict) : ℕ → ℕ
  | 7 => flow.srcPort
  | 11 => flow.dstPort
  | 4 => flow.protocol
  | 1 => flow.bytes
  | 2 => flow.packets
  | 6 => flow.tcpFlags
  | 10 => flow.inputIf
  | 14 => flow.outputIf
  | _ => 0

/-- The number that a record has for an element. -/
def TemplateRecord.number (record : TemplateRecord Context) : ℕ → ℕ :=
  lastNumber (elements record.fields record.data)

theorem RecordVars.assignNumber_of_notMem (vars : RecordVars Time) {ieId : ℕ}
    (hother : ieId ∉ numberElements) (value : ℕ) : vars.assignNumber ieId value = none := by
  simp only [numberElements, List.mem_cons, List.not_mem_nil, or_false, not_or] at hother
  unfold RecordVars.assignNumber
  split <;> first | rfl | omega

/-- Assigning a number changes the variable of its element and no other. -/
theorem RecordVars.exists_assignNumber (vars : RecordVars Time) {ieId : ℕ}
    (hnumber : ieId ∈ numberElements) (value : ℕ) :
    ∃ next, vars.assignNumber ieId value = some next ∧ next.srcIp = vars.srcIp ∧
      next.dstIp = vars.dstIp ∧ ∀ other ∈ numberElements,
        next.number other = if ieId = other then value else vars.number other := by
  simp only [numberElements, List.mem_cons, List.not_mem_nil, or_false] at hnumber
  rcases hnumber with rfl | rfl | rfl | rfl | rfl | rfl | rfl | rfl
  all_goals
    refine ⟨_, rfl, rfl, rfl, fun other hother ↦ ?_⟩
    simp only [numberElements, List.mem_cons, List.not_mem_nil, or_false] at hother
    rcases hother with rfl | rfl | rfl | rfl | rfl | rfl | rfl | rfl <;> rfl

/-- What one pass of the loop over the fields does: an element with a number changes its variable,
an address changes an address, and everything else changes neither. -/
theorem Dialect.assign_cases {vars next : RecordVars Time} {element : FieldSpec × List UInt8}
    (hassign : dialect.assign vars element = some next) :
    (∃ ieId ∈ numberElements, element.1.isElement ieId ∧
      vars.assignNumber ieId (fromBytes element.2) = some next) ∨
    ((∀ ieId ∈ numberElements, element.1.isElement ieId = false) ∧ next.number = vars.number ∧
      (next.srcIp = vars.srcIp ∨
        (element.1.length = 4 ∧ next.srcIp = inetNtopV4 (octets element.2)) ∨
        (element.1.length = 16 ∧ next.srcIp = inetNtopV6 (octets element.2))) ∧
      (next.dstIp = vars.dstIp ∨
        (element.1.length = 4 ∧ next.dstIp = inetNtopV4 (octets element.2)) ∨
        (element.1.length = 16 ∧ next.dstIp = inetNtopV6 (octets element.2)))) := by
  have hno : ∀ address ∉ numberElements, element.1.ieId = address →
      ∀ ieId ∈ numberElements, element.1.isElement ieId = false := by
    rintro _ haddress rfl ieId hieId
    have hne : element.1.ieId ≠ ieId := fun hsame ↦ haddress (hsame ▸ hieId)
    simp [FieldSpec.isElement, hne]
  unfold Dialect.assign at hassign
  split_ifs at hassign with henterprise hsrc4 hdst4 hsrc6 hdst6
  · obtain rfl := Option.some.inj hassign
    refine Or.inr ⟨fun ieId _ ↦ ?_, rfl, Or.inl rfl, Or.inl rfl⟩
    simp [FieldSpec.isElement, henterprise]
  · obtain rfl := Option.some.inj hassign
    exact Or.inr ⟨hno 8 (by decide) hsrc4.1, rfl, Or.inr (Or.inl ⟨hsrc4.2, rfl⟩), Or.inl rfl⟩
  · obtain rfl := Option.some.inj hassign
    exact Or.inr ⟨hno 12 (by decide) hdst4.1, rfl, Or.inl rfl, Or.inr (Or.inl ⟨hdst4.2, rfl⟩)⟩
  · obtain rfl := Option.some.inj hassign
    exact Or.inr ⟨hno 27 (by decide) hsrc6.1, rfl, Or.inr (Or.inr ⟨hsrc6.2, rfl⟩), Or.inl rfl⟩
  · obtain rfl := Option.some.inj hassign
    exact Or.inr ⟨hno 28 (by decide) hdst6.1, rfl, Or.inl rfl, Or.inr (Or.inr ⟨hdst6.2, rfl⟩)⟩
  · by_cases hnumber : element.1.ieId ∈ numberElements
    · obtain ⟨assigned, hassigned, -⟩ := vars.exists_assignNumber hnumber (fromBytes element.2)
      rw [hassigned] at hassign
      obtain rfl := Option.some.inj hassign
      rw [not_not] at henterprise
      exact Or.inl ⟨element.1.ieId, hnumber, by simp [FieldSpec.isElement, henterprise], hassigned⟩
    · rw [vars.assignNumber_of_notMem hnumber] at hassign
      obtain ⟨times, -, rfl⟩ := Option.map_eq_some_iff.mp hassign
      exact Or.inr ⟨hno _ hnumber rfl, rfl, Or.inl rfl, Or.inl rfl⟩

theorem Dialect.number_assign {vars next : RecordVars Time} {element : FieldSpec × List UInt8}
    (hassign : dialect.assign vars element = some next) {ieId : ℕ}
    (hnumber : ieId ∈ numberElements) :
    next.number ieId =
      if element.1.isElement ieId then fromBytes element.2 else vars.number ieId := by
  rcases dialect.assign_cases hassign with
    ⟨assigned, hassigned, helement, hnext⟩ | ⟨hno, hsame, -, -⟩
  · obtain ⟨other, hother, -, -, hnumbers⟩ :=
      vars.exists_assignNumber hassigned (fromBytes element.2)
    obtain rfl := Option.some.inj (hnext.symm.trans hother)
    rw [hnumbers ieId hnumber]
    have hboth : element.1.enterpriseNumber = none ∧ element.1.ieId = assigned := by
      simpa [FieldSpec.isElement] using helement
    by_cases hsame : assigned = ieId
    · rw [if_pos hsame, if_pos (hsame ▸ helement)]
    · rw [if_neg hsame, if_neg]
      simp [FieldSpec.isElement, hboth.2, hsame]
  · rw [hsame, hno ieId hnumber, if_neg Bool.false_ne_true]

/-- After the loop, the variable of an element has its last value. -/
theorem TemplateRecord.number_vars {record : TemplateRecord Context} {vars : RecordVars Time}
    (hvars : record.vars dialect = some vars) {ieId : ℕ} (hnumber : ieId ∈ numberElements) :
    vars.number ieId = record.number ieId := by
  unfold TemplateRecord.vars at hvars
  unfold TemplateRecord.number
  generalize elements record.fields record.data = fields at hvars ⊢
  change Runs.run dialect.assign (RecordVars.initial Time) fields = some vars at hvars
  induction fields using List.reverseRecOn generalizing vars with
  | nil =>
    obtain rfl := Option.some.inj hvars
    simp only [numberElements, List.mem_cons, List.not_mem_nil, or_false] at hnumber
    rcases hnumber with rfl | rfl | rfl | rfl | rfl | rfl | rfl | rfl <;> rfl
  | append_singleton fields element ih =>
    obtain ⟨middle, hmiddle, hlast⟩ := Runs.run_concat_eq_some.mp hvars
    rw [dialect.number_assign hlast hnumber, ih hmiddle, lastNumber_concat]

/-! ### Addresses -/

/-- The addresses that have been read so far are addresses. -/
structure RecordVars.Addressed (vars : RecordVars Time) : Prop where
  srcIp : ∀ text, vars.srcIp = some text → IsAddressText text
  dstIp : ∀ text, vars.dstIp = some text → IsAddressText text

/-- One pass of the loop keeps the addresses to be addresses. Assumes: the element has the length of
its field. -/
theorem Dialect.addressed_assign {vars next : RecordVars Time} {element : FieldSpec × List UInt8}
    (hvars : vars.Addressed) (hlength : element.2.length = element.1.length)
    (hassign : dialect.assign vars element = some next) : next.Addressed := by
  -- An address that was changed was printed.
  have hprinted : ∀ before after : Option String,
      (∀ text, before = some text → IsAddressText text) →
      (after = before ∨ (element.1.length = 4 ∧ after = inetNtopV4 (octets element.2)) ∨
        (element.1.length = 16 ∧ after = inetNtopV6 (octets element.2))) →
      ∀ text, after = some text → IsAddressText text := by
    rintro before after hbefore (rfl | ⟨hfour, rfl⟩ | ⟨hsixteen, rfl⟩) text htext
    · exact hbefore text htext
    · exact Option.some.inj htext ▸ isAddressText_inetNtopV4_octets (hlength.trans hfour)
    · exact Option.some.inj htext ▸ isAddressText_inetNtopV6_octets (hlength.trans hsixteen)
  rcases dialect.assign_cases hassign with ⟨assigned, hassigned, -, hnext⟩ | ⟨-, -, hsrc, hdst⟩
  · obtain ⟨other, hother, hsrc, hdst, -⟩ :=
      vars.exists_assignNumber hassigned (fromBytes element.2)
    obtain rfl := Option.some.inj (hnext.symm.trans hother)
    exact ⟨hprinted _ _ hvars.srcIp (Or.inl hsrc), hprinted _ _ hvars.dstIp (Or.inl hdst)⟩
  · exact ⟨hprinted _ _ hvars.srcIp hsrc, hprinted _ _ hvars.dstIp hdst⟩

/-- After the loop, the addresses are addresses. -/
theorem TemplateRecord.addressed_vars {record : TemplateRecord Context} {vars : RecordVars Time}
    (hvars : record.vars dialect = some vars) : vars.Addressed :=
  Runs.invariant_of_forall_mem RecordVars.Addressed
    (fun _ _ _ hbefore hlength hassign ↦ dialect.addressed_assign hbefore hlength hassign)
    ⟨fun _ hnone ↦ absurd hnone.symm (Option.some_ne_none _),
      fun _ hnone ↦ absurd hnone.symm (Option.some_ne_none _)⟩
    (length_of_mem_elements record.complete) hvars

/-! ### Flows -/

/-- A flow that was read has the variables after the loop. -/
theorem TemplateRecord.exists_vars {record : TemplateRecord Context} {flow : FlowDict}
    (hread : record.read dialect = some (some flow)) :
    ∃ vars, record.vars dialect = some vars ∧ vars.srcIp = some flow.srcIp ∧
      vars.dstIp = some flow.dstIp ∧ flow.number = vars.number ∧
        flow.version = dialect.version := by
  unfold TemplateRecord.read at hread
  obtain ⟨vars, hvars, hflow⟩ := Option.bind_eq_some_iff.mp hread
  refine ⟨vars, hvars, ?_⟩
  cases hsrc : vars.srcIp with
  | none => simp [hsrc] at hflow
  | some srcIp =>
    cases hdst : vars.dstIp with
    | none => simp [hsrc, hdst] at hflow
    | some dstIp =>
      simp only [hsrc, hdst] at hflow
      obtain ⟨startTime, -, hflow⟩ := Option.bind_eq_some_iff.mp hflow
      obtain ⟨endTime, -, hflow⟩ := Option.bind_eq_some_iff.mp hflow
      obtain rfl := Option.some.inj (Option.some.inj hflow)
      exact ⟨rfl, rfl, rfl, rfl⟩

/-- The numbers of a flow are those of its record. -/
theorem TemplateFlow.number_flow (decoded : TemplateFlow dialect) {ieId : ℕ}
    (hnumber : ieId ∈ numberElements) : decoded.flow.number ieId = decoded.record.number ieId := by
  obtain ⟨vars, hvars, -, -, hnumbers, -⟩ := TemplateRecord.exists_vars decoded.read
  rw [hnumbers, TemplateRecord.number_vars hvars hnumber]

/-- The addresses of a flow are addresses. -/
theorem TemplateFlow.isAddressText_flow (decoded : TemplateFlow dialect) :
    IsAddressText decoded.flow.srcIp ∧ IsAddressText decoded.flow.dstIp := by
  obtain ⟨vars, hvars, hsrc, hdst, -, -⟩ := TemplateRecord.exists_vars decoded.read
  have haddressed := TemplateRecord.addressed_vars hvars
  exact ⟨haddressed.srcIp _ hsrc, haddressed.dstIp _ hdst⟩

end Lnmp.Flow
