import Lnmp.Flow.TemplateParser

/-!
# Packets as they are sent

The encoder's side of NetFlow v9 and IPFIX: big-endian numbers, sets behind their headers, field
specifiers, templates and packets. Each encoder is followed by the lemma that the parser's reader
undoes it, whatever bytes come behind: `unsignedAt_toBytes` for numbers, `splitSets_encodeSets` for
sets, `splitTemplates_encodeTemplates` for templates.
-/

set_option autoImplicit false
set_option relaxedAutoImplicit false

namespace Lnmp.Flow

open Lnmp.Foundation

/-! ### Numbers -/

/-- A number as big-endian bytes. -/
def toBytes : ℕ → ℕ → List UInt8
  | 0, _ => []
  | size + 1, value => toBytes size (value / 256) ++ [UInt8.ofNat value]

@[simp] theorem length_toBytes (size value : ℕ) : (toBytes size value).length = size := by
  induction size generalizing value with
  | zero => rfl
  | succ size ih => rw [toBytes, List.length_append, ih, List.length_singleton]

theorem fromBytes_toBytes {size value : ℕ} (hvalue : value < 256 ^ size) :
    fromBytes (toBytes size value) = value := by
  induction size generalizing value with
  | zero => exact (Nat.lt_one_iff.mp hvalue).symm
  | succ size ih =>
    have hquotient : value / 256 < 256 ^ size := by
      rw [Nat.div_lt_iff_lt_mul (by decide), ← pow_succ]
      exact hvalue
    rw [toBytes, fromBytes_concat, ih hquotient, UInt8.toNat_ofNat']
    exact Nat.div_add_mod' value 256

/-- What is read behind the first bytes. -/
theorem slice_append (front data : List UInt8) (start length : ℕ) :
    slice (front ++ data) (front.length + start) length = slice data start length := by
  rw [slice, slice, List.drop_append, List.drop_eq_nil_of_le (Nat.le_add_right ..), List.nil_append,
    Nat.add_sub_cancel_left]

/-- What is read from the front. -/
theorem slice_zero_append (front data : List UInt8) :
    slice (front ++ data) 0 front.length = front := by
  rw [slice, List.drop_zero, List.take_left]

theorem unsignedAt_append (front data : List UInt8) (offset size : ℕ) :
    unsignedAt (front ++ data) (front.length + offset) size = unsignedAt data offset size := by
  rw [unsignedAt, slice_append, unsignedAt]

/-- A number is read back from the front. -/
theorem unsignedAt_toBytes {size value : ℕ} (hvalue : value < 256 ^ size) (rest : List UInt8) :
    unsignedAt (toBytes size value ++ rest) 0 size = value := by
  have hslice := slice_zero_append (toBytes size value) rest
  rw [length_toBytes] at hslice
  rw [unsignedAt, hslice, fromBytes_toBytes hvalue]

/-- A number is read past, to what is behind it. -/
theorem unsignedAt_behind (size value offset length : ℕ) (rest : List UInt8) :
    unsignedAt (toBytes size value ++ rest) (size + offset) length =
      unsignedAt rest offset length := by
  have happend := unsignedAt_append (toBytes size value) rest offset length
  rwa [length_toBytes] at happend

/-- A header of two short numbers, which is that of a set, of a field specifier and of a
template. -/
def header (first second : ℕ) : List UInt8 := toBytes 2 first ++ toBytes 2 second

@[simp] theorem length_header (first second : ℕ) : (header first second).length = 4 := by
  rw [header, List.length_append, length_toBytes, length_toBytes]

theorem unsignedAt_header_first {first : ℕ} (hfirst : first < 65536) (second : ℕ)
    (rest : List UInt8) : unsignedAt (header first second ++ rest) 0 2 = first := by
  rw [header, List.append_assoc, unsignedAt_toBytes hfirst]

theorem unsignedAt_header_second (first : ℕ) {second : ℕ} (hsecond : second < 65536)
    (rest : List UInt8) : unsignedAt (header first second ++ rest) 2 2 = second := by
  rw [header, List.append_assoc, unsignedAt_behind 2 first 0, unsignedAt_toBytes hsecond]

theorem drop_header (first second : ℕ) (rest : List UInt8) :
    (header first second ++ rest).drop 4 = rest :=
  List.drop_left' (length_header first second)

/-! ### Sets -/

/-- A set that fits its header: its id, and its payload. -/
structure WireSet where
  id : ℕ
  payload : List UInt8
  id_lt : id < 65536
  payload_lt : payload.length + 4 < 65536

/-- The id of v9 template sets. -/
def v9TemplateSetId : ℕ := 0

/-- The id of IPFIX template sets. -/
def ipfixTemplateSetId : ℕ := 2

/-- The least id of data sets. -/
def leastDataSetId : ℕ := 256

theorem v9TemplateSetId_lt : v9TemplateSetId < 65536 := by decide

theorem ipfixTemplateSetId_lt : ipfixTemplateSetId < 65536 := by decide

theorem leastDataSetId_lt : leastDataSetId < 65536 := by decide

/-- Zero fits any number of bytes. -/
theorem zero_lt_bytes (size : ℕ) : 0 < 256 ^ size := Nat.pow_pos (by decide)

/-- One fits any number of bytes but none. -/
theorem one_lt_bytes (size : ℕ) : 1 < 256 ^ (size + 1) :=
  Nat.one_lt_pow (Nat.succ_ne_zero size) (by decide)

/-- A set behind its header. -/
def WireSet.encode (set : WireSet) : List UInt8 :=
  header set.id (set.payload.length + 4) ++ set.payload

theorem WireSet.length_encode (set : WireSet) : set.encode.length = set.payload.length + 4 := by
  rw [encode, List.length_append, length_header]
  exact Nat.add_comm ..

/-- The sets of a packet. -/
def encodeSets (sets : List WireSet) : List UInt8 := sets.flatMap WireSet.encode

/-- A set as the parser sees it. -/
def WireSet.received (set : WireSet) : ℕ × List UInt8 := (set.id, set.payload)

/-- Any fuel that is enough gives the same sets. -/
theorem splitSets_of_le {fuel : ℕ} {data : List UInt8} (hfuel : data.length ≤ fuel) :
    splitSets fuel data = splitSets data.length data := by
  induction fuel using Nat.strong_induction_on generalizing data with
  | _ fuel ih =>
    cases fuel with
    | zero => rw [Nat.le_zero.mp hfuel]
    | succ fuel =>
      cases hlength : data.length with
      | zero =>
        rw [splitSets, splitSets, if_pos (by omega)]
      | succ size =>
        rw [splitSets, splitSets]
        split_ifs with hshort
        · rfl
        · dsimp only
          split_ifs with hcut
          · rfl
          · have hdrop : (data.drop (unsignedAt data 2 2)).length ≤ size := by
              rw [List.length_drop]
              omega
            rw [ih fuel (Nat.lt_succ_self _) (by omega), ← ih size (by omega) hdrop]

/-- The parser splits off a set. -/
theorem splitSets_encode (set : WireSet) (rest : List UInt8) :
    splitSets (set.encode ++ rest).length (set.encode ++ rest) =
      set.received :: splitSets rest.length rest := by
  have hlength : (set.encode ++ rest).length = set.payload.length + rest.length + 3 + 1 := by
    rw [List.length_append, set.length_encode]
    omega
  have hsecond : unsignedAt (set.encode ++ rest) 2 2 = set.payload.length + 4 := by
    rw [WireSet.encode, List.append_assoc, unsignedAt_header_second _ set.payload_lt]
  have hfirst : unsignedAt (set.encode ++ rest) 0 2 = set.id := by
    rw [WireSet.encode, List.append_assoc, unsignedAt_header_first set.id_lt]
  have hpayload : slice (set.encode ++ rest) 4 set.payload.length = set.payload := by
    have happend := slice_append (header set.id (set.payload.length + 4)) (set.payload ++ rest) 0
      set.payload.length
    rw [length_header] at happend
    rw [WireSet.encode, List.append_assoc, happend, slice_zero_append]
  have hrest : (set.encode ++ rest).drop (set.payload.length + 4) = rest :=
    List.drop_left' set.length_encode
  rw [hlength, splitSets, if_neg (by omega)]
  dsimp only
  rw [hsecond, if_neg (by omega), hfirst, Nat.add_sub_cancel, hpayload, hrest,
    splitSets_of_le (by omega)]
  rfl

/-- The parser splits the sets of a packet, and then whatever comes behind them. -/
theorem splitSets_encodeSets (sets : List WireSet) (tail : List UInt8) :
    splitSets (encodeSets sets ++ tail).length (encodeSets sets ++ tail) =
      sets.map WireSet.received ++ splitSets tail.length tail := by
  induction sets with
  | nil => rfl
  | cons set sets ih =>
    rw [encodeSets, List.flatMap_cons, List.append_assoc, splitSets_encode]
    exact congrArg (set.received :: ·) ih

/-! ### Templates -/

/-- A field specifier of NetFlow v9. -/
def encodeV9Spec (spec : FieldSpec) : List UInt8 := header spec.ieId spec.length

/-- A field specifier of IPFIX: the top bit of the id says that an enterprise number follows. -/
def encodeIpfixSpec (spec : FieldSpec) : List UInt8 :=
  match spec.enterpriseNumber with
  | none => header spec.ieId spec.length
  | some number => header (spec.ieId + 0x8000) spec.length ++ toBytes 4 number

/-- The specifier fits NetFlow v9. -/
structure FieldSpec.FitsV9 (spec : FieldSpec) : Prop where
  ieId : spec.ieId < 65536
  length : spec.length < 65536
  enterpriseNumber : spec.enterpriseNumber = none

/-- The specifier fits IPFIX. -/
structure FieldSpec.FitsIpfix (spec : FieldSpec) : Prop where
  ieId : spec.ieId < 0x8000
  length : spec.length < 65536
  enterpriseNumber : ∀ number ∈ spec.enterpriseNumber, number < 256 ^ 4

instance (spec : FieldSpec) : Decidable spec.FitsV9 :=
  decidable_of_iff
    (spec.ieId < 65536 ∧ spec.length < 65536 ∧ spec.enterpriseNumber = none)
    ⟨fun h ↦ ⟨h.1, h.2.1, h.2.2⟩, fun h ↦ ⟨h.ieId, h.length, h.enterpriseNumber⟩⟩

instance (spec : FieldSpec) : Decidable spec.FitsIpfix :=
  decidable_of_iff
    (spec.ieId < 0x8000 ∧ spec.length < 65536 ∧ ∀ number ∈ spec.enterpriseNumber, number < 256 ^ 4)
    ⟨fun h ↦ ⟨h.1, h.2.1, h.2.2⟩, fun h ↦ ⟨h.ieId, h.length, h.enterpriseNumber⟩⟩

theorem readSpec_encodeV9Spec {spec : FieldSpec} (hfits : spec.FitsV9) (rest : List UInt8) :
    v9Dialect.readSpec (encodeV9Spec spec ++ rest) = (some spec, rest) := by
  have hlength : ¬ (encodeV9Spec spec ++ rest).length < 4 := by
    rw [List.length_append, encodeV9Spec, length_header]
    omega
  simp only [v9Dialect]
  rw [if_neg hlength, encodeV9Spec, unsignedAt_header_first hfits.ieId,
    unsignedAt_header_second _ hfits.length, drop_header, ← hfits.enterpriseNumber]

theorem readSpec_encodeIpfixSpec {spec : FieldSpec} (hfits : spec.FitsIpfix) (rest : List UInt8) :
    ipfixDialect.readSpec (encodeIpfixSpec spec ++ rest) = (some spec, rest) := by
  obtain ⟨ieId, length, enterpriseNumber⟩ := spec
  have hieId : ieId < 0x8000 := hfits.ieId
  have hfour : ∀ first behind, ¬ (header first length ++ behind).length < 4 := fun first behind ↦ by
    rw [List.length_append, length_header]
    omega
  show readIpfixSpec _ = _
  cases enterpriseNumber with
  | none =>
    rw [encodeIpfixSpec, readIpfixSpec, if_neg (hfour _ _)]
    dsimp only
    rw [unsignedAt_header_first (by omega), if_pos hieId, unsignedAt_header_second _ hfits.length,
      drop_header]
  | some number =>
    have hrest : ¬ (toBytes 4 number ++ rest).length < 4 := by
      rw [List.length_append, length_toBytes]
      omega
    rw [encodeIpfixSpec, List.append_assoc, readIpfixSpec, if_neg (hfour _ _)]
    dsimp only
    rw [unsignedAt_header_first (by omega), if_neg (by omega), drop_header, if_neg hrest,
      unsignedAt_header_second _ hfits.length, unsignedAt_toBytes (hfits.enterpriseNumber _ rfl),
      List.drop_left' (length_toBytes ..), Nat.add_mod_right, Nat.mod_eq_of_lt hieId]

section Templates

variable {readSpec : List UInt8 → Option FieldSpec × List UInt8}
  {encodeSpec : FieldSpec → List UInt8}

/-- The reader undoes the encoder of a field specifier. -/
def ReadsSpec (readSpec : List UInt8 → Option FieldSpec × List UInt8)
    (encodeSpec : FieldSpec → List UInt8) (spec : FieldSpec) : Prop :=
  ∀ rest, readSpec (encodeSpec spec ++ rest) = (some spec, rest)

/-- A template behind its header. -/
def encodeTemplate (encodeSpec : FieldSpec → List UInt8) (template : ℕ × List FieldSpec) :
    List UInt8 := header template.1 template.2.length ++ template.2.flatMap encodeSpec

/-- The payload of a template set. -/
def encodeTemplates (encodeSpec : FieldSpec → List UInt8)
    (templates : List (ℕ × List FieldSpec)) : List UInt8 :=
  templates.flatMap (encodeTemplate encodeSpec)

theorem readSpecs_encodeSpec {specs : List FieldSpec}
    (hreads : ∀ spec ∈ specs, ReadsSpec readSpec encodeSpec spec) (rest : List UInt8) :
    readSpecs readSpec specs.length (specs.flatMap encodeSpec ++ rest) = (specs, rest) := by
  induction specs with
  | nil => rfl
  | cons spec specs ih =>
    rw [List.forall_mem_cons] at hreads
    rw [List.length_cons, readSpecs, List.flatMap_cons, List.append_assoc, hreads.1]
    dsimp only
    rw [ih hreads.2]

/-- The parser splits the templates of a template set. -/
theorem splitTemplates_encodeTemplates {templates : List (ℕ × List FieldSpec)} {fuel : ℕ}
    (hids : ∀ template ∈ templates, 256 ≤ template.1 ∧ template.1 < 65536)
    (hlengths : ∀ template ∈ templates, template.2.length < 65536)
    (hreads : ∀ template ∈ templates, ∀ spec ∈ template.2, ReadsSpec readSpec encodeSpec spec)
    (hfuel : templates.length ≤ fuel) :
    splitTemplates readSpec fuel (encodeTemplates encodeSpec templates) = templates := by
  induction templates generalizing fuel with
  | nil => cases fuel <;> rfl
  | cons template templates ih =>
    obtain ⟨id, fields⟩ := template
    rw [List.forall_mem_cons] at hids hlengths hreads
    rw [List.length_cons] at hfuel
    obtain ⟨fuel, rfl⟩ : ∃ less, fuel = less + 1 := ⟨fuel - 1, by omega⟩
    have hpayload : encodeTemplates encodeSpec ((id, fields) :: templates) =
        header id fields.length ++
          (fields.flatMap encodeSpec ++ encodeTemplates encodeSpec templates) := by
      rw [encodeTemplates, List.flatMap_cons, encodeTemplate, List.append_assoc]
      rfl
    have hlength : ¬ (encodeTemplates encodeSpec ((id, fields) :: templates)).length < 4 := by
      rw [hpayload, List.length_append, length_header]
      omega
    have hid : unsignedAt (encodeTemplates encodeSpec ((id, fields) :: templates)) 0 2 = id := by
      rw [hpayload, unsignedAt_header_first hids.1.2]
    have hcount : unsignedAt (encodeTemplates encodeSpec ((id, fields) :: templates)) 2 2 =
        fields.length := by
      rw [hpayload, unsignedAt_header_second _ hlengths.1]
    rw [splitTemplates, if_neg (by simp only [hid]; omega), hid, hcount, hpayload, drop_header,
      readSpecs_encodeSpec hreads.1]
    dsimp only
    rw [if_pos rfl, ih hids.2 hlengths.2 hreads.2 (by omega)]

/-- A template set has more bytes than templates. -/
theorem length_le_encodeTemplates (templates : List (ℕ × List FieldSpec)) :
    templates.length ≤ (encodeTemplates encodeSpec templates).length := by
  induction templates with
  | nil => exact Nat.zero_le _
  | cons template templates ih =>
    rw [encodeTemplates, List.flatMap_cons, List.length_append, encodeTemplate, List.length_append,
      length_header, List.length_cons]
    rw [encodeTemplates] at ih
    omega

end Templates

end Lnmp.Flow
