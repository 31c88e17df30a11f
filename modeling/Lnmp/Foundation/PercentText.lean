import Lnmp.Foundation.IpAddress

/-!
# Percent-encoded texts

`quote_plus`, `unquote` and `unquote_plus` of Python's `urllib.parse`. An escape stands for a byte
of the UTF-8 encoding; bytes that are no encoding are decoded to replacement characters, one for
each longest start of an encoding.

`unquote_quotePlus_append` says that the escapes of a quoted text are undone, except that a space
has become a plus. An unquoted text is shorter than the text unless that contains no escape
(`length_unquote_lt`, `unquote_of_not_hasEscape`).
-/

set_option autoImplicit false
set_option relaxedAutoImplicit false

namespace Lnmp.Foundation.PercentText

open IpAddress

/-! ### Decoding -/

/-- What a text consists of for the decoder: bytes, and characters outside ASCII. -/
inductive CodeUnit
  | byte (value : ℕ)
  | char (char : Char)

/-- A character that is no escape. -/
def unitOf (char : Char) : CodeUnit :=
  if char.toNat < 0x80 then .byte char.toNat else .char char

/-- The byte of an escape, from the characters behind the percent sign. -/
def escapedByte? (high low : Char) : Option ℕ :=
  match hexValue? high, hexValue? low with
  | some high, some low => some (16 * high + low)
  | _, _ => none

/-- `unquote_to_bytes`, with the characters outside ASCII left as they are. -/
def percentUnits : List Char → List CodeUnit
  | [] => []
  | [char] => [unitOf char]
  | [char, next] => [unitOf char, unitOf next]
  | char :: high :: low :: rest =>
    match if char = '%' then escapedByte? high low else none with
    | some value => .byte value :: percentUnits rest
    | none => unitOf char :: percentUnits (high :: low :: rest)

/-- The start of an encoding: how many bytes are missing, the value of those that were read, and the
range of the next byte. -/
structure Pending where
  missing : ℕ
  value : ℕ
  lower : ℕ
  upper : ℕ

/-- `U+FFFD`. -/
def replacement : Char := Char.ofNat 0xFFFD

/-- A unit where no encoding has started: the characters it gives, and what it starts. -/
def startUnit : CodeUnit → List Char × Option Pending
  | .char char => ([char], none)
  | .byte value =>
    if value < 0x80 then ([Char.ofNat value], none)
    else if 0xC2 ≤ value ∧ value ≤ 0xDF then ([], some ⟨1, value - 0xC0, 0x80, 0xBF⟩)
    else if 0xE0 ≤ value ∧ value ≤ 0xEF then
      ([], some ⟨2, value - 0xE0, if value = 0xE0 then 0xA0 else 0x80,
        if value = 0xED then 0x9F else 0xBF⟩)
    else if 0xF0 ≤ value ∧ value ≤ 0xF4 then
      ([], some ⟨3, value - 0xF0, if value = 0xF0 then 0x90 else 0x80,
        if value = 0xF4 then 0x8F else 0xBF⟩)
    else ([replacement], none)

/-- A unit behind the start of an encoding. -/
def stepUnit : Option Pending → CodeUnit → List Char × Option Pending
  | none, unit => startUnit unit
  | some _, .char char => ([replacement, char], none)
  | some pending, .byte value =>
    if 0x80 ≤ value ∧ pending.lower ≤ value ∧ value ≤ pending.upper then
      let read := 64 * pending.value + (value - 0x80)
      if pending.missing = 1 then ([Char.ofNat read], none)
      else ([], some ⟨pending.missing - 1, read, 0x80, 0xBF⟩)
    else (replacement :: (startUnit (.byte value)).1, (startUnit (.byte value)).2)

/-- `decode('utf-8', 'replace')`. -/
def decodeUnits : Option Pending → List CodeUnit → List Char
  | none, [] => []
  | some _, [] => [replacement]
  | state, unit :: rest => (stepUnit state unit).1 ++ decodeUnits (stepUnit state unit).2 rest

/-- `unquote`. -/
def unquote (text : List Char) : List Char := decodeUnits none (percentUnits text)

/-- `+` to space. -/
def plusToSpace (text : List Char) : List Char :=
  text.map fun char ↦ if char = '+' then ' ' else char

/-- `unquote_plus`. -/
def unquotePlus (text : List Char) : List Char := unquote (plusToSpace text)

/-! ### Encoding -/

/-- The bytes of the UTF-8 encoding of a character. -/
def utf8Bytes (char : Char) : List ℕ :=
  let value := char.toNat
  if value < 0x80 then [value]
  else if value < 0x800 then [0xC0 + value / 64, 0x80 + value % 64]
  else if value < 0x10000 then
    [0xE0 + value / 4096, 0x80 + value / 64 % 64, 0x80 + value % 64]
  else
    [0xF0 + value / 262144, 0x80 + value / 4096 % 64, 0x80 + value / 64 % 64, 0x80 + value % 64]

/-- An escape, with digits in upper case. -/
def escapeByte (value : ℕ) : List Char :=
  ['%', (Nat.digitChar (value / 16)).toUpper, (Nat.digitChar (value % 16)).toUpper]

/-- A character that `quote` leaves. -/
def isUnreserved (char : Char) : Bool := char.isAlphanum || char ∈ ['_', '.', '-', '~']

/-- `quote_plus` of a character. -/
def quoteChar (char : Char) : List Char :=
  if char = ' ' then ['+']
  else if isUnreserved char then [char]
  else (utf8Bytes char).flatMap escapeByte

/-- `quote_plus`. -/
def quotePlus (text : List Char) : List Char := text.flatMap quoteChar

/-- Space to `+`. -/
def spaceToPlus (text : List Char) : List Char :=
  text.map fun char ↦ if char = ' ' then '+' else char

/-! ### What decoding keeps -/

theorem unitOf_of_lt {char : Char} (hchar : char.toNat < 0x80) : unitOf char = .byte char.toNat :=
  if_pos hchar

theorem percentUnits_cons_of_ne {char : Char} (hchar : char ≠ '%') (rest : List Char) :
    percentUnits (char :: rest) = unitOf char :: percentUnits rest := by
  match rest with
  | [] => rfl
  | [next] => rfl
  | high :: low :: rest => rw [percentUnits, if_neg hchar]

/-- There is a percent sign with two hexadecimal digits behind it. -/
def hasEscape : List Char → Bool
  | char :: high :: low :: rest =>
    (char = '%' && (escapedByte? high low).isSome) || hasEscape (high :: low :: rest)
  | _ => false

/-- No escape contains a character that is neither a percent sign nor a digit. -/
theorem hasEscape_append_cons {mark : Char} (hpercent : mark ≠ '%') (hhex : hexValue? mark = none)
    (front rest : List Char) :
    hasEscape (front ++ mark :: rest) = (hasEscape front || hasEscape rest) := by
  have hskip : hasEscape (mark :: rest) = hasEscape rest := by
    match rest with
    | [] => rfl
    | [_] => rfl
    | high :: low :: rest => simp [hasEscape, hpercent]
  have hhigh : ∀ low, escapedByte? mark low = none := fun low ↦ by rw [escapedByte?, hhex]
  have hlow : ∀ high, escapedByte? high mark = none := fun high ↦ by
    rw [escapedByte?, hhex]
    cases hexValue? high <;> rfl
  induction front using hasEscape.induct with
  | case1 char high low front ih =>
    rw [List.cons_append, List.cons_append, List.cons_append] at *
    rw [hasEscape, ih, hasEscape, Bool.or_assoc]
  | case2 front hshort =>
    match front with
    | [] => exact hskip
    | [char] =>
      match rest with
      | [] => rfl
      | low :: rest =>
        rw [List.singleton_append, hasEscape, hhigh, hskip]
        simp [hasEscape]
    | [char, next] =>
      rw [List.cons_append, List.singleton_append, hasEscape, hlow]
      match rest with
      | [] => simp [hasEscape]
      | low :: rest =>
        rw [hasEscape, hhigh, hskip]
        simp [hasEscape]
    | char :: high :: low :: rest => exact absurd rfl (hshort char high low rest)

theorem not_hasEscape_of_not_mem {text : List Char} (htext : '%' ∉ text) :
    hasEscape text = false := by
  induction text using hasEscape.induct with
  | case1 char high low rest ih =>
    have hchar : char ≠ '%' := fun hsame ↦ htext (hsame ▸ List.mem_cons_self ..)
    rw [hasEscape, ih fun hmem ↦ htext (List.mem_cons_of_mem _ hmem), decide_eq_false hchar]
    rfl
  | case2 text hshort =>
    match text with
    | [] => rfl
    | [_] => rfl
    | [_, _] => rfl
    | char :: high :: low :: rest => exact absurd rfl (hshort char high low rest)

theorem percentUnits_of_not_hasEscape {text : List Char} (htext : hasEscape text = false) :
    percentUnits text = text.map unitOf := by
  induction text using percentUnits.induct with
  | case1 => rfl
  | case2 char => rfl
  | case3 char next => rfl
  | case4 char high low rest value hescape ih =>
    obtain ⟨hchar, hvalue⟩ := Option.ite_none_right_eq_some.mp hescape
    rw [hasEscape, hvalue, hchar] at htext
    exact absurd htext (by simp)
  | case5 char high low rest hescape ih =>
    rw [hasEscape, Bool.or_eq_false_iff] at htext
    rw [percentUnits, hescape, ih htext.2]
    rfl

/-- An escape makes the text shorter. -/
theorem length_percentUnits (text : List Char) :
    (percentUnits text).length ≤ text.length ∧
      (hasEscape text = true → (percentUnits text).length < text.length) := by
  induction text using percentUnits.induct with
  | case1 | case2 | case3 => exact ⟨le_rfl, fun h ↦ absurd h Bool.false_ne_true⟩
  | case4 char high low rest value hescape ih =>
    rw [percentUnits, hescape]
    simp only [List.length_cons]
    exact ⟨by omega, fun _ ↦ by omega⟩
  | case5 char high low rest hescape ih =>
    rw [percentUnits, hescape, hasEscape]
    simp only [List.length_cons] at ih ⊢
    refine ⟨by omega, fun hsome ↦ ?_⟩
    rcases Bool.or_eq_true_iff.mp hsome with hhere | hlater
    · obtain ⟨hchar, hvalue⟩ := Bool.and_eq_true_iff.mp hhere
      rw [if_pos (of_decide_eq_true hchar)] at hescape
      rw [hescape] at hvalue
      exact absurd hvalue Bool.false_ne_true
    · have hlt := ih.2 hlater
      omega

/-- The unit is the byte of an ASCII character. -/
def CodeUnit.isByteOf (char : Char) : CodeUnit → Bool
  | .byte value => value = char.toNat
  | .char _ => false

theorem isByteOf_unitOf {char : Char} (hchar : char.toNat < 0x80) :
    (unitOf char).isByteOf char = true := by
  rw [unitOf_of_lt hchar]
  exact decide_eq_true rfl

theorem escapedByte?_ne_none {high low : Char} {value : ℕ}
    (hescape : escapedByte? high low = some value) :
    (hexValue? high).isSome = true ∧ (hexValue? low).isSome = true := by
  unfold escapedByte? at hescape
  cases hhigh : hexValue? high <;> cases hlow : hexValue? low <;> simp_all

/-- A character that is no part of an escape stays one unit. -/
theorem count_le_countP_percentUnits {char : Char} (hchar : char.toNat < 0x80)
    (hpercent : char ≠ '%') (hhex : hexValue? char = none) (text : List Char) :
    text.count char ≤ (percentUnits text).countP (CodeUnit.isByteOf char) := by
  have hunit : ∀ other, (if other = char then 1 else 0) ≤
      if (unitOf other).isByteOf char = true then 1 else 0 := by
    intro other
    by_cases hother : other = char
    · rw [hother, if_pos rfl, if_pos (isByteOf_unitOf hchar)]
    · rw [if_neg hother]
      exact Nat.zero_le _
  induction text using percentUnits.induct with
  | case1 => exact Nat.zero_le _
  | case2 first => simpa [percentUnits, List.count_cons, List.countP_cons] using hunit first
  | case3 first next =>
    have hfirst := hunit first
    have hnext := hunit next
    simp only [percentUnits, List.count_cons, List.countP_cons, List.count_nil, List.countP_nil,
      beq_iff_eq]
    omega
  | case4 first high low rest value hescape ih =>
    obtain ⟨rfl, hvalue⟩ := Option.ite_none_right_eq_some.mp hescape
    obtain ⟨hhigh, hlow⟩ := escapedByte?_ne_none hvalue
    have hne : ∀ digit, (hexValue? digit).isSome = true → digit ≠ char := by
      rintro digit hdigit rfl
      rw [hhex] at hdigit
      exact Bool.false_ne_true hdigit
    rw [percentUnits, hescape, List.count_cons_of_ne hpercent.symm,
      List.count_cons_of_ne (hne high hhigh), List.count_cons_of_ne (hne low hlow)]
    rw [List.countP_cons]
    omega
  | case5 first high low rest hescape ih =>
    have hfirst := hunit first
    rw [percentUnits, hescape, List.count_cons, List.countP_cons]
    simp only [beq_iff_eq]
    omega

/-- The replacement character that the start of an encoding owes. -/
def owed : Option Pending → ℕ
  | none => 0
  | some _ => 1

theorem length_startUnit (unit : CodeUnit) :
    (startUnit unit).1.length + owed (startUnit unit).2 = 1 := by
  unfold startUnit
  split
  · rfl
  · split_ifs <;> rfl

theorem length_stepUnit (state : Option Pending) (unit : CodeUnit) :
    (stepUnit state unit).1.length + owed (stepUnit state unit).2 ≤ 1 + owed state := by
  cases state with
  | none => exact (length_startUnit unit).le
  | some pending =>
    cases unit with
    | char char => exact le_rfl
    | byte value =>
      have hstart := length_startUnit (.byte value)
      rw [stepUnit]
      dsimp only
      split_ifs
      · exact Nat.le_succ 1
      · exact Nat.le_succ 1
      · simp only [List.length_cons, owed] at hstart ⊢
        omega

theorem length_decodeUnits_le (state : Option Pending) (units : List CodeUnit) :
    (decodeUnits state units).length ≤ units.length + owed state := by
  induction units generalizing state with
  | nil => cases state <;> exact le_rfl
  | cons unit rest ih =>
    have hstep := length_stepUnit state unit
    have hrest := ih (stepUnit state unit).2
    rw [decodeUnits, List.length_append, List.length_cons]
    omega

/-- An ASCII character ends what has started, and is kept. -/
theorem countP_isByteOf_le_count_stepUnit {char : Char} (hchar : char.toNat < 0x80)
    (state : Option Pending) (unit : CodeUnit) :
    (if unit.isByteOf char = true then 1 else 0) ≤ (stepUnit state unit).1.count char := by
  split_ifs with hbyte
  · cases unit with
    | char other => exact absurd hbyte Bool.false_ne_true
    | byte value =>
      obtain rfl : value = char.toNat := of_decide_eq_true hbyte
      have hstart : startUnit (.byte char.toNat) = ([char], none) := by
        rw [startUnit, if_pos hchar, Char.ofNat_toNat]
      cases state with
      | none =>
        rw [stepUnit, hstart]
        simp
      | some pending =>
        rw [stepUnit, if_neg fun h ↦ Nat.not_le.mpr hchar h.1, hstart]
        simp [List.count_cons]
  · exact Nat.zero_le _

theorem countP_isByteOf_le_count_decodeUnits {char : Char} (hchar : char.toNat < 0x80)
    (state : Option Pending) (units : List CodeUnit) :
    units.countP (CodeUnit.isByteOf char) ≤ (decodeUnits state units).count char := by
  induction units generalizing state with
  | nil => exact Nat.zero_le _
  | cons unit rest ih =>
    have hstep := countP_isByteOf_le_count_stepUnit hchar state unit
    have hrest := ih (stepUnit state unit).2
    rw [decodeUnits, List.count_append, List.countP_cons]
    omega

theorem decodeUnits_unitOf_cons (char : Char) (rest : List CodeUnit) :
    decodeUnits none (unitOf char :: rest) = char :: decodeUnits none rest := by
  rw [decodeUnits, stepUnit, unitOf]
  split_ifs with hchar
  · rw [startUnit, if_pos hchar, Char.ofNat_toNat]
    rfl
  · rfl

theorem decodeUnits_map_unitOf (text : List Char) : decodeUnits none (text.map unitOf) = text := by
  induction text with
  | nil => rfl
  | cons char rest ih => rw [List.map_cons, decodeUnits_unitOf_cons, ih]

theorem length_unquote_le (text : List Char) : (unquote text).length ≤ text.length :=
  (length_decodeUnits_le none _).trans (length_percentUnits text).1

theorem length_unquote_lt {text : List Char} (htext : hasEscape text = true) :
    (unquote text).length < text.length :=
  (length_decodeUnits_le none _).trans_lt ((length_percentUnits text).2 htext)

/-- A text without escapes stays as it is. -/
theorem unquote_of_not_hasEscape {text : List Char} (htext : hasEscape text = false) :
    unquote text = text := by
  rw [unquote, percentUnits_of_not_hasEscape htext, decodeUnits_map_unitOf]

/-- The count of an ASCII character that is no part of an escape does not fall. -/
theorem count_le_count_unquote {char : Char} (hchar : char.toNat < 0x80) (hpercent : char ≠ '%')
    (hhex : hexValue? char = none) (text : List Char) :
    text.count char ≤ (unquote text).count char :=
  (count_le_countP_percentUnits hchar hpercent hhex text).trans
    (countP_isByteOf_le_count_decodeUnits hchar none _)

/-! ### Escapes are undone -/

/-- The last byte of an encoding. -/
theorem decodeUnits_last {value lower upper byte : ℕ} (hbyte : 0x80 ≤ byte) (hlower : lower ≤ byte)
    (hupper : byte ≤ upper) (rest : List CodeUnit) :
    decodeUnits (some ⟨1, value, lower, upper⟩) (.byte byte :: rest) =
      Char.ofNat (64 * value + (byte - 0x80)) :: decodeUnits none rest := by
  rw [decodeUnits, stepUnit, if_pos ⟨hbyte, hlower, hupper⟩]
  rfl

/-- A byte inside an encoding. -/
theorem decodeUnits_inner {missing value lower upper byte : ℕ} (hbyte : 0x80 ≤ byte)
    (hlower : lower ≤ byte) (hupper : byte ≤ upper) (rest : List CodeUnit) :
    decodeUnits (some ⟨missing + 2, value, lower, upper⟩) (.byte byte :: rest) =
      decodeUnits (some ⟨missing + 1, 64 * value + (byte - 0x80), 0x80, 0xBF⟩) rest := by
  rw [decodeUnits, stepUnit, if_pos ⟨hbyte, hlower, hupper⟩]
  dsimp only
  rw [if_neg (by omega)]
  rfl

theorem toNat_isScalar (char : Char) :
    char.toNat < 0xD800 ∨ 0xDFFF < char.toNat ∧ char.toNat < 0x110000 := char.valid

/-- The decoder reads the encoding of a character. -/
theorem decodeUnits_utf8Bytes (char : Char) (rest : List CodeUnit) :
    decodeUnits none ((utf8Bytes char).map CodeUnit.byte ++ rest) =
      char :: decodeUnits none rest := by
  have hscalar := toNat_isScalar char
  have hofNat : ∀ value, value = char.toNat → Char.ofNat value = char := by
    rintro value rfl
    exact Char.ofNat_toNat char
  unfold utf8Bytes
  generalize char.toNat = value at hscalar hofNat
  dsimp only
  split_ifs with hone htwo hthree
  · rw [List.map_singleton, List.singleton_append, decodeUnits, stepUnit, startUnit, if_pos hone,
      hofNat value rfl]
    rfl
  · rw [List.map_cons, List.map_singleton, List.cons_append, List.singleton_append, decodeUnits,
      stepUnit, startUnit, if_neg (by omega), if_pos (by omega), List.nil_append,
      decodeUnits_last (by omega) (by omega) (by omega), hofNat _ (by omega)]
  · rw [List.map_cons, List.map_cons, List.map_singleton, List.cons_append, List.cons_append,
      List.singleton_append, decodeUnits, stepUnit, startUnit, if_neg (by omega),
      if_neg (by omega), if_pos (by omega), List.nil_append]
    rw [decodeUnits_inner (by omega) (by split_ifs <;> omega) (by split_ifs <;> omega),
      decodeUnits_last (by omega) (by omega) (by omega), hofNat _ (by omega)]
  · rw [List.map_cons, List.map_cons, List.map_cons, List.map_singleton, List.cons_append,
      List.cons_append, List.cons_append, List.singleton_append, decodeUnits, stepUnit, startUnit,
      if_neg (by omega), if_neg (by omega), if_neg (by omega), if_pos (by omega), List.nil_append]
    rw [decodeUnits_inner (by omega) (by split_ifs <;> omega) (by split_ifs <;> omega),
      decodeUnits_inner (by omega) (by omega) (by omega),
      decodeUnits_last (by omega) (by omega) (by omega), hofNat _ (by omega)]

theorem hexValue?_toUpper_digitChar :
    ∀ digit < 16, hexValue? (Nat.digitChar digit).toUpper = some digit := by decide

theorem percentUnits_escapeByte {value : ℕ} (hvalue : value < 0x100) (rest : List Char) :
    percentUnits (escapeByte value ++ rest) = .byte value :: percentUnits rest := by
  have hescaped : escapedByte? (Nat.digitChar (value / 16)).toUpper
      (Nat.digitChar (value % 16)).toUpper = some value := by
    rw [escapedByte?, hexValue?_toUpper_digitChar _ (by omega),
      hexValue?_toUpper_digitChar _ (by omega)]
    exact congrArg some (by omega)
  rw [escapeByte, List.cons_append, List.cons_append, List.cons_append, List.nil_append,
    percentUnits, if_pos rfl, hescaped]

theorem percentUnits_flatMap_escapeByte {values : List ℕ}
    (hvalues : ∀ value ∈ values, value < 0x100) (rest : List Char) :
    percentUnits (values.flatMap escapeByte ++ rest) =
      values.map CodeUnit.byte ++ percentUnits rest := by
  induction values with
  | nil => rfl
  | cons value values ih =>
    obtain ⟨hvalue, hrest⟩ := List.forall_mem_cons.mp hvalues
    rw [List.flatMap_cons, List.append_assoc, percentUnits_escapeByte hvalue, ih hrest,
      List.map_cons, List.cons_append]

theorem utf8Bytes_lt (char : Char) : ∀ value ∈ utf8Bytes char, value < 0x100 := by
  have hscalar := toNat_isScalar char
  unfold utf8Bytes
  dsimp only
  split_ifs <;> simp only [List.mem_cons, List.not_mem_nil, or_false] <;> omega

theorem unquote_cons_of_ne {char : Char} (hchar : char ≠ '%') (rest : List Char) :
    unquote (char :: rest) = char :: unquote rest := by
  rw [unquote, percentUnits_cons_of_ne hchar, decodeUnits_unitOf_cons, unquote]

/-- Behind the escapes of a quoted character the decoder starts anew. -/
theorem unquote_quoteChar_append (char : Char) (rest : List Char) :
    unquote (quoteChar char ++ rest) = (if char = ' ' then '+' else char) :: unquote rest := by
  unfold quoteChar
  split_ifs with hspace hunreserved
  · exact unquote_cons_of_ne (by decide) rest
  · refine unquote_cons_of_ne ?_ rest
    rintro rfl
    exact absurd hunreserved (by decide)
  · rw [unquote, percentUnits_flatMap_escapeByte (utf8Bytes_lt char), decodeUnits_utf8Bytes,
      unquote]

/-- The escapes of a quoted text are undone, and its spaces are pluses. -/
theorem unquote_quotePlus_append (text rest : List Char) :
    unquote (quotePlus text ++ rest) = spaceToPlus text ++ unquote rest := by
  induction text with
  | nil => rfl
  | cons char text ih =>
    rw [quotePlus, List.flatMap_cons, List.append_assoc, unquote_quoteChar_append, ← quotePlus, ih]
    rfl

/-! ### Pluses -/

theorem hexValue?_plusToSpace (char : Char) :
    hexValue? (if char = '+' then ' ' else char) = hexValue? char := by
  split_ifs with hplus
  · rw [hplus]
    rfl
  · rfl

theorem hasEscape_plusToSpace (text : List Char) :
    hasEscape (plusToSpace text) = hasEscape text := by
  have hpercent : ∀ char : Char, (if char = '+' then ' ' else char) = '%' ↔ char = '%' := by
    intro char
    split_ifs with hplus
    · rw [hplus]
      decide
    · rfl
  rw [plusToSpace]
  induction text using hasEscape.induct with
  | case1 char high low rest ih =>
    simp only [List.map_cons] at ih ⊢
    rw [hasEscape, hasEscape, ih, escapedByte?, escapedByte?, hexValue?_plusToSpace,
      hexValue?_plusToSpace]
    simp only [hpercent]
  | case2 text hshort =>
    match text with
    | [] => rfl
    | [_] => rfl
    | [_, _] => rfl
    | char :: high :: low :: rest => exact absurd rfl (hshort char high low rest)

theorem length_plusToSpace (text : List Char) : (plusToSpace text).length = text.length :=
  List.length_map ..

theorem spaceToPlus_plusToSpace (text : List Char) :
    spaceToPlus (plusToSpace text) = spaceToPlus text := by
  rw [spaceToPlus, plusToSpace, List.map_map, spaceToPlus]
  refine List.map_congr_left fun char _ ↦ ?_
  by_cases hplus : char = '+' <;> simp [hplus]

end Lnmp.Foundation.PercentText
