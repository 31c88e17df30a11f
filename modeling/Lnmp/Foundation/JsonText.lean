import Mathlib.Algebra.BigOperators.Ring.Finset

/-!
# JSON texts

The text that Python's `json.dumps` gives for strings, numbers, arrays and objects. Every character
outside the printable ASCII range is escaped, a supplementary one as a pair of surrogates, so that
the text is ASCII: its encoding has as many bytes as it has characters (`encodedLength_of_ascii`).

A Python string is a list of code points. Surrogates are code points as well.
-/

set_option autoImplicit false
set_option relaxedAutoImplicit false

namespace Lnmp.Foundation.JsonText

/-! ### Strings -/

/-- A code point of a Python string. -/
abbrev CodePoint := Fin 0x110000

/-- A Python string. -/
abbrev PyString := List CodePoint

/-- The Python string of a text. -/
def ofText (text : String) : PyString := text.toList.map fun char ↦ Fin.ofNat 0x110000 char.toNat

/-- A hexadecimal escape of sixteen bits. -/
def unicodeEscape (unit : ℕ) : List Char :=
  ['\\', 'u', Nat.digitChar (unit / 4096 % 16), Nat.digitChar (unit / 256 % 16),
    Nat.digitChar (unit / 16 % 16), Nat.digitChar (unit % 16)]

/-- The letter behind the backslash of a short escape. -/
def shortEscape? (code : CodePoint) : Option Char :=
  if code = 0x22 then some '"'
  else if code = 0x5C then some '\\'
  else if code = 0x08 then some 'b'
  else if code = 0x0C then some 'f'
  else if code = 0x0A then some 'n'
  else if code = 0x0D then some 'r'
  else if code = 0x09 then some 't'
  else none

/-- A code point in a string. -/
def escape (code : CodePoint) : List Char :=
  match shortEscape? code with
  | some letter => ['\\', letter]
  | none =>
    if 0x20 ≤ code.val ∧ code.val ≤ 0x7E then [Char.ofNat code.val]
    else if code.val < 0x10000 then unicodeEscape code.val
    else unicodeEscape (0xD800 + (code.val - 0x10000) / 0x400) ++
      unicodeEscape (0xDC00 + (code.val - 0x10000) % 0x400)

/-- `json.dumps` of a string. -/
def dumpsString (text : PyString) : List Char := '"' :: (text.flatMap escape ++ ['"'])

/-- The number of characters that a code point takes in a string: 1, 2, 6 or 12. -/
def escapedLength (code : CodePoint) : ℕ :=
  if (shortEscape? code).isSome then 2
  else if 0x20 ≤ code.val ∧ code.val ≤ 0x7E then 1
  else if code.val < 0x10000 then 6
  else 12

theorem length_escape (code : CodePoint) : (escape code).length = escapedLength code := by
  unfold escape escapedLength
  cases shortEscape? code with
  | some letter => rfl
  | none =>
    simp only [Option.isSome_none, Bool.false_eq_true, if_false]
    split_ifs <;> rfl

/-- The number of characters between the quotes. -/
def escapedSum (text : PyString) : ℕ := (text.map escapedLength).sum

theorem length_dumpsString (text : PyString) :
    (dumpsString text).length = escapedSum text + 2 := by
  rw [dumpsString, List.length_cons, List.length_append, List.length_flatMap, escapedSum,
    List.map_congr_left fun code _ ↦ length_escape code]
  rfl

/-! ### Numbers, arrays and objects -/

/-- `json.dumps` of an integer. -/
def dumpsInt (number : ℤ) : List Char :=
  if number < 0 then '-' :: Nat.toDigits 10 number.natAbs else Nat.toDigits 10 number.natAbs

/-- `", ".join(parts)`. -/
def joinParts : List (List Char) → List Char
  | [] => []
  | [part] => part
  | part :: next :: rest => part ++ ',' :: ' ' :: joinParts (next :: rest)

/-- Parts between brackets. -/
def bracketed (opening closing : Char) (parts : List (List Char)) : List Char :=
  opening :: (joinParts parts ++ [closing])

/-- `json.dumps` of a list, from the texts of its items. -/
def dumpsArray (items : List (List Char)) : List Char := bracketed '[' ']' items

/-- `json.dumps` of a dictionary, from its keys and the texts of its values. -/
def dumpsObject (fields : List (PyString × List Char)) : List Char :=
  bracketed '\x7b' '\x7d' (fields.map fun field ↦ dumpsString field.1 ++ ':' :: ' ' :: field.2)

theorem length_joinParts_add_two {parts : List (List Char)} (hne : parts ≠ []) :
    (joinParts parts).length + 2 = (parts.map fun part ↦ part.length + 2).sum := by
  induction parts with
  | nil => exact absurd rfl hne
  | cons part rest ih =>
    cases rest with
    | nil => simp [joinParts]
    | cons next rest =>
      rw [joinParts, List.map_cons, List.sum_cons, ← ih (List.cons_ne_nil _ _), List.length_append,
        List.length_cons, List.length_cons]
      omega

/-- The separators and the brackets are two characters for each part. -/
theorem length_bracketed (opening closing : Char) (parts : List (List Char)) :
    (bracketed opening closing parts).length =
      max 2 (parts.map fun part ↦ part.length + 2).sum := by
  rw [bracketed, List.length_cons, List.length_append, List.length_singleton]
  cases parts with
  | nil => rfl
  | cons part rest =>
    have hjoined := length_joinParts_add_two (List.cons_ne_nil part rest)
    rw [← hjoined]
    omega

/-! ### Encoding -/

/-- The number of bytes of the UTF-8 encoding of a text. -/
def encodedLength (text : List Char) : ℕ := (text.map Char.utf8Size).sum

/-- A text of ASCII characters. -/
def IsAscii (text : List Char) : Prop := ∀ char ∈ text, char.toNat < 0x80

theorem encodedLength_of_ascii {text : List Char} (htext : IsAscii text) :
    encodedLength text = text.length := by
  induction text with
  | nil => rfl
  | cons char rest ih =>
    obtain ⟨hchar, hrest⟩ := List.forall_mem_cons.mp htext
    have hsize : char.utf8Size = 1 := by
      rw [Char.utf8Size_eq_one_iff, UInt32.le_iff_toNat_le]
      exact Nat.le_of_lt_succ hchar
    have hlength := ih hrest
    rw [encodedLength] at hlength ⊢
    rw [List.map_cons, List.sum_cons, hsize, hlength, List.length_cons, Nat.add_comm]

theorem isAscii_append {first second : List Char} :
    IsAscii (first ++ second) ↔ IsAscii first ∧ IsAscii second := by
  simp only [IsAscii, List.mem_append, or_imp, forall_and]

theorem isAscii_cons {char : Char} {rest : List Char} :
    IsAscii (char :: rest) ↔ char.toNat < 0x80 ∧ IsAscii rest := List.forall_mem_cons

theorem isAscii_nil : IsAscii [] := fun _ hchar ↦ absurd hchar List.not_mem_nil

theorem isAscii_of_all {text : List Char} (htext : text.all fun char ↦ char.toNat < 0x80) :
    IsAscii text :=
  fun char hchar ↦ of_decide_eq_true (List.all_eq_true.mp htext char hchar)

theorem isAscii_digitChar : ∀ digit < 16, (Nat.digitChar digit).toNat < 0x80 := by decide

theorem isAscii_unicodeEscape (unit : ℕ) : IsAscii (unicodeEscape unit) := by
  have hdigit : ∀ value, (Nat.digitChar (value % 16)).toNat < 0x80 := fun value ↦
    isAscii_digitChar _ (Nat.mod_lt _ (by decide))
  simp only [unicodeEscape, isAscii_cons, hdigit, isAscii_nil, and_true]
  decide

theorem isAscii_escape (code : CodePoint) : IsAscii (escape code) := by
  unfold escape
  cases hshort : shortEscape? code with
  | some letter =>
    have hletter : letter.toNat < 0x80 := by
      unfold shortEscape? at hshort
      split_ifs at hshort <;> obtain rfl := Option.some.inj hshort <;> decide
    exact isAscii_cons.mpr ⟨by decide, isAscii_cons.mpr ⟨hletter, isAscii_nil⟩⟩
  | none =>
    dsimp only
    split_ifs with hprintable
    · refine isAscii_cons.mpr ⟨?_, isAscii_nil⟩
      rw [Char.ofNat, dif_pos (Or.inl (by omega))]
      exact Nat.lt_succ_of_le (Nat.le_trans hprintable.2 (by decide))
    · exact isAscii_unicodeEscape _
    · exact isAscii_append.mpr ⟨isAscii_unicodeEscape _, isAscii_unicodeEscape _⟩

theorem isAscii_dumpsString (text : PyString) : IsAscii (dumpsString text) := by
  refine isAscii_cons.mpr ⟨by decide, isAscii_append.mpr ⟨fun char hchar ↦ ?_, ?_⟩⟩
  · obtain ⟨code, -, hcode⟩ := List.mem_flatMap.mp hchar
    exact isAscii_escape code char hcode
  · exact isAscii_cons.mpr ⟨by decide, isAscii_nil⟩

theorem isAscii_toDigits (number : ℕ) : IsAscii (Nat.toDigits 10 number) := by
  intro char hchar
  have hdigit := Nat.isDigit_of_mem_toDigits (by decide) (by decide) hchar
  have hrange : 48 ≤ char.toNat ∧ char.toNat ≤ 57 := by
    simpa [Char.isDigit, Char.le_def, UInt32.le_iff_toNat_le] using hdigit
  omega

theorem isAscii_dumpsInt (number : ℤ) : IsAscii (dumpsInt number) := by
  unfold dumpsInt
  split_ifs
  · exact isAscii_cons.mpr ⟨by decide, isAscii_toDigits _⟩
  · exact isAscii_toDigits _

theorem isAscii_joinParts {parts : List (List Char)} (hparts : ∀ part ∈ parts, IsAscii part) :
    IsAscii (joinParts parts) := by
  induction parts with
  | nil => exact isAscii_nil
  | cons part rest ih =>
    obtain ⟨hpart, hrest⟩ := List.forall_mem_cons.mp hparts
    cases rest with
    | nil => exact hpart
    | cons next rest =>
      refine isAscii_append.mpr ⟨hpart, isAscii_cons.mpr ⟨by decide, ?_⟩⟩
      exact isAscii_cons.mpr ⟨by decide, ih hrest⟩

theorem isAscii_dumpsArray {items : List (List Char)} (hitems : ∀ item ∈ items, IsAscii item) :
    IsAscii (dumpsArray items) := by
  refine isAscii_cons.mpr ⟨by decide, isAscii_append.mpr ⟨isAscii_joinParts hitems, ?_⟩⟩
  exact isAscii_cons.mpr ⟨by decide, isAscii_nil⟩

theorem isAscii_dumpsObject {fields : List (PyString × List Char)}
    (hfields : ∀ field ∈ fields, IsAscii field.2) : IsAscii (dumpsObject fields) := by
  refine isAscii_cons.mpr ⟨by decide, isAscii_append.mpr ⟨isAscii_joinParts ?_, ?_⟩⟩
  · intro part hpart
    obtain ⟨field, hfield, rfl⟩ := List.mem_map.mp hpart
    refine isAscii_append.mpr ⟨isAscii_dumpsString field.1, isAscii_cons.mpr ⟨by decide, ?_⟩⟩
    exact isAscii_cons.mpr ⟨by decide, hfields field hfield⟩
  · exact isAscii_cons.mpr ⟨by decide, isAscii_nil⟩

end Lnmp.Foundation.JsonText
