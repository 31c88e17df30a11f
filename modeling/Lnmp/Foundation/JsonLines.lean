import Lnmp.Foundation.JsonSyntax

/-!
# JSON texts in lines

`json.dumps` escapes everything outside printable ASCII, so that a text it writes never ends a line.
`splitLines_dumps` is what a reader of lines makes of such a text.
-/

set_option autoImplicit false
set_option relaxedAutoImplicit false

namespace Lnmp.Foundation.JsonSyntax

open JsonText JsonScan PythonText

/-- Space and the visible characters of ASCII. -/
def IsPrintable (char : Char) : Prop := 0x20 ≤ char.toNat ∧ char.toNat ≤ 0x7E

instance decidableIsPrintable (char : Char) : Decidable (IsPrintable char) :=
  inferInstanceAs (Decidable (_ ∧ _))

/-- The text is printable. -/
def PrintableText (text : List Char) : Prop := ∀ char ∈ text, IsPrintable char

theorem IsPrintable.isLineBreak {char : Char} (hchar : IsPrintable char) :
    isLineBreak char = false := by
  obtain ⟨hlow, hhigh⟩ := hchar
  rw [PythonText.isLineBreak]
  exact decide_eq_false (by omega)

theorem printableText_nil : PrintableText [] := fun _ hchar ↦ absurd hchar List.not_mem_nil

theorem printableText_cons {char : Char} {rest : List Char} :
    PrintableText (char :: rest) ↔ IsPrintable char ∧ PrintableText rest :=
  List.forall_mem_cons

theorem printableText_append {first second : List Char} :
    PrintableText (first ++ second) ↔ PrintableText first ∧ PrintableText second :=
  List.forall_mem_append

/-! ### Strings -/

theorem isPrintable_digitChar : ∀ digit < 16, IsPrintable (Nat.digitChar digit) := by decide

theorem printableText_unicodeEscape (unit : ℕ) : PrintableText (unicodeEscape unit) := by
  have hdigit : ∀ value, IsPrintable (Nat.digitChar (value % 16)) := fun value ↦
    isPrintable_digitChar _ (Nat.mod_lt _ (by decide))
  simp only [unicodeEscape, printableText_cons, hdigit, printableText_nil, and_true]
  decide

theorem printableText_escape (code : CodePoint) : PrintableText (escape code) := by
  unfold escape
  cases hshort : shortEscape? code with
  | some letter =>
    have hletter : IsPrintable letter := by
      unfold shortEscape? at hshort
      split_ifs at hshort <;> obtain rfl := Option.some.inj hshort <;> decide
    exact printableText_cons.mpr ⟨by decide, printableText_cons.mpr ⟨hletter, printableText_nil⟩⟩
  | none =>
    dsimp only
    split_ifs with hprintable
    · refine printableText_cons.mpr ⟨?_, printableText_nil⟩
      rw [Char.ofNat, dif_pos (Or.inl (by omega))]
      exact hprintable
    · exact printableText_unicodeEscape _
    · exact printableText_append.mpr
        ⟨printableText_unicodeEscape _, printableText_unicodeEscape _⟩

theorem printableText_dumpsString (text : PyString) : PrintableText (dumpsString text) := by
  refine printableText_cons.mpr ⟨by decide, printableText_append.mpr ⟨fun char hchar ↦ ?_, ?_⟩⟩
  · obtain ⟨code, -, hcode⟩ := List.mem_flatMap.mp hchar
    exact printableText_escape code char hcode
  · exact printableText_cons.mpr ⟨by decide, printableText_nil⟩

/-! ### Numbers -/

theorem isPrintable_of_isNumberChar {char : Char} (hchar : isNumberChar char = true) :
    IsPrintable char := by
  rcases Bool.or_eq_true_iff.mp hchar with hdigit | hmark
  · have hrange : 48 ≤ char.toNat ∧ char.toNat ≤ 57 := by
      simpa [Char.isDigit, Char.le_def, UInt32.le_iff_toNat_le] using hdigit
    rw [IsPrintable]
    omega
  · exact (forall_mem_of_all (by decide) :
      ∀ mark ∈ ['-', '+', '.', 'e', 'E'], IsPrintable mark) char (of_decide_eq_true hmark)

theorem isNumberChar_of_mem_takeDigits {text : List Char} {char : Char}
    (hchar : char ∈ (takeDigits text).1) : isNumberChar char = true := by
  rw [isNumberChar, List.mem_takeWhile_imp hchar, Bool.true_or]

theorem mem_of_mem_takeSign {signs text : List Char} {char : Char}
    (hchar : char ∈ (takeSign signs text).1) : char ∈ signs := by
  cases text with
  | nil => exact absurd hchar List.not_mem_nil
  | cons first rest =>
    rw [takeSign] at hchar
    split_ifs at hchar with hsign
    · exact List.mem_singleton.mp hchar ▸ hsign
    · exact absurd hchar List.not_mem_nil

theorem isNumberChar_of_mem_scanInteger {text : List Char} {integer : List Char × List Char}
    (hscan : scanInteger text = some integer) {char : Char} (hchar : char ∈ integer.1) :
    isNumberChar char = true := by
  cases text with
  | nil => exact absurd hscan (Option.some_ne_none _).symm
  | cons first rest =>
    rw [scanInteger] at hscan
    split_ifs at hscan
    · obtain rfl := Option.some.inj hscan
      rw [List.mem_singleton.mp hchar]
      decide
    · obtain rfl := Option.some.inj hscan
      exact isNumberChar_of_mem_takeDigits hchar

theorem isNumberChar_of_mem_scanFraction {text : List Char} {char : Char}
    (hchar : char ∈ (scanFraction text).1) : isNumberChar char = true := by
  cases text with
  | nil => exact absurd hchar List.not_mem_nil
  | cons first rest =>
    rw [scanFraction] at hchar
    split_ifs at hchar with hpoint
    · rcases List.mem_cons.mp hchar with rfl | hdigit
      · rw [hpoint.1]
        decide
      · exact isNumberChar_of_mem_takeDigits hdigit
    · exact absurd hchar List.not_mem_nil

theorem isNumberChar_of_mem_scanExponent {text : List Char} {char : Char}
    (hchar : char ∈ (scanExponent text).1) : isNumberChar char = true := by
  have hmarks : ∀ mark ∈ ['-', '+', '.', 'e', 'E'], isNumberChar mark = true :=
    forall_mem_of_all (by decide)
  cases text with
  | nil => exact absurd hchar List.not_mem_nil
  | cons first rest =>
    rw [scanExponent] at hchar
    split_ifs at hchar with hletter
    · rcases List.mem_cons.mp hchar with rfl | hmem
      · exact hmarks _ ((by decide : ['e', 'E'] ⊆ ['-', '+', '.', 'e', 'E']) hletter.1)
      · rcases List.mem_append.mp hmem with hsign | hdigit
        · exact hmarks _ ((by decide : ['-', '+'] ⊆ ['-', '+', '.', 'e', 'E'])
            (mem_of_mem_takeSign hsign))
        · exact isNumberChar_of_mem_takeDigits hdigit
    · exact absurd hchar List.not_mem_nil

/-- A scanned number consists of the characters of numbers. -/
theorem printableText_of_scanNumber {text number rest : List Char} {isFloat : Bool}
    (hscan : scanNumber text = some (number, isFloat, rest)) : PrintableText number := by
  obtain ⟨integer, hinteger, hnumber⟩ := Option.map_eq_some_iff.mp hscan
  obtain ⟨rfl, -⟩ := Prod.mk.inj hnumber
  intro char hchar
  refine isPrintable_of_isNumberChar ?_
  simp only [List.mem_append] at hchar
  rcases hchar with ((hsign | hmem) | hmem) | hmem
  · rw [List.mem_singleton.mp (mem_of_mem_takeSign hsign)]
    decide
  · exact isNumberChar_of_mem_scanInteger hinteger hmem
  · exact isNumberChar_of_mem_scanFraction hmem
  · exact isNumberChar_of_mem_scanExponent hmem

/-! ### Values -/

theorem printableText_joinParts {parts : List (List Char)}
    (hparts : ∀ part ∈ parts, PrintableText part) : PrintableText (joinParts parts) := by
  induction parts with
  | nil => exact printableText_nil
  | cons part rest ih =>
    obtain ⟨hpart, hrest⟩ := List.forall_mem_cons.mp hparts
    cases rest with
    | nil => exact hpart
    | cons next rest =>
      refine printableText_append.mpr ⟨hpart, printableText_cons.mpr ⟨by decide, ?_⟩⟩
      exact printableText_cons.mpr ⟨by decide, ih hrest⟩

theorem printableText_bracketed {opening closing : Char} (hopening : IsPrintable opening)
    (hclosing : IsPrintable closing) {parts : List (List Char)}
    (hparts : ∀ part ∈ parts, PrintableText part) :
    PrintableText (bracketed opening closing parts) :=
  printableText_cons.mpr ⟨hopening, printableText_append.mpr ⟨printableText_joinParts hparts,
    printableText_cons.mpr ⟨hclosing, printableText_nil⟩⟩⟩

section Values

variable {F : Type} {codec : FloatCodec F} {json : Json F} {text : List Char}

/-- What `json.dumps` writes is printable. -/
theorem printableText_dumps (hjson : json.IsValue) (hdumps : dumps codec json = some text) :
    PrintableText text := by
  induction hjson generalizing text with
  | null =>
    obtain rfl := Option.some.inj hdumps
    exact forall_mem_of_all (by decide)
  | bool value =>
    obtain rfl := Option.some.inj hdumps
    cases value with
    | false => exact forall_mem_of_all (by decide)
    | true => exact forall_mem_of_all (by decide)
  | int value =>
    obtain ⟨digits, hdigits, rfl⟩ := Option.map_eq_some_iff.mp hdumps
    exact printableText_of_scanNumber (scanNumber_formatInt hdigits)
  | float value =>
    obtain rfl := Option.some.inj hdumps
    exact printableText_of_scanNumber (codec.scanNumber_repr value)
  | infinity isNegative =>
    obtain rfl := Option.some.inj hdumps
    cases isNegative with
    | false => exact forall_mem_of_all (by decide)
    | true => exact forall_mem_of_all (by decide)
  | nan =>
    obtain rfl := Option.some.inj hdumps
    exact forall_mem_of_all (by decide)
  | string value hvalue =>
    obtain rfl := Option.some.inj hdumps
    exact printableText_dumpsString value
  | array items hitems ih =>
    obtain ⟨parts, hparts, rfl⟩ := Option.map_eq_some_iff.mp hdumps
    have hall : List.Forall₂ (fun _ part ↦ PrintableText part) items parts :=
      forall₂_imp_of_mem (dumpsItems_eq_some hparts) fun item hitem _ _ hpart ↦
        ih item hitem hpart
    exact printableText_bracketed (by decide) (by decide)
      (forall_mem_of_forall₂ hall fun _ _ hpart ↦ hpart)
  | object members hkeys htexts hvalues ih =>
    obtain ⟨fields, hfields, rfl⟩ := Option.map_eq_some_iff.mp hdumps
    have hall : List.Forall₂ (fun _ field ↦ PrintableText field.2) members fields :=
      forall₂_imp_of_mem (dumpsMembers_eq_some hfields) fun member hmember _ _ hfield ↦
        ih member hmember hfield.2
    refine printableText_bracketed (by decide) (by decide) fun part hpart ↦ ?_
    obtain ⟨field, hfield, rfl⟩ := List.mem_map.mp hpart
    refine printableText_append.mpr
      ⟨printableText_dumpsString field.1, printableText_cons.mpr ⟨by decide, ?_⟩⟩
    exact printableText_cons.mpr
      ⟨by decide, forall_mem_of_forall₂ hall (fun _ _ htext ↦ htext) field hfield⟩

/-- A line that ends in a JSON text is one line. -/
theorem splitLines_dumps (hjson : json.IsValue) (hdumps : dumps codec json = some text)
    {label : List Char} (hlabel : PrintableText label) (rest : List Char) :
    splitLines (label ++ text ++ '\n' :: rest) = (label ++ text) :: splitLines rest :=
  splitLines_append (fun char hchar ↦
    (printableText_append.mpr ⟨hlabel, printableText_dumps hjson hdumps⟩ char hchar).isLineBreak)
    rest

end Values

end Lnmp.Foundation.JsonSyntax
