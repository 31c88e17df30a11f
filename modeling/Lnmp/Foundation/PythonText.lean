import Mathlib.Algebra.Order.Floor.Defs
import Mathlib.Data.List.TakeWhile
import Mathlib.Data.Rat.Floor
import Mathlib.Tactic.Linarith

/-!
# Text conversions of Python

The conversions between Python strings and numbers that a program applies to untrusted text:
`str.strip`, `str.splitlines`, `int(text)`, `str(number)` with the interpreter's limit on the digits
of a decimal conversion, `float(text)`, and the format `f"{number:.3f}"`. A conversion that raises
`ValueError` is `none` here.

`int` and `float` are modelled on ASCII digits. A finite float is the rational number written in
the text, without rounding to binary; `nonFinite` stands for the infinities and for NaN, which
text too large for a float also gives.

`parseInt_formatInt` and `parseFloat_formatMilli` are the round trips.
-/

set_option autoImplicit false
set_option relaxedAutoImplicit false

namespace Lnmp.Foundation.PythonText

/-! ### Strings -/

/-- The characters that `str.strip` removes. -/
def isSpace (char : Char) : Bool :=
  let code := char.toNat
  (9 ≤ code ∧ code ≤ 13) ∨ (28 ≤ code ∧ code ≤ 32) ∨ code = 0x85 ∨ code = 0xA0 ∨
    code = 0x1680 ∨ (0x2000 ≤ code ∧ code ≤ 0x200A) ∨ code = 0x2028 ∨ code = 0x2029 ∨
    code = 0x202F ∨ code = 0x205F ∨ code = 0x3000

/-- Remove the white space at both ends of a list of characters. -/
def stripChars (chars : List Char) : List Char :=
  ((chars.dropWhile isSpace).reverse.dropWhile isSpace).reverse

/-- `text.strip()`. -/
def strip (text : String) : String := String.ofList (stripChars text.toList)

/-- `text.split(separator)[0]`. -/
def splitHead (separator : Char) (text : String) : String :=
  String.ofList (text.toList.takeWhile (· ≠ separator))

/-- The characters that end a line. -/
def isLineBreak (char : Char) : Bool :=
  let code := char.toNat
  (10 ≤ code ∧ code ≤ 13) ∨ (28 ≤ code ∧ code ≤ 30) ∨ code = 0x85 ∨ code = 0x2028 ∨ code = 0x2029

/-- `text.splitlines()`. -/
def splitLines : List Char → List (List Char)
  | [] => []
  | '\r' :: '\n' :: rest => [] :: splitLines rest
  | char :: rest =>
    if isLineBreak char then [] :: splitLines rest
    else
      match splitLines rest with
      | [] => [[char]]
      | line :: lines => (char :: line) :: lines

/-- Text that neither starts nor ends with white space is its own strip. -/
theorem stripChars_eq_self {chars : List Char} (hspace : ∀ char ∈ chars, isSpace char = false) :
    stripChars chars = chars := by
  have hdrop : ∀ list : List Char, (∀ char ∈ list, isSpace char = false) →
      list.dropWhile isSpace = list := by
    intro list hlist
    cases list with
    | nil => rfl
    | cons char rest =>
      rw [List.dropWhile_cons_of_neg]
      simp [hlist char (List.mem_cons_self ..)]
  unfold stripChars
  rw [hdrop chars hspace, hdrop chars.reverse fun char hchar ↦
    hspace char (List.mem_reverse.mp hchar), List.reverse_reverse]

/-- White space in front is removed. -/
theorem stripChars_append {spaces : List Char} (hspaces : ∀ char ∈ spaces, isSpace char = true)
    (chars : List Char) : stripChars (spaces ++ chars) = stripChars chars := by
  rw [stripChars, List.dropWhile_append_of_pos hspaces, stripChars]

/-- Text without white space at its ends is its own strip. -/
theorem stripChars_eq_self_of_ends {chars : List Char}
    (hhead : ∀ char ∈ chars.head?, isSpace char = false)
    (hlast : ∀ char ∈ chars.getLast?, isSpace char = false) : stripChars chars = chars := by
  have hdrop : ∀ list : List Char, (∀ char ∈ list.head?, isSpace char = false) →
      list.dropWhile isSpace = list := by
    intro list hlist
    cases list with
    | nil => rfl
    | cons char rest => rw [List.dropWhile_cons_of_neg (by rw [hlist char rfl]; decide)]
  rw [stripChars, hdrop chars hhead, hdrop chars.reverse, List.reverse_reverse]
  rwa [List.head?_reverse]

/-- A line and the break behind it. -/
theorem splitLines_append {line : List Char} (hline : ∀ char ∈ line, isLineBreak char = false)
    (rest : List Char) : splitLines (line ++ '\n' :: rest) = line :: splitLines rest := by
  induction line with
  | nil => rfl
  | cons char line ih =>
    rw [List.forall_mem_cons] at hline
    have hcr : char ≠ '\r' := by
      rintro rfl
      exact absurd hline.1 (by decide)
    rw [List.cons_append, splitLines, if_neg (by rw [hline.1]; decide), ih hline.2]
    rintro _ rfl
    exact absurd rfl hcr

/-! ### Integers -/

/-- The interpreter's limit on the digits of a conversion between integers and decimal text. -/
def maxStrDigits : ℕ := 4300

/-- Decimal digits, with single underscores allowed between two of them. -/
def isDigitRun : List Char → Bool
  | [] => false
  | [char] => char.isDigit
  | char :: '_' :: rest => char.isDigit && isDigitRun rest
  | char :: next :: rest => char.isDigit && isDigitRun (next :: rest)

/-- The digits of a run, without its underscores. -/
def digitsOf (chars : List Char) : List Char := chars.filter (· ≠ '_')

/-- The value of an unsigned decimal text. -/
def parseNat (chars : List Char) : Option ℕ :=
  if isDigitRun chars ∧ (digitsOf chars).length ≤ maxStrDigits then
    some (Nat.ofDigitChars 10 (digitsOf chars) 0)
  else none

/-- Whether a text starts with a minus sign, and the text behind its sign. -/
def splitSign : List Char → Bool × List Char
  | '-' :: rest => (true, rest)
  | '+' :: rest => (false, rest)
  | rest => (false, rest)

/-- `int(text)`. -/
def parseInt (text : String) : Option ℤ :=
  (parseNat (splitSign (stripChars text.toList)).2).map fun value : ℕ ↦
    if (splitSign (stripChars text.toList)).1 then -(value : ℤ) else (value : ℤ)

/-- `str(number)` for an integer: its decimal text, or `none` beyond the limit on digits. -/
def formatInt (number : ℤ) : Option String :=
  if (Nat.toDigits 10 number.natAbs).length ≤ maxStrDigits then
    some (String.ofList ((if number < 0 then ['-'] else []) ++ Nat.toDigits 10 number.natAbs))
  else none

theorem isDigitRun_of_forall {chars : List Char} (hne : chars ≠ [])
    (hdigit : ∀ char ∈ chars, char.isDigit = true) : isDigitRun chars = true := by
  induction chars with
  | nil => exact absurd rfl hne
  | cons char rest ih =>
    have hchar := hdigit char (List.mem_cons_self ..)
    have hrest : ∀ other ∈ rest, other.isDigit = true := fun other hother ↦
      hdigit other (List.mem_cons_of_mem _ hother)
    cases rest with
    | nil => exact hchar
    | cons next rest =>
      have hnext : next ≠ '_' := by
        rintro rfl
        exact absurd (hrest '_' (List.mem_cons_self ..)) (by decide)
      rw [isDigitRun, hchar, ih (List.cons_ne_nil _ _) hrest, Bool.and_self]
      intro h
      exact hnext h

theorem digitsOf_eq_self {chars : List Char} (hdigit : ∀ char ∈ chars, char.isDigit = true) :
    digitsOf chars = chars := by
  refine List.filter_eq_self.mpr fun char hchar ↦ ?_
  have hne : char ≠ '_' := by
    rintro rfl
    exact absurd (hdigit '_' hchar) (by decide)
  simpa using hne

theorem isDigit_of_mem_toDigits {number : ℕ} {char : Char} (hchar : char ∈ Nat.toDigits 10 number) :
    char.isDigit = true :=
  Nat.isDigit_of_mem_toDigits (by decide) (by decide) hchar

/-- The digits of a number parse back to it, within the limit. -/
theorem parseNat_toDigits {number : ℕ}
    (hlimit : (Nat.toDigits 10 number).length ≤ maxStrDigits) :
    parseNat (Nat.toDigits 10 number) = some number := by
  have hdigits := digitsOf_eq_self fun char (hchar : char ∈ Nat.toDigits 10 number) ↦
    isDigit_of_mem_toDigits hchar
  rw [parseNat, hdigits, isDigitRun_of_forall Nat.toDigits_ne_nil fun _ ↦ isDigit_of_mem_toDigits,
    if_pos ⟨rfl, hlimit⟩, Nat.ofDigitChars_ten_toDigits]

theorem isSpace_of_isDigit {char : Char} (hdigit : char.isDigit = true) : isSpace char = false := by
  have hrange : 48 ≤ char.toNat ∧ char.toNat ≤ 57 := by
    simpa [Char.isDigit, Char.le_def, UInt32.le_iff_toNat_le] using hdigit
  simp only [isSpace, decide_eq_false_iff_not]
  omega

theorem splitSign_cons_of_isDigit {char : Char} (hchar : char.isDigit = true)
    (rest : List Char) : splitSign (char :: rest) = (false, char :: rest) := by
  unfold splitSign
  split
  · rename_i heq
    obtain ⟨rfl, -⟩ := List.cons_eq_cons.mp heq
    exact absurd hchar (by decide)
  · rename_i heq
    obtain ⟨rfl, -⟩ := List.cons_eq_cons.mp heq
    exact absurd hchar (by decide)
  · rfl

/-- Text that starts with a decimal number has no sign. -/
theorem splitSign_toDigits_append (number : ℕ) (rest : List Char) :
    splitSign (Nat.toDigits 10 number ++ rest) = (false, Nat.toDigits 10 number ++ rest) := by
  obtain ⟨first, others, hcons⟩ := List.exists_cons_of_ne_nil
    (Nat.toDigits_ne_nil (n := number) (b := 10))
  have hmem : first ∈ Nat.toDigits 10 number := by
    rw [hcons]
    exact List.mem_cons_self ..
  have hfirst : first.isDigit = true := isDigit_of_mem_toDigits hmem
  rw [hcons, List.cons_append, splitSign_cons_of_isDigit hfirst]

/-- What `str` writes for an integer, `int` reads back. -/
theorem parseInt_formatInt {number : ℤ} {text : String} (hformat : formatInt number = some text) :
    parseInt text = some number := by
  unfold formatInt at hformat
  by_cases hlimit : (Nat.toDigits 10 number.natAbs).length ≤ maxStrDigits
  · rw [if_pos hlimit, Option.some_inj] at hformat
    subst hformat
    have hdigit : ∀ char ∈ Nat.toDigits 10 number.natAbs, char.isDigit = true :=
      fun _ ↦ isDigit_of_mem_toDigits
    unfold parseInt
    rw [String.toList_ofList]
    by_cases hneg : number < 0
    · have hspace : ∀ char ∈ '-' :: Nat.toDigits 10 number.natAbs, isSpace char = false := by
        intro char hchar
        rcases List.mem_cons.mp hchar with rfl | hmem
        · decide
        · exact isSpace_of_isDigit (hdigit char hmem)
      rw [if_pos hneg, List.singleton_append, stripChars_eq_self hspace, splitSign,
        parseNat_toDigits hlimit, Option.map_some, if_pos rfl, Option.some_inj]
      omega
    · have hspace : ∀ char ∈ Nat.toDigits 10 number.natAbs, isSpace char = false :=
        fun char hchar ↦ isSpace_of_isDigit (hdigit char hchar)
      have hsign := splitSign_toDigits_append number.natAbs []
      rw [List.append_nil] at hsign
      rw [if_neg hneg, List.nil_append, stripChars_eq_self hspace, hsign, parseNat_toDigits hlimit,
        Option.map_some, if_neg Bool.false_ne_true, Option.some_inj]
      omega
  · rw [if_neg hlimit] at hformat
    exact absurd hformat (Option.some_ne_none text).symm

/-- The digits of a number, read back. -/
theorem parseInt_toDigits {number : ℕ} (hnumber : number < 10 ^ maxStrDigits) :
    parseInt (String.ofList (Nat.toDigits 10 number)) = some (number : ℤ) := by
  have hlength : (Nat.toDigits 10 number).length ≤ maxStrDigits :=
    (Nat.length_toDigits_le_iff (by decide) (by decide)).mpr hnumber
  refine parseInt_formatInt ?_
  rw [formatInt, Int.natAbs_natCast, if_pos hlength, if_neg (by omega), List.nil_append]

/-- The integer of an unsigned text is not negative. -/
theorem nonneg_of_parseInt {chars : List Char} (hdigit : ∀ char ∈ chars, char.isDigit = true)
    {number : ℤ} (hparse : parseInt (String.ofList chars) = some number) : 0 ≤ number := by
  have hsign : (splitSign chars).1 = false := by
    cases chars with
    | nil => rfl
    | cons char rest =>
      rw [splitSign_cons_of_isDigit (hdigit char (List.mem_cons_self ..))]
  rw [parseInt, String.toList_ofList, stripChars_eq_self fun char hchar ↦
    isSpace_of_isDigit (hdigit char hchar), hsign] at hparse
  obtain ⟨value, -, rfl⟩ := Option.map_eq_some_iff.mp hparse
  exact Int.natCast_nonneg value

/-- `str` writes an integer exactly when its magnitude is below the limit. -/
theorem formatInt_isSome_iff (number : ℤ) :
    (formatInt number).isSome = true ↔ number.natAbs < 10 ^ maxStrDigits := by
  rw [← Nat.length_toDigits_le_iff (by decide) (by decide : 0 < maxStrDigits), formatInt]
  by_cases hlimit : (Nat.toDigits 10 number.natAbs).length ≤ maxStrDigits <;> simp [hlimit]

/-! ### Floats -/

/-- A Python float: a finite number, or an infinity or NaN. -/
inductive PyFloat
  | finite (value : ℚ)
  | nonFinite
  deriving DecidableEq

/-- The magnitudes from which a number rounds to an infinite float. -/
def floatOverflow : ℚ := 2 ^ 1024 - 2 ^ 970

/-- The float of a rational number. -/
def toPyFloat (value : ℚ) : PyFloat :=
  if |value| < floatOverflow then PyFloat.finite value else PyFloat.nonFinite

/-- The characters of the digit groups of a float literal. -/
def isDigitOrUnderscore (char : Char) : Bool := char.isDigit || char = '_'

/-- A digit group of a float literal: nothing, or a run of digits. -/
def isDigitGroup (chars : List Char) : Bool := chars.isEmpty || isDigitRun chars

/-- The exponent of a float literal, behind its mantissa. -/
def parseExponent : List Char → Option ℤ
  | [] => some 0
  | 'e' :: rest =>
    if isDigitRun (splitSign rest).2 then
      let value := Nat.ofDigitChars 10 (digitsOf (splitSign rest).2) 0
      some (if (splitSign rest).1 then -(value : ℤ) else (value : ℤ))
    else none
  | _ => none

/-- The part of a float literal behind its integer digits: the fraction digits, and the rest. -/
def splitFraction : List Char → List Char × List Char
  | '.' :: rest => (rest.takeWhile isDigitOrUnderscore, rest.dropWhile isDigitOrUnderscore)
  | rest => ([], rest)

/-- The value of an unsigned float literal in lower case. -/
def parseUnsignedFloat (chars : List Char) : Option PyFloat :=
  if chars = "inf".toList ∨ chars = "infinity".toList ∨ chars = "nan".toList then
    some PyFloat.nonFinite
  else
    let whole := chars.takeWhile isDigitOrUnderscore
    let fraction := splitFraction (chars.dropWhile isDigitOrUnderscore)
    if isDigitGroup whole ∧ isDigitGroup fraction.1 ∧ ¬ (whole = [] ∧ fraction.1 = []) then
      (parseExponent fraction.2).map fun exponent : ℤ ↦
        toPyFloat ((Nat.ofDigitChars 10 (digitsOf whole ++ digitsOf fraction.1) 0 : ℚ) *
          (10 : ℚ) ^ (exponent - (digitsOf fraction.1).length))
    else none

/-- Negate a float. -/
def PyFloat.neg : PyFloat → PyFloat
  | .finite value => .finite (-value)
  | .nonFinite => .nonFinite

/-- `float(text)`. -/
def parseFloat (text : String) : Option PyFloat :=
  let chars := (stripChars text.toList).map Char.toLower
  (parseUnsignedFloat (splitSign chars).2).map fun value ↦
    if (splitSign chars).1 then value.neg else value

/-- Round to the nearest integer, ties to the even one. -/
def roundHalfEven (value : ℚ) : ℤ :=
  let below := value.floor
  let rest := value - below
  if rest < 1 / 2 then below
  else if 1 / 2 < rest then below + 1
  else if below % 2 = 0 then below
  else below + 1

/-- An integer is its own rounding. -/
@[simp] theorem roundHalfEven_intCast (number : ℤ) : roundHalfEven (number : ℚ) = number := by
  have hfloor : (number : ℚ).floor = number := Rat.floor_intCast number
  simp only [roundHalfEven, hfloor, sub_self]
  rw [if_pos (by norm_num)]

/-- A rounding is off by one half at most. -/
theorem abs_roundHalfEven_sub_le (value : ℚ) : |(roundHalfEven value : ℚ) - value| ≤ 1 / 2 := by
  have hbelow : (value.floor : ℚ) ≤ value := Rat.floor_le value
  have habove : value < value.floor + 1 := by exact_mod_cast Rat.lt_floor_add_one value
  rw [abs_le]
  simp only [roundHalfEven]
  split_ifs <;> push_cast <;> constructor <;> linarith

/-- The three decimal digits of a number below one thousand. -/
def threeDigits (number : ℕ) : List Char :=
  [(number / 100 % 10).digitChar, (number / 10 % 10).digitChar, (number % 10).digitChar]

/-- The number of thousandths nearest to the magnitude of a number. -/
def milli (value : ℚ) : ℕ := (roundHalfEven (|value| * 1000)).toNat

/-- `f"{value:.3f}"`. -/
def formatMilli (value : ℚ) : String :=
  String.ofList ((if value < 0 then ['-'] else []) ++
    (Nat.toDigits 10 (milli value / 1000) ++ '.' :: threeDigits (milli value)))

/-- The characters of a decimal text with a fraction. -/
def IsDecimalChar (char : Char) : Prop := char.isDigit = true ∨ char = '.' ∨ char = '-'

theorem IsDecimalChar.isSpace_eq_false {char : Char} (hchar : IsDecimalChar char) :
    isSpace char = false := by
  rcases hchar with hdigit | rfl | rfl
  · exact isSpace_of_isDigit hdigit
  · decide
  · decide

/-- Characters in front of the letters have no case. -/
theorem toLower_eq_self_of_le {char : Char} (hchar : char.toNat ≤ 0x40) : char.toLower = char := by
  have hupper : ¬ (char.val ≥ 'A'.val ∧ char.val ≤ 'Z'.val) := by
    rintro ⟨hlow, -⟩
    exact absurd (Nat.le_trans hlow hchar) (by decide)
  exact dif_neg hupper

theorem IsDecimalChar.toLower_eq_self {char : Char} (hchar : IsDecimalChar char) :
    char.toLower = char := by
  rcases hchar with hdigit | rfl | rfl
  · have hrange : 48 ≤ char.toNat ∧ char.toNat ≤ 57 := by
      simpa [Char.isDigit, Char.le_def, UInt32.le_iff_toNat_le] using hdigit
    exact toLower_eq_self_of_le (by omega)
  · decide
  · decide

theorem isDigit_digitChar : ∀ digit < 10, (Nat.digitChar digit).isDigit = true := by decide

theorem isDigit_of_mem_threeDigits {number : ℕ} {char : Char} (hchar : char ∈ threeDigits number) :
    char.isDigit = true := by
  simp only [threeDigits, List.mem_cons, List.not_mem_nil, or_false] at hchar
  rcases hchar with rfl | rfl | rfl <;> exact isDigit_digitChar _ (Nat.mod_lt _ (by decide))

/-- The digits in front of and behind the point of a number of thousandths give the number. -/
theorem ofDigitChars_milli (number : ℕ) :
    Nat.ofDigitChars 10 (Nat.toDigits 10 (number / 1000) ++ threeDigits number) 0 = number := by
  rw [Nat.ofDigitChars_append, Nat.ofDigitChars_ten_toDigits, threeDigits,
    Nat.ofDigitChars_cons_digitChar_of_lt_ten (Nat.mod_lt _ (by decide)),
    Nat.ofDigitChars_cons_digitChar_of_lt_ten (Nat.mod_lt _ (by decide)),
    Nat.ofDigitChars_cons_digitChar_of_lt_ten (Nat.mod_lt _ (by decide)), Nat.ofDigitChars_nil]
  omega

/-- The unsigned text of a number of thousandths, read as a float. -/
theorem parseUnsignedFloat_milli (number : ℕ) :
    parseUnsignedFloat (Nat.toDigits 10 (number / 1000) ++ '.' :: threeDigits number) =
      some (toPyFloat ((number : ℚ) / 1000)) := by
  have hwhole : ∀ char ∈ Nat.toDigits 10 (number / 1000), char.isDigit = true :=
    fun _ ↦ isDigit_of_mem_toDigits
  have hfraction : ∀ char ∈ threeDigits number, char.isDigit = true :=
    fun _ ↦ isDigit_of_mem_threeDigits
  have htake : (Nat.toDigits 10 (number / 1000) ++ '.' :: threeDigits number).takeWhile
      isDigitOrUnderscore = Nat.toDigits 10 (number / 1000) := by
    rw [List.takeWhile_append_of_pos fun char hchar ↦ by simp [isDigitOrUnderscore, hwhole _ hchar],
      List.takeWhile_cons_of_neg (by decide), List.append_nil]
  have hdrop : (Nat.toDigits 10 (number / 1000) ++ '.' :: threeDigits number).dropWhile
      isDigitOrUnderscore = '.' :: threeDigits number := by
    rw [List.dropWhile_append_of_pos fun char hchar ↦ by simp [isDigitOrUnderscore, hwhole _ hchar],
      List.dropWhile_cons_of_neg (by decide)]
  have hfractionTake : (threeDigits number).takeWhile isDigitOrUnderscore = threeDigits number :=
    List.takeWhile_eq_self_iff.mpr fun char hchar ↦ by
      simp [isDigitOrUnderscore, hfraction _ hchar]
  have hfractionDrop : (threeDigits number).dropWhile isDigitOrUnderscore = [] :=
    List.dropWhile_eq_nil_iff.mpr fun char hchar ↦ by
      simp [isDigitOrUnderscore, hfraction _ hchar]
  have hword : ∀ word : List Char, word.any Char.isDigit = false →
      Nat.toDigits 10 (number / 1000) ++ '.' :: threeDigits number ≠ word := by
    rintro _ hletters rfl
    obtain ⟨char, hchar⟩ := List.exists_mem_of_ne_nil _
      (Nat.toDigits_ne_nil (n := number / 1000) (b := 10))
    exact List.any_eq_false.mp hletters char (List.mem_append_left _ hchar) (hwhole char hchar)
  unfold parseUnsignedFloat
  rw [if_neg (by
    rintro (h | h | h) <;> exact hword _ (by decide) h)]
  simp only [htake, hdrop, splitFraction, hfractionTake, hfractionDrop, digitsOf_eq_self hwhole,
    digitsOf_eq_self hfraction, ofDigitChars_milli, parseExponent, Option.map_some]
  rw [if_pos ⟨by simp [isDigitGroup, isDigitRun_of_forall Nat.toDigits_ne_nil hwhole],
    by simp [isDigitGroup, isDigitRun_of_forall (by simp [threeDigits]) hfraction],
    by simp [threeDigits]⟩]
  have hlength : (threeDigits number).length = 3 := rfl
  rw [hlength]
  norm_num [zpow_neg, div_eq_mul_inv]

/-- What the format with three decimals writes, `float` reads back, rounded to thousandths. -/
theorem parseFloat_formatMilli (value : ℚ) :
    parseFloat (formatMilli value) =
      some (if value < 0 then (toPyFloat ((milli value : ℚ) / 1000)).neg
        else toPyFloat ((milli value : ℚ) / 1000)) := by
  have hunsigned : ∀ char ∈ Nat.toDigits 10 (milli value / 1000) ++
      '.' :: threeDigits (milli value), IsDecimalChar char := by
    intro char hchar
    rcases List.mem_append.mp hchar with hwhole | htail
    · exact Or.inl (isDigit_of_mem_toDigits hwhole)
    · rcases List.mem_cons.mp htail with rfl | hfraction
      · exact Or.inr (Or.inl rfl)
      · exact Or.inl (isDigit_of_mem_threeDigits hfraction)
  have hsigned : ∀ char ∈ (if value < 0 then ['-'] else []) ++
      (Nat.toDigits 10 (milli value / 1000) ++ '.' :: threeDigits (milli value)),
      IsDecimalChar char := by
    intro char hchar
    rcases List.mem_append.mp hchar with hsign | hrest
    · by_cases hneg : value < 0
      · rw [if_pos hneg, List.mem_singleton] at hsign
        exact Or.inr (Or.inr hsign)
      · rw [if_neg hneg] at hsign
        exact absurd hsign List.not_mem_nil
    · exact hunsigned char hrest
  have hlower : ∀ chars : List Char, (∀ char ∈ chars, IsDecimalChar char) →
      chars.map Char.toLower = chars := fun chars hchars ↦
    (List.map_congr_left fun char hchar ↦ (hchars char hchar).toLower_eq_self).trans
      (List.map_id' chars)
  unfold parseFloat formatMilli
  rw [String.toList_ofList, stripChars_eq_self fun char hchar ↦
    (hsigned char hchar).isSpace_eq_false, hlower _ hsigned]
  by_cases hneg : value < 0
  · simp only [if_pos hneg, List.singleton_append, splitSign, parseUnsignedFloat_milli,
      Option.map_some, ↓reduceIte]
  · simp only [if_neg hneg, List.nil_append, splitSign_toDigits_append, parseUnsignedFloat_milli,
      Option.map_some, Bool.false_eq_true, ↓reduceIte]

/-! ### Numeric characters -/

/-- `[\d\.]`, the characters of a number without a sign. -/
def isNumeric (char : Char) : Bool := char.isDigit || char = '.'

theorem isNumeric_of_isSpace {char : Char} (hspace : isSpace char = true) :
    isNumeric char = false := by
  rw [isNumeric, Bool.or_eq_false_iff]
  refine ⟨?_, decide_eq_false ?_⟩
  · by_contra hdigit
    rw [isSpace_of_isDigit (Bool.eq_true_of_not_eq_false hdigit)] at hspace
    exact Bool.false_ne_true hspace
  · rintro rfl
    exact absurd hspace (by decide)

theorem isSpace_of_isNumeric {char : Char} (hnumeric : isNumeric char = true) :
    isSpace char = false := by
  by_contra hspace
  rw [isNumeric_of_isSpace (Bool.eq_true_of_not_eq_false hspace)] at hnumeric
  exact Bool.false_ne_true hnumeric

/-- A number of thousandths is its own rounding. -/
theorem milli_div (number : ℕ) : milli ((number : ℚ) / 1000) = number := by
  have habs : |(number : ℚ) / 1000| * 1000 = ((number : ℤ) : ℚ) := by
    rw [abs_of_nonneg (by positivity), div_mul_cancel₀ _ (by norm_num), Int.cast_natCast]
  rw [milli, habs, roundHalfEven_intCast, Int.toNat_natCast]

theorem toList_formatMilli {value : ℚ} (hvalue : 0 ≤ value) :
    (formatMilli value).toList =
      Nat.toDigits 10 (milli value / 1000) ++ '.' :: threeDigits (milli value) := by
  rw [formatMilli, String.toList_ofList, if_neg (not_lt.mpr hvalue), List.nil_append]

theorem isNumeric_of_mem_formatMilli {value : ℚ} (hvalue : 0 ≤ value) {char : Char}
    (hchar : char ∈ (formatMilli value).toList) : isNumeric char = true := by
  rw [toList_formatMilli hvalue, List.mem_append, List.mem_cons] at hchar
  rcases hchar with hwhole | rfl | hfraction
  · rw [isNumeric, isDigit_of_mem_toDigits hwhole, Bool.true_or]
  · decide
  · rw [isNumeric, isDigit_of_mem_threeDigits hfraction, Bool.true_or]

theorem formatMilli_ne_nil {value : ℚ} (hvalue : 0 ≤ value) : (formatMilli value).toList ≠ [] := by
  rw [toList_formatMilli hvalue]
  exact List.append_ne_nil_of_right_ne_nil _ (List.cons_ne_nil _ _)

end Lnmp.Foundation.PythonText
