import Lnmp.Foundation.IpAddress
import Lnmp.Foundation.JsonText
import Lnmp.Foundation.PythonText

/-!
# Scanning JSON texts

`scanstring` and the number pattern of Python's `json.decoder` and `json.scanner`. An escaped high
surrogate with an escaped low one behind it stands for one code point. A text that is read has no
surrogates that are not escaped.

What `json.dumps` writes for a string is read back unless a high surrogate of the string has a low
one directly behind it (`scanString_escape`). A number ends where the text goes on with anything
that is no part of one (`scanNumber_append`).
-/

set_option autoImplicit false
set_option relaxedAutoImplicit false

namespace Lnmp.Foundation.JsonScan

open IpAddress JsonText PythonText

/-- What is checked of each character of a list. -/
theorem forall_mem_of_all {property : Char → Prop} [DecidablePred property] {chars : List Char}
    (hall : (chars.all fun char ↦ property char) = true) : ∀ char ∈ chars, property char :=
  fun char hchar ↦ of_decide_eq_true (List.all_eq_true.mp hall char hchar)

/-! ### Strings -/

/-- The value of four hexadecimal digits. -/
def hex4? (first second third fourth : Char) : Option ℕ :=
  match hexValue? first, hexValue? second, hexValue? third, hexValue? fourth with
  | some first, some second, some third, some fourth =>
    some (4096 * first + 256 * second + 16 * third + fourth)
  | _, _, _, _ => none

/-- The code point of a number. -/
def codeOf (value : ℕ) : CodePoint := ⟨value % 0x110000, Nat.mod_lt value (Nat.zero_lt_succ _)⟩

/-- `BACKSLASH`: what a letter behind a backslash stands for. -/
def unescape? (letter : Char) : Option CodePoint :=
  if letter = '"' then some (codeOf 0x22)
  else if letter = '\\' then some (codeOf 0x5C)
  else if letter = '/' then some (codeOf 0x2F)
  else if letter = 'b' then some (codeOf 0x08)
  else if letter = 'f' then some (codeOf 0x0C)
  else if letter = 'n' then some (codeOf 0x0A)
  else if letter = 'r' then some (codeOf 0x0D)
  else if letter = 't' then some (codeOf 0x09)
  else none

/-- A code point in front of what is read behind it. -/
def withCode (code : CodePoint) (read : PyString × List Char) : PyString × List Char :=
  (code :: read.1, read.2)

/-- The text behind an opening quote, up to the closing one: characters, and what each escape stands
for. -/
def scanUnits : List Char → Option (PyString × List Char)
  | [] => none
  | '"' :: rest => some ([], rest)
  | '\\' :: 'u' :: first :: second :: third :: fourth :: rest =>
    match hex4? first second third fourth with
    | some unit => (scanUnits rest).map (withCode (codeOf unit))
    | none => none
  | '\\' :: letter :: rest =>
    match unescape? letter with
    | some code => (scanUnits rest).map (withCode code)
    | none => none
  | char :: rest =>
    if char.toNat < 0x20 then none else (scanUnits rest).map (withCode (codeOf char.toNat))

/-- A high surrogate. -/
def isHighSurrogate (code : CodePoint) : Bool := 0xD800 ≤ code.val && code.val ≤ 0xDBFF

/-- A low surrogate. -/
def isLowSurrogate (code : CodePoint) : Bool := 0xDC00 ≤ code.val && code.val ≤ 0xDFFF

/-- The code point of a pair of surrogates. -/
def joinPair (high low : CodePoint) : CodePoint :=
  codeOf (0x10000 + (high.val - 0xD800) * 0x400 + (low.val - 0xDC00))

/-- Pairs of surrogates as the code points that they stand for. -/
def joinSurrogates : PyString → PyString
  | [] => []
  | [code] => [code]
  | high :: low :: rest =>
    if isHighSurrogate high && isLowSurrogate low then joinPair high low :: joinSurrogates rest
    else high :: joinSurrogates (low :: rest)

/-- `scanstring`, behind the opening quote. -/
def scanString (text : List Char) : Option (PyString × List Char) :=
  (scanUnits text).map fun read ↦ (joinSurrogates read.1, read.2)

example : scanString "a\\n\\ud83d\\ude00\" rest".toList =
    some ([0x61, 0x0A, 0x1F600], " rest".toList) := by decide

/-- No high surrogate has a low one directly behind it, as in every string that is read. -/
def IsDecoded (text : PyString) : Prop :=
  text.IsChain fun code next ↦ ¬ (isHighSurrogate code = true ∧ isLowSurrogate next = true)

/-- What the escape of a code point is read as at first. -/
def escapeUnits (code : CodePoint) : PyString :=
  if code.val < 0x10000 then [code]
  else [codeOf (0xD800 + (code.val - 0x10000) / 0x400),
    codeOf (0xDC00 + (code.val - 0x10000) % 0x400)]

section Strings

variable {code : CodePoint} {text : PyString} {rest : List Char}

theorem hexValue?_digitChar : ∀ digit < 16, hexValue? (Nat.digitChar digit) = some digit := by
  decide

/-- The escape of sixteen bits is read as them. -/
theorem scanUnits_unicodeEscape_append {unit : ℕ} (hunit : unit < 0x10000) (rest : List Char) :
    scanUnits (unicodeEscape unit ++ rest) = (scanUnits rest).map (withCode (codeOf unit)) := by
  have hdigit : ∀ value, hexValue? (Nat.digitChar (value % 16)) = some (value % 16) :=
    fun value ↦ hexValue?_digitChar _ (Nat.mod_lt _ (by decide))
  have hvalue : 4096 * (unit / 4096 % 16) + 256 * (unit / 256 % 16) + 16 * (unit / 16 % 16) +
      unit % 16 = unit := by omega
  simp only [unicodeEscape, List.cons_append, List.nil_append, scanUnits, hex4?, hdigit, hvalue]

theorem scanUnits_shortEscape {letter : Char} (hletter : shortEscape? code = some letter)
    (rest : List Char) :
    scanUnits ('\\' :: letter :: rest) = (scanUnits rest).map (withCode code) := by
  unfold shortEscape? at hletter
  split_ifs at hletter with hquote hslash hback hfeed hline hreturn htab
  all_goals
    obtain rfl := Option.some.inj hletter
    subst_vars
    rfl

/-- A character that is neither a quote nor a backslash nor a control character is read as it
is. -/
theorem scanUnits_cons {char : Char} (hquote : char ≠ '"') (hslash : char ≠ '\\')
    (hchar : 0x20 ≤ char.toNat) (rest : List Char) :
    scanUnits (char :: rest) = (scanUnits rest).map (withCode (codeOf char.toNat)) := by
  rw [scanUnits.eq_def]
  split
  · rename_i heq
    exact absurd heq (List.cons_ne_nil _ _)
  · rename_i heq
    exact absurd (List.cons.inj heq).1 hquote
  · rename_i heq
    exact absurd (List.cons.inj heq).1 hslash
  · rename_i heq
    exact absurd (List.cons.inj heq).1 hslash
  · rename_i heq
    obtain ⟨rfl, rfl⟩ := List.cons.inj heq
    exact if_neg (by omega)

theorem codeOf_val (code : CodePoint) : codeOf code.val = code := Fin.ext (Nat.mod_eq_of_lt code.2)

/-- The code points in front of what is read behind them. -/
def withCodes (codes : PyString) (read : PyString × List Char) : PyString × List Char :=
  (codes ++ read.1, read.2)

/-- The escape of a code point is read as its units. -/
theorem scanUnits_escape_append (code : CodePoint) (rest : List Char) :
    scanUnits (escape code ++ rest) = (scanUnits rest).map (withCodes (escapeUnits code)) := by
  have hcode := code.2
  have hsmall : code.val < 0x10000 → withCodes (escapeUnits code) = withCode code := fun hless ↦ by
    rw [escapeUnits, if_pos hless]
    rfl
  rw [escape]
  cases hshort : shortEscape? code with
  | some letter =>
    have hless : code.val < 0x10000 := by
      unfold shortEscape? at hshort
      split_ifs at hshort <;> (subst_vars; decide)
    exact (scanUnits_shortEscape hshort rest).trans (by rw [hsmall hless])
  | none =>
    dsimp only
    split_ifs with hprintable hless
    · have hvalue : (Char.ofNat code.val).toNat = code.val := by
        rw [Char.ofNat, dif_pos (Or.inl (by omega))]
        rfl
      have hne : ∀ char : Char, (shortEscape? (codeOf char.toNat)).isSome = true →
          Char.ofNat code.val ≠ char := by
        rintro char hchar rfl
        rw [hvalue, codeOf_val, hshort] at hchar
        exact absurd hchar Bool.false_ne_true
      rw [List.singleton_append, scanUnits_cons (hne '"' (by decide)) (hne '\\' (by decide))
        (by omega), hvalue, codeOf_val, hsmall (by omega)]
    · rw [scanUnits_unicodeEscape_append hless, codeOf_val, hsmall hless]
    · rw [List.append_assoc, scanUnits_unicodeEscape_append (by omega),
        scanUnits_unicodeEscape_append (by omega), Option.map_map, escapeUnits, if_neg hless]
      rfl

/-- What stands between the quotes is read up to the closing one. -/
theorem scanUnits_flatMap_escape (text : PyString) (rest : List Char) :
    scanUnits (text.flatMap escape ++ '"' :: rest) = some (text.flatMap escapeUnits, rest) := by
  induction text with
  | nil => rfl
  | cons code text ih =>
    rw [List.flatMap_cons, List.append_assoc, scanUnits_escape_append, ih, List.flatMap_cons]
    rfl

/-- The surrogates of a supplementary code point are joined to it again. -/
theorem joinSurrogates_escapeUnits (hcode : 0x10000 ≤ code.val) (units : PyString) :
    joinSurrogates (escapeUnits code ++ units) = code :: joinSurrogates units := by
  have hlt := code.2
  have hhigh : (codeOf (0xD800 + (code.val - 0x10000) / 0x400)).val =
      0xD800 + (code.val - 0x10000) / 0x400 := Nat.mod_eq_of_lt (by omega)
  have hlow : (codeOf (0xDC00 + (code.val - 0x10000) % 0x400)).val =
      0xDC00 + (code.val - 0x10000) % 0x400 := Nat.mod_eq_of_lt (by omega)
  have hpair : joinPair (codeOf (0xD800 + (code.val - 0x10000) / 0x400))
      (codeOf (0xDC00 + (code.val - 0x10000) % 0x400)) = code := by
    have hvalue : 0x10000 + (0xD800 + (code.val - 0x10000) / 0x400 - 0xD800) * 0x400 +
        (0xDC00 + (code.val - 0x10000) % 0x400 - 0xDC00) = code.val := by omega
    rw [joinPair, hhigh, hlow, hvalue, codeOf_val]
  have hsurrogates : (isHighSurrogate (codeOf (0xD800 + (code.val - 0x10000) / 0x400)) &&
      isLowSurrogate (codeOf (0xDC00 + (code.val - 0x10000) % 0x400))) = true := by
    simp only [isHighSurrogate, isLowSurrogate, hhigh, hlow, Bool.and_eq_true, decide_eq_true_eq]
    omega
  rw [escapeUnits, if_neg (by omega), List.cons_append, List.cons_append, List.nil_append,
    joinSurrogates, if_pos hsurrogates, hpair]

/-- A code point that is not joined to the next unit stays. -/
theorem joinSurrogates_cons {units : PyString}
    (hapart : ∀ next ∈ units.head?, ¬ (isHighSurrogate code = true ∧ isLowSurrogate next = true)) :
    joinSurrogates (code :: units) = code :: joinSurrogates units := by
  cases units with
  | nil => rfl
  | cons next units =>
    rw [joinSurrogates, if_neg fun hboth ↦ hapart next rfl (Bool.and_eq_true_iff.mp hboth)]

/-- The units of a decoded string are joined to it again. -/
theorem joinSurrogates_flatMap_escapeUnits (htext : IsDecoded text) :
    joinSurrogates (text.flatMap escapeUnits) = text := by
  induction text with
  | nil => rfl
  | cons code text ih =>
    rw [List.flatMap_cons]
    have hrest := ih htext.tail
    by_cases hsmall : code.val < 0x10000
    · rw [escapeUnits, if_pos hsmall, List.singleton_append, joinSurrogates_cons, hrest]
      intro next hnext hboth
      cases text with
      | nil => exact absurd hnext (Option.not_mem_none _)
      | cons other text =>
        rw [List.flatMap_cons, escapeUnits] at hnext
        split_ifs at hnext with hother
        · obtain rfl := Option.some.inj hnext
          exact htext.rel hboth
        · -- the first unit of a supplementary code point is no low surrogate
          obtain rfl := Option.some.inj hnext
          have hlt := other.2
          have hhigh : (codeOf (0xD800 + (other.val - 0x10000) / 0x400)).val =
              0xD800 + (other.val - 0x10000) / 0x400 := Nat.mod_eq_of_lt (by omega)
          have hlow := hboth.2
          simp only [isLowSurrogate, hhigh, Bool.and_eq_true, decide_eq_true_eq] at hlow
          omega
    · rw [joinSurrogates_escapeUnits (by omega), hrest]

/-- What is written for a decoded string is read back. -/
theorem scanString_escape (htext : IsDecoded text) (rest : List Char) :
    scanString (text.flatMap escape ++ '"' :: rest) = some (text, rest) := by
  rw [scanString, scanUnits_flatMap_escape, Option.map_some,
    joinSurrogates_flatMap_escapeUnits htext]

end Strings

/-! ### Numbers -/

/-- A sign at the start of a text, and what stands behind it. -/
def takeSign (signs : List Char) (text : List Char) : List Char × List Char :=
  match text with
  | [] => ([], [])
  | char :: rest => if char ∈ signs then ([char], rest) else ([], char :: rest)

/-- The digits at the start of a text, and what stands behind them. -/
def takeDigits (text : List Char) : List Char × List Char :=
  (text.takeWhile Char.isDigit, text.dropWhile Char.isDigit)

/-- `0|[1-9][0-9]*`. -/
def scanInteger (text : List Char) : Option (List Char × List Char) :=
  match text with
  | [] => none
  | char :: rest =>
    if char = '0' then some (['0'], rest)
    else if char.isDigit then some (takeDigits (char :: rest))
    else none

/-- `(\.[0-9]+)?`. -/
def scanFraction (text : List Char) : List Char × List Char :=
  match text with
  | [] => ([], [])
  | char :: rest =>
    if char = '.' ∧ (takeDigits rest).1 ≠ [] then (char :: (takeDigits rest).1, (takeDigits rest).2)
    else ([], char :: rest)

/-- `([eE][-+]?[0-9]+)?`. -/
def scanExponent (text : List Char) : List Char × List Char :=
  match text with
  | [] => ([], [])
  | char :: rest =>
    let sign := takeSign ['-', '+'] rest
    if char ∈ ['e', 'E'] ∧ (takeDigits sign.2).1 ≠ [] then
      (char :: (sign.1 ++ (takeDigits sign.2).1), (takeDigits sign.2).2)
    else ([], char :: rest)

/-- A number at the start of a text, whether it has a fraction or an exponent, and what stands
behind it. -/
def scanNumber (text : List Char) : Option (List Char × Bool × List Char) :=
  let sign := takeSign ['-'] text
  (scanInteger sign.2).map fun integer ↦
    let fraction := scanFraction integer.2
    let exponent := scanExponent fraction.2
    (sign.1 ++ integer.1 ++ fraction.1 ++ exponent.1,
      !(fraction.1.isEmpty && exponent.1.isEmpty), exponent.2)

example : scanNumber "-1.5e+07, 2".toList = some ("-1.5e+07".toList, true, ", 2".toList) := by
  decide

/-- A character that can stand in a number. -/
def isNumberChar (char : Char) : Bool := char.isDigit || char ∈ ['-', '+', '.', 'e', 'E']

/-- The text does not go on with a character of a number. -/
def EndsNumber (rest : List Char) : Prop := ∀ char ∈ rest.head?, isNumberChar char = false

section Numbers

variable {text rest : List Char}

theorem EndsNumber.isDigit (hrest : EndsNumber rest) : ∀ char ∈ rest.head?, char.isDigit = false :=
  fun char hchar ↦ (Bool.or_eq_false_iff.mp (hrest char hchar)).1

theorem EndsNumber.not_mem (hrest : EndsNumber rest) {char : Char} (hchar : char ∈ rest.head?) :
    char ∉ ['-', '+', '.', 'e', 'E'] :=
  of_decide_eq_false (Bool.or_eq_false_iff.mp (hrest char hchar)).2

theorem takeSign_append (hrest : EndsNumber rest) {signs : List Char}
    (hsigns : signs ⊆ ['-', '+', '.', 'e', 'E']) (text : List Char) :
    takeSign signs (text ++ rest) = ((takeSign signs text).1, (takeSign signs text).2 ++ rest) := by
  cases text with
  | nil =>
    cases rest with
    | nil => rfl
    | cons char rest => exact if_neg fun hmem ↦ hrest.not_mem rfl (hsigns hmem)
  | cons char text =>
    rw [List.cons_append, takeSign, takeSign]
    split_ifs <;> rfl

theorem takeDigits_append (hrest : EndsNumber rest) (text : List Char) :
    takeDigits (text ++ rest) = ((takeDigits text).1, (takeDigits text).2 ++ rest) := by
  have hnone : rest.takeWhile Char.isDigit = [] ∧ rest.dropWhile Char.isDigit = rest := by
    cases rest with
    | nil => exact ⟨rfl, rfl⟩
    | cons char rest =>
      have hchar := hrest.isDigit char rfl
      exact ⟨List.takeWhile_cons_of_neg (by simp [hchar]),
        List.dropWhile_cons_of_neg (by simp [hchar])⟩
  rw [takeDigits, takeDigits]
  induction text with
  | nil => exact Prod.ext hnone.1 hnone.2
  | cons char text ih =>
    obtain ⟨htake, hdrop⟩ := Prod.mk.inj ih
    rw [List.cons_append, List.takeWhile_cons, List.dropWhile_cons, List.takeWhile_cons,
      List.dropWhile_cons]
    split_ifs
    · rw [htake, hdrop]
    · rfl

theorem scanInteger_append (hrest : EndsNumber rest) (text : List Char) :
    scanInteger (text ++ rest) =
      (scanInteger text).map fun integer ↦ (integer.1, integer.2 ++ rest) := by
  cases text with
  | nil =>
    cases rest with
    | nil => rfl
    | cons char rest =>
      have hdigit := hrest.isDigit char rfl
      have hzero : char ≠ '0' := by
        rintro rfl
        exact absurd hdigit (by decide)
      have hnone : scanInteger (char :: rest) = none := by
        rw [scanInteger, if_neg hzero, if_neg (by simp [hdigit])]
      exact hnone
  | cons char text =>
    have hdigits := takeDigits_append hrest (char :: text)
    rw [List.cons_append] at hdigits ⊢
    rw [scanInteger, scanInteger, hdigits]
    split_ifs <;> rfl

theorem scanFraction_append (hrest : EndsNumber rest) (text : List Char) :
    scanFraction (text ++ rest) = ((scanFraction text).1, (scanFraction text).2 ++ rest) := by
  cases text with
  | nil =>
    cases rest with
    | nil => rfl
    | cons char rest =>
      refine if_neg fun hboth ↦ hrest.not_mem rfl ?_
      rw [hboth.1]
      decide
  | cons char text =>
    rw [List.cons_append, scanFraction, scanFraction, takeDigits_append hrest]
    dsimp only
    split_ifs <;> rfl

theorem scanExponent_append (hrest : EndsNumber rest) (text : List Char) :
    scanExponent (text ++ rest) = ((scanExponent text).1, (scanExponent text).2 ++ rest) := by
  cases text with
  | nil =>
    cases rest with
    | nil => rfl
    | cons char rest =>
      have hmarks : ['e', 'E'] ⊆ ['-', '+', '.', 'e', 'E'] := by decide
      exact if_neg fun hboth ↦ hrest.not_mem rfl (hmarks hboth.1)
  | cons char text =>
    rw [List.cons_append, scanExponent, scanExponent,
      takeSign_append hrest (by decide : ['-', '+'] ⊆ ['-', '+', '.', 'e', 'E'])]
    dsimp only
    rw [takeDigits_append hrest]
    dsimp only
    split_ifs <;> rfl

/-- A number ends where the text does not go on with a character of a number. -/
theorem scanNumber_append (hrest : EndsNumber rest) (text : List Char) :
    scanNumber (text ++ rest) =
      (scanNumber text).map fun number ↦ (number.1, number.2.1, number.2.2 ++ rest) := by
  rw [scanNumber, scanNumber, takeSign_append hrest (by decide : ['-'] ⊆ ['-', '+', '.', 'e', 'E'])]
  dsimp only
  rw [scanInteger_append hrest, Option.map_map, Option.map_map]
  refine congrArg (fun change ↦ Option.map change _) (funext fun integer ↦ ?_)
  simp only [Function.comp_apply, scanFraction_append hrest, scanExponent_append hrest]

/-- The digits of a number have no zero in front. -/
theorem head?_toDigits_ne {number : ℕ} (hnumber : 0 < number) :
    (Nat.toDigits 10 number).head? ≠ some '0' := by
  induction number using Nat.strong_induction_on with
  | _ number ih =>
    rcases lt_or_ge number 10 with hless | hge
    · have hdigit : ∀ digit < 10, 0 < digit → Nat.digitChar digit ≠ '0' := by decide
      rw [Nat.toDigits_of_lt_base hless]
      exact fun hzero ↦ hdigit number hless hnumber (Option.some.inj hzero)
    · rw [Nat.toDigits_of_base_le (by decide) hge,
        List.head?_append_of_ne_nil _ Nat.toDigits_ne_nil]
      exact ih _ (Nat.div_lt_self hnumber (by decide)) (Nat.div_pos hge (by decide))

theorem scanInteger_toDigits (number : ℕ) :
    scanInteger (Nat.toDigits 10 number) = some (Nat.toDigits 10 number, []) := by
  rcases Nat.eq_zero_or_pos number with rfl | hpos
  · decide
  · have hdigit : ∀ char ∈ Nat.toDigits 10 number, char.isDigit = true :=
      fun char hchar ↦ isDigit_of_mem_toDigits hchar
    have hhead := head?_toDigits_ne hpos
    obtain ⟨char, rest, hdigits⟩ := List.exists_cons_of_ne_nil
      (Nat.toDigits_ne_nil (n := number) (b := 10))
    rw [hdigits] at hdigit hhead ⊢
    rw [scanInteger, if_neg fun hzero ↦ hhead (congrArg some hzero),
      if_pos (hdigit char (List.mem_cons_self ..)), takeDigits,
      List.takeWhile_eq_self_iff.mpr hdigit, List.dropWhile_eq_nil_iff.mpr hdigit]

/-- The text of an integer is scanned as a whole. -/
theorem scanNumber_formatInt {number : ℤ} {text : String} (htext : formatInt number = some text) :
    scanNumber text.toList = some (text.toList, false, []) := by
  rw [formatInt] at htext
  split_ifs at htext with hlimit hneg
  · obtain rfl := Option.some.inj htext
    rw [String.toList_ofList, List.singleton_append, scanNumber, takeSign, if_pos (by decide)]
    dsimp only
    rw [scanInteger_toDigits]
    simp [scanFraction, scanExponent]
  · obtain rfl := Option.some.inj htext
    obtain ⟨char, rest, hdigits⟩ := List.exists_cons_of_ne_nil
      (Nat.toDigits_ne_nil (n := number.natAbs) (b := 10))
    have hsign : takeSign ['-'] (Nat.toDigits 10 number.natAbs) =
        ([], Nat.toDigits 10 number.natAbs) := by
      have hchar : char.isDigit = true := isDigit_of_mem_toDigits
        (hdigits ▸ List.mem_cons_self ..)
      rw [hdigits, takeSign, if_neg]
      intro hmem
      rw [List.mem_singleton.mp hmem] at hchar
      exact absurd hchar (by decide)
    rw [String.toList_ofList, List.nil_append, scanNumber, hsign]
    dsimp only
    rw [scanInteger_toDigits]
    simp [scanFraction, scanExponent]

end Numbers

end Lnmp.Foundation.JsonScan
