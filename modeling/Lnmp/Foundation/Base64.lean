import Mathlib.Algebra.BigOperators.Ring.Finset

/-!
# Base 64

`b64encode` and `b64decode` of Python's `base64`. The decoder leaves out characters that are no
digits, stops at a padding that fills up its group, and refuses a group that is not full
(`binascii.a2b_base64`).

An encoded text is decoded to its bytes (`b64decode_b64encode`), and consists of digits and padding
(`exists_digit64_of_mem`).
-/

set_option autoImplicit false
set_option relaxedAutoImplicit false

namespace Lnmp.Foundation.Base64

/-! ### Digits -/

/-- The digit of a value below 64: letters, ten digits, a plus and a slash. -/
def digit64 (value : ℕ) : Char :=
  if value < 26 then Char.ofNat (value + 65)
  else if value < 52 then Char.ofNat (value + 71)
  else if value < 62 then Char.ofNat (value - 4)
  else if value = 62 then '+'
  else '/'

/-- The value of a digit. -/
def value64? (char : Char) : Option ℕ :=
  if char.isUpper then some (char.toNat - 65)
  else if char.isLower then some (char.toNat - 71)
  else if char.isDigit then some (char.toNat + 4)
  else if char = '+' then some 62
  else if char = '/' then some 63
  else none

theorem value64?_digit64 : ∀ value < 64, value64? (digit64 value) = some value := by decide

theorem digit64_ascii : ∀ value < 64, (digit64 value).toNat < 0x80 ∧ digit64 value ≠ '=' := by
  decide

/-! ### Encoding -/

/-- `base64.b64encode`. -/
def b64encode : List UInt8 → List Char
  | [] => []
  | [a] => [digit64 (a.toNat / 4), digit64 (a.toNat % 4 * 16), '=', '=']
  | [a, b] =>
    [digit64 (a.toNat / 4), digit64 (a.toNat % 4 * 16 + b.toNat / 16), digit64 (b.toNat % 16 * 4),
      '=']
  | a :: b :: c :: rest =>
    digit64 (a.toNat / 4) :: digit64 (a.toNat % 4 * 16 + b.toNat / 16) ::
      digit64 (b.toNat % 16 * 4 + c.toNat / 64) :: digit64 (c.toNat % 64) :: b64encode rest

/-! ### Decoding -/

/-- The loop of `a2b_base64`: the place in the group of four, the bits that are left from the
character in front, and the number of padding characters in a row. -/
def a2bLoop : ℕ → ℕ → ℕ → List Char → Option (List UInt8)
  | quadPos, _, _, [] => if quadPos = 0 then some [] else none
  | quadPos, leftchar, pads, char :: rest =>
    if char = '=' then
      if 2 ≤ quadPos then
        if 4 ≤ quadPos + (pads + 1) then some [] else a2bLoop quadPos leftchar (pads + 1) rest
      else a2bLoop quadPos leftchar pads rest
    else
      match value64? char with
      | none => a2bLoop quadPos leftchar pads rest
      | some value =>
        match quadPos with
        | 0 => a2bLoop 1 value 0 rest
        | 1 => (a2bLoop 2 (value % 16) 0 rest).map (UInt8.ofNat (leftchar * 4 + value / 16) :: ·)
        | 2 => (a2bLoop 3 (value % 4) 0 rest).map (UInt8.ofNat (leftchar * 16 + value / 4) :: ·)
        | _ => (a2bLoop 0 0 0 rest).map (UInt8.ofNat (leftchar * 64 + value) :: ·)

/-- `base64.b64decode` of a text, `none` where it raises an error. -/
def b64decode (text : List Char) : Option (List UInt8) :=
  if text.all fun char ↦ char.toNat < 0x80 then a2bLoop 0 0 0 text else none

example : b64decode "TG5\nt=cA==".toList = some [76, 110, 109, 112] := by decide

example : b64decode "TG5tc".toList = none := by decide

/-! ### Round trip -/

section RoundTrip

variable {value leftchar pads : ℕ} {rest : List Char}

theorem a2bLoop_first (hvalue : value < 64) :
    a2bLoop 0 leftchar pads (digit64 value :: rest) = a2bLoop 1 value 0 rest := by
  rw [a2bLoop, if_neg (digit64_ascii value hvalue).2, value64?_digit64 value hvalue]
  rfl

theorem a2bLoop_second (hvalue : value < 64) :
    a2bLoop 1 leftchar pads (digit64 value :: rest) =
      (a2bLoop 2 (value % 16) 0 rest).map (UInt8.ofNat (leftchar * 4 + value / 16) :: ·) := by
  rw [a2bLoop, if_neg (digit64_ascii value hvalue).2, value64?_digit64 value hvalue]
  rfl

theorem a2bLoop_third (hvalue : value < 64) :
    a2bLoop 2 leftchar pads (digit64 value :: rest) =
      (a2bLoop 3 (value % 4) 0 rest).map (UInt8.ofNat (leftchar * 16 + value / 4) :: ·) := by
  rw [a2bLoop, if_neg (digit64_ascii value hvalue).2, value64?_digit64 value hvalue]
  rfl

theorem a2bLoop_fourth (hvalue : value < 64) :
    a2bLoop 3 leftchar pads (digit64 value :: rest) =
      (a2bLoop 0 0 0 rest).map (UInt8.ofNat (leftchar * 64 + value) :: ·) := by
  rw [a2bLoop, if_neg (digit64_ascii value hvalue).2, value64?_digit64 value hvalue]
  rfl

theorem ofNat_eq_of_eq (byte : UInt8) {number : ℕ} (hnumber : number = byte.toNat) :
    UInt8.ofNat number = byte := by rw [hnumber, UInt8.ofNat_toNat]

/-- The groups of an encoded text are decoded one after the other. -/
theorem a2bLoop_b64encode (bytes : List UInt8) : a2bLoop 0 0 0 (b64encode bytes) = some bytes := by
  induction bytes using b64encode.induct with
  | case1 => rfl
  | case2 a =>
    have ha := a.toNat_lt
    have hpadding : ∀ left, a2bLoop 2 left 0 ['=', '='] = some [] := fun _ ↦ rfl
    rw [b64encode, a2bLoop_first (by omega), a2bLoop_second (by omega), hpadding, Option.map_some,
      ofNat_eq_of_eq a (by omega)]
  | case3 a b =>
    have ha := a.toNat_lt
    have hb := b.toNat_lt
    have hpadding : ∀ left, a2bLoop 3 left 0 ['='] = some [] := fun _ ↦ rfl
    rw [b64encode, a2bLoop_first (by omega), a2bLoop_second (by omega), a2bLoop_third (by omega),
      hpadding, Option.map_some, Option.map_some, ofNat_eq_of_eq a (by omega),
      ofNat_eq_of_eq b (by omega)]
  | case4 a b c rest ih =>
    have ha := a.toNat_lt
    have hb := b.toNat_lt
    have hc := c.toNat_lt
    rw [b64encode, a2bLoop_first (by omega), a2bLoop_second (by omega), a2bLoop_third (by omega),
      a2bLoop_fourth (by omega), ih, Option.map_some, Option.map_some, Option.map_some,
      ofNat_eq_of_eq a (by omega), ofNat_eq_of_eq b (by omega), ofNat_eq_of_eq c (by omega)]

/-- An encoded text consists of digits and padding. -/
theorem exists_digit64_of_mem {bytes : List UInt8} {char : Char} (hchar : char ∈ b64encode bytes) :
    char = '=' ∨ ∃ value < 64, char = digit64 value := by
  induction bytes using b64encode.induct with
  | case1 => exact absurd hchar List.not_mem_nil
  | case2 a =>
    have ha := a.toNat_lt
    simp only [b64encode, List.mem_cons, List.not_mem_nil, or_false] at hchar
    rcases hchar with rfl | rfl | rfl | rfl
    · exact Or.inr ⟨_, by omega, rfl⟩
    · exact Or.inr ⟨_, by omega, rfl⟩
    · exact Or.inl rfl
    · exact Or.inl rfl
  | case3 a b =>
    have ha := a.toNat_lt
    have hb := b.toNat_lt
    simp only [b64encode, List.mem_cons, List.not_mem_nil, or_false] at hchar
    rcases hchar with rfl | rfl | rfl | rfl
    · exact Or.inr ⟨_, by omega, rfl⟩
    · exact Or.inr ⟨_, by omega, rfl⟩
    · exact Or.inr ⟨_, by omega, rfl⟩
    · exact Or.inl rfl
  | case4 a b c rest ih =>
    have ha := a.toNat_lt
    have hb := b.toNat_lt
    have hc := c.toNat_lt
    simp only [b64encode, List.mem_cons] at hchar
    rcases hchar with rfl | rfl | rfl | rfl | hrest
    · exact Or.inr ⟨_, by omega, rfl⟩
    · exact Or.inr ⟨_, by omega, rfl⟩
    · exact Or.inr ⟨_, by omega, rfl⟩
    · exact Or.inr ⟨_, by omega, rfl⟩
    · exact ih hrest

/-- An encoded text is decoded to its bytes. -/
theorem b64decode_b64encode (bytes : List UInt8) : b64decode (b64encode bytes) = some bytes := by
  have hascii : (b64encode bytes).all (fun char ↦ char.toNat < 0x80) = true := by
    refine List.all_eq_true.mpr fun char hchar ↦ decide_eq_true ?_
    rcases exists_digit64_of_mem hchar with rfl | ⟨value, hvalue, rfl⟩
    · decide
    · exact (digit64_ascii value hvalue).1
  rw [b64decode, if_pos hascii, a2bLoop_b64encode]

end RoundTrip

end Lnmp.Foundation.Base64
