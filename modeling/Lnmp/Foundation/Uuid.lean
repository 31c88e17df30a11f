import Mathlib.Tactic.Common

/-!
# UUIDs

Identifiers of 128 bits. The test whether a list has an identifier rests on a comparison of
identifiers that is lawful, which is stated once for all definitions that make this test.
-/

set_option autoImplicit false
set_option relaxedAutoImplicit false

namespace Lnmp.Foundation

/-- An identifier of 128 bits. -/
abbrev Uuid := BitVec 128

/-- Identifiers that compare equal are equal. -/
instance Uuid.lawfulBEq : LawfulBEq Uuid := inferInstance

/-- `str(id)`: 32 hexadecimal digits in five groups. -/
def Uuid.text (id : Uuid) : String :=
  let digits := Nat.toDigits 16 id.toNat
  let padded := List.replicate (32 - digits.length) '0' ++ digits
  String.ofList (padded.take 8 ++ '-' :: (padded.drop 8).take 4 ++ '-' :: (padded.drop 12).take 4 ++
    '-' :: (padded.drop 16).take 4 ++ '-' :: padded.drop 20)

example : Uuid.text 0x1f = "00000000-0000-0000-0000-00000000001f" := by decide

end Lnmp.Foundation
