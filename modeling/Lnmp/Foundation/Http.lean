import Mathlib.Tactic.Common

/-!
# HTTP errors

What the handler of a request raises instead of answering it.
-/

set_option autoImplicit false
set_option relaxedAutoImplicit false

namespace Lnmp.Foundation

/-- An `HTTPException`. -/
structure HttpError where
  statusCode : ℕ
  detail : String
  deriving DecidableEq

/-- The value of a request that succeeds, and what was there before of one that fails. -/
def HttpError.orSame {Value : Type*} (before : Value) (result : Except HttpError Value) : Value :=
  match result with
  | .error _ => before
  | .ok after => after

end Lnmp.Foundation
