import Lnmp.Foundation.PythonText

/-!
# Ping results and their classification

`monitoring/ping.py`: the outcome of one ping cycle, its health score, and the classification into
an operational and a detailed state. Round trip times are exact rationals, so a comparison with a
threshold is exact where the source compares floats.

`producible_iff` says which pairs of states a classification can give: those whose operational
state is the one that the detailed state belongs to.
-/

set_option autoImplicit false
set_option relaxedAutoImplicit false

namespace Lnmp.Monitoring

open Lnmp.Foundation.PythonText

/-- The operational state of an endpoint. -/
inductive OperationalState
  | up
  | down
  deriving DecidableEq

/-- The detailed state of an endpoint. -/
inductive DetailedState
  | up
  | upUnstable
  | downUnstable
  | down
  deriving DecidableEq

/-- The text of an operational state. -/
def OperationalState.text : OperationalState → String
  | .up => "UP"
  | .down => "DOWN"

/-- The text of a detailed state. -/
def DetailedState.text : DetailedState → String
  | .up => "UP"
  | .upUnstable => "UP-UNSTABLE"
  | .downUnstable => "DOWN-UNSTABLE"
  | .down => "DOWN"

/-- The operational state that a detailed state belongs to. -/
def DetailedState.operational : DetailedState → OperationalState
  | .up | .upUnstable => .up
  | .downUnstable | .down => .down

/-- The outcome of a ping cycle. -/
structure PingResult where
  successCount : ℤ
  failedCount : ℤ
  avgRttMs : Option ℚ
  deriving DecidableEq

/-- `total_count`. -/
def PingResult.totalCount (result : PingResult) : ℤ := result.successCount + result.failedCount

/-- The percentage of successful pings, rounded to two digits. -/
def PingResult.healthScore (result : PingResult) : ℚ :=
  if result.totalCount = 0 then 0
  else roundHalfEven ((result.successCount : ℚ) / result.totalCount * 100 * 100) / 100

/-- `classify_ping_result` for a Z-score factor `k`. -/
def classifyPingResult (result : PingResult) (baselineMean baselineStddev : Option ℚ) (k : ℚ) :
    OperationalState × DetailedState :=
  if result.totalCount = 0 ∨ result.successCount = 0 then (.down, .down)
  else
    let ratio : ℚ := (result.successCount : ℚ) / result.totalCount
    if 1 ≤ ratio then
      -- Dynamic Z-score baseline evaluation.
      match baselineMean, baselineStddev, result.avgRttMs with
      | some mean, some stddev, some avgRtt =>
        let safeStddev := max stddev 2
        let threshold := mean + k * safeStddev
        if threshold < avgRtt then (.up, .upUnstable) else (.up, .up)
      | _, _, _ => (.up, .up)
    else if 3 / 5 ≤ ratio then (.up, .upUnstable)
    else if 0 < ratio then (.down, .downUnstable)
    else (.down, .down)

/-- The pair is one that a classification can give. -/
def Producible (pair : OperationalState × DetailedState) : Prop :=
  ∃ result baselineMean baselineStddev k,
    classifyPingResult result baselineMean baselineStddev k = pair

/-- A classification gives a detailed state and the operational state it belongs to. -/
theorem fst_classifyPingResult (result : PingResult) (baselineMean baselineStddev : Option ℚ)
    (k : ℚ) :
    (classifyPingResult result baselineMean baselineStddev k).1 =
      (classifyPingResult result baselineMean baselineStddev k).2.operational := by
  unfold classifyPingResult
  dsimp only
  split_ifs
  · rfl
  · split
    · split_ifs <;> rfl
    · rfl
  · rfl
  · rfl
  · rfl

/-- Every detailed state is the classification of some ping result. -/
theorem exists_classifyPingResult (detailed : DetailedState) :
    ∃ result, classifyPingResult result none none 3 = (detailed.operational, detailed) := by
  cases detailed with
  | up => exact ⟨⟨5, 0, none⟩, by decide +kernel⟩
  | upUnstable => exact ⟨⟨4, 1, none⟩, by decide +kernel⟩
  | downUnstable => exact ⟨⟨1, 4, none⟩, by decide +kernel⟩
  | down => exact ⟨⟨0, 5, none⟩, by decide⟩

theorem producible_iff (pair : OperationalState × DetailedState) :
    Producible pair ↔ pair.1 = pair.2.operational := by
  constructor
  · rintro ⟨result, baselineMean, baselineStddev, k, rfl⟩
    exact fst_classifyPingResult result baselineMean baselineStddev k
  · obtain ⟨operational, detailed⟩ := pair
    intro hpair
    obtain rfl : operational = detailed.operational := hpair
    obtain ⟨result, hresult⟩ := exists_classifyPingResult detailed
    exact ⟨result, none, none, 3, hresult⟩

end Lnmp.Monitoring
