import Mathlib.Data.Rat.Defs

/-!
# Settings

The settings that the modelled code reads, with their defaults and the lower
bounds that the settings class checks.
-/

namespace TxnEvents

structure Settings where
  batchSize : Int := 10
  streamMaxlen : Option Int := some 100000
  maxDeliveries : Nat := 5
  maxDeliveries_pos : 1 ≤ maxDeliveries := by decide
  reclaimIntervalS : ℚ := 5
  minIdleMs : Int := 15000
  rateAttempts : Nat := 4
  rateAttempts_pos : 1 ≤ rateAttempts := by decide
  dbAttempts : Nat := 4
  dbAttempts_pos : 1 ≤ dbAttempts := by decide
  retryBaseDelayS : ℚ := 1 / 5
  retryMaxDelayS : ℚ := 5
  dbStartupAttempts : Nat := 20
  dbStartupAttempts_pos : 1 ≤ dbStartupAttempts := by decide
  dbStartupBaseDelayS : ℚ := 1
  rateCacheTtlS : ℚ := 5

namespace Settings

/-- The settings in an empty environment. -/
def defaults : Settings := {}

end Settings

end TxnEvents
