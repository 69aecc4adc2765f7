import Telemetry.Value.Number

/-!
Step alignment: runs happen one millisecond after each multiple of the step, so that
everyone with the same step runs at the same moments.

- `StepSchedule.ofValue`: the schedule of a step in seconds, which has to be positive.
- `StepSchedule.delayMillis`: the time until just after the next multiple.
-/

namespace Telemetry

/-- A step of at least one whole millisecond. -/
structure StepSchedule where
  stepMillis : Int
  one_le : 1 ≤ stepMillis
  deriving DecidableEq

namespace StepSchedule

def ofMillis (millis : Int) : StepSchedule := ⟨max 1 millis, by omega⟩

def ofValue (step : Value) : Except Fault StepSchedule := do
  if ← step.atMost 0 then throw .stepNotPositive
  return ofMillis (← step.thousandfold)

/-- The milliseconds from a wall time until just after the next multiple of the step. -/
def delayMillis (s : StepSchedule) (now : Int) : Int := s.stepMillis - now % s.stepMillis + 1

/-- The same in seconds. -/
def delay (s : StepSchedule) (now : Int) : Except Fault Binary64 :=
  (Binary64.ofIntWithin (s.delayMillis now)).map (· / 1000)

end StepSchedule
end Telemetry
