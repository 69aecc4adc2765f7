import Telemetry.Value.Number

/-!
Histograms of one step: the number of observations, their total and maximum, observed
percentiles, and cumulative counts of observations at or below ascending bounds.

- `Histogram.make`: refuses counts that decrease or exceed the number of observations.
- `Histogram.mean`: the total over the count.
-/

namespace Telemetry

/-- Duration in milliseconds, the unit of export, of a duration in seconds. -/
def toBaseUnit (seconds : Binary64) : Binary64 := seconds * 1000

def Value.Number.toBaseUnit (seconds : Number) : Except Fault Binary64 :=
  seconds.toBinary64.map Telemetry.toBaseUnit

/-- The count of observations at or below a bound. A count of the library's own is an
integer; one from elsewhere may be a double, and need not be whole. -/
structure Bucket where
  bound : Binary64
  atOrBelow : Value.Number
  deriving DecidableEq

structure PercentileValue where
  fraction : Value.Number
  value : Value.Number
  deriving DecidableEq

/-- The reason to refuse cumulative counts, each checked against the one before and the
last against the number of observations. -/
def bucketFault (count : Int) : Value.Number → List Bucket → Option Fault
  | previous, [] => if previous.gtInt count then some .bucketsExceedCount else none
  | previous, b :: rest =>
    if b.atOrBelow.less previous then some .bucketsDecrease
    else bucketFault count b.atOrBelow rest

/-- Cumulative counts that do not decrease from zero and end within the count. Without
buckets there is nothing to check. -/
def checkBuckets (count : Int) (buckets : List Bucket) : Option Fault :=
  if buckets = [] then none else bucketFault count (.float .zero) buckets

structure Histogram where
  count : Int
  total : Binary64
  max : Value.Number
  percentiles : List PercentileValue
  buckets : List Bucket
  accepted : checkBuckets count buckets = none

namespace Histogram

def make (count : Int) (total : Binary64) (max : Value.Number)
    (percentiles : List PercentileValue) (buckets : List Bucket) : Except Fault Histogram :=
  match h : checkBuckets count buckets with
  | none => .ok ⟨count, total, max, percentiles, buckets, h⟩
  | some fault => .error fault

def empty : Histogram := ⟨0, .zero, .float .zero, [], [], rfl⟩

/-- The mean observation, zero without observations. -/
def mean (h : Histogram) : Except Fault Binary64 :=
  if h.count = 0 then .ok .zero
  else (Binary64.ofIntWithin h.count).map (h.total / ·)

end Histogram
end Telemetry
