import Telemetry.Meter.Histogram
import Telemetry.Value.Basic

/-!
Distributions with explicit buckets: ascending bounds and one count per bucket, the last
of which holds what lies above the last bound.

- `Distribution.ofHistogram`: cumulative counts become counts per bucket, empty buckets at
  the end are left out, and the rest of the observations goes to the overflow bucket.
- `Distribution.pointMass`: a count and a mean alone.
-/

namespace Telemetry

structure Distribution where
  count : Int
  mean : Binary64
  bounds : List Binary64
  counts : List Int
  deriving DecidableEq

namespace Distribution

/-- The count of each bucket: the integer part of the growth of the cumulative counts. -/
def differences : Value.Number → List Bucket → Except Fault (List Int)
  | _, [] => .ok []
  | previous, b :: rest => do
    let growth ← b.atOrBelow.sub previous
    let n ← growth.toInteger
    let later ← differences b.atOrBelow rest
    return n :: later

/-- The counts without the empty ones at the end; one count stays if all are empty. -/
def trimEmpty (counts : List Int) : List Int :=
  let kept := (counts.reverse.dropWhile (· ≤ 0)).reverse
  if kept = [] then counts.take 1 else kept

/-- A number of the histogram in the unit of export. -/
def scale (timed : Bool) (x : Binary64) : Binary64 := if timed then toBaseUnit x else x

/-- The same for a number of either kind; only a duration becomes a double. -/
def scaleNumber (timed : Bool) (n : Value.Number) : Except Fault Value.Number :=
  if timed then n.toBaseUnit.map .float else .ok n

/-- The distribution of a histogram, whose values are durations in seconds if `timed`.
Without any bucket, all observations lie above the bound zero. -/
def ofHistogram (h : Histogram) (timed : Bool) : Except Fault Distribution := do
  let perBucket ← differences (.float .zero) h.buckets
  let kept := trimEmpty perBucket
  let overflow := max 0 (h.count - perBucket.foldr (· + ·) 0)
  let bounds := (h.buckets.map fun b => scale timed b.bound).take kept.length
  let mean ← h.mean
  if bounds = [] then
    return ⟨h.count, scale timed mean, [.zero], [0, overflow]⟩
  else
    return ⟨h.count, scale timed mean, bounds, kept ++ [overflow]⟩

/-- Observations of which only the count and the mean are known, all above the bound
zero. -/
def pointMass (count mean : Binary64) : Except Fault Distribution :=
  count.toInteger.map fun n => ⟨n, mean, [.zero], [0, n]⟩

/-- The wire form: counts are texts. -/
def toValue (d : Distribution) : Except Fault Value := do
  let count ← Decimal.shown d.count
  let counts ← d.counts.mapM Decimal.shown
  return .ofFields [
    ("count", .text count),
    ("mean", .float d.mean),
    ("bucketOptions", .ofFields
      [("explicitBuckets", .ofFields [("bounds", .list (d.bounds.map .float))])]),
    ("bucketCounts", .list (counts.map .text))]

end Distribution
end Telemetry
