import Telemetry.Binary64.Sorted
import Telemetry.Meter.Histogram

/-!
Histograms under construction: bucket counts, total, maximum and a window of the last
samples since the last snapshot. A value belongs to the first bucket whose bound is at
least the value; percentiles are read from the window in ascending order.

- `StepHistogram.create`: drops infinite bounds, sorts the rest, checks the percentiles.
- `StepHistogram.record`: one observation.
- `StepHistogram.take`: the snapshot of the step, after which all counts start again.
-/

namespace Telemetry

structure StepHistogram where
  bounds : List Binary64
  fractions : List Binary64
  window : Nat
  counts : List Nat
  count : Nat
  total : Binary64
  max : Binary64
  samples : List Binary64
  deriving DecidableEq

namespace StepHistogram

/-- The samples that are kept for percentiles unless another number is asked for. -/
def defaultWindow : Nat := 1000

def isFraction (p : Binary64) : Bool := Binary64.zero.le p && p.le 1

def create (boundaries fractions : List Binary64) (window : Nat) :
    Except Fault StepHistogram :=
  let bounds := Binary64.sorted (boundaries.filter (!·.isInfinite))
  match fractions.find? (!isFraction ·) with
  | some p => .error (.percentileOutOfRange p)
  | none => .ok
    { bounds, fractions, window
      counts := List.replicate bounds.length 0
      count := 0, total := .zero, max := .zero, samples := [] }

def reset (h : StepHistogram) : StepHistogram :=
  { h with
    counts := List.replicate h.bounds.length 0
    count := 0, total := .zero, max := .zero, samples := [] }

/-- The samples with one more. They are kept only if percentiles are wanted; a full window
loses its oldest, and one without room for any has none to lose. -/
def keepSample (h : StepHistogram) (value : Binary64) : Except Fault (List Binary64) :=
  if h.fractions = [] then .ok h.samples
  else if h.samples.length < h.window then .ok (h.samples ++ [value])
  else
    match h.samples with
    | [] => .error .noOldestSample
    | _ :: later => .ok (later ++ [value])

/-- Records an observation. It is counted also when its sample cannot be kept. -/
def record (h : StepHistogram) (value : Binary64) : Except Fault Unit × StepHistogram :=
  let kept := h.keepSample value
  (kept.map fun _ => (),
    { h with
      counts := h.counts.modify (Binary64.placeOf h.bounds value) (· + 1)
      count := h.count + 1
      total := h.total + value
      max := h.max.maxKeepFirst value
      samples :=
        match kept with
        | .ok samples => samples
        | .error _ => h.samples })

def recordNonNegative (h : StepHistogram) (value : Binary64) :
    Except Fault Unit × StepHistogram :=
  if value.isNegative then (.ok (), h) else h.record value

def runningTotals (start : Nat) : List Nat → List Nat
  | [] => []
  | n :: rest => (start + n) :: runningTotals (start + n) rest

def cumulative (h : StepHistogram) : List Bucket :=
  (h.bounds.zip (runningTotals 0 h.counts)).map fun p => ⟨p.1, .int p.2⟩

/-- The value at a fraction of an ascending list: position `fraction * (length - 1)`,
rounded down. -/
def valueAt (ordered : List Binary64) (fraction : Binary64) : Except Fault Binary64 := do
  let position ← (fraction * Binary64.ofInt (ordered.length - 1 : Nat)).toInteger
  match ordered[position.toNat]? with
  | some x => return x
  | none => throw .indexOutOfRange

/-- The percentiles of the window; without samples all are zero. -/
def percentiles (h : StepHistogram) : Except Fault (List PercentileValue) :=
  if h.samples = [] then .ok (h.fractions.map fun p => ⟨.float p, .float .zero⟩)
  else
    let ordered := Binary64.sorted h.samples
    h.fractions.mapM fun p => (valueAt ordered p).map fun v => ⟨.float p, .float v⟩

def view (h : StepHistogram) : Except Fault Histogram := do
  let values ← h.percentiles
  Histogram.make h.count h.total h.max values h.cumulative

/-- The histogram of the step, and the meter at the start of the next one. When the
histogram is refused, the step goes on. -/
def take (h : StepHistogram) : Except Fault Histogram × StepHistogram :=
  match h.view with
  | .ok histogram => (.ok histogram, h.reset)
  | .error fault => (.error fault, h)

end StepHistogram
end Telemetry
