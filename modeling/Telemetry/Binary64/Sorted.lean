import Telemetry.RunSort

/-!
Sorted lists of numbers. Equal numbers stay in their order. A list with a NaN has no
ascending order; it becomes what merging its runs makes of it.
-/

namespace Telemetry.Binary64

def sorted (xs : List Binary64) : List Binary64 :=
  if xs.any isNaN then RunSort.sort lt xs else xs.mergeSort le

end Telemetry.Binary64
