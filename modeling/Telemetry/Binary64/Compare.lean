import Telemetry.Binary64.Basic

/-!
Comparison of binary64 numbers with each other and with integers. A comparison
with NaN is false; the two zeros are equal; against an integer the exact values
are compared, without rounding the integer first.
-/

namespace Telemetry.Binary64

/-- `x < y`, false when either is NaN. -/
def lt (x y : Binary64) : Bool :=
  !x.isNaN && !y.isNaN && decide (x.rank < y.rank)

/-- `x ≤ y`, false when either is NaN. -/
def le (x y : Binary64) : Bool :=
  !x.isNaN && !y.isNaN && decide (x.rank ≤ y.rank)

/-- Numerical equality: zeros are equal, NaN equals nothing. -/
def eq (x y : Binary64) : Bool :=
  !x.isNaN && !y.isNaN && decide (x.rank = y.rank)

/-- Below zero; negative zero is not. -/
def isNegative (x : Binary64) : Bool := x.lt zero

def isZero (x : Binary64) : Bool := x.eq zero

/-- `n < x` for an integer, exact. -/
def gtInt (x : Binary64) (n : Int) : Bool :=
  match x with
  | .nan => false
  | .infinite negative => !negative
  | .finite .. => decide (n * unitsPerOne < x.rank)

/-- `x ≤ n` for an integer, exact. -/
def leInt (x : Binary64) (n : Int) : Bool :=
  match x with
  | .nan => false
  | .infinite negative => negative
  | .finite .. => decide (x.rank ≤ n * unitsPerOne)

def eqInt (x : Binary64) (n : Int) : Bool :=
  match x with
  | .finite .. => decide (x.rank = n * unitsPerOne)
  | _ => false

/-- The first argument unless the second is greater. -/
def maxKeepFirst (x y : Binary64) : Binary64 := if x.lt y then y else x

end Telemetry.Binary64
