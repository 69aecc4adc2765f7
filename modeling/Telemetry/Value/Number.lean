import Telemetry.Binary64.Arithmetic
import Telemetry.Decimal.Literal
import Telemetry.Fault

/-!
Conversions and comparisons of dynamic values. Only numbers can be compared with numbers;
the truth values count as one and zero.
-/

namespace Telemetry.Value

instance : Coe Binary64 Number := ⟨.float⟩

namespace Number

/-- The nearest double, infinite for an integer that is too large. -/
def nearest : Number → Binary64
  | .int n => .ofInt n
  | .float x => x

/-- The nearest double, within the finite range for an integer. -/
def toBinary64 : Number → Except Fault Binary64
  | .int n => Binary64.ofIntWithin n
  | .float x => .ok x

/-- The integer part. -/
def toInteger : Number → Except Fault Int
  | .int n => .ok n
  | .float x => x.toInteger

/-- At most an integer, exactly. -/
def leInt : Number → Int → Bool
  | .int m, n => decide (m ≤ n)
  | .float x, n => x.leInt n

/-- More than an integer, exactly. -/
def gtInt : Number → Int → Bool
  | .int m, n => decide (n < m)
  | .float x, n => x.gtInt n

/-- Less than a number, exactly; false if either is NaN. -/
def less : Number → Number → Bool
  | .int m, .int n => decide (m < n)
  | .int m, .float y => y.gtInt m
  | .float x, .int n => x.leInt n && !x.eqInt n
  | .float x, .float y => x.lt y

/-- The difference. Between integers it is exact; an integer beside a double is rounded to
a double first, for which it can be too large. -/
def sub : Number → Number → Except Fault Number
  | .int m, .int n => .ok (.int (m - n))
  | .int m, .float y => (Binary64.ofIntWithin m).map fun x => .float (x - y)
  | .float x, .int n => (Binary64.ofIntWithin n).map fun y => .float (x - y)
  | .float x, .float y => .ok (.float (x - y))

def times (k : Int) : Number → Number
  | .int n => .int (n * k)
  | .float x => .float (x * .ofInt k)

end Number

/-- The number a value is read as by a callback: a number, a truth value or the text of a
number. -/
def toBinary64 (v : Value) : Except Fault Binary64 :=
  match v.number?, v with
  | some n, _ => n.toBinary64
  | none, .text s =>
    match Decimal.real? s with
    | some x => .ok x
    | none => .error (.badNumberText s)
  | none, v => .error (.notNumberLike v.shape)

/-- `v ≤ n`, for numbers only. -/
def atMost (v : Value) (n : Int) : Except Fault Bool :=
  match v.number? with
  | some m => .ok (m.leInt n)
  | none => .error (.notComparable .atMost v.shape .int)

/-- `v > n`, for numbers only. -/
def moreThan (v : Value) (n : Int) : Except Fault Bool :=
  match v.number? with
  | some m => .ok (m.gtInt n)
  | none => .error (.notComparable .greater v.shape .int)

/-- The value, or the integer if it is the smaller. -/
def minWith (v : Value) (n : Int) : Except Fault Value :=
  match v.number? with
  | some m => .ok (if m.gtInt n then .int n else v)
  | none => .error (.notComparable .less .int v.shape)

/-- The integer part of a thousand times the value. A text is repeated a thousand times
and then read as an integer. -/
def thousandfold (v : Value) : Except Fault Int :=
  match v.number?, v with
  | some n, _ => (n.times 1000).toInteger
  | none, .text s =>
    let repeated := String.join (List.replicate 1000 s)
    (Decimal.readInteger repeated).mapError fun
      | .malformed => .badIntegerText repeated
      | .tooLong digits => .integerTextTooLong digits
  | none, .list _ => .error (.notIntegerLike .list)
  | none, v => .error (.notMultipliable v.shape)

end Telemetry.Value
