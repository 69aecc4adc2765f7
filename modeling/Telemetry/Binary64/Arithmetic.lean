import Telemetry.Binary64.Compare

/-!
Correctly rounded arithmetic: each operation forms the exact result in units and
rounds once. Signs of zero, infinities and NaN follow the usual rules: an exact
cancellation gives positive zero, a product or quotient has the sign of the two
signs together, and an operation without a value gives NaN.
-/

namespace Telemetry.Binary64

def neg : Binary64 → Binary64
  | .nan => .nan
  | .infinite negative => .infinite (!negative)
  | .finite negative magnitude => .finite (!negative) magnitude

def add : Binary64 → Binary64 → Binary64
  | .nan, _ => .nan
  | _, .nan => .nan
  | .infinite s, .infinite t => if s = t then .infinite s else .nan
  | .infinite s, .finite .. => .infinite s
  | .finite .., .infinite t => .infinite t
  | .finite s m, .finite t n =>
    if m.val = 0 ∧ n.val = 0 then signedZero (s && t)
    else ofUnits (rank (.finite s m) + rank (.finite t n))

def sub (x y : Binary64) : Binary64 := add x (neg y)

def mul : Binary64 → Binary64 → Binary64
  | .nan, _ => .nan
  | _, .nan => .nan
  | .infinite s, .infinite t => .infinite (s != t)
  | .infinite s, .finite t n => if n.val = 0 then .nan else .infinite (s != t)
  | .finite s m, .infinite t => if m.val = 0 then .nan else .infinite (s != t)
  | .finite s m, .finite t n => ofRatio (s != t) (m.val * n.val) unitsPerOne

/-- The quotient; a zero divisor gives an infinity, or NaN for zero by zero. -/
def div : Binary64 → Binary64 → Binary64
  | .nan, _ => .nan
  | _, .nan => .nan
  | .infinite _, .infinite _ => .nan
  | .infinite s, .finite t _ => .infinite (s != t)
  | .finite s _, .infinite t => signedZero (s != t)
  | .finite s m, .finite t n =>
    if n.val = 0 then (if m.val = 0 then .nan else .infinite (s != t))
    else ofRatio (s != t) (m.val * unitsPerOne) n.val

instance : Neg Binary64 := ⟨neg⟩
instance : Add Binary64 := ⟨add⟩
instance : Sub Binary64 := ⟨sub⟩
instance : Mul Binary64 := ⟨mul⟩
instance : Div Binary64 := ⟨div⟩

/-- The sum from left to right, starting at zero. -/
def sum (xs : List Binary64) : Binary64 := xs.foldl (· + ·) zero

end Telemetry.Binary64
