import Telemetry.Power
import Telemetry.Rounding

/-!
Binary64 numbers as exact values: a finite number is a sign and a whole number of
units of 2^-1074, so arithmetic on them is arithmetic on integers followed by one
rounding. The module holds the type, the rounding of a quotient of whole numbers
and the conversions from and to integers.

- `Magnitude`: the representable numbers of units, those of 53 significant bits
  below 2^1024.
- `ofRatio`: the binary64 number nearest to a quotient, ties to even, with
  overflow to infinity.
-/

namespace Telemetry

/-- Units in 1.0: the smallest positive number is 2^-1074. -/
def unitsPerOne : Nat := twoTo 1074

/-- Units in 2^1024, the first magnitude past the finite ones. -/
def unitsAtOverflow : Nat := twoTo 2098

theorem unitsPerOne_eq : unitsPerOne = twoTo 1074 := by rw [unitsPerOne]

theorem unitsAtOverflow_eq : unitsAtOverflow = twoTo 2098 := by rw [unitsAtOverflow]

-- closed powers of this size are not to be evaluated when terms are compared
attribute [irreducible] unitsPerOne unitsAtOverflow

theorem unitsPerOne_pos : 0 < unitsPerOne := unitsPerOne_eq ▸ twoTo_pos 1074

/-- A number of units that a finite binary64 number has: at most 53 significant bits,
and below the overflow threshold. -/
def Representable (units : Nat) : Prop :=
  units < unitsAtOverflow ∧ ∃ significand exponent, significand ≤ twoTo 53 ∧
    units = significand * twoTo exponent

/-- The magnitude of a finite number, in units. -/
abbrev Magnitude := { units : Nat // Representable units }

/-- A binary64 number; both zeros, both infinities and a single NaN. -/
inductive Binary64 where
  | nan
  | infinite (negative : Bool)
  | finite (negative : Bool) (magnitude : Magnitude)
  deriving DecidableEq

namespace Binary64

theorem representable_zero : Representable 0 :=
  ⟨unitsAtOverflow_eq ▸ twoTo_pos 2098, 0, 0, Nat.zero_le _, (Nat.zero_mul _).symm⟩

def zero : Binary64 := .finite false ⟨0, representable_zero⟩

instance : Inhabited Binary64 := ⟨zero⟩

/-- Zero with a sign. -/
def signedZero (negative : Bool) : Binary64 := .finite negative ⟨0, representable_zero⟩

def isNaN : Binary64 → Bool
  | .nan => true
  | _ => false

def isInfinite : Binary64 → Bool
  | .infinite _ => true
  | _ => false

def isFinite : Binary64 → Bool
  | .finite .. => true
  | _ => false

/-- The significand to which `num / den` units are rounded has at most 53 bits. -/
theorem significand_le (num den : Nat) :
    roundHalfEven num (den * twoTo ((num / den).log2 - 52)) ≤ twoTo 53 := by
  have h := roundHalfEven_le_succ num (den * twoTo ((num / den).log2 - 52))
  rw [← Nat.div_div_eq_div_mul] at h
  have hlt : num / den / twoTo ((num / den).log2 - 52) < twoTo 53 := by
    rw [Nat.div_lt_iff_lt_mul (twoTo_pos _), ← twoTo_add]
    exact Nat.lt_of_lt_of_le (lt_twoTo_log2 _) (twoTo_le (by omega))
  omega

/-- The number nearest to `num / den` units, a tie going to the even significand;
infinite from half a unit in the last place below 2^1024 on. -/
def ofRatio (negative : Bool) (num den : Nat) : Binary64 :=
  let exponent := (num / den).log2 - 52
  let significand := roundHalfEven num (den * twoTo exponent)
  if h : significand * twoTo exponent < unitsAtOverflow then
    .finite negative
      ⟨significand * twoTo exponent, h, significand, exponent, significand_le num den, rfl⟩
  else .infinite negative

/-- The number nearest to `units` whole units; zero is positive. -/
def ofUnits (units : Int) : Binary64 :=
  ofRatio (decide (units < 0)) units.natAbs 1

/-- The number nearest to an integer, infinite past the finite range. -/
def ofInt (n : Int) : Binary64 := ofUnits (n * unitsPerOne)

instance (n : Nat) : OfNat Binary64 n := ⟨ofInt n⟩

/-- The signed units of a finite number, the overflow threshold for an infinity:
among numbers that are not NaN, the order of ranks is the numerical order. -/
def rank : Binary64 → Int
  | .nan => 0
  | .infinite negative => if negative then -unitsAtOverflow else unitsAtOverflow
  | .finite negative magnitude => if negative then -magnitude.val else magnitude.val

inductive NotIntegral where
  | nan
  | infinite
  deriving DecidableEq, Repr

/-- The integer part, toward zero. -/
def truncate : Binary64 → Except NotIntegral Int
  | .nan => .error .nan
  | .infinite _ => .error .infinite
  | .finite negative magnitude =>
    let whole : Int := magnitude.val / unitsPerOne
    .ok (if negative then -whole else whole)

end Binary64
end Telemetry
