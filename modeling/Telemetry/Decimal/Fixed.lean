import Telemetry.Binary64.Basic
import Telemetry.Text.Digit

/-!
Decimal texts with a given number of places, rounded from the exact value, a half going
to the even digit.

- `padded`: the last digits of a number, zeros kept.
- `shortFixed`: at most so many places, without zeros at the end of the fraction.
-/

namespace Telemetry.Decimal

/-- The last `width` decimal digits of a number. -/
def padded : Nat → Nat → List Char
  | 0, _ => []
  | width + 1, n => padded width (n / 10) ++ [Text.digitChar (n % 10)]

def natural (n : Nat) : List Char := Nat.toDigits 10 n

/-- The text of an integer. -/
def integer (n : Int) : String :=
  String.ofList (if n < 0 then '-' :: natural n.natAbs else natural n.natAbs)

def dropZeros (digits : List Char) : List Char :=
  (digits.reverse.dropWhile (· = '0')).reverse

/-- A magnitude in whole multiples of `10^-places`, rounded. -/
def scaled (places : Nat) (units : Nat) : Nat :=
  roundHalfEven (units * tenTo places) unitsPerOne

/-- The text of a number of multiples of `10^-places`: the whole part, and the fraction
after a point unless it is zero, without its trailing zeros. -/
def ofScaled (places n : Nat) : List Char :=
  let fraction := dropZeros (padded places (n % tenTo places))
  natural (n / tenTo places) ++ (if fraction = [] then [] else '.' :: fraction)

/-- The text of `x` with at most `places` digits after the point. The sign of a number
that rounds to zero is kept. -/
def shortFixed (places : Nat) : Binary64 → String
  | .nan => "nan"
  | .infinite negative => if negative then "-inf" else "inf"
  | .finite negative magnitude =>
    let digits := ofScaled places (scaled places magnitude.val)
    String.ofList (if negative then '-' :: digits else digits)

theorem padded_length (width n : Nat) : (padded width n).length = width := by
  induction width generalizing n with
  | zero => rfl
  | succ width ih => simp [padded, ih]

end Telemetry.Decimal
