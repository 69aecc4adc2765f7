import Telemetry.Decimal.Fixed

/-!
The shortest decimal that reads back as a given binary64 number, and its layout.

A decimal reads back when it lies in the interval of values that round to the number;
the ends belong to it when the significand is even. For one digit, two digits, … the two
decimals next to the exact value are tried; the first length with a hit wins, of two hits
the nearer, and of two equally near the one with the even last digit. Seventeen digits
always suffice.
-/

namespace Telemetry.Decimal

structure Scientific where
  digits : Nat
  exponent : Int
  deriving DecidableEq, Repr

/-- The reals that round to a magnitude, as numerators over one denominator. -/
structure RoundingInterval where
  value : Nat
  low : Nat
  high : Nat
  denominator : Nat
  closed : Bool

/-- The interval of a positive magnitude. Below a power of two the spacing halves. -/
def RoundingInterval.of (units : Nat) : RoundingInterval :=
  let exponent := units.log2 - 52
  let spacing := twoTo exponent
  let below := if exponent > 0 ∧ units = twoTo (exponent + 52) then spacing else 2 * spacing
  { value := 4 * units
    low := 4 * units - below
    high := 4 * units + 2 * spacing
    denominator := 4 * unitsPerOne
    closed := units / spacing % 2 = 0 }

def RoundingInterval.contains (i : RoundingInterval) (num den : Nat) : Bool :=
  let scaledNum := num * i.denominator
  if i.closed then i.low * den ≤ scaledNum && scaledNum ≤ i.high * den
  else i.low * den < scaledNum && scaledNum < i.high * den

/-- The largest `e` with `10^e ≤ num / den`, searched upward from `start`. -/
def decimalExponent (num den : Nat) : Nat → Int → Int
  | 0, e => e
  | fuel + 1, e =>
    let next := e + 1
    let holds :=
      if 0 ≤ next then den * tenTo next.toNat ≤ num else den ≤ num * tenTo (-next).toNat
    if holds then decimalExponent num den fuel next else e

/-- A lower estimate of the decimal exponent, a few steps below it. -/
def estimateExponent (units : Nat) : Int :=
  (((units.log2 : Int) - 1074) * 30103).fdiv 100000 - 2

/-- The decimal of `count` digits that reads back and is nearest, if one does. -/
def nearestWith (i : RoundingInterval) (top : Int) (count : Nat) : Option Scientific :=
  let exponent := top - (count - 1 : Nat)
  let up := tenTo exponent.toNat
  let down := tenTo (-exponent).toNat
  let num := i.value * down
  let den := i.denominator * up
  let lower := num / den
  let reads (digits : Nat) : Bool := i.contains (digits * up) down
  match reads lower, reads (lower + 1) with
  | true, true =>
    let twice := 2 * (num % den)
    if twice < den ∨ (twice = den ∧ lower % 2 = 0) then some ⟨lower, exponent⟩
    else some ⟨lower + 1, exponent⟩
  | true, false => some ⟨lower, exponent⟩
  | false, true => some ⟨lower + 1, exponent⟩
  | false, false => none

/-- The shortest decimal of a positive magnitude. -/
def shortest (units : Nat) : Scientific :=
  let i := RoundingInterval.of units
  let top := decimalExponent i.value i.denominator 8 (estimateExponent units)
  let lengths := (List.range 17).map (· + 1)
  (lengths.findSome? (nearestWith i top)).getD ⟨units, 0⟩

/-- How a number is laid out: positional for decimal exponents in a range, otherwise with
an exponent of a least number of digits and an explicit sign. -/
structure Layout where
  positionalFrom : Int
  positionalTo : Int
  exponentDigits : Nat

/-- The layout of all numbers in labels, messages and logs. -/
def plainLayout : Layout := ⟨-4, 15, 2⟩

/-- The digits `ds` with the point after the first `point` of them; a whole number keeps
one zero after the point. -/
def positional (ds : List Char) (point : Int) : List Char :=
  if point ≤ 0 then '0' :: '.' :: (List.replicate (-point).toNat '0' ++ ds)
  else
    let whole := ds.take point.toNat
    let rest := ds.drop point.toNat
    whole ++ List.replicate (point.toNat - ds.length) '0' ++ '.' ::
      (if rest = [] then ['0'] else rest)

/-- The digits in scientific notation; a single digit has no point. -/
def scientific (layout : Layout) (ds : List Char) (exponent : Int) : List Char :=
  let mark := natural exponent.natAbs
  let pad := List.replicate (layout.exponentDigits - mark.length) '0'
  ds.take 1 ++ (if ds.length ≤ 1 then [] else '.' :: ds.drop 1) ++
    'e' :: (if exponent < 0 then '-' else '+') :: (pad ++ mark)

def Scientific.render (layout : Layout) (d : Scientific) : List Char :=
  let all := natural d.digits
  let ds := dropZeros all
  let exponent := d.exponent + all.length - 1
  if layout.positionalFrom ≤ exponent ∧ exponent ≤ layout.positionalTo then
    positional ds (exponent + 1)
  else scientific layout ds exponent

/-- The shortest text of a number that reads back as the same number. -/
def number (x : Binary64) : String :=
  match x with
  | .nan => "nan"
  | .infinite negative => if negative then "-inf" else "inf"
  | .finite negative magnitude =>
    let digits :=
      if magnitude.val = 0 then ['0', '.', '0']
      else (shortest magnitude.val).render plainLayout
    String.ofList (if negative then '-' :: digits else digits)

end Telemetry.Decimal
