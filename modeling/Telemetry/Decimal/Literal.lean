import Telemetry.Binary64.Basic
import Telemetry.Text.Blank
import Telemetry.Text.Case
import Telemetry.Text.Digit

/-!
Readers of numbers in text.

- `ofScientific`: the binary64 number nearest to `digits * 10^exponent`.
- `readInteger`, `integer?` and `real?`: integers and reals as a person types them into a setting:
  blanks around, a sign, decimal digits of any script, single underscores between digits;
  for reals also a point, an exponent, infinities and NaN.
-/

namespace Telemetry.Decimal

/-- The number nearest to `digits * 10^exponent`. Exponents far outside the binary64 range
are decided by the number of digits, so that no huge power is formed. -/
def ofScientific (negative : Bool) (digits : Nat) (exponent : Int) : Binary64 :=
  if digits = 0 then .signedZero negative
  else if exponent + (Nat.toDigits 10 digits).length > 400 then .infinite negative
  else if exponent + (Nat.toDigits 10 digits).length < -400 then .signedZero negative
  else if 0 ≤ exponent then .ofRatio negative (digits * tenTo exponent.toNat * unitsPerOne) 1
  else .ofRatio negative (digits * unitsPerOne) (tenTo (-exponent).toNat)

def ofDigits (ds : List Nat) : Nat := ds.foldl (fun n d => 10 * n + d) 0

def startsWithDigit (cs : List Char) : Bool :=
  (cs.head?.bind Text.decimalDigit?).isSome

/-- Digits of any script with single underscores between them, read after a digit or not:
the digits and what follows. -/
def digitRunFrom (afterDigit : Bool) : List Char → List Nat × List Char
  | [] => ([], [])
  | c :: rest =>
    match Text.decimalDigit? c with
    | some d =>
      let run := digitRunFrom true rest
      (d :: run.1, run.2)
    | none =>
      if c = '_' ∧ afterDigit ∧ startsWithDigit rest then digitRunFrom false rest
      else ([], c :: rest)

def digitRun (cs : List Char) : List Nat × List Char := digitRunFrom false cs

/-- An optional sign: whether it is a minus, and what follows. -/
def sign : List Char → Bool × List Char
  | '-' :: rest => (true, rest)
  | '+' :: rest => (false, rest)
  | rest => (false, rest)

/-- The most digits an integer literal may have. -/
def integerDigitLimit : Nat := 4300

inductive IntegerProblem where
  | malformed
  | tooLong (digits : Nat)
  deriving DecidableEq, Repr

/-- The integer that a text stands for. A run of too many digits is reported as such
whatever follows it, unless that is a stray underscore. -/
def readInteger (s : String) : Except IntegerProblem Int :=
  let (negative, body) := sign (Text.trim Text.isNumberBlank s.toList)
  match digitRun body with
  | ([], _) => .error .malformed
  | (_, '_' :: _) => .error .malformed
  | (ds, rest) =>
    if integerDigitLimit < ds.length then .error (.tooLong ds.length)
    else if rest = [] then .ok (if negative then -(ofDigits ds : Int) else ofDigits ds)
    else .error .malformed

/-- The integer a text stands for, if it is one. -/
def integer? (s : String) : Option Int := (readInteger s).toOption

/-- An exponent part: absent, or `e`, an optional sign and digits up to the end. -/
def exponentPart? : List Char → Option Int
  | [] => some 0
  | mark :: rest =>
    if mark = 'e' ∨ mark = 'E' then
      let (negative, body) := sign rest
      match digitRun body with
      | ([], _) => none
      | (ds, []) => some (if negative then -(ofDigits ds : Int) else ofDigits ds)
      | _ => none
    else none

/-- An unsigned decimal: digits, optionally a point and digits, optionally an exponent. -/
def unsignedReal? (negative : Bool) (body : List Char) : Option Binary64 :=
  let (whole, afterWhole) := digitRun body
  let (fraction, rest) :=
    match afterWhole with
    | '.' :: more => digitRun more
    | _ => ([], afterWhole)
  if whole = [] ∧ fraction = [] then none
  else (exponentPart? rest).map fun exponent =>
    ofScientific negative (ofDigits (whole ++ fraction)) (exponent - fraction.length)

def real? (s : String) : Option Binary64 :=
  let (negative, body) := sign (Text.trim Text.isNumberBlank s.toList)
  let word := body.map Char.toLower
  if word = "inf".toList ∨ word = "infinity".toList then some (.infinite negative)
  else if word = "nan".toList then some .nan
  else unsignedReal? negative body

end Telemetry.Decimal
