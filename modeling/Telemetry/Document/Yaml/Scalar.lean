import Telemetry.Binary64.Arithmetic
import Telemetry.Document.CivilParts
import Telemetry.Document.Json
import Telemetry.Text.Case

/-!
The values of scalars in YAML 1.1. Quoted ones are texts; plain ones are nulls, truth
values, integers in four bases and in sexagesimal places, floats with a point, dates with
or without a time, and texts for everything else.

- `Yaml.scalarValue`: the value of a scalar, plain or quoted.
- `Yaml.resolve`: the value of a plain scalar. A form decides what a scalar is; it is a
  fault if there is no such value.
-/

namespace Telemetry.Yaml

open CivilParts (year? twoDigits? shortNumber? after?)
open Text (isAsciiDigit)

def isOctal (c : Char) : Bool := '0' ≤ c && c ≤ '7'

def isBinary (c : Char) : Bool := c = '0' || c = '1'

def isHex (c : Char) : Bool := (Json.hexDigit? c).isSome

def natIn (base : Nat) (cs : List Char) : Nat :=
  (cs.filter (· ≠ '_')).foldl (fun n c => base * n + (Json.hexDigit? c).getD 0) 0

/-- A nonempty list of characters of a class and underscores. -/
def isRun (p : Char → Bool) (cs : List Char) : Bool :=
  !cs.isEmpty && cs.all fun c => p c || c = '_'

/-- A digit followed by digits and underscores. -/
def isNumeral (cs : List Char) : Bool :=
  cs.head?.any isAsciiDigit && isRun isAsciiDigit cs

/-- A sexagesimal place: one or two digits below sixty. -/
def isPlace (cs : List Char) : Bool :=
  match cs with
  | [c] => isAsciiDigit c
  | [d, c] => '0' ≤ d && d ≤ '5' && isAsciiDigit c
  | _ => false

/-- The digits of a run in a base; there has to be one among the underscores. -/
def basedNatural (base : Nat) (cs : List Char) : Decoded Nat :=
  if cs.all (· = '_') then .error (.stopped (.noDigits base)) else .ok (natIn base cs)

def decimalNatural (cs : List Char) : Decoded Nat :=
  (Decoded.integer false (cs.filter (· ≠ '_'))).map Int.toNat

def natOfPlaces (first : Nat) (places : List (List Char)) : Nat :=
  places.foldl (fun n place => 60 * n + natIn 10 place) first

def unsignedInteger? (cs : List Char) : Option (Decoded Nat) :=
  match cs with
  | ['0'] => some (.ok 0)
  | '0' :: 'b' :: ds => if isRun isBinary ds then some (basedNatural 2 ds) else none
  | '0' :: 'x' :: ds => if isRun isHex ds then some (basedNatural 16 ds) else none
  | '0' :: ds => if isRun isOctal ds then some (.ok (natIn 8 ds)) else none
  | _ =>
    match cs.splitOn ':' with
    | first :: places =>
      if isNumeral first && places.all isPlace then
        some ((decimalNatural first).map fun n => natOfPlaces n places)
      else none
    | [] => none

/-- An exponent, which needs a sign. -/
def exponent? (cs : List Char) : Option Int :=
  match cs with
  | [] => some 0
  | mark :: s :: ds =>
    if (mark = 'e' ∨ mark = 'E') ∧ (s = '+' ∨ s = '-') ∧ !ds.isEmpty ∧ ds.all isAsciiDigit then
      some (if s = '-' then -(natIn 10 ds : Int) else natIn 10 ds)
    else none
  | _ => none

/-- A number of digits before and after a point, with an exponent. -/
def pointed? (negative : Bool) (whole after : List Char) : Option Binary64 :=
  let inFraction (c : Char) : Bool := isAsciiDigit c || c = '_'
  let fraction := (after.takeWhile inFraction).filter (· ≠ '_')
  (exponent? (after.dropWhile inFraction)).map fun e =>
    Decimal.ofScientific negative (natIn 10 (whole ++ fraction)) (e - fraction.length)

/-- The sum of places, the lowest first, each times its power of sixty. -/
def sumOfPlaces (unit : Nat) (sum : Binary64) : List Binary64 → Except Fault Binary64
  | [] => .ok sum
  | place :: higher => do
    let scale ← Binary64.ofIntWithin unit
    sumOfPlaces (60 * unit) (sum + place * scale) higher

def pointedPlaces (negative : Bool) (places : List (List Char)) (after : List Char) :
    Decoded Binary64 :=
  let fraction := after.filter (· ≠ '_')
  let last := Decimal.ofScientific false
    (natIn 10 (places.getLastD [] ++ fraction)) (-fraction.length)
  let higher := places.dropLast.reverse.map fun place => Binary64.ofInt (natIn 10 place)
  match sumOfPlaces 1 .zero (last :: higher) with
  | .ok total => .ok (if negative then -total else total)
  | .error fault => .error (.stopped fault)

/-- A float: with a point, an infinity or NaN. Without a digit before the point there is
no sign. Nothing for another form. -/
def float? (cs : List Char) : Option (Decoded Binary64) :=
  let signed := cs.head?.any fun c => c = '+' || c = '-'
  let (negative, body) := Decimal.sign cs
  if [".inf", ".Inf", ".INF"].any (·.toList = body) then some (.ok (.infinite negative))
  else if [".nan", ".NaN", ".NAN"].any (·.toList = cs) then some (.ok .nan)
  else
    let whole := body.takeWhile (· ≠ '.')
    match body.dropWhile (· ≠ '.') with
    | [] => none
    | _ :: after =>
      if whole = [] then
        if !signed && after.head?.any isAsciiDigit then (pointed? false [] after).map .ok
        else none
      else if isNumeral whole then (pointed? negative whole after).map .ok
      else
        match whole.splitOn ':' with
        | first :: place :: places =>
          if isNumeral first && (place :: places).all isPlace &&
              after.all (fun c => isAsciiDigit c || c = '_') then
            some (pointedPlaces negative (first :: place :: places) after)
          else none
        | _ => none

def date? (cs : List Char) : Option CivilTime := do
  let (year, rest) ← year? cs
  let (month, rest) ← twoDigits? 99 (← after? '-' rest)
  let (day, rest) ← twoDigits? 99 (← after? '-' rest)
  if rest = [] then some (.date ⟨year, month, day⟩) else none

/-- What follows the mark between a date and a time: a letter, or blanks. -/
def afterDate? (cs : List Char) : Option (List Char) :=
  match cs with
  | 'T' :: rest => some rest
  | 't' :: rest => some rest
  | ' ' :: rest => some (rest.dropWhile fun c => c = ' ' || c = '\t')
  | '\t' :: rest => some (rest.dropWhile fun c => c = ' ' || c = '\t')
  | _ => none

/-- An offset from UTC in minutes, up to the end; there may be none. -/
def offset? (cs : List Char) : Option (Option Int) :=
  if cs = [] then some none
  else
    match cs.dropWhile fun c => c = ' ' || c = '\t' with
    | ['Z'] => some (some 0)
    | mark :: rest => do
      if mark ≠ '+' ∧ mark ≠ '-' then none
      let (hours, rest) ← shortNumber? rest
      let (minutes, rest) ←
        if rest = [] then some (0, []) else twoDigits? 99 (← after? ':' rest)
      if rest ≠ [] then none
      let total : Int := 60 * hours + minutes
      return some (if mark = '-' then -total else total)
    | [] => none

def dateTime? (cs : List Char) : Option CivilTime := do
  let (year, rest) ← year? cs
  let (month, rest) ← shortNumber? (← after? '-' rest)
  let (day, rest) ← shortNumber? (← after? '-' rest)
  let (hour, rest) ← shortNumber? (← afterDate? rest)
  let (minute, rest) ← twoDigits? 99 (← after? ':' rest)
  let (second, rest) ← twoDigits? 99 (← after? ':' rest)
  let (fraction, rest) :=
    match rest with
    | '.' :: rest => (rest.takeWhile isAsciiDigit, rest.dropWhile isAsciiDigit)
    | _ => ([], rest)
  let minutes ← offset? rest
  return .dateTime ⟨year, month, day⟩
    ⟨hour, minute, second, CivilParts.microseconds fraction⟩ minutes

def words : List (String × Value) :=
  ["", "~", "null", "Null", "NULL"].map (·, .null) ++
  ["yes", "Yes", "YES", "true", "True", "TRUE", "on", "On", "ON"].map (·, .bool true) ++
  ["no", "No", "NO", "false", "False", "FALSE", "off", "Off", "OFF"].map (·, .bool false)

def civilValue (time : CivilTime) : Decoded Value :=
  match time.problem? with
  | none => .ok (.civil time)
  | some problem => .error (.stopped (.noSuchTime problem))

def signedInteger? (cs : List Char) : Option (Decoded Value) :=
  let (negative, body) := Decimal.sign cs
  (unsignedInteger? body).map fun r => r.map fun n => .int (if negative then -(n : Int) else n)

def resolve (s : String) : Decoded Value :=
  match words.find? (·.1 = s) with
  | some w => .ok w.2
  | none =>
    let cs := s.toList
    let float := (float? cs).map fun r => r.map .float
    let civil := ((date? cs).or (dateTime? cs)).map civilValue
    (float.or ((signedInteger? cs).or civil)).getD (.ok (.text s))

/-- The value of a scalar. The plain equals sign and the plain merge mark have types of
their own, which no value has. -/
def scalarValue (isPlain : Bool) (s : String) : Decoded Value :=
  if !isPlain then .ok (.text s)
  else if s = "=" ∨ s = "<<" then .error .malformed
  else resolve s

end Telemetry.Yaml
