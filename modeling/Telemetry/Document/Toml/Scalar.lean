import Telemetry.Document.CivilParts
import Telemetry.Document.Json

/-!
The scalars of TOML documents that are no strings: truth values, numbers in all forms,
dates and times.

- `Toml.scalar`: the scalar at the start, and what follows it.
-/

namespace Telemetry.Toml

open CivilParts (year? twoDigits? after?)
open Json (hexDigit? afterWord?)

/-- Digits of a class with single underscores between them: without the underscores, and
the rest. -/
def digitsOf (p : Char → Bool) : Bool → List Char → List Char × List Char
  | _, [] => ([], [])
  | after, c :: rest =>
    if p c then
      let run := digitsOf p true rest
      (c :: run.1, run.2)
    else if c = '_' ∧ after ∧ rest.head?.any p then digitsOf p false rest
    else ([], c :: rest)

/-- A whole number in base two, eight or sixteen, after its leading zero. -/
def based? (cs : List Char) : Option (Value × List Char) :=
  let read (base : Nat) (p : Char → Bool) (rest : List Char) :=
    let run := digitsOf p false rest
    if run.1 = [] then none
    else some (.int (run.1.foldl (fun n c => base * n + (hexDigit? c).getD 0) 0 : Nat), run.2)
  match cs with
  | 'x' :: rest => read 16 (fun c => (hexDigit? c).isSome) rest
  | 'o' :: rest => read 8 (fun c => '0' ≤ c && c ≤ '7') rest
  | 'b' :: rest => read 2 (fun c => c = '0' || c = '1') rest
  | _ => none

def fraction (cs : List Char) : List Char × List Char :=
  match cs with
  | '.' :: rest =>
    let run := digitsOf Text.isAsciiDigit false rest
    if run.1 = [] then ([], cs) else run
  | _ => ([], cs)

def exponent (cs : List Char) : Option Int × List Char :=
  match cs with
  | mark :: rest =>
    if mark = 'e' ∨ mark = 'E' then
      let (negative, body) := Decimal.sign rest
      let run := digitsOf Text.isAsciiDigit false body
      if run.1 = [] then (none, cs)
      else
        (some (if negative then -(Decoded.natural run.1 : Int) else Decoded.natural run.1), run.2)
    else (none, cs)
  | [] => (none, cs)

/-- A decimal number: an integer if it has neither fraction nor exponent. -/
def decimal (cs : List Char) : Decoded (Value × List Char) :=
  let (negative, body) := Decimal.sign cs
  let (whole, rest) :=
    match body with
    | '0' :: rest => (['0'], rest)
    | _ => digitsOf Text.isAsciiDigit false body
  if whole = [] then .error .malformed
  else
    let (part, rest) := fraction rest
    let (power, rest) := exponent rest
    if part = [] ∧ power = none then
      (Decoded.integer negative whole).map fun n => (.int n, rest)
    else
      .ok (.float (Decimal.ofScientific negative (Decoded.natural (whole ++ part))
        (power.getD 0 - part.length)), rest)

def words : List (String × Value) :=
  [("true", .bool true), ("false", .bool false), ("inf", .float (.infinite false)),
    ("+inf", .float (.infinite false)), ("-inf", .float (.infinite true)),
    ("nan", .float .nan), ("+nan", .float .nan), ("-nan", .float .nan)]

def microseconds (cs : List Char) : Nat × List Char :=
  match cs with
  | '.' :: rest =>
    let ds := rest.takeWhile Text.isAsciiDigit
    if ds = [] then (0, cs)
    else (CivilParts.microseconds ds, rest.dropWhile Text.isAsciiDigit)
  | _ => (0, cs)

def timeOfDay? (cs : List Char) : Option (TimeOfDay × List Char) := do
  let (hour, rest) ← twoDigits? 23 cs
  let (minute, rest) ← twoDigits? 59 (← after? ':' rest)
  let (second, rest) ← twoDigits? 59 (← after? ':' rest)
  let (micro, rest) := microseconds rest
  return (⟨hour, minute, second, micro⟩, rest)

/-- A date whose month and day are numbers that some month and day have. -/
def date? (cs : List Char) : Option (Date × List Char) := do
  let (year, rest) ← year? cs
  let (month, rest) ← twoDigits? 12 (← after? '-' rest)
  let (day, rest) ← twoDigits? 31 (← after? '-' rest)
  if month = 0 ∨ day = 0 then none
  return (⟨year, month, day⟩, rest)

def offset (cs : List Char) : Option Int × List Char :=
  match cs with
  | [] => (none, [])
  | c :: rest =>
    if c = 'Z' ∨ c = 'z' then (some 0, rest)
    else if c = '+' ∨ c = '-' then
      let read := do
        let (hours, rest) ← twoDigits? 23 rest
        let (minutes, rest) ← twoDigits? 59 (← after? ':' rest)
        return (((60 * hours + minutes : Nat) : Int), rest)
      match read with
      | some (minutes, rest) => (some (if c = '-' then -minutes else minutes), rest)
      | none => (none, cs)
    else (none, cs)

def timeAfterDate? (cs : List Char) : Option (TimeOfDay × List Char) :=
  match cs with
  | c :: rest => if c = 'T' ∨ c = 't' ∨ c = ' ' then timeOfDay? rest else none
  | [] => none

def civil? (cs : List Char) : Option (CivilTime × List Char) :=
  match date? cs with
  | some (date, rest) =>
    match timeAfterDate? rest with
    | some (time, rest) =>
      let (minutes, rest) := offset rest
      some (.dateTime date time minutes, rest)
    | none => some (.date date, rest)
  | none => (timeOfDay? cs).map fun t => (.time t.1, t.2)

/-- A value that is neither a string nor holds others. -/
def scalar (cs : List Char) : Decoded (Value × List Char) :=
  match words.findSome? fun w => (afterWord? w.1 cs).map fun rest => (w.2, rest) with
  | some r => .ok r
  | none =>
    match civil? cs with
    | some (time, rest) =>
      if time.problem? = none then .ok (.civil time, rest) else .error .malformed
    | none =>
      match cs with
      | '0' :: rest =>
        match based? rest with
        | some r => .ok r
        | none => decimal cs
      | _ => decimal cs

end Telemetry.Toml
