import Telemetry.Document.Decoded
import Telemetry.Text.Surrogate

/-!
Reading JSON documents. Beyond the standard, the words `NaN`, `Infinity` and `-Infinity`
are numbers; of a repeated key the last value counts; an escaped surrogate may stand alone.

Readers take the characters that are left and return what they read with the rest. The
fuel of the mutually recursive ones is the length of the document: each call consumes a
character before the next.
-/

namespace Telemetry.Json

def isSpace (c : Char) : Bool := c = ' ' || c = '\t' || c = '\n' || c = '\r'

def skipSpace (cs : List Char) : List Char := cs.dropWhile isSpace

def hexDigit? (c : Char) : Option Nat :=
  if '0' ≤ c ∧ c ≤ '9' then some (c.toNat - '0'.toNat)
  else if 'a' ≤ c ∧ c ≤ 'f' then some (c.toNat - 'a'.toNat + 10)
  else if 'A' ≤ c ∧ c ≤ 'F' then some (c.toNat - 'A'.toNat + 10)
  else none

def hex4? (a b c d : Char) : Option Nat := do
  let a ← hexDigit? a
  let b ← hexDigit? b
  let c ← hexDigit? c
  let d ← hexDigit? d
  return ((a * 16 + b) * 16 + c) * 16 + d

def shortEscape? (c : Char) : Option Char :=
  match c with
  | '"' => some '"'
  | '\\' => some '\\'
  | '/' => some '/'
  | 'b' => some '\x08'
  | 'f' => some '\x0c'
  | 'n' => some '\n'
  | 'r' => some '\r'
  | 't' => some '\t'
  | _ => none

/-- The contents of a string up to its closing quote, as numbers: code points, and the
code units of numeric escapes. -/
def units? : List Char → Option (List Nat × List Char)
  | [] => none
  | '"' :: rest => some ([], rest)
  | '\\' :: 'u' :: a :: b :: c :: d :: rest => do
    let unit ← hex4? a b c d
    let (more, rest) ← units? rest
    return (unit :: more, rest)
  | '\\' :: c :: rest => do
    let c ← shortEscape? c
    let (more, rest) ← units? rest
    return (c.toNat :: more, rest)
  | c :: rest => do
    if c.toNat < 0x20 then none
    let (more, rest) ← units? rest
    return (c.toNat :: more, rest)

/-- A string after its opening quote. -/
def string? (cs : List Char) : Option (String × List Char) :=
  (units? cs).map fun u => (String.ofList (Text.joinPairs u.1), u.2)

def digits (cs : List Char) : List Char × List Char :=
  (cs.takeWhile Text.isAsciiDigit, cs.dropWhile Text.isAsciiDigit)

def fraction (cs : List Char) : List Char × List Char :=
  match cs with
  | '.' :: rest =>
    let (ds, more) := digits rest
    if ds = [] then ([], cs) else (ds, more)
  | _ => ([], cs)

def exponent (cs : List Char) : Option Int × List Char :=
  match cs with
  | mark :: rest =>
    if mark = 'e' ∨ mark = 'E' then
      let (negative, body) := Decimal.sign rest
      let (ds, more) := digits body
      if ds = [] then (none, cs)
      else (some (if negative then -(Decoded.natural ds : Int) else Decoded.natural ds), more)
    else (none, cs)
  | [] => (none, cs)

/-- A number: an integer if it has neither fraction nor exponent. -/
def number (cs : List Char) : Decoded (Value × List Char) :=
  let (negative, body) :=
    match cs with
    | '-' :: rest => (true, rest)
    | _ => (false, cs)
  let (all, afterAll) := digits body
  let (whole, rest) :=
    match body with
    | '0' :: afterZero => (['0'], afterZero)
    | _ => (all, afterAll)
  if whole = [] then .error .malformed
  else
    let (part, rest) := fraction rest
    let (power, rest) := exponent rest
    if part = [] ∧ power = none then
      (Decoded.integer negative whole).map fun n => (.int n, rest)
    else
      .ok (.float (Decimal.ofScientific negative (Decoded.natural (whole ++ part))
        (power.getD 0 - part.length)), rest)

def afterWord? (word : String) (cs : List Char) : Option (List Char) :=
  if word.toList.isPrefixOf cs then some (cs.drop word.length) else none

def words : List (String × Value) :=
  [("null", .null), ("true", .bool true), ("false", .bool false), ("NaN", .float .nan),
    ("Infinity", .float (.infinite false)), ("-Infinity", .float (.infinite true))]

def scalar (cs : List Char) : Decoded (Value × List Char) :=
  match words.findSome? fun w => (afterWord? w.1 cs).map fun rest => (w.2, rest) with
  | some r => .ok r
  | none => number cs

mutual

/-- A value, without blanks before it. -/
def value : Nat → List Char → Decoded (Value × List Char)
  | 0, _ => .error .malformed
  | fuel + 1, cs =>
    match cs with
    | '"' :: rest => (Decoded.ofOption (string? rest)).map fun s => (.text s.1, s.2)
    | '[' :: rest =>
      match skipSpace rest with
      | ']' :: rest => .ok (.list [], rest)
      | rest => (items fuel rest).map fun r => (.list r.1, r.2)
    | '\x7b' :: rest =>
      match skipSpace rest with
      | '\x7d' :: rest => .ok (.map [], rest)
      | rest => (members fuel [] rest).map fun r => (.map r.1, r.2)
    | _ => scalar cs

def items : Nat → List Char → Decoded (List Value × List Char)
  | 0, _ => .error .malformed
  | fuel + 1, cs => do
    let (v, rest) ← value fuel cs
    match skipSpace rest with
    | ']' :: rest => return ([v], rest)
    | ',' :: rest => do
      let (more, rest) ← items fuel (skipSpace rest)
      return (v :: more, rest)
    | _ => .error .malformed

/-- The members of a map up to its closing brace, added to those read before. -/
def members : Nat → List (Value × Value) → List Char →
    Decoded (List (Value × Value) × List Char)
  | 0, _, _ => .error .malformed
  | fuel + 1, entries, cs => do
    match cs with
    | '"' :: rest => do
      let (key, rest) ← Decoded.ofOption (string? rest)
      match skipSpace rest with
      | ':' :: rest => do
        let (v, rest) ← value fuel (skipSpace rest)
        let entries := Value.setEntry (.text key) v entries
        match skipSpace rest with
        | '\x7d' :: rest => return (entries, rest)
        | ',' :: rest => members fuel entries (skipSpace rest)
        | _ => .error .malformed
      | _ => .error .malformed
    | _ => .error .malformed

end

def read (document : String) : Decoded Value := do
  let cs := document.toList
  let (v, rest) ← value (cs.length + 1) (skipSpace cs)
  if skipSpace rest = [] then return v
  .error .malformed

end Telemetry.Json
