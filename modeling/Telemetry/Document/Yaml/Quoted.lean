import Telemetry.Document.Json
import Telemetry.Document.Yaml.LineEnd

/-!
Quoted scalars of YAML documents: in double quotes with escapes, or in single quotes, where
a quote is written twice. Line ends inside are folded.

- `Yaml.quoted`: the text of a quoted scalar, and what follows it.
-/

namespace Telemetry.Yaml

def shortEscape? (c : Char) : Option Char :=
  match c with
  | '0' => some '\x00' | 'a' => some '\x07' | 'b' => some '\x08' | 't' => some '\t'
  | '\t' => some '\t' | 'n' => some '\n' | 'v' => some '\x0b' | 'f' => some '\x0c'
  | 'r' => some '\r' | 'e' => some '\x1b' | ' ' => some ' ' | '"' => some '"'
  | '\\' => some '\\' | '/' => some '/' | 'N' => some '\u0085' | '_' => some '\u00a0'
  | 'L' => some '\u2028' | 'P' => some '\u2029'
  | _ => none

def hexWidth? (c : Char) : Option Nat :=
  match c with
  | 'x' => some 2
  | 'u' => some 4
  | 'U' => some 8
  | _ => none

/-- The line ends and blanks that start the lines after a first line end: the line ends
that count, and the rest. A document mark may not stand there. -/
def foldedBreaks? : Nat → List Char → Option (List Char × List Char)
  | 0, _ => none
  | fuel + 1, cs =>
    if atDocumentMark cs then none
    else
      let rest := cs.dropWhile fun c => c = ' ' || c = '\t'
      if rest.head?.any isBreak then do
        let (c, rest) := takeBreak rest
        let (more, rest) ← foldedBreaks? fuel rest
        return (c :: more, rest)
      else some ([], rest)

def escaped (n : Nat) : Decoded (List Char) :=
  if n < 0x110000 then .ok (Text.written n)
  else if n < 0x80000000 then .error (.stopped .notCodePoint)
  else .error (.stopped .codePointTooLarge)

/-- The text of so many hexadecimal digits, and the rest. -/
def hexEscape (width : Nat) (cs : List Char) : Decoded (List Char × List Char) := do
  let ds ← Decoded.ofOption ((cs.take width).mapM Json.hexDigit?)
  if ds.length ≠ width then .error .malformed
  let text ← escaped (ds.foldl (fun n d => 16 * n + d) 0)
  return (text, cs.drop width)

/-- A quoted scalar after its opening quote. -/
def quoted (double : Bool) : Nat → List Char → Decoded (List Char × List Char)
  | 0, _ => .error .malformed
  | fuel + 1, cs =>
    match cs with
    | [] => .error .malformed
    | c :: rest =>
      if c = (if double then '"' else '\'') then
        if !double && rest.head? = some '\'' then do
          let (more, rest) ← quoted double fuel (rest.drop 1)
          return ('\'' :: more, rest)
        else .ok ([], rest)
      else if double && c = '\\' then
        match rest with
        | [] => .error .malformed
        | e :: rest =>
          match shortEscape? e, hexWidth? e with
          | some x, _ => do
            let (more, rest) ← quoted double fuel rest
            return (x :: more, rest)
          | none, some width => do
            let (text, rest) ← hexEscape width rest
            let (more, rest) ← quoted double fuel rest
            return (text ++ more, rest)
          | none, none =>
            if isBreak e then do
              let (_, rest) := takeBreak (e :: rest)
              let (breaks, rest) ← Decoded.ofOption (foldedBreaks? fuel rest)
              let (more, rest) ← quoted double fuel rest
              return (breaks ++ more, rest)
            else .error .malformed
      else if isGap c then
        let blanks := cs.takeWhile fun c => c = ' ' || c = '\t'
        let rest := cs.dropWhile fun c => c = ' ' || c = '\t'
        if rest = [] then .error .malformed
        else if rest.head?.any isBreak then do
          let (first, rest) := takeBreak rest
          let (breaks, rest) ← Decoded.ofOption (foldedBreaks? fuel rest)
          let (more, rest) ← quoted double fuel rest
          return (fold first breaks ++ more, rest)
        else do
          let (more, rest) ← quoted double fuel rest
          return (blanks ++ more, rest)
      else do
        let (more, rest) ← quoted double fuel rest
        return (Text.written c.toNat ++ more, rest)

end Telemetry.Yaml
