import Telemetry.Document.Toml.Scalar
import Telemetry.Document.Toml.Tree

/-!
Reading TOML 1.0 documents: tables, arrays of tables, dotted and quoted keys, the four
kinds of strings, numbers in all forms, dates and times, arrays and inline tables.

Readers take the characters that are left and return what they read with the rest.
-/

namespace Telemetry.Toml

open Json (hexDigit? afterWord?)

/-- Control characters, which occur neither in strings nor in comments; the tab may. -/
def isControl (c : Char) : Bool := (c.toNat < 0x20 && c != '\t') || c.toNat == 0x7F

def isSpace (c : Char) : Bool := c = ' ' || c = '\t'

def skipSpace (cs : List Char) : List Char := cs.dropWhile isSpace

def isBareKey (c : Char) : Bool := c.isAlphanum || c = '-' || c = '_'

def skipComment? (cs : List Char) : Option (List Char) :=
  match cs with
  | '#' :: rest =>
    if (rest.takeWhile (· != '\n')).any isControl then none
    else some (rest.dropWhile (· != '\n'))
  | _ => some cs

def skipLines? : Nat → List Char → Option (List Char)
  | 0, cs => some cs
  | fuel + 1, cs =>
    match cs.dropWhile fun c => isSpace c || c = '\n' with
    | '#' :: rest => do
      let rest ← skipComment? ('#' :: rest)
      skipLines? fuel rest
    | rest => some rest

/-- The text of so many hexadecimal digits, and the rest; surrogates are refused. -/
def hexChar? (width : Nat) (cs : List Char) : Option (List Char × List Char) := do
  let ds ← (cs.take width).mapM hexDigit?
  if ds.length ≠ width then none
  let n := ds.foldl (fun n d => 16 * n + d) 0
  if n < 0x110000 ∧ !Text.isSurrogate n then return (Text.written n, cs.drop width)
  else none

def escape? (cs : List Char) : Option (List Char × List Char) :=
  match cs with
  | 'b' :: rest => some (['\x08'], rest)
  | 't' :: rest => some (['\t'], rest)
  | 'n' :: rest => some (['\n'], rest)
  | 'f' :: rest => some (['\x0c'], rest)
  | 'r' :: rest => some (['\r'], rest)
  | '"' :: rest => some (['"'], rest)
  | '\\' :: rest => some (['\\'], rest)
  | 'u' :: rest => hexChar? 4 rest
  | 'U' :: rest => hexChar? 8 rest
  | _ => none

/-- A basic string after its opening quote. -/
def basic? : Nat → List Char → Option (List Char × List Char)
  | 0, _ => none
  | fuel + 1, cs =>
    match cs with
    | [] => none
    | '"' :: rest => some ([], rest)
    | '\\' :: rest => do
      let (text, rest) ← escape? rest
      let (more, rest) ← basic? fuel rest
      return (text ++ more, rest)
    | c :: rest => do
      if isControl c then none
      let (more, rest) ← basic? fuel rest
      return (c :: more, rest)

/-- What follows a backslash that ends a line of a string: blanks up to the line end, and
all blanks and line ends after it. -/
def continued? (cs : List Char) : Option (List Char) :=
  match skipSpace cs with
  | [] => some []
  | '\n' :: rest => some (rest.dropWhile fun c => isSpace c || c = '\n')
  | _ => none

/-- A basic string of several lines after its opening quotes. -/
def multiBasic? : Nat → List Char → Option (List Char × List Char)
  | 0, _ => none
  | fuel + 1, cs =>
    match cs with
    | [] => none
    | '"' :: '"' :: '"' :: rest => some ([], rest)
    | '\\' :: c :: rest =>
      if isSpace c || c = '\n' then do
        let rest ← continued? (c :: rest)
        multiBasic? fuel rest
      else do
        let (text, rest) ← escape? (c :: rest)
        let (more, rest) ← multiBasic? fuel rest
        return (text ++ more, rest)
    | c :: rest => do
      if c = '\\' ∨ (isControl c ∧ c ≠ '\n') then none
      let (more, rest) ← multiBasic? fuel rest
      return (c :: more, rest)

/-- A literal string after its opening apostrophe. -/
def literal? (cs : List Char) : Option (List Char × List Char) :=
  let body := cs.takeWhile (· != '\'')
  match cs.dropWhile (· != '\'') with
  | [] => none
  | _ :: rest => if body.any isControl then none else some (body, rest)

/-- A literal string of several lines after its opening apostrophes. -/
def multiLiteral? : List Char → Option (List Char × List Char)
  | [] => none
  | '\'' :: '\'' :: '\'' :: rest => some ([], rest)
  | c :: rest => do
    if isControl c ∧ c ≠ '\n' then none
    let (more, rest) ← multiLiteral? rest
    return (c :: more, rest)

/-- Up to two more delimiters belong to a string that they directly follow. -/
def extraDelimiters (delimiter : Char) (s : List Char × List Char) : List Char × List Char :=
  let extra := (s.2.takeWhile (· = delimiter)).take 2
  (s.1 ++ extra, s.2.drop extra.length)

/-- A line end directly after the opening delimiter does not count. -/
def dropLineEnd (cs : List Char) : List Char :=
  match cs with
  | '\n' :: rest => rest
  | _ => cs

def string? (cs : List Char) : Option (String × List Char) :=
  let read :=
    match cs with
    | '"' :: '"' :: '"' :: rest =>
      (multiBasic? (rest.length + 1) (dropLineEnd rest)).map (extraDelimiters '"')
    | '"' :: rest => basic? (rest.length + 1) rest
    | '\'' :: '\'' :: '\'' :: rest =>
      (multiLiteral? (dropLineEnd rest)).map (extraDelimiters '\'')
    | '\'' :: rest => literal? rest
    | _ => none
  read.map fun s => (String.ofList s.1, s.2)

def keyPart? (cs : List Char) : Option (String × List Char) :=
  match cs with
  | '\'' :: rest => (literal? rest).map fun s => (String.ofList s.1, s.2)
  | '"' :: rest => (basic? (rest.length + 1) rest).map fun s => (String.ofList s.1, s.2)
  | _ =>
    let bare := cs.takeWhile isBareKey
    if bare = [] then none else some (String.ofList bare, cs.dropWhile isBareKey)

/-- A key of one or more parts, with the blanks after it. -/
def key? : Nat → List Char → Option (List String × List Char)
  | 0, _ => none
  | fuel + 1, cs => do
    let (part, rest) ← keyPart? cs
    match skipSpace rest with
    | '.' :: rest => do
      let (parts, rest) ← key? fuel (skipSpace rest)
      return (part :: parts, rest)
    | rest => return ([part], rest)

mutual

def value : Nat → List Char → Decoded (Value × List Char)
  | 0, _ => .error .malformed
  | fuel + 1, cs =>
    match cs with
    | '"' :: _ => (Decoded.ofOption (string? cs)).map fun s => (.text s.1, s.2)
    | '\'' :: _ => (Decoded.ofOption (string? cs)).map fun s => (.text s.1, s.2)
    | '[' :: rest => do
      let rest ← Decoded.ofOption (skipLines? rest.length rest)
      let (items, rest) ← items fuel rest
      return (.list items, rest)
    | '\x7b' :: rest =>
      match skipSpace rest with
      | '\x7d' :: rest => .ok (.map [], rest)
      | rest => (pairs fuel [] rest).map fun r => (.map (entriesValue r.1), r.2)
    | _ => scalar cs

/-- The items of an array up to its closing bracket; a comma may stand before it. -/
def items : Nat → List Char → Decoded (List Value × List Char)
  | 0, _ => .error .malformed
  | fuel + 1, cs => do
    match cs with
    | ']' :: rest => return ([], rest)
    | _ => do
      let (v, rest) ← value fuel cs
      let rest ← Decoded.ofOption (skipLines? rest.length rest)
      match rest with
      | ']' :: rest => return ([v], rest)
      | ',' :: rest => do
        let rest ← Decoded.ofOption (skipLines? rest.length rest)
        let (more, rest) ← items fuel rest
        return (v :: more, rest)
      | _ => .error .malformed

/-- The pairs of an inline table up to its closing brace, added to those read before. -/
def pairs : Nat → Entries → List Char → Decoded (Entries × List Char)
  | 0, _, _ => .error .malformed
  | fuel + 1, entries, cs => do
    let (key, rest) ← Decoded.ofOption (key? cs.length cs)
    match rest with
    | '=' :: rest => do
      let (v, rest) ← value fuel (skipSpace rest)
      let entries ← Decoded.ofOption (assign 0 v key entries)
      match skipSpace rest with
      | '\x7d' :: rest => return (entries, rest)
      | ',' :: rest => pairs fuel entries (skipSpace rest)
      | _ => .error .malformed
    | _ => .error .malformed

end

/-- What has been read: the tree, the header of the section, and the section's number. -/
structure Progress where
  tree : Entries := []
  header : List String := []
  part : Nat := 0

/-- A header after its brackets: the section it opens. -/
def header? (array : Bool) (p : Progress) (cs : List Char) : Option (Progress × List Char) := do
  let (key, rest) ← key? cs.length (skipSpace cs)
  let close := if array then "]]" else "]"
  let rest ← afterWord? close rest
  let last ← key.getLast?
  let tree ← below (if array then appendTable last else openTable last) key.dropLast p.tree
  return (⟨tree, key, p.part + 1⟩, rest)

def pair (p : Progress) (cs : List Char) : Decoded (Progress × List Char) := do
  let (key, rest) ← Decoded.ofOption (key? cs.length cs)
  match rest with
  | '=' :: rest => do
    let (v, rest) ← value (rest.length + 1) (skipSpace rest)
    let tree ← Decoded.ofOption (below (assign p.part v key) p.header p.tree)
    return ({ p with tree }, rest)
  | _ => .error .malformed

/-- One statement, if there is one on the line. -/
def statement (p : Progress) (cs : List Char) : Decoded (Progress × List Char) :=
  match cs with
  | '[' :: '[' :: rest => Decoded.ofOption (header? true p rest)
  | '[' :: rest => Decoded.ofOption (header? false p rest)
  | c :: _ =>
    if c = '#' ∨ c = '\n' then .ok (p, cs)
    else pair p cs
  | [] => .ok (p, [])

def statements : Nat → Progress → List Char → Decoded Progress
  | 0, _, _ => .error .malformed
  | fuel + 1, p, cs => do
    let (p, rest) ← statement p (skipSpace cs)
    let rest ← Decoded.ofOption (skipComment? (skipSpace rest))
    match rest with
    | [] => return p
    | '\n' :: rest => statements fuel p rest
    | _ => .error .malformed

def read (document : String) : Decoded Value :=
  let cs := document.toList
  (statements (cs.length + 1) {} cs).map fun p => .map (entriesValue p.tree)

end Telemetry.Toml
