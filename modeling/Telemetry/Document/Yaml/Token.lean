import Telemetry.Document.Yaml.Plain
import Telemetry.Document.Yaml.Quoted

/-!
The tokens of a YAML document: brackets and marks, scalars, and the starts and ends of
blocks that the indentation implies.

- `Yaml.scan`: all tokens of a document as it comes from outside. It is malformed if its
  characters, its indentation or its quotes are wrong. An escape for a character that does not
  exist is a fault, and breaks the tokens off where their reader would meet it.

A key of a block mapping is recognised only by the colon after it. A place where a key may
have started is remembered, and the colon inserts the key mark there, together with the
start of the mapping if its column is further right than the block around it.
-/

namespace Telemetry.Yaml

inductive Token where
  | documentStart | documentEnd
  | blockSequence | blockMapping | blockEnd
  | flowSequence | flowSequenceEnd | flowMapping | flowMappingEnd | flowEntry
  | entry | key | value
  | scalar (plain : Bool) (text : String)
  | broken (fault : Fault)
  deriving DecidableEq

/-- A place where a key may have started. -/
structure PossibleKey where
  place : Nat
  required : Bool
  index : Nat
  line : Nat
  column : Nat
  deriving Repr

/-- How far a document has been read. Columns and lines count from zero; `indents` holds
the columns of the blocks around the innermost one. -/
structure Scanner where
  rest : List Char
  index : Nat := 0
  line : Nat := 0
  column : Nat := 0
  flow : Nat := 0
  indent : Int := -1
  indents : List Int := []
  keyAllowed : Bool := true
  possible : List (Nat × PossibleKey) := []
  tokens : Array Token := #[]

namespace Scanner

def advance : Nat → Scanner → Scanner
  | 0, s => s
  | n + 1, s =>
    match s.rest with
    | [] => s
    | c :: rest =>
      let s := { s with rest, index := s.index + 1 }
      if isBreak c && !(c = '\r' && rest.head? = some '\n') then
        advance n { s with line := s.line + 1, column := 0 }
      else advance n { s with column := if c.toNat = 0xFEFF then s.column else s.column + 1 }

def moveTo (rest : List Char) (s : Scanner) : Scanner :=
  s.advance (s.rest.length - rest.length)

def push (t : Token) (s : Scanner) : Scanner := { s with tokens := s.tokens.push t }

/-- Skips blanks, comments and line ends; in blocks a new line may start with a key. -/
def skipGaps : Nat → Scanner → Scanner
  | 0, s => s
  | fuel + 1, s =>
    let afterBlanks := s.rest.dropWhile (· = ' ')
    let rest :=
      if afterBlanks.head? = some '#' then afterBlanks.dropWhile (!isBreak ·) else afterBlanks
    let s := s.moveTo rest
    if rest.head?.any isBreak then
      let s := s.moveTo (takeBreak rest).2
      skipGaps fuel (if s.flow = 0 then { s with keyAllowed := true } else s)
    else s

/-- Whether a key that started at a place would have had its colon by now: a key stays on
one line and is not too long. -/
def isStale (s : Scanner) (k : PossibleKey) : Bool :=
  k.line != s.line || s.index - k.index > 1024

def dropStale? (s : Scanner) : Option Scanner :=
  if s.possible.any fun p => s.isStale p.2 && p.2.required then none
  else some { s with possible := s.possible.filter fun p => !s.isStale p.2 }

def forgetKey? (s : Scanner) : Option Scanner :=
  if s.possible.any fun p => p.1 = s.flow && p.2.required then none
  else some { s with possible := s.possible.filter (·.1 ≠ s.flow) }

def rememberKey? (s : Scanner) : Option Scanner :=
  if s.keyAllowed then do
    let required := s.flow = 0 && s.indent = (s.column : Int)
    let s ← s.forgetKey?
    return { s with possible :=
      (s.flow, ⟨s.tokens.size, required, s.index, s.line, s.column⟩) :: s.possible }
  else some s

def unwind (column : Int) : List Int → Scanner → Scanner
  | [], s => s
  | outer :: outers, s =>
    if s.indent > column then
      unwind column outers { s with
        indent := outer, indents := outers, tokens := s.tokens.push .blockEnd }
    else s

/-- Ends blocks unless inside a flow collection. -/
def dedent (column : Int) (s : Scanner) : Scanner :=
  if s.flow = 0 then unwind column s.indents s else s

/-- Opens a block if a column is further right than the block around it. -/
def indentTo (column : Nat) (s : Scanner) : Bool × Scanner :=
  if s.indent < (column : Int) then
    (true, { s with indent := column, indents := s.indent :: s.indents })
  else (false, s)

def openFlow? (t : Token) (s : Scanner) : Option Scanner := do
  let s ← s.rememberKey?
  return { s with flow := s.flow + 1, keyAllowed := true }.push t |>.advance 1

def closeFlow? (t : Token) (s : Scanner) : Option Scanner := do
  if s.flow = 0 then none
  let s ← s.forgetKey?
  return { s with flow := s.flow - 1, keyAllowed := false }.push t |>.advance 1

def flowEntry? (s : Scanner) : Option Scanner := do
  let s ← s.forgetKey?
  return { s with keyAllowed := true }.push .flowEntry |>.advance 1

/-- Opens a block of a kind here, in blocks only, where a key may start. -/
def openBlock? (t : Token) (s : Scanner) : Option Scanner :=
  if s.flow ≠ 0 then some s
  else if !s.keyAllowed then none
  else
    let (opened, s) := s.indentTo s.column
    some (if opened then s.push t else s)

/-- The dash of an entry of a block sequence. In a flow collection it is a token as well, of
which no node can be made. -/
def blockEntry? (s : Scanner) : Option Scanner := do
  let s ← s.openBlock? .blockSequence
  let s ← s.forgetKey?
  return { s with keyAllowed := true }.push .entry |>.advance 1

def explicitKey? (s : Scanner) : Option Scanner := do
  let s ← s.openBlock? .blockMapping
  let s ← s.forgetKey?
  return { s with keyAllowed := s.flow = 0 }.push .key |>.advance 1

/-- The colon after a key, or of a value without one. -/
def valueMark? (s : Scanner) : Option Scanner :=
  match s.possible.find? (·.1 = s.flow) with
  | some (_, k) =>
    let s := { s with
      possible := s.possible.filter (·.1 ≠ s.flow)
      tokens := s.tokens.insertIdxIfInBounds k.place .key }
    let (opened, s) := if s.flow = 0 then s.indentTo k.column else (false, s)
    let s :=
      if opened then { s with tokens := s.tokens.insertIdxIfInBounds k.place .blockMapping }
      else s
    some ({ s with keyAllowed := false }.push .value |>.advance 1)
  | none => do
    let s ← s.openBlock? .blockMapping
    let s ← s.forgetKey?
    return { s with keyAllowed := s.flow = 0 }.push .value |>.advance 1

def quotedScalar (double : Bool) (s : Scanner) : Decoded Scanner := do
  let s ← Decoded.ofOption s.rememberKey?
  let (text, rest) ← quoted double (s.rest.length + 1) (s.rest.drop 1)
  return { s with keyAllowed := false }.push (.scalar false (String.ofList text)) |>.moveTo rest

def plainScalar? (s : Scanner) : Option Scanner := do
  let s ← s.rememberKey?
  let (text, rest, broke) :=
    plain (s.flow ≠ 0) (s.indent + 1) (s.rest.length + 1) s.column s.rest
  return { s with keyAllowed := broke }.push (.scalar true (Text.ofRaw (String.ofList text)))
    |>.moveTo rest

def documentMark? (t : Token) (s : Scanner) : Option Scanner := do
  let s ← ({ s with flow := 0 }.dedent (-1)).forgetKey?
  return { s with keyAllowed := false }.push t |>.advance 3

def startsPlain (flow : Bool) (c : Char) (next : Option Char) : Bool :=
  !("-?:,[]\x7b\x7d#&*!|>'\"%@".toList.contains c || c.toNat = 0x60 || isGap c) ||
    (!isGapOrEnd next && (c = '-' || (!flow && (c = '?' || c = ':'))))

def unquotedToken? (c : Char) (s : Scanner) : Option Scanner :=
  let next := (s.rest.drop 1).head?
  let flow := s.flow != 0
  if s.column = 0 && c = '-' && atDocumentMark s.rest then s.documentMark? .documentStart
  else if s.column = 0 && c = '.' && atDocumentMark s.rest then s.documentMark? .documentEnd
  else if c = '[' then s.openFlow? .flowSequence
  else if c = '\x7b' then s.openFlow? .flowMapping
  else if c = ']' then s.closeFlow? .flowSequenceEnd
  else if c = '\x7d' then s.closeFlow? .flowMappingEnd
  else if c = ',' then s.flowEntry?
  else if c = '-' && isGapOrEnd next then s.blockEntry?
  else if c = '?' && (flow || isGapOrEnd next) then s.explicitKey?
  else if c = ':' && (flow || isGapOrEnd next) then s.valueMark?
  else if startsPlain flow c next then s.plainScalar?
  else none

def token (c : Char) (s : Scanner) : Decoded Scanner :=
  if c = '\'' then s.quotedScalar false
  else if c = '"' then s.quotedScalar true
  else Decoded.ofOption (s.unquotedToken? c)

/-- Goes over the gaps here, ends the blocks that end, and takes the next token; tells
whether that was the end. -/
def next (s : Scanner) : Decoded (Scanner × Bool) := do
  let s ← Decoded.ofOption (s.skipGaps (s.rest.length + 1)).dropStale?
  let s := s.dedent s.column
  match s.rest with
  | [] => return (← Decoded.ofOption (s.dedent (-1)).forgetKey?, true)
  | c :: _ => return (← s.token c, false)

/-- The tokens that are final: while a place may still turn out to start a key, the tokens
from there on are not. -/
def finalTokens (s : Scanner) : List Token :=
  let places := (s.possible.filter fun p => !s.isStale p.2).map (·.2.place)
  s.tokens.toList.take (places.foldl min s.tokens.size)

def run : Nat → Scanner → Decoded (List Token)
  | 0, _ => .error .malformed
  | fuel + 1, s =>
    match s.next with
    | .ok (after, false) => run fuel after
    | .ok (after, true) => .ok after.tokens.toList
    | .error .malformed => .error .malformed
    | .error (.stopped fault) => .ok (s.finalTokens ++ [.broken fault])

end Scanner

/-- The tokens of a document. A byte order mark may stand before it. -/
def scan (document : String) : Decoded (List Token) :=
  let cs := document.toList
  if !cs.all isAllowed then .error .malformed
  else
    let cs := if cs.head?.any (·.toNat = 0xFEFF) then cs.drop 1 else cs
    Scanner.run (cs.length + 1) { rest := cs }

end Telemetry.Yaml
