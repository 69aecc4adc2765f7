import Telemetry.Document.Yaml.Node
import Telemetry.Document.Yaml.Token

/-!
A reader of YAML 1.1 documents of block and flow collections, plain and quoted scalars and
comments. It is one reader that configurations from files can be read with, and a partial one:
anchors, tags and block scalars are refused.

Readers take the tokens that are left and return the node they read with the rest.

- `Yaml.read`: the value of the only document of a stream.
-/

namespace Telemetry.Yaml

def refuse {α : Type} (ts : List Token) : Decoded α :=
  match ts with
  | .broken fault :: _ => .error (.stopped fault)
  | _ => .error .malformed

mutual

/-- A node. Where `indentless`, a sequence may have its dashes in the column of the key
before it. -/
def node (block indentless : Bool) : Nat → List Token → Decoded (Node × List Token)
  | 0, ts => refuse ts
  | fuel + 1, ts =>
    match ts with
    | .entry :: _ =>
      if indentless then (dashes false fuel ts).map fun r => (.sequence r.1, r.2)
      else refuse ts
    | .scalar isPlain s :: rest => .ok (.scalar isPlain s, rest)
    | .flowSequence :: rest => (flowItems true fuel rest).map fun r => (.sequence r.1, r.2)
    | .flowMapping :: rest => (flowPairs true fuel rest).map fun r => (.ofPairs r.1, r.2)
    | .blockSequence :: rest =>
      if block then do
        match ← dashes true fuel rest with
        | (items, .blockEnd :: rest) => return (.sequence items, rest)
        | (_, rest) => refuse rest
      else refuse ts
    | .blockMapping :: rest =>
      if block then (blockPairs fuel rest).map fun r => (.ofPairs r.1, r.2) else refuse ts
    | _ => refuse ts

/-- A node, or an absent one before any of the tokens that end one. -/
def nodeOrNone (block indentless : Bool) (ends : Token → Bool) :
    Nat → List Token → Decoded (Node × List Token)
  | 0, ts => refuse ts
  | fuel + 1, ts =>
    match ts with
    | [] => refuse ts
    | t :: _ => if ends t then .ok (.absent, ts) else node block indentless fuel ts

/-- The items of a block sequence; one without an indentation of its own also ends at a
key or value mark. -/
def dashes (indented : Bool) : Nat → List Token → Decoded (List Node × List Token)
  | 0, ts => refuse ts
  | fuel + 1, ts =>
    match ts with
    | .entry :: rest => do
      let ends (t : Token) : Bool :=
        t = .entry || t = .blockEnd || (!indented && (t = .key || t = .value))
      let (item, rest) ← nodeOrNone true false ends fuel rest
      let (more, rest) ← dashes indented fuel rest
      return (item :: more, rest)
    | _ => .ok ([], ts)

/-- The pairs of a block mapping up to its end. -/
def blockPairs : Nat → List Token → Decoded (List (Node × Node) × List Token)
  | 0, ts => refuse ts
  | fuel + 1, ts => do
    let ends (t : Token) : Bool := t = .key || t = .value || t = .blockEnd
    match ts with
    | .blockEnd :: rest => return ([], rest)
    | .key :: rest => do
      let (k, rest) ← nodeOrNone true true ends fuel rest
      let (v, rest) ←
        match rest with
        | .value :: rest => nodeOrNone true true ends fuel rest
        | rest => .ok (.absent, rest)
      let (more, rest) ← blockPairs fuel rest
      return ((k, v) :: more, rest)
    | _ => refuse ts

def flowItems (first : Bool) : Nat → List Token → Decoded (List Node × List Token)
  | 0, ts => refuse ts
  | fuel + 1, ts => do
    match ts with
    | .flowSequenceEnd :: rest => return ([], rest)
    | _ => do
      let ts ←
        match first, ts with
        | true, _ => .ok ts
        | false, .flowEntry :: rest => .ok rest
        | false, _ => refuse ts
      match ts with
      | .flowSequenceEnd :: rest => return ([], rest)
      | .key :: rest => do
        let (pair, rest) ← flowPair .flowSequenceEnd fuel rest
        let (more, rest) ← flowItems false fuel rest
        return (.ofPairs [pair] :: more, rest)
      | _ => do
        let (item, rest) ← node false false fuel ts
        let (more, rest) ← flowItems false fuel rest
        return (item :: more, rest)

/-- A key and a value of a flow collection after the key mark. -/
def flowPair (close : Token) : Nat → List Token → Decoded ((Node × Node) × List Token)
  | 0, ts => refuse ts
  | fuel + 1, ts => do
    let endsValue (t : Token) : Bool := t = .flowEntry || t = close
    let endsKey (t : Token) : Bool := t = .value || endsValue t
    let (k, rest) ← nodeOrNone false false endsKey fuel ts
    match rest with
    | .value :: rest => do
      let (v, rest) ← nodeOrNone false false endsValue fuel rest
      return ((k, v), rest)
    | _ => return ((k, .absent), rest)

def flowPairs (first : Bool) : Nat → List Token → Decoded (List (Node × Node) × List Token)
  | 0, ts => refuse ts
  | fuel + 1, ts => do
    match ts with
    | .flowMappingEnd :: rest => return ([], rest)
    | _ => do
      let ts ←
        match first, ts with
        | true, _ => .ok ts
        | false, .flowEntry :: rest => .ok rest
        | false, _ => refuse ts
      match ts with
      | .flowMappingEnd :: rest => return ([], rest)
      | .key :: rest => do
        let (pair, rest) ← flowPair .flowMappingEnd fuel rest
        let (more, rest) ← flowPairs false fuel rest
        return (pair :: more, rest)
      | _ => do
        let (k, rest) ← node false false fuel ts
        let (more, rest) ← flowPairs false fuel rest
        return ((k, .absent) :: more, rest)

end

/-- The content of a document after its mark, absent before the next mark. -/
def content (ts : List Token) : Decoded (Node × List Token) :=
  match ts with
  | [] => .ok (.absent, [])
  | .documentStart :: _ => .ok (.absent, ts)
  | .documentEnd :: _ => .ok (.absent, ts)
  | _ => node true false (2 * ts.length + 2) ts

/-- A document; its mark may be left out before content. -/
def document (ts : List Token) : Decoded (Node × List Token) :=
  match ts with
  | [] => .ok (.absent, [])
  | .documentStart :: rest => content rest
  | _ => node true false (2 * ts.length + 2) ts

/-- The value of the only document of a stream, after which there may be marks that end
it; null for an empty stream. -/
def read (stream : String) : Decoded Value := do
  let (root, rest) ← document (← scan stream)
  match rest.dropWhile (· = .documentEnd) with
  | [] => root.toValue
  | rest => refuse rest

end Telemetry.Yaml
