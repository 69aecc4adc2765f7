import Telemetry.Document.Yaml.Scalar

/-!
The nodes of a YAML document, and the values they stand for.

A plain `<<` as a key merges: the entries of the mapping under it, or of all mappings of
the sequence under it, come before the mapping's own, which override them. A plain `=` as a
key is a text. Elsewhere neither has a value.

- `Yaml.Node.ofPairs`: the node of a mapping, with its merges carried out.
- `Yaml.Node.toValue`: the value of a node.

Collections are filled level by level: of several things wrong with a document the one in
the outermost collection is reported, of those on one level the first.
-/

namespace Telemetry.Yaml

/-- A node. An `unmergeable` one is a mapping with a merge of something else than mappings. -/
inductive Node where
  | scalar (isPlain : Bool) (text : String)
  | sequence (items : List Node)
  | mapping (pairs : List (Node × Node))
  | unmergeable

namespace Node

/-- The node that is there where none is written. -/
def absent : Node := .scalar true ""

/-- The pairs that all nodes of a list have, if each is a mapping; those of later ones
first, so that earlier ones override them. -/
def pairsOfAll? : List Node → Option (List (Node × Node))
  | [] => some []
  | .mapping pairs :: rest => (pairsOfAll? rest).map (· ++ pairs)
  | _ :: _ => none

def merged? : Node → Option (List (Node × Node))
  | .mapping pairs => some pairs
  | .sequence items => pairsOfAll? items
  | _ => none

def separate? : List (Node × Node) → Option (List (Node × Node) × List (Node × Node))
  | [] => some ([], [])
  | (key, value) :: rest => do
    let (merged, own) ← separate? rest
    match key with
    | .scalar true "<<" => return ((← merged? value) ++ merged, own)
    | .scalar true "=" => return (merged, (.scalar false "=", value) :: own)
    | _ => return (merged, (key, value) :: own)

def ofPairs (pairs : List (Node × Node)) : Node :=
  match separate? pairs with
  | some (merged, own) => .mapping (merged ++ own)
  | none => .unmergeable

/-- What building a value gives: a failure comes with its depth below the node. -/
abbrev Built (α : Type) := Except (Nat × Unreadable) α

/-- Two parts of a collection: of two failures the less deep counts, the first of equally
deep ones. -/
def both {α β : Type} (a : Built α) (b : Built β) : Built (α × β) :=
  match a, b with
  | .ok a, .ok b => .ok (a, b)
  | .error e, .ok _ => .error e
  | .ok _, .error e => .error e
  | .error d, .error e => .error (if e.1 < d.1 then e else d)

def within {α : Type} (a : Built α) : Built α := a.mapError fun e => (e.1 + 1, e.2)

def ofScalar (isPlain : Bool) (text : String) : Built Value :=
  (scalarValue isPlain text).mapError (0, ·)

/-- The value of a key, which is a scalar. -/
def keyValue : Node → Built Value
  | .scalar isPlain text => ofScalar isPlain text
  | _ => .error (0, .malformed)

def entriesMap (entries : List (Value × Value)) : Value :=
  .map (entries.foldl (fun entries e => Value.setEntry e.1 e.2 entries) [])

mutual

def build : Node → Built Value
  | .scalar isPlain text => ofScalar isPlain text
  | .sequence items => within ((buildItems items).map .list)
  | .mapping pairs => within ((buildPairs pairs).map entriesMap)
  | .unmergeable => within (.error (0, .malformed))

def buildItems : List Node → Built (List Value)
  | [] => .ok []
  | n :: rest => (both (build n) (buildItems rest)).map fun r => r.1 :: r.2

def buildPairs : List (Node × Node) → Built (List (Value × Value))
  | [] => .ok []
  | (k, v) :: rest =>
    (both (both (keyValue k) (build v)) (buildPairs rest)).map fun r => r.1 :: r.2

end

def toValue (n : Node) : Decoded Value := n.build.mapError (·.2)

end Node
end Telemetry.Yaml
