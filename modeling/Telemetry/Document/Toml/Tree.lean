import Telemetry.Value.Basic

/-!
The tree that the statements of a TOML document build. A table remembers how it was
opened, because that decides who may still add to it:

- a header `[a.b]` may open `b` once, unless it was only passed through before;
- a dotted key `a.b = …` may pass through tables opened by dotted keys of the same section
  or passed through by headers, and no others;
- inline values are closed.
-/

namespace Telemetry.Toml

/-- How a table came to be: on the way of a header, by a header of its own, or by dotted
keys of a section, which are numbered. -/
inductive Opening where
  | passed
  | header
  | dotted (part : Nat)
  deriving DecidableEq

/-- A node: a finished value, a table, or an array of tables, the last of them first. -/
inductive Node where
  | value (v : Value)
  | table (opening : Opening) (entries : List (String × Node))
  | tables (items : List (List (String × Node)))

abbrev Entries := List (String × Node)

def find? (k : String) : Entries → Option Node
  | [] => none
  | e :: rest => if e.1 = k then some e.2 else find? k rest

/-- Sets a key, in its place if it is there. -/
def put (k : String) (n : Node) : Entries → Entries
  | [] => [(k, n)]
  | e :: rest => if e.1 = k then (k, n) :: rest else e :: put k n rest

/-- Changes the table at the end of a path of headers. Tables that are missing are passed
through; an array of tables leads to its last one. -/
def below (f : Entries → Option Entries) : List String → Entries → Option Entries
  | [], entries => f entries
  | k :: path, entries =>
    match find? k entries with
    | none => do
      let inner ← below f path []
      return put k (.table .passed inner) entries
    | some (.table opening inner) => do
      let inner ← below f path inner
      return put k (.table opening inner) entries
    | some (.tables (item :: others)) => do
      let item ← below f path item
      return put k (.tables (item :: others)) entries
    | _ => none

/-- The header `[…k]` in the table that holds `k`. -/
def openTable (k : String) (entries : Entries) : Option Entries :=
  match find? k entries with
  | none => some (put k (.table .header []) entries)
  | some (.table .passed inner) => some (put k (.table .header inner) entries)
  | _ => none

/-- The header `[[…k]]` in the table that holds `k`. -/
def appendTable (k : String) (entries : Entries) : Option Entries :=
  match find? k entries with
  | none => some (put k (.tables [[]]) entries)
  | some (.tables items) => some (put k (.tables ([] :: items)) entries)
  | _ => none

/-- Adds a value under a dotted key of a section. -/
def assign (part : Nat) (v : Value) : List String → Entries → Option Entries
  | [], _ => none
  | [k], entries =>
    match find? k entries with
    | none => some (put k (.value v) entries)
    | some _ => none
  | k :: path, entries =>
    match find? k entries with
    | none => do
      let inner ← assign part v path []
      return put k (.table (.dotted part) inner) entries
    | some (.table opening inner) =>
      if opening = .passed ∨ opening = .dotted part then do
        let inner ← assign part v path inner
        return put k (.table (.dotted part) inner) entries
      else none
    | _ => none

mutual

def Node.toValue : Node → Value
  | .value v => v
  | .table _ entries => .map (entriesValue entries)
  | .tables items => .list (itemsValue items).reverse

def entriesValue : List (String × Node) → List (Value × Value)
  | [] => []
  | (k, n) :: rest => (.text k, n.toValue) :: entriesValue rest

def itemsValue : List (List (String × Node)) → List Value
  | [] => []
  | entries :: rest => .map (entriesValue entries) :: itemsValue rest

end

end Telemetry.Toml
