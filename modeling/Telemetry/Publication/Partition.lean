import Telemetry.Value.Number

/-!
Consecutive partitions of a list. Items are filed one by one under the number of their
partition, which is opened by its first item.

- `Partition.ofList`: partitions of a positive size.
- `Partition.ofListBy`: the same for a size that comes from a configuration.
-/

namespace Telemetry.Partition

variable {α : Type}

/-- Files an item under its index: at each multiple of the size a partition is opened. An
item whose partition is not open is refused. -/
def file (size : Nat) (parts : List (List α)) (index : Nat) (item : α) :
    Option (List (List α)) :=
  let opened := if index % size = 0 then parts ++ [[]] else parts
  if index / size < opened.length then some (opened.modify (index / size) (· ++ [item]))
  else none

def fileAll (size : Nat) : List (List α) → Nat → List α → Option (List (List α))
  | parts, _, [] => some parts
  | parts, index, item :: rest =>
    match file size parts index item with
    | some parts => fileAll size parts (index + 1) rest
    | none => none

/-- Partitions of a positive size; no item is ever refused. -/
def ofList (size : Int) (items : List α) : Except Fault (List (List α)) :=
  if size ≤ 0 then .error .partitionSizeNotPositive
  else
    match fileAll size.toNat [] 0 items with
    | some parts => .ok parts
    | none => .error .indexOutOfRange

/-- Partitions of a configured size. Only an integer can number partitions, which shows as
soon as there is an item. -/
def ofListBy (size : Value) (items : List α) : Except Fault (List (List α)) := do
  if ← size.atMost 0 then throw .partitionSizeNotPositive
  match size.number?, items with
  | some (.int n), _ => ofList n items
  | _, [] => return []
  | _, _ => throw .fractionalIndex

end Telemetry.Partition
