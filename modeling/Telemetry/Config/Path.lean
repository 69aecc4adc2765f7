import Telemetry.Fault

/-!
Paths of files. Slashes separate the names of a path; a name of one point stands for the
directory it is in and is left out, as is an empty one.

- `Path.ofText`, `Path.toText`: reading and showing a path.
- `Path.suffix`: the end of the last name, which tells the format.
- `Path.absence`: what is wrong with a path at which there is no file.
-/

namespace Telemetry

/-- A path: the slashes it starts with, none if it starts where the program runs, and the
names on the way. -/
structure Path where
  root : String
  names : List String
  deriving DecidableEq, Repr

namespace Path

/-- The path of a text. One slash at its start means as much as three or more; what two of
them mean is left to the system. -/
def ofText (text : String) : Path :=
  let cs := text.toList
  let root :=
    match (cs.takeWhile (· == '/')).length with
    | 0 => ""
    | 2 => "//"
    | _ => "/"
  ⟨root, ((cs.splitOn '/').map String.ofList).filter fun name => name ≠ "" ∧ name ≠ "."⟩

def toText (p : Path) : String :=
  if p.root = "" ∧ p.names = [] then "." else p.root ++ "/".intercalate p.names

/-- The part of a name from its last point on. A point at either end starts no suffix. -/
def suffixOf (name : String) : String :=
  let after := (name.toList.reverse.takeWhile (· != '.')).reverse
  let before := name.length - after.length
  if before ≤ 1 ∨ after = [] then "" else String.ofList ('.' :: after)

def suffix (p : Path) : String := suffixOf (p.names.getLast?.getD "")

def namesBelow (p : Path) : List String := p.names.dropWhile (· == "..")

def longestName : Nat := 255

def longestPath : Nat := 4095

/-- Whether the system has a spelling for a path: it has none for a NUL, nor for a surrogate
that stands for no byte. -/
def isSpellable (p : Path) : Bool :=
  (Text.points p.toText).all fun n =>
    n != 0 && (!Text.isSurrogate n || (0xDC80 ≤ n && n < 0xDD00))

/-- Whether a path is too long to look up, or the first of its names that is looked up. -/
def isTooLong (p : Path) : Bool :=
  let size (s : String) := (Text.toRaw s).utf8ByteSize
  size p.toText > longestPath || p.namesBelow.head?.any (size · > longestName)

/-- Why there is nothing to read at a path where no file is. Steps upwards alone lead to a
directory. -/
def absence (p : Path) : Fault :=
  if p.isSpellable && p.isTooLong then .pathTooLong p.toText
  else if p.namesBelow = [] then .directory p.toText
  else .config [.fileMissing p.toText]

example : (ofText ".//a/./b.yaml/").toText = "a/b.yaml" ∧ suffixOf ".json" = "" := by
  decide +kernel

end Path
end Telemetry
