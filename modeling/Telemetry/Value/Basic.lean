import Telemetry.Binary64.Compare
import Telemetry.CivilTime

/-!
Values of configuration documents and of the wire format: what a JSON, TOML or YAML text
denotes, and what a request body holds. A map keeps the order of its entries.

- `Value.beq_iff`: equality of values is decided part by part.
- `Value.truthy`: the reading of any value as a condition.
- `Value.setEntry`: adding an entry to a map, numbers of equal value being one key.
- `Value.field?`: looking up a text key.
-/

namespace Telemetry

inductive Value where
  | null
  | bool (b : Bool)
  | int (n : Int)
  | float (x : Binary64)
  | text (s : String)
  | civil (t : CivilTime)
  | list (items : List Value)
  | map (entries : List (Value × Value))

namespace Value

instance : Inhabited Value := ⟨.null⟩

mutual

/-- Whether two values are equal, part by part. -/
def beq : Value → Value → Bool
  | .null, .null => true
  | .bool b, .bool c => b = c
  | .int m, .int n => m = n
  | .float x, .float y => x = y
  | .text s, .text t => s = t
  | .civil t, .civil u => t = u
  | .list vs, .list ws => beqItems vs ws
  | .map es, .map fs => beqEntries es fs
  | _, _ => false

def beqItems : List Value → List Value → Bool
  | [], [] => true
  | v :: vs, w :: ws => beq v w && beqItems vs ws
  | _, _ => false

def beqEntries : List (Value × Value) → List (Value × Value) → Bool
  | [], [] => true
  | e :: es, f :: fs => beq e.1 f.1 && beq e.2 f.2 && beqEntries es fs
  | _, _ => false

end

mutual

theorem beq_iff : ∀ v w : Value, beq v w = true ↔ v = w
  | .list vs, w => by
    cases w with
    | list ws => rw [beq, beqItems_iff vs ws, list.injEq]
    | _ => exact iff_of_false Bool.false_ne_true nofun
  | .map es, w => by
    cases w with
    | map fs => rw [beq, beqEntries_iff es fs, map.injEq]
    | _ => exact iff_of_false Bool.false_ne_true nofun
  | .null, w | .bool _, w | .int _, w | .float _, w | .text _, w | .civil _, w => by
    cases w <;> simp [beq]

theorem beqItems_iff : ∀ vs ws : List Value, beqItems vs ws = true ↔ vs = ws
  | [], ws => by cases ws <;> simp [beqItems]
  | v :: vs, ws => by
    cases ws with
    | nil => simp [beqItems]
    | cons w ws =>
      rw [beqItems, Bool.and_eq_true, beq_iff v w, beqItems_iff vs ws, List.cons.injEq]

theorem beqEntries_iff : ∀ es fs : List (Value × Value), beqEntries es fs = true ↔ es = fs
  | [], fs => by cases fs <;> simp [beqEntries]
  | e :: es, fs => by
    cases fs with
    | nil => simp [beqEntries]
    | cons f fs =>
      rw [beqEntries, Bool.and_eq_true, Bool.and_eq_true, beq_iff e.1 f.1, beq_iff e.2 f.2,
        beqEntries_iff es fs, List.cons.injEq, Prod.ext_iff]

end

instance : DecidableEq Value := fun v w => decidable_of_iff _ (beq_iff v w)

inductive Shape where
  | null | bool | int | float | text | date | time | dateTime | list | map
  deriving DecidableEq, Repr

def Shape.name : Shape → String
  | .null => "NoneType"
  | .bool => "bool"
  | .int => "int"
  | .float => "float"
  | .text => "str"
  | .date => "datetime.date"
  | .time => "datetime.time"
  | .dateTime => "datetime.datetime"
  | .list => "list"
  | .map => "dict"

def shape : Value → Shape
  | .null => .null
  | .bool _ => .bool
  | .int _ => .int
  | .float _ => .float
  | .text _ => .text
  | .civil (.date _) => .date
  | .civil (.time _) => .time
  | .civil (.dateTime ..) => .dateTime
  | .list _ => .list
  | .map _ => .map

/-- Null, false, zero and everything empty count as false; NaN and every time count as
true. -/
def truthy : Value → Bool
  | .null => false
  | .bool b => b
  | .int n => n != 0
  | .float x => !x.isZero
  | .text s => !s.isEmpty
  | .civil _ => true
  | .list items => !items.isEmpty
  | .map entries => !entries.isEmpty

/-- A number with its own arithmetic: integers are exact and unbounded. -/
inductive Number where
  | int (n : Int)
  | float (x : Binary64)
  deriving DecidableEq

/-- The number a value is; the truth values are one and zero. -/
def number? : Value → Option Number
  | .bool b => some (.int (if b then 1 else 0))
  | .int n => some (.int n)
  | .float x => some (.float x)
  | _ => none

/-- A value by which a mapping can be keyed. Numbers of equal value are one key, and so are
times of the same instant. -/
inductive Key where
  | null
  | int (n : Int)
  | float (x : Binary64)
  | text (s : String)
  | civil (t : CivilTime)
  deriving DecidableEq

/-- The key that a value is; lists and maps are none. -/
def key? : Value → Option Key
  | .null => some .null
  | .bool b => some (.int (if b then 1 else 0))
  | .int n => some (.int n)
  | .float x =>
    match x.truncate with
    | .ok n => if x.eqInt n then some (.int n) else some (.float x)
    | .error _ => some (.float x)
  | .text s => some (.text s)
  | .civil t => some (.civil t.inUtc)
  | .list _ => none
  | .map _ => none

def Key.toValue : Key → Value
  | .null => .null
  | .int n => .int n
  | .float x => .float x
  | .text s => .text s
  | .civil t => .civil t

def sameKey (v w : Value) : Bool := v.key?.any fun key => w.key? = some key

/-- Sets a key of a map: the first equal key keeps its place and spelling. -/
def setEntry (k v : Value) : List (Value × Value) → List (Value × Value)
  | [] => [(k, v)]
  | e :: rest => if sameKey e.1 k then (e.1, v) :: rest else e :: setEntry k v rest

def entry? (key : String) : List (Value × Value) → Option Value
  | [] => none
  | (.text k, v) :: rest => if k = key then some v else entry? key rest
  | _ :: rest => entry? key rest

def field? (key : String) : Value → Option Value
  | .map entries => entry? key entries
  | _ => none

def ofFields (fields : List (String × Value)) : Value :=
  .map (fields.map fun f => (.text f.1, f.2))

end Value
end Telemetry
