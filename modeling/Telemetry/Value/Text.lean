import Telemetry.Decimal.Literal
import Telemetry.Decimal.Shortest
import Telemetry.Text.Quoted
import Telemetry.Value.Basic

/-!
The text of a value as labels, messages and addresses show it. A text stands for itself
on its own and is quoted inside a list or a map.

- `Value.render`: the text of a value on its own.
- `Value.isShowable`: whether no integer in it is too long to be shown.
-/

namespace Telemetry.Value

mutual

/-- The text of a value inside a list or a map. -/
def inner : Value → String
  | .null => "None"
  | .bool b => if b then "True" else "False"
  | .int n => Decimal.integer n
  | .float x => Decimal.number x
  | .text s => Text.quoted s
  | .civil t => t.spelled
  | .list items => "[" ++ ", ".intercalate (innerItems items) ++ "]"
  | .map entries => "\x7b" ++ ", ".intercalate (innerEntries entries) ++ "\x7d"

def innerItems : List Value → List String
  | [] => []
  | v :: rest => inner v :: innerItems rest

def innerEntries : List (Value × Value) → List String
  | [] => []
  | (k, v) :: rest => (inner k ++ ": " ++ inner v) :: innerEntries rest

end

def render : Value → String
  | .text s => s
  | .civil t => t.render
  | v => inner v

mutual

/-- Whether every integer in a value has at most as many digits as an integer may show. -/
def isShowable : Value → Bool
  | .int n => decide (n.natAbs < tenTo Decimal.integerDigitLimit)
  | .list items => areShowable items
  | .map entries => entriesShowable entries
  | _ => true

def areShowable : List Value → Bool
  | [] => true
  | v :: rest => isShowable v && areShowable rest

def entriesShowable : List (Value × Value) → Bool
  | [] => true
  | (k, v) :: rest => isShowable k && isShowable v && entriesShowable rest

end

end Telemetry.Value
