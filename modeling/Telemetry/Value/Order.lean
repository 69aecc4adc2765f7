import Telemetry.RunSort
import Telemetry.Text.Surrogate
import Telemetry.Value.Number

/-!
The order of the values that are keys: numbers by their value, texts by their code points.
Between keys of different kinds there is none.

- `Value.less`: the order.
- `Value.sortBy`: sorting by keys, with the fault of the first comparison of the sort that
  has no answer.
-/

namespace Telemetry.Value

/-- Whether one value comes before another; nothing if they have no order. -/
def less? (v w : Value) : Option Bool :=
  match v.number?, w.number? with
  | some m, some n => some (m.less n)
  | _, _ =>
    match v, w with
    | .text s, .text t => some (!Text.atMost t s)
    | _, _ => none

/-- Whether one value comes before another; a fault if they have no order. -/
def less (v w : Value) : Except Fault Bool :=
  match less? v w with
  | some answer => .ok answer
  | none => .error (.notComparable .less v.shape w.shape)

/-- Sorts by keys, no two of which are the same. -/
def sortBy {α : Type} (key : α → Value) (items : List α) : Except Fault (List α) :=
  RunSort.sortM (fun a b => less (key a) (key b)) items

example : less? (.bool false) (.int 2) = some true ∧ less? (.text "b") .null = none := by decide

end Telemetry.Value
