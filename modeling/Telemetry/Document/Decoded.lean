import Telemetry.Fault

/-!
The outcome of reading a document. A document that breaks the rules of its format is
malformed; one that keeps to them may still hold something of which no value can be made,
and then a fault stops the reading where it stands.
-/

namespace Telemetry

inductive Unreadable where
  | malformed
  | stopped (fault : Fault)
  deriving DecidableEq

abbrev Decoded (α : Type) := Except Unreadable α

namespace Decoded

def ofOption {α : Type} : Option α → Decoded α
  | some a => .ok a
  | none => .error .malformed

def natural (ds : List Char) : Nat := Decimal.ofDigits (ds.map fun c => c.toNat - '0'.toNat)

/-- The integer of a sign and decimal digits, of which there may not be too many. -/
def integer (negative : Bool) (ds : List Char) : Decoded Int :=
  if Decimal.integerDigitLimit < ds.length then
    .error (.stopped (.integerTextTooLong ds.length))
  else .ok (if negative then -(natural ds : Int) else natural ds)

end Decoded
end Telemetry
