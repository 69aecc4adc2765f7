import Telemetry.CivilTime
import Telemetry.Document.Decoded

/-!
The parts of which documents make up dates and times: numbers of a fixed width, the marks
between them, and fractions of a second.

Readers take the characters that are left and return what they read with the rest.
-/

namespace Telemetry.CivilParts

def year? (cs : List Char) : Option (Int × List Char) :=
  let ds := cs.take 4
  if ds.length = 4 ∧ ds.all Text.isAsciiDigit then some (Decoded.natural ds, cs.drop 4)
  else none

def twoDigits? (bound : Nat) (cs : List Char) : Option (Nat × List Char) :=
  let ds := cs.take 2
  if ds.length = 2 ∧ ds.all Text.isAsciiDigit ∧ Decoded.natural ds ≤ bound then
    some (Decoded.natural ds, cs.drop 2)
  else none

def shortNumber? (cs : List Char) : Option (Nat × List Char) :=
  let ds := (cs.take 2).takeWhile Text.isAsciiDigit
  if ds = [] then none else some (Decoded.natural ds, cs.drop ds.length)

def after? (mark : Char) (cs : List Char) : Option (List Char) :=
  match cs with
  | c :: rest => if c = mark then some rest else none
  | [] => none

/-- The microseconds of the digits after the point of a second, of which six count. -/
def microseconds (ds : List Char) : Nat :=
  Decoded.natural ((ds ++ List.replicate 6 '0').take 6)

end Telemetry.CivilParts
