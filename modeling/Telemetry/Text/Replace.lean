/-!
Occurrences of one list in another, of the code points of texts above all.

- `place?`, `occurs`: where the first one is, and whether there is one.
- `replace`: all of them replaced, from left to right and without overlaps.
-/

namespace Telemetry.Text

variable {α : Type} [BEq α]

/-- The place where `part` first occurs in a list. -/
def place? (part : List α) : List α → Option Nat
  | [] => if part.isEmpty then some 0 else none
  | c :: rest =>
    if part.isPrefixOf (c :: rest) then some 0 else (place? part rest).map (· + 1)

def occurs (part cs : List α) : Bool := (place? part cs).isSome

/-- Replaces the occurrences of `part` after the next `skip` members, which belong to
the occurrence before them and are dropped. -/
def replaceAfter (part replacement : List α) : Nat → List α → List α
  | _, [] => []
  | skip + 1, _ :: rest => replaceAfter part replacement skip rest
  | 0, c :: rest =>
    if part.isPrefixOf (c :: rest) then
      replacement ++ replaceAfter part replacement (part.length - 1) rest
    else c :: replaceAfter part replacement 0 rest

/-- Replaces all occurrences of `part`. The empty part occurs before every member and at
the end. -/
def replace (part replacement cs : List α) : List α :=
  if part.isEmpty then replacement ++ cs.flatMap fun c => c :: replacement
  else replaceAfter part replacement 0 cs

example : replace ['a', 'a'] ['b'] ['a', 'a', 'a'] = ['b', 'a'] := by decide

example : replace [] ['-'] ['a', 'b'] = ['-', 'a', '-', 'b', '-'] := by decide

end Telemetry.Text
