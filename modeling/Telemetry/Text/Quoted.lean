import Telemetry.Text.Printable
import Telemetry.Text.Surrogate

/-!
Quoted texts as they stand in messages and in the text of nested values: in single
quotes, in double quotes when the text holds a single quote and no double one, with
escapes for the quote, the backslash, line breaks, tabs and unprintable characters.
-/

namespace Telemetry.Text

/-- The last `width` hexadecimal digits of a number, in lower case. -/
def hexDigits : Nat → Nat → List Char
  | 0, _ => []
  | width + 1, n => hexDigits width (n / 16) ++ [Nat.digitChar (n % 16)]

def quotedChar (quote c : Char) : List Char :=
  if c = quote ∨ c = '\\' then ['\\', c]
  else if c = '\n' then ['\\', 'n']
  else if c = '\r' then ['\\', 'r']
  else if c = '\t' then ['\\', 't']
  else if isPrintable c then [c]
  else if c.toNat < 0x100 then '\\' :: 'x' :: hexDigits 2 c.toNat
  else if c.toNat < 0x10000 then '\\' :: 'u' :: hexDigits 4 c.toNat
  else '\\' :: 'U' :: hexDigits 8 c.toNat

/-- A code point inside a quoted text; surrogates are not printable. -/
def quotedPoint (quote : Char) (n : Nat) : List Char :=
  if isSurrogate n then '\\' :: 'u' :: hexDigits 4 n else quotedChar quote (Char.ofNat n)

/-- The quote of a text: single, unless only that one occurs in it. -/
def quoteFor (cs : List Char) : Char :=
  if cs.contains '\'' && !cs.contains '"' then '"' else '\''

/-- A text in quotes. -/
def quoted (s : String) : String :=
  let quote := quoteFor s.toList
  String.ofList (quote :: (points s).flatMap (quotedPoint quote) ++ [quote])

example : quoteFor "it's".toList = '"' ∧ quotedChar '\'' '\x00' = ['\\', 'x', '0', '0'] := by
  decide

end Telemetry.Text
