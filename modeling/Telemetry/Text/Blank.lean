/-!
White space and its removal at the ends of a text. Two sets are in use: the blanks of
text in general, and those that may surround a number, which leave out the four
information separators U+001C to U+001F.
-/

namespace Telemetry.Text

/-- White space of any script, with the information separators. -/
def isBlank (c : Char) : Bool :=
  let n := c.toNat
  (9 ≤ n && n ≤ 13) || (0x1C ≤ n && n ≤ 0x20) || n == 0x85 || n == 0xA0 || n == 0x1680 ||
    (0x2000 ≤ n && n ≤ 0x200A) || n == 0x2028 || n == 0x2029 || n == 0x202F ||
    n == 0x205F || n == 0x3000

/-- White space allowed around a number. -/
def isNumberBlank (c : Char) : Bool := isBlank c && !(0x1C ≤ c.toNat && c.toNat ≤ 0x1F)

def trim (p : Char → Bool) (cs : List Char) : List Char :=
  ((cs.dropWhile p).reverse.dropWhile p).reverse

def strip (s : String) : String := String.ofList (trim isBlank s.toList)

def stripEnd (s : String) : String :=
  String.ofList (s.toList.reverse.dropWhile isBlank).reverse

example : isBlank ' ' = true ∧ isBlank '\x0b' = true ∧ isBlank 'x' = false := by decide

end Telemetry.Text
