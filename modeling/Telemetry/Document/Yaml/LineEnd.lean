/-!
The characters of YAML documents: which may occur, and which of them end lines or separate
words.

- `Yaml.takeBreak`: a line end, of which a carriage return and a line feed are one.
- `Yaml.fold`: the text that the line ends between two words stand for.
-/

namespace Telemetry.Yaml

def isBreak (c : Char) : Bool :=
  c = '\n' || c = '\r' || c.toNat = 0x85 || c.toNat = 0x2028 || c.toNat = 0x2029

def isGap (c : Char) : Bool := isBreak c || c = ' ' || c = '\t'

/-- The end of the document or a gap. -/
def isGapOrEnd (c : Option Char) : Bool := c.all isGap

def isAllowed (c : Char) : Bool :=
  let n := c.toNat
  n = 0x09 || n = 0x0A || n = 0x0D || (0x20 ≤ n && n ≤ 0x7E) || n = 0x85 ||
    (0xA0 ≤ n && n ≤ 0xFFFD) || 0x10000 ≤ n

/-- A line end as it stands in a text: the ordinary ones are one. -/
def breakChar (c : Char) : Char :=
  if c.toNat = 0x2028 ∨ c.toNat = 0x2029 then c else '\n'

def takeBreak (cs : List Char) : Char × List Char :=
  match cs with
  | '\r' :: '\n' :: rest => ('\n', rest)
  | c :: rest => (breakChar c, rest)
  | [] => ('\n', [])

/-- Whether a mark of three characters between documents stands here. -/
def atDocumentMark (cs : List Char) : Bool :=
  (("---".toList.isPrefixOf cs) || ("...".toList.isPrefixOf cs)) && isGapOrEnd (cs.drop 3).head?

/-- Line ends inside a scalar: a single one is a blank, the first of several is dropped. -/
def fold (first : Char) (breaks : List Char) : List Char :=
  if first ≠ '\n' then first :: breaks
  else if breaks = [] then [' '] else breaks

end Telemetry.Yaml
