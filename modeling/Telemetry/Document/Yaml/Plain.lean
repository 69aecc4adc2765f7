import Telemetry.Document.Yaml.LineEnd

/-!
Plain scalars of YAML documents: words up to a mark, over several lines as long as they are
indented further than the block around them.

- `Yaml.plain`: the text of a plain scalar, and what follows it.
-/

namespace Telemetry.Yaml

def isFlowMark (c : Char) : Bool := c = ',' || c = '[' || c = ']' || c = '\x7b' || c = '\x7d'

/-- Whether a colon before `next` is a value mark. -/
def endsKey (flow : Bool) (next : Option Char) : Bool :=
  isGapOrEnd next || (flow && next.any isFlowMark)

/-- A word of a plain scalar: up to a gap or a mark. -/
def plainWord (flow : Bool) : List Char → List Char × List Char
  | [] => ([], [])
  | c :: rest =>
    if isGap c || (c = ':' && endsKey flow rest.head?) ||
        (flow && (isFlowMark c || c = '?')) then ([], c :: rest)
    else
      let word := plainWord flow rest
      (c :: word.1, word.2)

/-- What stands between two words of a plain scalar: the text it counts for, what follows
it, whether a line ended, and the column after the last line end. -/
structure Between where
  text : List Char
  rest : List Char
  broke : Bool
  column : Nat

/-- The blank lines and the indentation after a line end; nothing before a document mark. -/
def plainBreaks : Nat → List Char → Nat → List Char → Option (List Char × List Char × Nat)
  | 0, _, _, _ => none
  | fuel + 1, breaks, column, cs =>
    match cs with
    | ' ' :: rest => plainBreaks fuel breaks (column + 1) rest
    | c :: _ =>
      if isBreak c then
        let (b, rest) := takeBreak cs
        if atDocumentMark rest then none
        else plainBreaks fuel (breaks ++ [b]) 0 rest
      else some (breaks, cs, column)
    | [] => some (breaks, [], column)

/-- The blanks or the line ends after a word of a plain scalar. -/
def between (column : Nat) (cs : List Char) : Between :=
  let blanks := cs.takeWhile (· = ' ')
  let rest := cs.dropWhile (· = ' ')
  if rest.head?.any isBreak then
    let (first, rest) := takeBreak rest
    if atDocumentMark rest then ⟨[], rest, true, 0⟩
    else
      match plainBreaks (rest.length + 1) [] 0 rest with
      | some (breaks, rest, column) => ⟨fold first breaks, rest, true, column⟩
      | none => ⟨[], rest, true, 0⟩
  else ⟨blanks, rest, false, column + blanks.length⟩

/-- A plain scalar: its text, what follows it, and whether a line ended after it. A line
with less indentation than the block ends it. -/
def plain (flow : Bool) (indent : Int) : Nat → Nat → List Char → List Char × List Char × Bool
  | 0, _, cs => ([], cs, false)
  | fuel + 1, column, cs =>
    let (word, rest) := plainWord flow cs
    if cs.head? = some '#' || word = [] then ([], cs, false)
    else
      let gap := between (column + word.length) rest
      if gap.text = [] || gap.rest.head? = some '#' ||
          (!flow && (gap.column : Int) < indent) then (word, gap.rest, gap.broke)
      else
        let (more, after, broke) := plain flow indent fuel gap.column gap.rest
        if more = [] then (word, gap.rest, gap.broke)
        else (word ++ gap.text ++ more, after, broke)

end Telemetry.Yaml
