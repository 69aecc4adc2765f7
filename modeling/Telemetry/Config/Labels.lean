import Telemetry.Document.Json
import Telemetry.Fault
import Telemetry.OrderedMap
import Telemetry.Text.Blank
import Telemetry.Value.Text

/-!
Label mappings written as text: either `key=value` segments between commas, or a JSON
object whose keys and values are taken as their texts.

- `Labels.ofText`: reads either form; blank segments are skipped, and of a repeated key the
  last value counts.
- `Labels.ofEntries`: the mapping of the texts of a map.
-/

namespace Telemetry

/-- Labels by key, in the order in which the keys first occur. -/
abbrev Labels := OrderedMap String String

namespace Labels

/-- The texts of the keys and values of a map, which all need one. -/
def ofEntries (entries : List (Value × Value)) : Except Fault Labels :=
  if Value.entriesShowable entries then
    .ok (.ofList (entries.map fun e => (e.1.render, e.2.render)))
  else .error .integerTooLongToShow

def segments (separator : Char) : List Char → List (List Char)
  | [] => [[]]
  | c :: rest =>
    match segments separator rest with
    | [] => [[c]]
    | part :: parts => if c = separator then [] :: part :: parts else (c :: part) :: parts

def splitEquals? (cs : List Char) : Option (List Char × List Char) :=
  match cs.dropWhile (· != '=') with
  | [] => none
  | _ :: after => some (cs.takeWhile (· != '='), after)

def stripped (cs : List Char) : String := String.ofList (Text.trim Text.isBlank cs)

def addSegments (labels : Labels) : List (List Char) → Except Fault Labels
  | [] => .ok labels
  | segment :: rest =>
    if segment.all Text.isBlank then addSegments labels rest
    else
      match splitEquals? segment with
      | none => .error (.config [.labelWithoutValue (String.ofList segment)])
      | some (key, value) =>
        addSegments (labels.insert (stripped key) (stripped value)) rest

def ofJson (document : String) : Except Fault Labels :=
  match Json.read document with
  | .ok (.map entries) => ofEntries entries
  | .ok v => .error (.noAttribute v.shape "items")
  | .error .malformed => .error (.config [.labelsUnreadable ""])
  | .error (.stopped fault) => .error fault

/-- The labels that a text stands for. A text that starts with a brace is JSON. -/
def ofText (s : String) : Except Fault Labels :=
  match Text.trim Text.isBlank s.toList with
  | [] => .ok .empty
  | '\x7b' :: rest => ofJson (String.ofList ('\x7b' :: rest))
  | cs => addSegments .empty (segments ',' cs)

/-- The labels that a value of a configuration stands for: nothing for a value that counts
as false, a text in either form, or a map. -/
def ofValue (v : Value) : Except Fault Labels :=
  if !v.truthy then .ok .empty
  else
    match v with
    | .text s => ofText s
    | .map entries => ofEntries entries
    | v => .error (.noAttribute v.shape "items")

end Labels
end Telemetry
