import Telemetry.Config.Basic
import Telemetry.Config.Path
import Telemetry.Document.Json
import Telemetry.Document.Toml
import Telemetry.Text.Case

/-!
Configurations from files. The suffix of the name decides the format; a section of the
document may hold the settings, among documents of other programs.

The reader of YAML documents comes from outside and is a parameter: nothing is taken for granted
about what it makes of a text.
-/

namespace Telemetry

/-- A reader of YAML documents: a value, an error of its own, or some other fault. -/
abbrev YamlReader := String → Decoded Value

structure ConfigFile where
  path : Path
  content : Option ByteArray

namespace ConfigFile

inductive Format where
  | yaml | json | toml
  deriving DecidableEq, Repr

def Format.ofSuffix? (suffix : String) : Option Format :=
  if suffix = ".yaml" ∨ suffix = ".yml" then some .yaml
  else if suffix = ".json" then some .json
  else if suffix = ".toml" then some .toml
  else none

/-- The value of a document. A YAML document whose value counts as false, as that of an empty
one does, is an empty map. -/
def Format.read (yaml : YamlReader) (format : Format) (document : String) : Decoded Value :=
  match format with
  | .yaml => (yaml document).map fun v => if v.truthy then v else .map []
  | .json => Json.read (Text.ofRaw document)
  | .toml => Toml.read (Text.ofRaw document)

/-- Every line ends in a line feed alone. -/
def unifyLineEnds : List Char → List Char
  | '\r' :: '\n' :: rest => '\n' :: unifyLineEnds rest
  | '\r' :: rest => '\n' :: unifyLineEnds rest
  | c :: rest => c :: unifyLineEnds rest
  | [] => []

/-- The text of a file: UTF-8 with unified line ends. -/
def text (content : ByteArray) : Except Fault String :=
  match String.fromUTF8? content with
  | some s => .ok (String.ofList (unifyLineEnds s.toList))
  | none => .error .undecodable

/-- The settings of a document: a section of it that is a map, else all of it. -/
def settings (key : String) (entries : List (Value × Value)) : List (Value × Value) :=
  match Value.entry? key entries with
  | some (.map inner) => inner
  | _ => entries

end ConfigFile

def defaultSection : String := "stackdriver"

def ExportConfig.ofFile (yaml : YamlReader) (file : ConfigFile) (key : String) :
    Except Fault ExportConfig := do
  match file.content with
  | none => .error file.path.absence
  | some content =>
    let document ← ConfigFile.text content
    let suffix := Text.lower file.path.suffix
    match ConfigFile.Format.ofSuffix? suffix with
    | none => .error (.config [.formatUnknown suffix])
    | some format =>
      match format.read yaml document with
      | .error .malformed => .error (.config [.fileUnreadable ""])
      | .error (.stopped fault) => .error fault
      | .ok (.map entries) => ExportConfig.ofMap (ConfigFile.settings key entries)
      | .ok _ => .error (.config [.rootNotMapping file.path.toText])

end Telemetry
