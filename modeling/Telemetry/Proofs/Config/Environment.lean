import Telemetry.Proofs.Config.LabelText
import Telemetry.Proofs.Config.Runnable
import Telemetry.Proofs.Document.Json

/-!
How reading a configuration from an environment ends.

Proved here:

* `Labels.ends_ofText`: labels in either form are read, or refused as a configuration, or stop the
  reading, which only an integer of too many digits does;
* `ExportConfig.ends_labelsSetting`, `ends_realSetting`, `ends_integerSetting`: one variable;
* `ExportConfig.environment_settles`: an environment gives a configuration if each of its variables
  can be read, and is refused as a configuration if one cannot.
-/

namespace Telemetry

/-- A refusal of a configuration, or else a failure of some kind. -/
def RefusedOr (F : Fault → Prop) (fault : Fault) : Prop :=
  (∃ problems, fault = .config problems) ∨ F fault

/-! ## Labels -/

namespace Labels

/-- A document that a brace starts gives labels, as a map that is read can be shown. -/
theorem ends_ofJson_brace (rest : List Char) :
    Ends (RefusedOr fun fault =>
        Json.read (String.ofList ('\x7b' :: rest)) = .error (.stopped fault))
      (fun _ => True) (ofJson (String.ofList ('\x7b' :: rest))) := by
  have hread := Json.ends_read_brace rest
  rw [ofJson]
  cases hdocument : Json.read (String.ofList ('\x7b' :: rest)) with
  | ok v =>
    rw [hdocument] at hread
    obtain ⟨entries, rfl, hshowable⟩ := hread
    dsimp only
    rw [ofEntries, if_pos hshowable]
    trivial
  | error why =>
    cases why with
    | malformed => exact .inl ⟨_, rfl⟩
    | stopped fault => exact .inr rfl

/-- A text in the form of a document whose reading is stopped. -/
def Stops (text : String) (fault : Fault) : Prop :=
  ∃ rest, Text.trim Text.isBlank text.toList = '\x7b' :: rest ∧
    Json.read (String.ofList ('\x7b' :: rest)) = .error (.stopped fault)

/-- Only an integer of too many digits stops the reading of labels. -/
theorem Stops.exists_digits {text : String} {fault : Fault} (h : Stops text fault) :
    ∃ digits, fault = .integerTextTooLong digits := by
  obtain ⟨rest, -, hread⟩ := h
  have hends := Json.ends_read_brace rest
  rwa [hread] at hends

theorem ofText_of_brace {text : String} {rest : List Char}
    (h : Text.trim Text.isBlank text.toList = '\x7b' :: rest) :
    ofText text = ofJson (String.ofList ('\x7b' :: rest)) := by
  rw [ofText, h]
  rfl

/-- **Labels in either form** are read or refused, unless their document stops the reading. -/
theorem ends_ofText (text : String) :
    Ends (RefusedOr (Stops text)) (fun _ => True) (ofText text) := by
  by_cases hbrace : (Text.strip text).toList.head? = some '\x7b'
  · rw [Text.strip, String.toList_ofList] at hbrace
    obtain ⟨rest, htrim⟩ := List.head?_eq_some_iff.mp hbrace
    rw [ofText_of_brace htrim]
    exact (ends_ofJson_brace rest).imp (fun _ h => h.imp_right fun hread => ⟨rest, htrim, hread⟩)
      fun _ => id
  · obtain ⟨hok, herror⟩ := ofText_of_readings hbrace
    by_cases hbare : .bare ∈ readings text.toList
    · obtain ⟨segment, hfails⟩ := herror hbare
      rw [hfails]
      exact .inl ⟨_, rfl⟩
    · rw [hok hbare]
      trivial

end Labels

/-! ## Variables -/

namespace ExportConfig

/-- A configuration is refused, and something about it cannot be read. -/
def Refuses (readable : Prop) (fault : Fault) : Prop :=
  ¬ readable ∧ ∃ problems, fault = .config problems

theorem Refuses.of_imp {part whole : Prop} {fault : Fault} (h : Refuses part fault)
    (himp : whole → part) : Refuses whole fault := ⟨mt himp h.1, h.2⟩

theorem ends_labelsSetting (text : String) :
    Ends (Refuses (∃ labels, Labels.ofText text = .ok labels))
      (fun labels => Labels.ofText text = .ok labels) (labelsSetting text) := by
  have htext := Labels.ends_ofText text
  rw [labelsSetting]
  cases hlabels : Labels.ofText text with
  | ok labels => rfl
  | error fault =>
    rw [hlabels] at htext
    have hunreadable : ¬ ∃ labels, Except.error fault = Except.ok (α := Labels) labels := nofun
    obtain ⟨problems, rfl⟩ | hstops := htext
    · exact ⟨hunreadable, _, rfl⟩
    · obtain ⟨digits, rfl⟩ := hstops.exists_digits
      exact ⟨hunreadable, _, rfl⟩

/-- A variable can be read if it is set. -/
def Reads {α : Type} (read? : String → Option α) (setting : Option String) : Prop :=
  ∀ text ∈ setting, (read? text).isSome = true

theorem ends_realSetting (default : Value) (setting : Option String) :
    Ends (Refuses (Reads Decimal.real? setting)) (fun _ => Reads Decimal.real? setting)
      (realSetting default setting) := by
  cases setting with
  | none => exact nofun
  | some text =>
    rw [realSetting]
    cases hread : Decimal.real? text with
    | some x => exact fun _ hset => by cases hset; rw [hread]; rfl
    | none => exact ⟨fun h => by simpa [hread] using h text rfl, _, rfl⟩

theorem ends_integerSetting (default : Value) (setting : Option String) :
    Ends (Refuses (Reads Decimal.integer? setting)) (fun _ => Reads Decimal.integer? setting)
      (integerSetting default setting) := by
  cases setting with
  | none => exact nofun
  | some text =>
    rw [integerSetting]
    cases hread : Decimal.integer? text with
    | some n => exact fun _ hset => by cases hset; rw [hread]; rfl
    | none => exact ⟨fun h => by simpa [hread] using h text rfl, _, rfl⟩

/-! ## Environments -/

variable (environment : OrderedMap String String) (start : String)

/-- The text of the labels of an environment. -/
def labelsText : String := (environment.get? (start ++ "RESOURCE_LABELS")).getD ""

/-- The labels of an environment can be read, and so can each number that is set. -/
structure Readable : Prop where
  labels : ∃ labels, Labels.ofText (labelsText environment start) = .ok labels
  step : Reads Decimal.real? (environment.get? (start ++ "STEP_SECONDS"))
  batch : Reads Decimal.integer? (environment.get? (start ++ "BATCH_SIZE"))
  workers : Reads Decimal.integer? (environment.get? (start ++ "MAX_WORKERS"))
  timeout : Reads Decimal.real? (environment.get? (start ++ "TIMEOUT_SECONDS"))

theorem ends_ofEnvironment :
    Ends (Refuses (Readable environment start))
      (fun c => Readable environment start ∧
        Labels.ofText (labelsText environment start) = .ok c.resourceLabels)
      (ofEnvironment environment start) := by
  have hpart {α : Type} {part : Prop} {P : α → Prop} {x : Except Fault α}
      (hx : Ends (Refuses part) P x) (himp : Readable environment start → part) :
      Ends (Refuses (Readable environment start)) P x :=
    hx.imp (fun _ h => h.of_imp himp) fun _ h => h
  rw [ofEnvironment]
  refine (hpart (ends_labelsSetting _) (·.labels)).bind fun labels hlabels => ?_
  refine (hpart (ends_realSetting _ _) (·.step)).bind fun _ hstep => ?_
  refine (hpart (ends_integerSetting _ _) (·.batch)).bind fun _ hbatch => ?_
  refine (hpart (ends_integerSetting _ _) (·.workers)).bind fun _ hworkers => ?_
  refine (hpart (ends_realSetting _ _) (·.timeout)).bind fun _ htimeout => ?_
  exact ⟨⟨⟨labels, hlabels⟩, hstep, hbatch, hworkers, htimeout⟩, hlabels⟩

/-- **Reading an environment.** If all of its variables can be read, it gives a configuration with
labels that are texts by text, with doubles for the step and the timeout and with whole numbers of
records and workers. Otherwise it is refused as a configuration, and nothing else can happen. -/
theorem environment_settles :
    (Readable environment start ∧
      ∃ (c : ExportConfig) (labels : OrderedMap String String) (step : Binary64)
        (batch workers : Int) (timeout : Binary64),
        ofEnvironment environment start = .ok c ∧
        Labels.ofText (labelsText environment start) = .ok labels ∧ c.resourceLabels = labels ∧
        c.HasNumbers step batch workers timeout) ∨
    (¬ Readable environment start ∧
      ∃ problems, ofEnvironment environment start = .error (.config problems)) := by
  have hends := ends_ofEnvironment environment start
  cases hresult : ofEnvironment environment start with
  | ok c =>
    rw [hresult] at hends
    obtain ⟨step, batch, workers, timeout, hnumbers, -⟩ := ofEnvironment_spec hresult
    exact .inl ⟨hends.1, c, _, step, batch, workers, timeout, rfl, hends.2, rfl, hnumbers⟩
  | error fault =>
    rw [hresult] at hends
    obtain ⟨hunreadable, problems, rfl⟩ := hends
    exact .inr ⟨hunreadable, problems, rfl⟩

end ExportConfig
end Telemetry
