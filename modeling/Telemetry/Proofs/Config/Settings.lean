import Telemetry.Config.Basic
import Telemetry.Proofs.Meter.Identity

/-!
Configurations from mappings: what a mapping says is read once, and reading it again changes
nothing.

Proved here:

* `OrderedMap.ofList_entries`, `get?_ofList_reverse`: a map is spelled by its own pairs, and of
  several pairs with one key the last counts;
* `Labels.ofValue_toMap`: the mapping of some labels gives these labels;
* `Value.entry?_setEntry`: what a map has under a text key after one is set;
* `ExportConfig.ofMap_congr`: a configuration depends on its labels and on what its mapping has
  under the names of the other settings, and on nothing else;
* `ExportConfig.ofMap_toMap`: the mapping of all settings of a configuration gives it back;
* `ExportConfig.normalises_once`: what the labels are, that reading the settings again gives the
  same configuration, and that other keys and the form of the labels do not matter.
-/

namespace Telemetry

/-! ## Maps and their pairs -/

section Pairs

variable {κ υ : Type} [DecidableEq κ]

theorem Pairs.get?_append (k : κ) (ps qs : List (κ × υ)) :
    get? k (ps ++ qs) = (get? k ps).or (get? k qs) := by
  induction ps with
  | nil => rfl
  | cons p rest ih =>
    rw [List.cons_append, get?, get?]
    split
    · rfl
    · exact ih

namespace OrderedMap

/-- Pairs that are set in turn are read from the last one on. -/
theorem get?_insertAll_reverse (m : OrderedMap κ υ) (ps : List (κ × υ)) (k : κ) :
    (m.insertAll ps).get? k = (Pairs.get? k ps.reverse).or (m.get? k) := by
  induction ps generalizing m with
  | nil => rfl
  | cons p rest ih =>
    have hhead : (m.insert p.1 p.2).get? k = (Pairs.get? k [p]).or (m.get? k) := by
      rw [get?_insert, Pairs.get?]
      by_cases hk : k = p.1
      · rw [if_pos hk, if_pos hk.symm, Option.some_or]
      · rw [if_neg hk, if_neg (Ne.symm hk), Pairs.get?, Option.none_or]
    calc
      (m.insertAll (p :: rest)).get? k
        = (Pairs.get? k rest.reverse).or ((m.insert p.1 p.2).get? k) := ih _
      _ = (Pairs.get? k (p :: rest).reverse).or (m.get? k) := by
        rw [hhead, List.reverse_cons, Pairs.get?_append, Option.or_assoc]

theorem get?_ofList_reverse (ps : List (κ × υ)) (k : κ) :
    (ofList ps).get? k = Pairs.get? k ps.reverse := by
  rw [ofList, get?_insertAll_reverse]
  exact Option.or_none

theorem ofList_entries (m : OrderedMap κ υ) : ofList m.entries = m := by
  obtain ⟨entries, hnodup⟩ := m
  have hentries := entries_ofList hnodup
  cases hlist : ofList entries
  rw [hlist] at hentries
  congr

end OrderedMap

end Pairs

/-! ## Text keys -/

namespace Value

theorem sameKey_text (v : Value) (key : String) : v.sameKey (.text key) = true ↔ v = .text key := by
  have htext : (Value.text key).key? = some (.text key) := rfl
  cases v with
  | float x =>
    rw [sameKey, key?]
    cases x.truncate with
    | ok n => by_cases hn : x.eqInt n <;> simp [hn, htext]
    | error why => simp [htext]
  | text s => simp [sameKey, key?, eq_comm]
  | _ => simp [sameKey, key?]

theorem entry?_setEntry (key other : String) (v : Value) (entries : List (Value × Value)) :
    entry? other (setEntry (.text key) v entries) =
      if other = key then some v else entry? other entries := by
  induction entries with
  | nil => simp [setEntry, entry?, eq_comm]
  | cons e rest ih =>
    obtain ⟨k, w⟩ := e
    rw [setEntry]
    by_cases hk : k = .text key
    · rw [if_pos ((sameKey_text k key).mpr hk), hk, entry?, entry?]
      by_cases hother : other = key
      · rw [if_pos hother, if_pos hother.symm]
      · rw [if_neg hother, if_neg (Ne.symm hother), if_neg (Ne.symm hother)]
    · rw [if_neg (mt (sameKey_text k key).mp hk)]
      cases k with
      | text name =>
        have hname : name ≠ key := fun h => hk (h ▸ rfl)
        rw [Value.entry?, Value.entry?, ih]
        by_cases hother : name = other
        · have hne : other ≠ key := hother ▸ hname
          rw [if_pos hother, if_neg hne, if_pos hother]
        · rw [if_neg hother, if_neg hother]
      | _ => exact ih

end Value

/-! ## Labels -/

namespace Labels

/-- The texts of the keys and values of a mapping. -/
def texts (entries : List (Value × Value)) : List (String × String) :=
  entries.map fun e => (e.1.render, e.2.render)

/-- The mapping of labels. -/
def toMap (labels : Labels) : List (Value × Value) :=
  labels.entries.map fun l => (.text l.1, .text l.2)

/-- What labels say of the value that they are given by, if there is one.

- `missing`, `untruthy`: there is none, or it counts as false.
- `text`: it is a text in either form.
- `map`: it is a mapping. A label has the text of the last value whose key has the text of its
  key. -/
inductive Spells : Option Value → Labels → Prop where
  | missing : Spells none .empty
  | untruthy {v : Value} (h : v.truthy = false) : Spells (some v) .empty
  | text {s : String} {labels : Labels} (h : ofText s = .ok labels) : Spells (some (.text s)) labels
  | map {entries : List (Value × Value)} {labels : Labels}
    (h : ∀ key, labels.get? key = Pairs.get? key (texts entries).reverse) :
    Spells (some (.map entries)) labels

theorem texts_toMap (labels : Labels) : texts labels.toMap = labels.entries := by
  rw [texts, toMap, List.map_map]
  exact List.map_id' _

theorem entriesShowable_toMap (labels : Labels) : Value.entriesShowable labels.toMap = true := by
  rw [toMap]
  induction labels.entries with
  | nil => rfl
  | cons l rest ih => rw [List.map_cons, Value.entriesShowable, ih]; rfl

theorem ofEntries_toMap (labels : Labels) : ofEntries labels.toMap = .ok labels := by
  rw [ofEntries, if_pos (entriesShowable_toMap labels)]
  exact congrArg Except.ok ((congrArg _ (texts_toMap labels)).trans labels.ofList_entries)

theorem ofValue_of_untruthy {v : Value} (h : v.truthy = false) : ofValue v = .ok .empty := by
  unfold ofValue
  rw [h]
  rfl

/-- A mapping gives the labels of its entries, also if it has none and counts as false. -/
theorem ofValue_map (entries : List (Value × Value)) :
    ofValue (.map entries) = ofEntries entries := by
  cases entries <;> rfl

/-- A blank text gives no labels, whether or not it counts as false. -/
theorem ofValue_text (s : String) : ofValue (.text s) = ofText s := by
  rw [ofValue]
  split
  · next hempty =>
    have hs : s = "" := by simpa [Value.truthy] using hempty
    rw [hs]
    rfl
  · rfl

theorem ofValue_toMap (labels : Labels) : ofValue (.map labels.toMap) = .ok labels := by
  rw [ofValue_map, ofEntries_toMap]

theorem spells_ofEntries {entries : List (Value × Value)} {labels : Labels}
    (h : ofEntries entries = .ok labels) : Spells (some (.map entries)) labels := by
  rw [ofEntries] at h
  split at h
  · refine .map fun key => ?_
    rw [← OrderedMap.get?_ofList_reverse, ← Except.ok.inj h, texts]
  · cases h

/-- A number and a text that are shown alike are one label. -/
example : (ofEntries [(.int 1, .text "a"), (.text "1", .bool true)]).map (·.entries) =
    .ok [("1", "True")] := by
  decide +kernel

theorem spells_ofValue {v : Value} {labels : Labels} (h : ofValue v = .ok labels) :
    Spells (some v) labels := by
  cases htruthy : v.truthy with
  | false =>
    rw [ofValue_of_untruthy htruthy] at h
    cases h
    exact .untruthy htruthy
  | true =>
    cases v with
    | text s =>
      rw [ofValue_text] at h
      exact .text h
    | map entries =>
      rw [ofValue_map] at h
      exact spells_ofEntries h
    | _ => simp [ofValue, htruthy] at h

end Labels

/-! ## Settings -/

namespace ExportConfig

variable {entries other : List (Value × Value)} {c : ExportConfig}

/-- The names of the settings. -/
def settingKeys : List String :=
  ["enabled", "project_id", "resource_type", "resource_labels", "step_seconds", "batch_size",
    "cumulative_enabled", "metric_type_prefix", "max_workers", "endpoint", "timeout_seconds"]

/-- Whether a key is the name of a setting. -/
def isSetting : Value → Bool
  | .text key => settingKeys.contains key
  | _ => false

/-- The labels of a mapping. -/
def labelsOf (entries : List (Value × Value)) : Except Fault Labels :=
  match Value.entry? "resource_labels" entries with
  | some v => Labels.ofValue v
  | none => .ok .empty

/-- The configuration with these labels that has its other settings from a mapping. -/
def withLabels (entries : List (Value × Value)) (labels : Labels) : ExportConfig :=
  let setting (key : String) (default : Value) := (Value.entry? key entries).getD default
  let base : ExportConfig := {}
  { enabled := setting "enabled" base.enabled
    projectId := setting "project_id" base.projectId
    resourceType := setting "resource_type" base.resourceType
    resourceLabels := labels
    stepSeconds := setting "step_seconds" base.stepSeconds
    batchSize := setting "batch_size" base.batchSize
    cumulativeEnabled := setting "cumulative_enabled" base.cumulativeEnabled
    metricTypePrefix := setting "metric_type_prefix" base.metricTypePrefix
    maxWorkers := setting "max_workers" base.maxWorkers
    endpoint := setting "endpoint" base.endpoint
    timeoutSeconds := setting "timeout_seconds" base.timeoutSeconds }

/-- A mapping gives a configuration exactly if it gives labels. -/
theorem ofMap_eq (entries : List (Value × Value)) :
    ofMap entries = (labelsOf entries).map (withLabels entries) := by
  rw [ofMap, labelsOf]
  cases Value.entry? "resource_labels" entries with
  | none => rfl
  | some v => dsimp only; cases Labels.ofValue v <;> rfl

/-- A configuration depends on its labels, and on what its mapping has under the names of the other
settings. -/
theorem ofMap_congr (hlabels : labelsOf other = labelsOf entries)
    (h : ∀ key ∈ settingKeys, key ≠ "resource_labels" →
      Value.entry? key other = Value.entry? key entries) : ofMap other = ofMap entries := by
  have hsetting {key : String} (hkey : key ∈ settingKeys ∧ key ≠ "resource_labels")
      (default : Value) :
      (Value.entry? key other).getD default = (Value.entry? key entries).getD default := by
    rw [h key hkey.1 hkey.2]
  have hwith : withLabels other = withLabels entries := by
    funext labels
    rw [withLabels, withLabels]
    congr 1 <;> exact hsetting (by decide) _
  rw [ofMap_eq, ofMap_eq, hlabels, hwith]

theorem entry?_filter {key : String} (hkey : key ∈ settingKeys) (entries : List (Value × Value)) :
    Value.entry? key (entries.filter fun e => isSetting e.1) = Value.entry? key entries := by
  induction entries with
  | nil => rfl
  | cons e rest ih =>
    obtain ⟨k, v⟩ := e
    rw [List.filter_cons]
    cases k with
    | text name =>
      by_cases hname : name = key
      · have hsetting : isSetting (.text name) = true := by
          rw [isSetting, hname, List.contains_iff_mem]
          exact hkey
        rw [if_pos hsetting, Value.entry?, Value.entry?, if_pos hname, if_pos hname]
      · rw [Value.entry?, if_neg hname, ← ih]
        split
        · rw [Value.entry?, if_neg hname]
        · rfl
    | _ => exact ih

/-- The mapping of all settings of a configuration gives it back. -/
theorem ofMap_toMap (c : ExportConfig) : ofMap c.toMap = .ok c := by
  have hlabels : labelsOf c.toMap = .ok c.resourceLabels := by
    have hmap : (Value.ofFields (c.resourceLabels.entries.map fun l => (l.1, .text l.2))) =
        .map c.resourceLabels.toMap := by
      rw [Value.ofFields, List.map_map]
      rfl
    calc
      labelsOf c.toMap = Labels.ofValue (.map c.resourceLabels.toMap) := by rw [← hmap]; rfl
      _ = .ok c.resourceLabels := c.resourceLabels.ofValue_toMap
  rw [ofMap_eq, hlabels]
  rfl

theorem labelsOf_of_ofMap (h : ofMap entries = .ok c) :
    labelsOf entries = .ok c.resourceLabels := by
  rw [ofMap_eq] at h
  obtain ⟨labels, hlabels, rfl⟩ := Fault.exists_of_map_eq_ok h
  exact hlabels

theorem spells_labelsOf {labels : Labels} (h : labelsOf entries = .ok labels) :
    Labels.Spells (Value.entry? "resource_labels" entries) labels := by
  rw [labelsOf] at h
  cases hentry : Value.entry? "resource_labels" entries with
  | none =>
    rw [hentry] at h
    cases h
    exact .missing
  | some v =>
    rw [hentry] at h
    exact Labels.spells_ofValue h

/-- **Settings are read once.** A configuration that a mapping gives has the labels that the mapping
says. The mapping of its settings has the name of every setting, and gives it back. A mapping with
other keys besides, or without them, gives the same configuration, and so does one with the mapping
of the labels in place of their text. -/
theorem normalises_once (h : ofMap entries = .ok c) :
    Labels.Spells (Value.entry? "resource_labels" entries) c.resourceLabels ∧
    (c.toMap.map (·.1) = settingKeys.map .text ∧ ofMap c.toMap = .ok c) ∧
    (∀ other : List (Value × Value),
      other.filter (fun e => isSetting e.1) = entries.filter (fun e => isSetting e.1) →
        ofMap other = .ok c) ∧
    (∀ text, Value.entry? "resource_labels" entries = some (.text text) →
      ∃ labels, Labels.ofText text = .ok labels ∧
        ofMap (Value.setEntry (.text "resource_labels") (.map labels.toMap) entries) = .ok c) := by
  have hlabels := labelsOf_of_ofMap h
  refine ⟨spells_labelsOf hlabels, ⟨rfl, ofMap_toMap c⟩, fun other hother => ?_,
    fun text htext => ?_⟩
  · have hentry {key : String} (hkey : key ∈ settingKeys) :
        Value.entry? key other = Value.entry? key entries := by
      rw [← entry?_filter hkey, hother, entry?_filter hkey]
    rw [← h]
    refine ofMap_congr ?_ fun key hkey _ => hentry hkey
    rw [labelsOf, labelsOf, hentry (by decide)]
  · have htextual : Labels.ofText text = .ok c.resourceLabels := by
      rw [← hlabels, labelsOf, htext]
      exact (Labels.ofValue_text text).symm
    refine ⟨c.resourceLabels, htextual, ?_⟩
    rw [← h]
    refine ofMap_congr ?_ fun key _ hne => ?_
    · rw [labelsOf, Value.entry?_setEntry, if_pos rfl, hlabels]
      exact c.resourceLabels.ofValue_toMap
    · rw [Value.entry?_setEntry, if_neg hne]

/-- Labels as a text that repeats a key, among entries that name no setting. -/
def zoneSettings : List (Value × Value) :=
  [(.text "comment", .null), (.text "resource_labels", .text "zone=eu, zone=us"),
    (.int 7, .bool true), (.text "step_seconds", .int 5)]

/-- The same settings among others. -/
def zoneSettingsBare : List (Value × Value) :=
  [(.text "resource_labels", .text "zone=eu, zone=us"), (.text "step_seconds", .int 5),
    (.text "colour", .list [])]

/-- The configuration of either. -/
def zoneConfig : ExportConfig :=
  { stepSeconds := .int 5, resourceLabels := .ofList [("zone", "us")] }

theorem normalises_once_zone :
    ofMap zoneSettings = .ok zoneConfig ∧
    Labels.Spells (some (.text "zone=eu, zone=us")) zoneConfig.resourceLabels ∧
    ofMap zoneConfig.toMap = .ok zoneConfig ∧ ofMap zoneSettingsBare = .ok zoneConfig ∧
    ∃ labels, Labels.ofText "zone=eu, zone=us" = .ok labels ∧
      ofMap (Value.setEntry (.text "resource_labels") (.map labels.toMap) zoneSettings) =
        .ok zoneConfig := by
  have h : ofMap zoneSettings = .ok zoneConfig := rfl
  obtain ⟨hspells, ⟨-, hagain⟩, hother, htext⟩ := normalises_once h
  exact ⟨h, hspells, hagain, hother zoneSettingsBare rfl, htext _ rfl⟩

end ExportConfig
end Telemetry
