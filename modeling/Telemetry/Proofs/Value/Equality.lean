import Mathlib.Data.List.Forall2
import Telemetry.OrderedMap
import Telemetry.Value.Basic

/-!
Equality of values as documents: the order of the entries of a map does not matter, and what
numbers are equal is left open.

Proved here:

* `equal_text_iff`, `equal_float_iff`, `equal_list_iff`, `equal_ofFields_iff`: what equality of
  two values of one kind comes to;
* `equal_optionalField`, `equal_ofFields_cons`: maps are compared field by field, those that may
  be left out too.
-/

namespace Telemetry.Value

/-- The value under a key of a map. -/
def under? (key : Key) (entries : List (Value × Value)) : Option Value :=
  (entries.find? fun e => e.1.key? = some key).map (·.2)

/-- Values that are equal as documents, where numbers and truth values are equal as `same` says. -/
inductive Equal (same : Value → Value → Prop) : Value → Value → Prop
  | null : Equal same .null .null
  | number {v w : Value} (hv : v.number?.isSome = true) (hw : w.number?.isSome = true)
    (h : same v w) : Equal same v w
  | text (s : String) : Equal same (.text s) (.text s)
  | civil (t : CivilTime) : Equal same (.civil t) (.civil t)
  | list {items others : List Value} (h : List.Forall₂ (Equal same) items others) :
    Equal same (.list items) (.list others)
  | map {entries others : List (Value × Value)}
    (h : ∀ key, Option.Rel (Equal same) (under? key entries) (under? key others)) :
    Equal same (.map entries) (.map others)

variable {same : Value → Value → Prop}

@[simp] theorem equal_text_iff {s t : String} : Equal same (.text s) (.text t) ↔ s = t := by
  constructor
  · intro h
    cases h with
    | text => rfl
    | number hv => cases hv
  · rintro rfl
    exact .text s

@[simp] theorem equal_float_iff {x y : Binary64} :
    Equal same (.float x) (.float y) ↔ same (.float x) (.float y) := by
  constructor
  · intro h
    cases h with
    | number _ _ h => exact h
  · exact .number rfl rfl

@[simp] theorem equal_list_iff {items others : List Value} :
    Equal same (.list items) (.list others) ↔ List.Forall₂ (Equal same) items others := by
  constructor
  · intro h
    cases h with
    | list h => exact h
    | number hv => cases hv
  · exact .list

/-! ## Maps with text keys -/

theorem under?_fields (key : Key) (fields : List (String × Value)) :
    under? key (fields.map fun f => (.text f.1, f.2)) =
      match key with
      | .text k => Pairs.get? k fields
      | _ => none := by
  induction fields with
  | nil => cases key <;> rfl
  | cons f rest ih =>
    have hkey : (Value.text f.1).key? = some (.text f.1) := rfl
    rw [under?] at ih ⊢
    rw [List.map_cons, List.find?_cons, hkey]
    cases key with
    | text k =>
      by_cases hk : f.1 = k
      · simp [hk, Pairs.get?]
      · simpa [hk, Pairs.get?] using ih
    | _ => simpa using ih

theorem equal_ofFields_iff {fields others : List (String × Value)} :
    Equal same (ofFields fields) (ofFields others) ↔
      ∀ key, Option.Rel (Equal same) (Pairs.get? key fields) (Pairs.get? key others) := by
  constructor
  · intro h key
    cases h with
    | map h => simpa only [under?_fields] using h (.text key)
    | number hv => cases hv
  · intro h
    refine .map fun key => ?_
    rw [under?_fields, under?_fields]
    cases key with
    | text k => exact h k
    | _ => exact .none

@[simp] theorem equal_ofFields_nil : Equal same (ofFields []) (ofFields []) :=
  equal_ofFields_iff.mpr fun _ => .none

/-- A field that may be left out. -/
def optionalField (key : String) (v : Option Value) : List (String × Value) :=
  v.toList.map fun v => (key, v)

theorem get?_optionalField (key k : String) (v : Option Value) (rest : List (String × Value)) :
    Pairs.get? k (optionalField key v ++ rest) =
      if key = k then v.or (Pairs.get? k rest) else Pairs.get? k rest := by
  cases v with
  | none => simp [optionalField]
  | some v => simp [optionalField, Pairs.get?]

/-- Maps that start with a field that may be left out, and that neither has again. -/
theorem equal_optionalField {key : String} {v w : Option Value}
    {rest others : List (String × Value)} (hrest : key ∉ rest.map (·.1))
    (hothers : key ∉ others.map (·.1)) :
    Equal same (ofFields (optionalField key v ++ rest)) (ofFields (optionalField key w ++ others)) ↔
      Option.Rel (Equal same) v w ∧ Equal same (ofFields rest) (ofFields others) := by
  have hnone {fields : List (String × Value)} (hkey : key ∉ fields.map (·.1)) :
      Pairs.get? key fields = none := by
    simpa using mt (Pairs.mem_keys_iff key fields).mpr hkey
  simp only [equal_ofFields_iff, get?_optionalField]
  constructor
  · intro h
    have hfirst := h key
    rw [if_pos rfl, if_pos rfl, hnone hrest, hnone hothers, Option.or_none, Option.or_none]
      at hfirst
    refine ⟨hfirst, fun k => ?_⟩
    by_cases hk : key = k
    · rw [← hk, hnone hrest, hnone hothers]
      exact .none
    · have hlater := h k
      rwa [if_neg hk, if_neg hk] at hlater
  · rintro ⟨hfirst, hlater⟩ k
    by_cases hk : key = k
    · rw [if_pos hk, if_pos hk, ← hk, hnone hrest, hnone hothers, Option.or_none, Option.or_none]
      exact hfirst
    · rw [if_neg hk, if_neg hk]
      exact hlater k

/-- Maps that start with the same field, which neither has again. -/
theorem equal_ofFields_cons {key : String} {v w : Value} {rest others : List (String × Value)}
    (hrest : key ∉ rest.map (·.1)) (hothers : key ∉ others.map (·.1)) :
    Equal same (ofFields ((key, v) :: rest)) (ofFields ((key, w) :: others)) ↔
      Equal same v w ∧ Equal same (ofFields rest) (ofFields others) := by
  have hfirst : Option.Rel (Equal same) (some v) (some w) ↔ Equal same v w := Option.rel_some_some
  rw [← hfirst]
  exact equal_optionalField (v := some v) (w := some w) hrest hothers

end Telemetry.Value
