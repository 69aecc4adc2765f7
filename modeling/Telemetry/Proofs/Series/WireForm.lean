import Telemetry.Proofs.Decimal.Digits
import Telemetry.Proofs.Series.WellFormed
import Telemetry.Proofs.Timestamp
import Telemetry.Proofs.Value.Equality

/-!
The wire form of a record loses nothing.

Proved here, for every notion of equal numbers:

* `TimeSeries.spells_toValue`: a record in years that can be shown has a wire form unless an integer
  in it has too many digits;
* `Distribution.equal_form_iff`, `TypedValue.equal_form_iff`: two values have equal wire forms
  exactly if they agree;
* `TimeInterval.equal_fields_iff`: two intervals have equal wire forms exactly if they are equal;
* `TimeSeries.wireForms_equal_iff`: hence two records with one value each have equal wire forms
  exactly if they agree;
* `TimeSeries.presentable_of_wellFormed`: records that are built are such records.
-/

namespace Telemetry

open Value (Equal)

/-! ## Integers that are shown -/

namespace Decimal

variable {α β : Type} {ns ms : List Int} {a : α}

/-- An integer has few enough digits to be shown. -/
def Showable (n : Int) : Prop := n.natAbs < tenTo integerDigitLimit

/-- What comes of showing integers: a result if all of them can be shown. -/
inductive Spells (ns : List Int) (a : α) : Except Fault α → Prop
  | all (h : ∀ n ∈ ns, Showable n) : Spells ns a (.ok a)
  | tooLong (h : ∃ n ∈ ns, ¬ Showable n) : Spells ns a (.error .integerTooLongToShow)

theorem spells_shown (n : Int) : Spells [n] (integer n) (shown n) := by
  rw [shown]
  split
  · next h => exact .all (List.forall_mem_singleton.mpr h)
  · next h => exact .tooLong ⟨n, List.mem_singleton_self n, h⟩

theorem Spells.pure : Spells [] a (.ok a) := .all nofun

theorem Spells.map {x : Except Fault α} (h : Spells ns a x) (f : α → β) :
    Spells ns (f a) (x.map f) := by
  cases h with
  | all h => exact .all h
  | tooLong h => exact .tooLong h

theorem Spells.bind {x : Except Fault α} {b : β} {f : α → Except Fault β} (hx : Spells ns a x)
    (hf : Spells ms b (f a)) : Spells (ns ++ ms) b (x >>= f) := by
  cases hx with
  | tooLong h =>
    obtain ⟨n, hn, hlong⟩ := h
    exact .tooLong ⟨n, List.mem_append_left _ hn, hlong⟩
  | all h =>
    show Spells _ b (f a)
    generalize f a = y at hf ⊢
    cases hf with
    | all h' => exact .all (List.forall_mem_append.mpr ⟨h, h'⟩)
    | tooLong h' =>
      obtain ⟨n, hn, hlong⟩ := h'
      exact .tooLong ⟨n, List.mem_append_right _ hn, hlong⟩

theorem spells_mapM {f : α → Except Fault β} {integers : α → List Int} {form : α → β}
    {xs : List α} (h : ∀ x ∈ xs, Spells (integers x) (form x) (f x)) :
    Spells (xs.flatMap integers) (xs.map form) (xs.mapM f) := by
  induction xs with
  | nil => exact .pure
  | cons x rest ih =>
    rw [List.forall_mem_cons] at h
    rw [List.mapM_cons, List.flatMap_cons]
    exact h.1.bind (List.append_nil (rest.flatMap integers) ▸ (ih h.2).bind .pure)

/-- With integers that can all be shown, the result is there. -/
theorem Spells.eq_ok {x : Except Fault α} (h : Spells ns a x) (hns : ∀ n ∈ ns, Showable n) :
    x = .ok a := by
  cases h with
  | all _ => rfl
  | tooLong h =>
    obtain ⟨n, hn, hlong⟩ := h
    exact absurd (hns n hn) hlong

end Decimal

/-- The wire form of a distribution that has one. -/
def Distribution.form (d : Distribution) : Value :=
  .ofFields [
    ("count", .text (Decimal.integer d.count)),
    ("mean", .float d.mean),
    ("bucketOptions", .ofFields
      [("explicitBuckets", .ofFields [("bounds", .list (d.bounds.map .float))])]),
    ("bucketCounts", .list (d.counts.map fun n => .text (Decimal.integer n)))]

theorem Distribution.spells_toValue (d : Distribution) :
    Decimal.Spells (d.count :: d.counts) d.form d.toValue := by
  have hcounts : Decimal.Spells (d.counts.flatMap fun n => [n]) (d.counts.map Decimal.integer)
      (d.counts.mapM Decimal.shown) := Decimal.spells_mapM fun n _ => Decimal.spells_shown n
  rw [List.flatMap_singleton'] at hcounts
  have hspells := (Decimal.spells_shown d.count).bind (f := fun count =>
    (d.counts.mapM Decimal.shown).map fun counts => Value.ofFields [
      ("count", .text count),
      ("mean", .float d.mean),
      ("bucketOptions", .ofFields
        [("explicitBuckets", .ofFields [("bounds", .list (d.bounds.map .float))])]),
      ("bucketCounts", .list (counts.map .text))]) (hcounts.map _)
  rw [List.map_map] at hspells
  exact hspells

namespace TypedValue

/-- The integers that the wire form of a value shows. -/
def integers (v : TypedValue) : List Int :=
  match v.distribution, v.int64 with
  | some d, _ => d.count :: d.counts
  | none, some n => [n]
  | none, none => []

/-- The wire form of a value that has one. -/
def form (v : TypedValue) : Value :=
  match v.distribution, v.int64, v.double with
  | some d, _, _ => .ofFields [("distributionValue", d.form)]
  | none, some n, _ => .ofFields [("int64Value", .text (Decimal.integer n))]
  | none, none, some x => .ofFields [("doubleValue", .float x)]
  | none, none, none => .ofFields [("doubleValue", .null)]

theorem spells_toValue (v : TypedValue) : Decimal.Spells v.integers v.form v.toValue := by
  obtain ⟨double, int64, distribution⟩ := v
  cases distribution with
  | some d =>
    simp only [toValue, form, integers]
    exact d.spells_toValue.map fun shown => Value.ofFields [("distributionValue", shown)]
  | none =>
    cases int64 with
    | some n =>
      simp only [toValue, form, integers]
      exact (Decimal.spells_shown n).map fun shown => Value.ofFields [("int64Value", .text shown)]
    | none => cases double <;> exact .pure

end TypedValue

variable (same : Value → Value → Prop)

/-- Doubles that are equal numbers. -/
def SameDouble (x y : Binary64) : Prop := same (.float x) (.float y)

/-! ## Values of points -/

/-- Distributions of the same counts, with equal numbers. -/
structure Distribution.Agrees (d e : Distribution) : Prop where
  count : d.count = e.count
  mean : SameDouble same d.mean e.mean
  bounds : List.Forall₂ (SameDouble same) d.bounds e.bounds
  counts : d.counts = e.counts

/-- Values with the same field set, to the same integer, to equal numbers or to distributions that
agree. -/
structure TypedValue.Agrees (v w : TypedValue) : Prop where
  double : Option.Rel (SameDouble same) v.double w.double
  int64 : v.int64 = w.int64
  distribution : Option.Rel (Distribution.Agrees same) v.distribution w.distribution

variable {same}

theorem forall₂_texts_iff {ms ns : List Int} :
    List.Forall₂ (Equal same) (ms.map fun n => .text (Decimal.integer n))
      (ns.map fun n => .text (Decimal.integer n)) ↔ ms = ns := by
  rw [List.forall₂_map_left_iff, List.forall₂_map_right_iff]
  simp only [Value.equal_text_iff, Decimal.integer_inj, List.forall₂_eq_eq_eq]

theorem Distribution.equal_form_iff {d e : Distribution} :
    Equal same d.form e.form ↔ d.Agrees same e := by
  have hbounds : List.Forall₂ (Equal same) (d.bounds.map .float) (e.bounds.map .float) ↔
      List.Forall₂ (SameDouble same) d.bounds e.bounds := by
    simp only [List.forall₂_map_left_iff, List.forall₂_map_right_iff, Value.equal_float_iff]
    rfl
  simp (disch := simp) only [form, Value.equal_ofFields_cons, Value.equal_text_iff,
    Value.equal_float_iff, Value.equal_list_iff, Value.equal_ofFields_nil, Decimal.integer_inj,
    forall₂_texts_iff, hbounds, and_true]
  constructor
  · rintro ⟨hcount, hmean, hbounds, hcounts⟩
    exact ⟨hcount, hmean, hbounds, hcounts⟩
  · rintro ⟨hcount, hmean, hbounds, hcounts⟩
    exact ⟨hcount, hmean, hbounds, hcounts⟩

theorem rel_map_iff {α β γ δ : Type} {R : γ → δ → Prop} {f : α → γ} {g : β → δ} {a : Option α}
    {b : Option β} :
    Option.Rel R (a.map f) (b.map g) ↔ Option.Rel (fun x y => R (f x) (g y)) a b := by
  cases a <;> cases b <;> simp

theorem rel_eq_iff {α : Type} {a b : Option α} : Option.Rel (· = ·) a b ↔ a = b := by
  cases a <;> cases b <;> simp

namespace TypedValue

/-- The fields of a value. -/
def fields (v : TypedValue) : List (String × Value) :=
  Value.optionalField "distributionValue" (v.distribution.map (·.form)) ++
    (Value.optionalField "int64Value" (v.int64.map fun n => .text (Decimal.integer n)) ++
      (Value.optionalField "doubleValue" (v.double.map .float) ++ []))

/-- If exactly one field is set, it is the only one in the wire form. -/
theorem HasType.form_eq {v : TypedValue} {type : ValueType} (h : v.HasType type) :
    v.form = .ofFields v.fields := by
  obtain ⟨double, int64, distribution⟩ := v
  obtain ⟨hdouble, hint64, hdistribution⟩ := h
  dsimp only at hdouble hint64 hdistribution
  cases type <;> cases double <;> cases int64 <;> cases distribution <;>
    simp at hdouble hint64 hdistribution <;> rfl

/-- Values of points have equal wire forms exactly if they agree. -/
theorem equal_form_iff {v w : TypedValue} {type other : ValueType} (hv : v.HasType type)
    (hw : w.HasType other) : Equal same v.form w.form ↔ v.Agrees same w := by
  rw [hv.form_eq, hw.form_eq, fields, fields]
  simp (disch := simp [Value.optionalField]) only [Value.equal_optionalField]
  simp only [rel_map_iff, Value.equal_text_iff, Value.equal_float_iff, Decimal.integer_inj,
    rel_eq_iff, Distribution.equal_form_iff, Value.equal_ofFields_nil, and_true]
  constructor
  · rintro ⟨hdistribution, hint64, hdouble⟩
    exact ⟨hdouble, hint64, hdistribution⟩
  · rintro ⟨hdouble, hint64, hdistribution⟩
    exact ⟨hdistribution, hint64, hdouble⟩

end TypedValue

/-! ## Intervals -/

namespace TimeInterval

/-- The times of an interval can be shown. -/
structure WithinYears (i : TimeInterval) : Prop where
  stop : Timestamp.WithinYears i.stop
  start : ∀ t, i.start = some t → Timestamp.WithinYears t

/-- The fields of an interval. -/
def fields (i : TimeInterval) : List (String × Value) :=
  ("endTime", .text (Timestamp.shown i.stop)) ::
    (Value.optionalField "startTime" (i.start.map fun t => .text (Timestamp.shown t)) ++ [])

theorem WithinYears.toValue_eq {i : TimeInterval} (h : i.WithinYears) :
    i.toValue = .ok (.ofFields i.fields) := by
  obtain ⟨stop, start⟩ := i
  rw [toValue, Timestamp.format_eq h.stop]
  cases start with
  | none => rfl
  | some t =>
    simp only [bind, Except.bind, Timestamp.format_eq (h.start t rfl)]
    rfl

/-- Intervals within the years have equal wire forms exactly if they are equal. -/
theorem equal_fields_iff {i j : TimeInterval} (hi : i.WithinYears) (hj : j.WithinYears) :
    Equal same (.ofFields i.fields) (.ofFields j.fields) ↔ i = j := by
  obtain ⟨stop, start⟩ := i
  obtain ⟨stop', start'⟩ := j
  rw [fields, fields]
  simp (disch := simp [Value.optionalField]) only [Value.equal_ofFields_cons,
    Value.equal_optionalField]
  simp only [rel_map_iff, Value.equal_text_iff, Value.equal_ofFields_nil, and_true,
    Timestamp.shown_inj hi.stop hj.stop, TimeInterval.mk.injEq]
  refine and_congr_right fun _ => ?_
  cases start with
  | none => cases start' <;> simp
  | some t =>
    cases start' with
    | none => simp
    | some u => simp [Timestamp.shown_inj (hi.start t rfl) (hj.start u rfl)]

end TimeInterval

/-! ## Records -/

theorem MetricKind.name_inj {k l : MetricKind} : k.name = l.name ↔ k = l := by
  cases k <;> cases l <;> decide

theorem ValueType.name_inj {t u : ValueType} : t.name = u.name ↔ t = u := by
  cases t <;> cases u <;> decide

theorem Pairs.get?_map {υ ω : Type} (f : υ → ω) (k : String) (ps : List (String × υ)) :
    get? k (ps.map fun p => (p.1, f p.2)) = (get? k ps).map f := by
  induction ps with
  | nil => rfl
  | cons p rest ih =>
    rw [List.map_cons, get?, get?, ih]
    split <;> rfl

/-- Labels have equal wire forms exactly if each key has the same label. -/
theorem equal_labels_iff {labels others : OrderedMap String String} :
    Equal same (.ofFields (labels.entries.map fun l => (l.1, .text l.2)))
      (.ofFields (others.entries.map fun l => (l.1, .text l.2))) ↔
        ∀ key, labels.get? key = others.get? key := by
  simp only [Value.equal_ofFields_iff, Pairs.get?_map, rel_map_iff, Value.equal_text_iff,
    rel_eq_iff, OrderedMap.get?]

namespace TimeSeries

/-- A record with one value, at times that can be shown. -/
structure Presentable (r : TimeSeries) : Prop where
  value : ∃ type, r.point.value.HasType type
  interval : r.point.interval.WithinYears

/-- The records that are built in a window that can be shown are presentable. -/
theorem presentable_of_wellFormed {σ : Type} {b : SeriesBuilder σ} {snapshot : Snapshot}
    {st : BuildState σ} {r : TimeSeries} (h : b.WellFormed snapshot st r)
    (hstop : Timestamp.WithinYears b.window.stop)
    (hstart : Timestamp.WithinYears b.window.start) : r.Presentable where
  value := ⟨r.valueType, h.value⟩
  interval := by
    refine ⟨by rwa [h.interval.stop_eq], fun t ht => ?_⟩
    rwa [h.interval.start_eq t ht]

/-- Records of the same series at the same time, with values that agree. -/
structure Agrees (same : Value → Value → Prop) (r s : TimeSeries) : Prop where
  metricType : r.metricType = s.metricType
  labels : ∀ key, r.labels.get? key = s.labels.get? key
  resourceType : Equal same r.resource.type s.resource.type
  resourceLabels : ∀ key,
    Option.Rel (Equal same) (r.resource.labels.get? key) (s.resource.labels.get? key)
  kind : r.kind = s.kind
  valueType : r.valueType = s.valueType
  interval : r.point.interval = s.point.interval
  value : r.point.value.Agrees same s.point.value

/-- The wire form of a record that has one. -/
def form (r : TimeSeries) : Value :=
  .ofFields [
    ("metric", .ofFields [
      ("type", .text r.metricType),
      ("labels", .ofFields (r.labels.entries.map fun l => (l.1, .text l.2)))]),
    ("resource", .ofFields [
      ("type", r.resource.type),
      ("labels", .ofFields r.resource.labels.entries)]),
    ("metricKind", .text r.kind.name),
    ("valueType", .text r.valueType.name),
    ("points", .list [.ofFields
      [("interval", .ofFields r.point.interval.fields), ("value", r.point.value.form)]])]

/-- A record at times that can be shown has a wire form if its integers can be shown. -/
theorem spells_toValue {r : TimeSeries} (h : r.point.interval.WithinYears) :
    Decimal.Spells r.point.value.integers r.form r.toValue := by
  rw [toValue, h.toValue_eq, ← List.append_nil r.point.value.integers]
  exact r.point.value.spells_toValue.bind .pure

/-- **Wire form.** Records with one value, at times that can be shown, have wire forms if their
integers can be shown, and these are equal exactly if the records agree. -/
theorem wireForms_equal_iff (same : Value → Value → Prop) {r s : TimeSeries} (hr : r.Presentable)
    (hs : s.Presentable) :
    ∃ v w, Decimal.Spells r.point.value.integers v r.toValue ∧
      Decimal.Spells s.point.value.integers w s.toValue ∧ (Equal same v w ↔ r.Agrees same s) := by
  obtain ⟨type, hvalue⟩ := hr.value
  obtain ⟨other, hvalue'⟩ := hs.value
  have hinterval : Equal same _ _ ↔ r.point.interval = s.point.interval :=
    TimeInterval.equal_fields_iff hr.interval hs.interval
  have htyped : _ ↔ r.point.value.Agrees same s.point.value :=
    TypedValue.equal_form_iff hvalue hvalue'
  refine ⟨_, _, spells_toValue hr.interval, spells_toValue hs.interval, ?_⟩
  simp (disch := simp) only [form, Value.equal_ofFields_cons, Value.equal_ofFields_nil,
    Value.equal_text_iff, Value.equal_list_iff, List.forall₂_cons, List.forall₂_nil_left_iff,
    equal_labels_iff, MetricKind.name_inj, ValueType.name_inj, hinterval, htyped, and_true]
  rw [Value.equal_ofFields_iff]
  constructor
  · rintro ⟨⟨hmetric, hlabels⟩, ⟨hresource, hresourceLabels⟩, hkind, htype, hinterval, hvalue⟩
    exact ⟨hmetric, hlabels, hresource, hresourceLabels, hkind, htype, hinterval, hvalue⟩
  · rintro ⟨hmetric, hlabels, hresource, hresourceLabels, hkind, htype, hinterval, hvalue⟩
    exact ⟨⟨hmetric, hlabels⟩, ⟨hresource, hresourceLabels⟩, hkind, htype, hinterval, hvalue⟩

/-- A count of laps over the first second. -/
def lapCount (n : Int) (labels : List (String × String)) : TimeSeries where
  metricType := "t/laps/count"
  labels := .ofList labels
  resource := ⟨.text "global", .ofList [("project_id", .text "p")]⟩
  kind := .cumulative
  valueType := .int64
  point := ⟨⟨1000, some 1⟩, .ofInt64 n⟩

theorem presentable_lapCount (n : Int) (labels : List (String × String)) :
    (lapCount n labels).Presentable where
  value := ⟨.int64, by constructor <;> simp [lapCount, TypedValue.ofInt64]⟩
  interval := by
    have hstop : Timestamp.WithinYears 1000 := by decide +kernel
    have hstart : Timestamp.WithinYears 1 := by decide +kernel
    refine ⟨hstop, ?_⟩
    rintro t ⟨⟩
    exact hstart

/-- The order of labels does not show, but a difference of one between counts of any size does. -/
theorem wireForms_equal_iff_lapCount :
    ∃ v w u, (lapCount (twoTo 70) [("lap", "a"), ("car", "b")]).toValue = .ok v ∧
      (lapCount (twoTo 70) [("car", "b"), ("lap", "a")]).toValue = .ok w ∧
      (lapCount (twoTo 70 + 1) [("car", "b"), ("lap", "a")]).toValue = .ok u ∧
      Equal (fun v w => v.sameKey w = true) v w ∧
      ¬ Equal (fun v w => v.sameKey w = true) v u := by
  have hshown : ∀ n ∈ [(twoTo 70 : Int)], Decimal.Showable n := by
    simp only [List.forall_mem_singleton, Decimal.Showable]
    decide +kernel
  have hnext : ∀ n ∈ [(twoTo 70 + 1 : Int)], Decimal.Showable n := by
    simp only [List.forall_mem_singleton, Decimal.Showable]
    decide +kernel
  obtain ⟨v, w, hv, hw, hvw⟩ := wireForms_equal_iff (fun v w => v.sameKey w = true)
    (presentable_lapCount (twoTo 70) [("lap", "a"), ("car", "b")])
    (presentable_lapCount (twoTo 70) [("car", "b"), ("lap", "a")])
  obtain ⟨v', u, hv', hu, hvu⟩ := wireForms_equal_iff (fun v w => v.sameKey w = true)
    (presentable_lapCount (twoTo 70) [("lap", "a"), ("car", "b")])
    (presentable_lapCount (twoTo 70 + 1) [("car", "b"), ("lap", "a")])
  have hvok := hv.eq_ok hshown
  cases hvok.symm.trans (hv'.eq_ok hshown)
  refine ⟨v, w, u, hvok, hw.eq_ok hshown, hu.eq_ok hnext, hvw.mpr ?_, fun h => ?_⟩
  · refine ⟨rfl, fun key => ?_, ?_, fun key => ?_, rfl, rfl, rfl, ?_⟩
    · simp only [lapCount, OrderedMap.ofList, OrderedMap.insertAll, List.foldl_cons,
        List.foldl_nil, OrderedMap.get?_insert]
      grind
    · exact .text "global"
    · simp only [lapCount, OrderedMap.ofList, OrderedMap.insertAll, List.foldl_cons,
        List.foldl_nil, OrderedMap.get?_insert]
      split
      · exact .some (.text "p")
      · exact .none
    · exact ⟨.none, rfl, .none⟩
  · have hcounts : (twoTo 70 : Int) = twoTo 70 + 1 := Option.some.inj (hvu.mp h).value.int64
    omega

end TimeSeries

end Telemetry
