import Mathlib.Data.List.DropRight
import Telemetry.Config.Labels
import Telemetry.Proofs.Meter.Identity

/-!
Labels written as `key=value` segments between commas, with blanks anywhere around the parts.

Proved here:

* `Text.trim_append_left`, `trim_append_right`, `head?_trim`: blanks at the ends of a text;
* `Labels.segments_eq_splitOn`: the segments of a text are those that commas separate;
* `Labels.readings_trim`: blanks at the ends of a text do not change what its segments say;
* `Labels.ofText_of_readings`: a text gives the labels that its segments say, unless one of them
  is bare, which is neither blank nor a label;
* `Labels.labels_roundTrip`: a text that is written for labels gives these labels, and a text fails
  exactly if it has a bare segment.
-/

namespace Telemetry

/-! ## Blanks at the ends -/

namespace Text

variable {p : Char → Bool} {cs before after : List Char}

theorem trim_eq_rdropWhile (p : Char → Bool) (cs : List Char) :
    trim p cs = (cs.dropWhile p).rdropWhile p := rfl

theorem trim_append_left (h : ∀ c ∈ before, p c = true) : trim p (before ++ cs) = trim p cs := by
  rw [trim_eq_rdropWhile, List.dropWhile_append_of_pos h, ← trim_eq_rdropWhile]

theorem trim_append_right (h : ∀ c ∈ after, p c = true) : trim p (cs ++ after) = trim p cs := by
  have hdrop (l : List Char) : (l ++ after).rdropWhile p = l.rdropWhile p := by
    rw [List.rdropWhile, List.reverse_append,
      List.dropWhile_append_of_pos fun c hc => h c (List.mem_reverse.mp hc), List.rdropWhile]
  rw [trim_eq_rdropWhile, trim_eq_rdropWhile, List.dropWhile_append]
  split
  · next hall =>
    rw [List.isEmpty_iff.mp hall, List.rdropWhile_nil, List.rdropWhile_eq_nil_iff]
    exact fun c hc => h c ((List.dropWhile_sublist p).subset hc)
  · exact hdrop _

/-- A list is its trimmed part with members of the class on both sides. -/
theorem exists_eq_append_trim (p : Char → Bool) (cs : List Char) :
    ∃ before after, cs = before ++ (trim p cs ++ after) ∧ (∀ c ∈ before, p c = true) ∧
      ∀ c ∈ after, p c = true :=
  ⟨cs.takeWhile p, (cs.dropWhile p).rtakeWhile p,
    by rw [trim_eq_rdropWhile, List.rdropWhile_append_rtakeWhile, List.takeWhile_append_dropWhile],
    fun _ => List.mem_takeWhile_imp, fun _ => List.mem_rtakeWhile_imp⟩

/-- A trimmed list starts with the first character that is not of the class. -/
theorem head?_trim (p : Char → Bool) (cs : List Char) :
    (trim p cs).head? = cs.find? fun c => !p c := by
  have hprefix : trim p cs <+: cs.dropWhile p := List.rdropWhile_prefix p (cs.dropWhile p)
  rw [List.find?_not_eq_head?_dropWhile]
  cases htrim : trim p cs with
  | cons c rest =>
    obtain ⟨more, hmore⟩ := hprefix
    rw [← hmore, htrim]
    rfl
  | nil =>
    obtain ⟨before, after, hcs, hbefore, hafter⟩ := exists_eq_append_trim p cs
    rw [htrim] at hcs
    have hall : ∀ c ∈ cs, p c = true := by
      rw [hcs]
      simp only [List.nil_append, List.mem_append]
      exact fun c hc => hc.elim (hbefore c) (hafter c)
    rw [List.dropWhile_eq_nil_iff.mpr hall]

end Text

namespace Labels

/-! ## Segments -/

theorem segments_eq_splitOn (separator : Char) (cs : List Char) :
    segments separator cs = cs.splitOn separator := by
  induction cs with
  | nil => rfl
  | cons c rest ih =>
    rw [segments, ih, List.splitOn_cons_eq_if_modifyHead]
    cases hparts : rest.splitOn separator with
    | nil => exact absurd hparts (List.splitOn_ne_nil separator rest)
    | cons part parts =>
      by_cases h : c = separator
      · simp [h]
      · simp [h]

/-- What a segment says: nothing as it is blank, something that is no label, or a label. -/
inductive Reading where
  | nothing
  | bare
  | label (key value : String)
  deriving DecidableEq

def Reading.label? : Reading → Option (String × String)
  | .label key value => some (key, value)
  | _ => none

/-- The reading of a segment. -/
def reading (segment : List Char) : Reading :=
  if segment.all Text.isBlank then .nothing
  else
    match splitEquals? segment with
    | none => .bare
    | some (key, value) => .label (stripped key) (stripped value)

theorem splitEquals?_of_not_mem {segment : List Char} (h : '=' ∉ segment) :
    splitEquals? segment = none := by
  have hall : segment.dropWhile (· != '=') = [] :=
    List.dropWhile_eq_nil_iff.mpr fun c hc => bne_iff_ne.mpr (ne_of_mem_of_not_mem hc h)
  rw [splitEquals?, hall]

theorem splitEquals?_append {key : List Char} (h : '=' ∉ key) (value : List Char) :
    splitEquals? (key ++ '=' :: value) = some (key, value) := by
  have hkey : ∀ c ∈ key, (c != '=') = true := fun c hc =>
    bne_iff_ne.mpr (ne_of_mem_of_not_mem hc h)
  rw [splitEquals?, List.dropWhile_append_of_pos hkey, List.takeWhile_append_of_pos hkey]
  simp

theorem reading_of_blank {segment : List Char} (h : segment.all Text.isBlank = true) :
    reading segment = .nothing := if_pos h

theorem reading_label {key : List Char} (h : '=' ∉ key) (value : List Char) :
    reading (key ++ '=' :: value) = .label (stripped key) (stripped value) := by
  have hblank : ¬ (key ++ '=' :: value).all Text.isBlank = true := by
    intro hall
    have := List.all_eq_true.mp hall '=' (by simp)
    exact absurd this (by decide)
  rw [reading, if_neg hblank, splitEquals?_append h]

theorem reading_eq_bare_iff {segment : List Char} :
    reading segment = .bare ↔ segment.all Text.isBlank = false ∧ '=' ∉ segment := by
  by_cases hmem : '=' ∈ segment
  · obtain ⟨key, value, rfl, hkey⟩ := List.eq_append_cons_of_mem hmem
    simp [reading_label hkey]
  · rw [reading, splitEquals?_of_not_mem hmem]
    simp [hmem]

theorem marks_not_mem {cs : List Char} (h : ∀ c ∈ cs, Text.isBlank c = true) :
    '=' ∉ cs ∧ ',' ∉ cs :=
  ⟨fun hmem => absurd (h _ hmem) (by decide), fun hmem => absurd (h _ hmem) (by decide)⟩

/-- Blanks at the ends of a segment do not change what it says. -/
theorem reading_append {before after : List Char} (hbefore : ∀ c ∈ before, Text.isBlank c = true)
    (hafter : ∀ c ∈ after, Text.isBlank c = true) (segment : List Char) :
    reading (before ++ (segment ++ after)) = reading segment := by
  have hequals := (marks_not_mem hbefore).1
  by_cases hmem : '=' ∈ segment
  · obtain ⟨key, value, rfl, hkey⟩ := List.eq_append_cons_of_mem hmem
    have hown : '=' ∉ before ++ key := by simp [hequals, hkey]
    rw [List.append_assoc, List.cons_append, ← List.append_assoc, reading_label hown,
      reading_label hkey, stripped, stripped, Text.trim_append_left hbefore,
      Text.trim_append_right hafter]
    rfl
  · have hwhole : '=' ∉ before ++ (segment ++ after) := by
      simp [hequals, hmem, (marks_not_mem hafter).1]
    rw [reading, reading, splitEquals?_of_not_mem hwhole, splitEquals?_of_not_mem hmem,
      List.all_append, List.all_append, List.all_eq_true.mpr hbefore, List.all_eq_true.mpr hafter,
      Bool.true_and, Bool.and_true]

/-- What the segments of a text say. -/
def readings (cs : List Char) : List Reading := (cs.splitOn ',').map reading

theorem readings_append_comma (cs rest : List Char) :
    readings (cs ++ ',' :: rest) = readings cs ++ readings rest := by
  rw [readings, List.splitOn_append_cons_self, List.map_append]
  rfl

theorem readings_of_not_mem {cs : List Char} (h : ',' ∉ cs) : readings cs = [reading cs] := by
  rw [readings, List.splitOn_eq_singleton h]
  rfl

section Blanks

variable {blanks : List Char} (h : ∀ c ∈ blanks, Text.isBlank c = true)

include h

theorem readings_append_left (cs : List Char) : readings (blanks ++ cs) = readings cs := by
  have hcomma := (marks_not_mem h).2
  have hreading (segment : List Char) : reading (blanks ++ segment) = reading segment := by
    simpa using reading_append h (List.forall_mem_nil _) segment
  by_cases hmem : ',' ∈ cs
  · obtain ⟨first, rest, rfl, hfirst⟩ := List.eq_append_cons_of_mem hmem
    have hown : ',' ∉ blanks ++ first := by simp [hcomma, hfirst]
    rw [← List.append_assoc, readings_append_comma, readings_append_comma,
      readings_of_not_mem hown, readings_of_not_mem hfirst, hreading]
  · have hown : ',' ∉ blanks ++ cs := by simp [hcomma, hmem]
    rw [readings_of_not_mem hown, readings_of_not_mem hmem, hreading]

theorem readings_append_right (cs : List Char) : readings (cs ++ blanks) = readings cs := by
  have hcomma := (marks_not_mem h).2
  have hreading (segment : List Char) : reading (segment ++ blanks) = reading segment :=
    reading_append (List.forall_mem_nil _) h segment
  by_cases hmem : ',' ∈ cs
  · -- the last segment is the first of the text read backwards
    obtain ⟨last, rest, hcs, hlast⟩ := List.eq_append_cons_of_mem (List.mem_reverse.mpr hmem)
    obtain rfl : cs = rest.reverse ++ ',' :: last.reverse := by
      rw [← List.reverse_reverse cs, hcs]
      simp
    have hend : ',' ∉ last.reverse := by simpa using hlast
    have hown : ',' ∉ last.reverse ++ blanks := by simp [hcomma, hlast]
    rw [List.append_assoc, List.cons_append, readings_append_comma, readings_append_comma,
      readings_of_not_mem hown, readings_of_not_mem hend, hreading]
  · have hown : ',' ∉ cs ++ blanks := by simp [hcomma, hmem]
    rw [readings_of_not_mem hown, readings_of_not_mem hmem, hreading]

end Blanks

theorem readings_trim (cs : List Char) : readings (Text.trim Text.isBlank cs) = readings cs := by
  obtain ⟨before, after, hcs, hbefore, hafter⟩ := Text.exists_eq_append_trim Text.isBlank cs
  calc
    readings (Text.trim Text.isBlank cs) = readings (Text.trim Text.isBlank cs ++ after) :=
      (readings_append_right hafter _).symm
    _ = readings (before ++ (Text.trim Text.isBlank cs ++ after)) :=
      (readings_append_left hbefore _).symm
    _ = readings cs := by rw [← hcs]

/-! ## Texts without a brace -/

variable {labels : Labels} {parts : List (List Char)} {text : String}

theorem addSegments_cons (labels : Labels) (segment : List Char) (rest : List (List Char)) :
    addSegments labels (segment :: rest) =
      match reading segment with
      | .nothing => addSegments labels rest
      | .bare => .error (.config [.labelWithoutValue (String.ofList segment)])
      | .label key value => addSegments (labels.insert key value) rest := by
  rw [addSegments, reading]
  by_cases hblank : segment.all Text.isBlank = true
  · rw [if_pos hblank, if_pos hblank]
  · rw [if_neg hblank, if_neg hblank]
    cases splitEquals? segment <;> rfl

/-- Segments none of which is bare add their labels in turn. -/
theorem addSegments_of_not_bare (h : .bare ∉ parts.map reading) :
    addSegments labels parts =
      .ok (labels.insertAll ((parts.map reading).filterMap Reading.label?)) := by
  induction parts generalizing labels with
  | nil => rfl
  | cons segment rest ih =>
    rw [List.map_cons, List.mem_cons, not_or] at h
    rw [addSegments_cons, List.map_cons]
    cases hreading : reading segment with
    | nothing => exact ih h.2
    | bare => exact absurd hreading.symm h.1
    | label key value => exact ih h.2

theorem addSegments_of_bare (h : .bare ∈ parts.map reading) :
    ∃ segment, addSegments labels parts = .error (.config [.labelWithoutValue segment]) := by
  induction parts generalizing labels with
  | nil => cases h
  | cons segment rest ih =>
    rw [List.map_cons, List.mem_cons] at h
    rw [addSegments_cons]
    cases hreading : reading segment with
    | nothing => exact ih (h.resolve_left (by rw [hreading]; nofun))
    | bare => exact ⟨_, rfl⟩
    | label key value => exact ih (h.resolve_left (by rw [hreading]; nofun))

theorem ofText_eq_addSegments (h : (Text.strip text).toList.head? ≠ some '\x7b') :
    ofText text = addSegments .empty (segments ',' (Text.trim Text.isBlank text.toList)) := by
  rw [Text.strip, String.toList_ofList] at h
  rw [ofText]
  split
  · next hempty =>
    rw [hempty]
    rfl
  · next rest hbrace =>
    rw [hbrace] at h
    exact absurd rfl h
  · rfl

/-- **Texts without a brace** give the labels that their segments say, unless one is bare. -/
theorem ofText_of_readings (h : (Text.strip text).toList.head? ≠ some '\x7b') :
    (.bare ∉ readings text.toList →
      ofText text = .ok (.ofList ((readings text.toList).filterMap Reading.label?))) ∧
    (.bare ∈ readings text.toList →
      ∃ segment, ofText text = .error (.config [.labelWithoutValue segment])) := by
  rw [ofText_eq_addSegments h, ← readings_trim, readings, segments_eq_splitOn]
  exact ⟨addSegments_of_not_bare, addSegments_of_bare⟩

theorem bare_mem_readings_iff {cs : List Char} :
    .bare ∈ readings cs ↔
      ∃ segment ∈ cs.splitOn ',', segment.all Text.isBlank = false ∧ '=' ∉ segment := by
  rw [readings, List.mem_map]
  simp only [reading_eq_bare_iff]

/-! ## Written labels -/

/-- Any number of blanks. -/
structure Blanks where
  chars : List Char
  all_blank : chars.all Text.isBlank = true

theorem Blanks.isBlank_of_mem (blanks : Blanks) :
    ∀ c ∈ blanks.chars, Text.isBlank c = true := List.all_eq_true.mp blanks.all_blank

/-- The blanks around the parts of a label. -/
structure Spacing where
  beforeKey : Blanks
  afterKey : Blanks
  beforeValue : Blanks
  afterValue : Blanks

/-- A segment as it is written: only blanks, or a label with blanks around its parts. -/
inductive Segment where
  | blank (blanks : Blanks)
  | label (key value : String) (spacing : Spacing)

def Segment.label? : Segment → Option (String × String)
  | .blank _ => none
  | .label key value _ => some (key, value)

/-- The characters of a segment. -/
def Segment.chars : Segment → List Char
  | .blank blanks => blanks.chars
  | .label key value spacing =>
    spacing.beforeKey.chars ++ (key.toList ++ spacing.afterKey.chars) ++
      '=' :: (spacing.beforeValue.chars ++ (value.toList ++ spacing.afterValue.chars))

/-- The text of segments, with a comma between every two. -/
def write (parts : List Segment) : String :=
  String.ofList ([','].intercalate (parts.map Segment.chars))

/-- A label that can be written between commas. -/
structure Writable (key value : String) : Prop where
  key_comma : ',' ∉ key.toList
  key_equals : '=' ∉ key.toList
  key_brace : key.toList.head? ≠ some '\x7b'
  value_comma : ',' ∉ value.toList
  key_strip : Text.strip key = key
  value_strip : Text.strip value = value

namespace Segment

/-- The label of a segment, if there is one, can be written. -/
def Fits (part : Segment) : Prop := ∀ label ∈ part.label?, Writable label.1 label.2

variable {part : Segment} (h : part.Fits)

include h

theorem reading_chars :
    (reading part.chars).label? = part.label? ∧ reading part.chars ≠ .bare := by
  cases part with
  | blank blanks =>
    have hblank : reading (Segment.blank blanks).chars = .nothing :=
      reading_of_blank blanks.all_blank
    rw [hblank]
    exact ⟨rfl, nofun⟩
  | label key value spacing =>
    have hwritable : Writable key value := h (key, value) rfl
    have hkey : '=' ∉ spacing.beforeKey.chars ++ (key.toList ++ spacing.afterKey.chars) := by
      simp [hwritable.key_equals, (marks_not_mem spacing.beforeKey.isBlank_of_mem).1,
        (marks_not_mem spacing.afterKey.isBlank_of_mem).1]
    have hstripped (s : String) (before after : Blanks) :
        stripped (before.chars ++ (s.toList ++ after.chars)) = Text.strip s := by
      rw [stripped, Text.trim_append_left before.isBlank_of_mem,
        Text.trim_append_right after.isBlank_of_mem, Text.strip]
    rw [chars, reading_label hkey, hstripped, hstripped, hwritable.key_strip,
      hwritable.value_strip]
    exact ⟨rfl, nofun⟩

theorem comma_not_mem_chars : ',' ∉ part.chars := by
  have hblanks (blanks : Blanks) := (marks_not_mem blanks.isBlank_of_mem).2
  cases part with
  | blank blanks => exact hblanks blanks
  | label key value spacing =>
    have hwritable : Writable key value := h (key, value) rfl
    simp [chars, hblanks, hwritable.key_comma, hwritable.value_comma]

/-- The first character of a segment that is not blank is no brace. -/
theorem find?_chars : part.chars.find? (fun c => !Text.isBlank c) ≠ some '\x7b' := by
  have hblanks (blanks : Blanks) : blanks.chars.find? (fun c => !Text.isBlank c) = none :=
    List.find?_eq_none.mpr fun c hc => by simp [blanks.isBlank_of_mem c hc]
  cases part with
  | blank blanks =>
    rw [chars, hblanks]
    nofun
  | label key value spacing =>
    have hwritable : Writable key value := h (key, value) rfl
    have hkey : key.toList.find? (fun c => !Text.isBlank c) = key.toList.head? := by
      conv_rhs => rw [← hwritable.key_strip, Text.strip, String.toList_ofList]
      exact (Text.head?_trim _ _).symm
    have hfirst := hwritable.key_brace
    rw [chars, List.find?_append, List.find?_append, List.find?_append, hblanks, hkey, hblanks]
    cases hhead : key.toList.head? with
    | none => simp [show Text.isBlank '=' = false by decide]
    | some c =>
      rw [hhead] at hfirst
      exact hfirst

end Segment

section Written

variable {parts : List Segment} (h : ∀ part ∈ parts, part.Fits)

include h

theorem readings_write :
    (readings (write parts).toList).filterMap Reading.label? = parts.filterMap Segment.label? ∧
      .bare ∉ readings (write parts).toList := by
  rw [write, String.toList_ofList]
  by_cases hne : parts = []
  · subst hne
    exact ⟨rfl, by decide⟩
  · have hsplit : ([','].intercalate (parts.map Segment.chars)).splitOn ',' =
        parts.map Segment.chars := by
      refine List.splitOn_intercalate ',' (fun cs hcs => ?_) (by simpa using hne)
      obtain ⟨part, hpart, rfl⟩ := List.mem_map.mp hcs
      exact Segment.comma_not_mem_chars (h part hpart)
    rw [readings, hsplit, List.map_map]
    constructor
    · rw [List.filterMap_map]
      exact List.filterMap_congr fun part hpart => (Segment.reading_chars (h part hpart)).1
    · intro hbare
      obtain ⟨part, hpart, hreading⟩ := List.mem_map.mp hbare
      exact (Segment.reading_chars (h part hpart)).2 hreading

theorem head?_strip_write : (Text.strip (write parts)).toList.head? ≠ some '\x7b' := by
  rw [Text.strip, String.toList_ofList, Text.head?_trim, write, String.toList_ofList]
  induction parts with
  | nil => nofun
  | cons part rest ih =>
    have hpart := Segment.find?_chars (h part List.mem_cons_self)
    cases rest with
    | nil => simpa [List.intercalate_singleton] using hpart
    | cons next more =>
      rw [List.map_cons, List.map_cons, List.intercalate_cons_cons, List.append_assoc,
        List.find?_append]
      cases hfirst : part.chars.find? fun c => !Text.isBlank c with
      | none => simp [show Text.isBlank ',' = false by decide]
      | some c =>
        rw [hfirst] at hpart
        exact hpart

end Written

/-- **Labels as text.** Whatever the order of writable labels, the blanks around their parts and
the blank segments among them, the text gives the labels again. A text that no brace starts fails
exactly if one of its segments is neither blank nor has an equals sign. -/
theorem labels_roundTrip :
    (∀ (labels : Labels) (parts : List Segment),
      (∀ label ∈ labels.entries, Writable label.1 label.2) →
      (parts.filterMap Segment.label?).Perm labels.entries →
        ∃ parsed, ofText (write parts) = .ok parsed ∧ ∀ key, parsed.get? key = labels.get? key) ∧
    ∀ text : String, (Text.strip text).toList.head? ≠ some '\x7b' →
      ((∃ problems, ofText text = .error (.config problems)) ↔
        ∃ segment ∈ text.toList.splitOn ',',
          segment.all Text.isBlank = false ∧ '=' ∉ segment) ∧
      ((∃ problems, ofText text = .error (.config problems)) ∨
        ∃ parsed, ofText text = .ok parsed) := by
  constructor
  · intro labels parts hwritable hperm
    have hfits : ∀ part ∈ parts, part.Fits := fun part hpart label hlabel =>
      hwritable label (hperm.mem_iff.mp (List.mem_filterMap.mpr ⟨part, hpart, hlabel⟩))
    have hnodup : ((parts.filterMap Segment.label?).map (·.1)).Nodup :=
      (hperm.map (·.1)).nodup_iff.mpr labels.nodup
    obtain ⟨hlabels, hbare⟩ := readings_write hfits
    have hok := (ofText_of_readings (head?_strip_write hfits)).1 hbare
    rw [hlabels] at hok
    refine ⟨_, hok, fun key => ?_⟩
    rw [OrderedMap.get?_ofList hnodup]
    exact (Pairs.perm_iff hnodup labels.nodup).mp hperm key
  · intro text hbrace
    obtain ⟨hok, herror⟩ := ofText_of_readings hbrace
    rw [← bare_mem_readings_iff]
    by_cases hbare : .bare ∈ readings text.toList
    · obtain ⟨segment, hfails⟩ := herror hbare
      exact ⟨iff_of_true ⟨_, hfails⟩ hbare, .inl ⟨_, hfails⟩⟩
    · have hreads := hok hbare
      refine ⟨iff_of_false ?_ hbare, .inr ⟨_, hreads⟩⟩
      rw [hreads]
      nofun

/-- A label of the empty key beside one with an equals sign in its value. -/
def zoneLabels : Labels := .ofList [("zone", "eu=1"), ("", "")]

/-- Blanks of several kinds. -/
def wideSpacing : Spacing where
  beforeKey := ⟨[' ', '\t'], rfl⟩
  afterKey := ⟨['\u2003'], rfl⟩
  beforeValue := ⟨[], rfl⟩
  afterValue := ⟨['\n'], rfl⟩

/-- The labels in the other order, between blank segments. -/
def zoneParts : List Segment :=
  [.blank ⟨[' '], rfl⟩, .label "" "" wideSpacing, .blank ⟨[], rfl⟩,
    .label "zone" "eu=1" wideSpacing, .blank ⟨[], rfl⟩]

theorem labels_roundTrip_zone :
    write zoneParts = " , \t\u2003=\n,, \tzone\u2003=eu=1\n," ∧
    (∃ parsed, ofText (write zoneParts) = .ok parsed ∧
      ∀ key, parsed.get? key = zoneLabels.get? key) ∧
    ∃ problems, ofText " zone = eu , stray" = .error (.config problems) := by
  have hwritable : ∀ label ∈ zoneLabels.entries, Writable label.1 label.2 := by
    have hentries : zoneLabels.entries = [("zone", "eu=1"), ("", "")] := by decide +kernel
    rw [hentries]
    simp only [List.forall_mem_cons, List.not_mem_nil, false_implies, implies_true, and_true]
    exact ⟨⟨by decide, by decide, by decide, by decide, by decide +kernel, by decide +kernel⟩,
      ⟨by decide, by decide, by decide, by decide, by decide +kernel, by decide +kernel⟩⟩
  refine ⟨by decide +kernel, labels_roundTrip.1 zoneLabels zoneParts hwritable (by decide +kernel),
    ?_⟩
  have hstray := labels_roundTrip.2 " zone = eu , stray" (by decide +kernel)
  exact hstray.1.mpr ⟨" stray".toList, by decide +kernel, by decide +kernel, by decide⟩

end Labels
end Telemetry
