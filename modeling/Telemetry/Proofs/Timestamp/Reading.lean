import Telemetry.Proofs.Timestamp

/-!
Timestamps read back, and in order.

The reader takes nothing but `Y-MM-DDTHH:MM:SS.mmmZ` with a date of the calendar, a time of a day
and no zeros before the year. It counts the days of years and months one by one.

Proved here:

* `inYears_iff`: the times between the starts of two years are those whose date is between them;
* `decode?_shown`: the text of a time is read back as that time;
* `shown_lt_iff`: with years of four digits, texts are in the order of their times;
* `timestamps_roundTrip`: all of it for what the writer gives.
-/

namespace Telemetry.Timestamp

/-! ## Reading -/

/-- The number of so many digits after a mark, and what follows them. -/
def field? (mark : Char) (width : Nat) : List Char → Option (Nat × List Char)
  | [] => none
  | c :: cs =>
    let digits := cs.take width
    if c = mark ∧ digits.length = width ∧ digits.all Char.isDigit then
      some (Nat.ofDigitChars 10 digits 0, cs.drop width)
    else none

/-- The number of all digits at the start, the first of which is no zero, and what follows them. -/
def number? (cs : List Char) : Option (Nat × List Char) :=
  let digits := cs.takeWhile Char.isDigit
  if digits = [] ∨ digits.head? = some '0' then none
  else some (Nat.ofDigitChars 10 digits 0, cs.dropWhile Char.isDigit)

/-- A date of the calendar in the years that can be shown, and a time of a day. -/
structure Moment.Valid (m : Moment) : Prop where
  date : m.date.Valid
  year_pos : 1 ≤ m.date.year
  year_le : m.date.year ≤ 9999
  hour : m.hour < 24
  minute : m.minute < 60
  second : m.second < 60
  millisecond : m.millisecond < 1000

instance (m : Moment) : Decidable m.Valid :=
  decidable_of_iff
    (m.date.Valid ∧ 1 ≤ m.date.year ∧ m.date.year ≤ 9999 ∧ m.hour < 24 ∧ m.minute < 60 ∧
      m.second < 60 ∧ m.millisecond < 1000)
    ⟨fun ⟨h₁, h₂, h₃, h₄, h₅, h₆, h₇⟩ => ⟨h₁, h₂, h₃, h₄, h₅, h₆, h₇⟩,
      fun ⟨h₁, h₂, h₃, h₄, h₅, h₆, h₇⟩ => ⟨h₁, h₂, h₃, h₄, h₅, h₆, h₇⟩⟩

/-- The moment of a text. -/
def read? (text : String) : Option Moment := do
  let (year, cs) ← number? text.toList
  let (month, cs) ← field? '-' 2 cs
  let (day, cs) ← field? '-' 2 cs
  let (hour, cs) ← field? 'T' 2 cs
  let (minute, cs) ← field? ':' 2 cs
  let (second, cs) ← field? ':' 2 cs
  let (millisecond, cs) ← field? '.' 3 cs
  let moment : Moment := ⟨⟨year, month, day⟩, hour, minute, second, millisecond⟩
  if cs = ['Z'] ∧ moment.Valid then some moment else none

/-- The milliseconds from the start of the first year to a moment. -/
def Moment.elapsed (m : Moment) : Nat :=
  let days := daysThrough (m.date.year.toNat - 1)
    + daysBeforeMonth (isLeap m.date.year) m.date.month + (m.date.day - 1)
  (((days * 24 + m.hour) * 60 + m.minute) * 60 + m.second) * 1000 + m.millisecond

/-- The epoch time at which a year starts. -/
def startOfYear (year : Nat) : Int :=
  ((daysThrough (year - 1) : Int) - daysThrough 1969) * 86400000

/-- The epoch time of a text. -/
def decode? (text : String) : Option Int :=
  (read? text).map fun m => m.elapsed + startOfYear 1

/-- A time in one of the years from the first one through the last. -/
def InYears (first last : Nat) (millis : Int) : Prop :=
  startOfYear first ≤ millis ∧ millis < startOfYear (last + 1)

/-! ## Years -/

theorem startOfYear_eq {year : Nat} (hpos : 1 ≤ year) :
    startOfYear year = (daysBeforeYear year - epochDay) * 86400000 := by
  obtain ⟨past, rfl⟩ := Nat.exists_eq_add_of_le' hpos
  rw [startOfYear, ← daysBeforeYear_eq_daysThrough, ← daysBeforeYear_eq_daysThrough]
  rfl

theorem inYears_iff {first last : Nat} (hfirst : 1 ≤ first) (millis : Int) :
    InYears first last millis ↔
      first ≤ (Moment.ofMillis millis).date.year ∧ (Moment.ofMillis millis).date.year ≤ last := by
  have hstart := Date.le_year_ofDay_iff first (millis / 1000 / 86400 + epochDay)
  have hstop := Date.le_year_ofDay_iff (last + 1 : Nat) (millis / 1000 / 86400 + epochDay)
  rw [InYears, startOfYear_eq hfirst, startOfYear_eq (show 1 ≤ last + 1 by omega)]
  dsimp only [Moment.ofMillis]
  omega

/-- Times in years that can be shown are on dates of the calendar, at times of a day. -/
theorem Moment.valid_ofMillis {millis : Int} (h : WithinYears millis) :
    (ofMillis millis).Valid := by
  refine ⟨Date.valid_ofDay _, h.1, h.2, ?_, ?_, ?_, ?_⟩
  all_goals
    dsimp only [ofMillis]
    omega

/-! ## Round trip -/

theorem field?_padded (mark : Char) {width n : Nat} (h : n < tenTo width) (rest : List Char) :
    field? mark width (mark :: (Decimal.padded width n ++ rest)) = some (n, rest) := by
  have hlength := Decimal.padded_length width n
  have hdigits : (Decimal.padded width n).all Char.isDigit = true :=
    List.all_eq_true.mpr fun _ => Decimal.isDigit_of_mem_padded
  rw [field?, List.take_left' hlength, List.drop_left' hlength, if_pos ⟨rfl, hlength, hdigits⟩,
    Decimal.ofDigitChars_padded h]

theorem number?_natural {n : Nat} (hpos : 0 < n) {mark : Char} (hmark : mark.isDigit = false)
    (rest : List Char) : number? (Decimal.natural n ++ mark :: rest) = some (n, mark :: rest) := by
  have hdigits : ∀ c ∈ Decimal.natural n, c.isDigit = true := fun _ =>
    Decimal.isDigit_of_mem_natural
  have hne : Decimal.natural n ≠ [] := Nat.toDigits_ne_nil
  have hmark : ¬ mark.isDigit = true := by simp [hmark]
  rw [number?, List.takeWhile_append_of_pos hdigits, List.dropWhile_append_of_pos hdigits,
    List.takeWhile_cons_of_neg hmark, List.dropWhile_cons_of_neg hmark, List.append_nil,
    if_neg (not_or_intro hne (Decimal.head?_natural hpos)), Decimal.natural,
    Nat.ofDigitChars_ten_toDigits]

open Decimal in
theorem render_eq (m : Moment) :
    m.render = natural m.date.year.toNat ++ '-' :: (padded 2 m.date.month ++
      '-' :: (padded 2 m.date.day ++ 'T' :: (padded 2 m.hour ++ ':' :: (padded 2 m.minute ++
      ':' :: (padded 2 m.second ++ '.' :: (padded 3 m.millisecond ++ ['Z'])))))) := by
  simp only [Moment.render, List.append_assoc, List.cons_append]

private theorem some_bind {α β : Type} {x : Option α} {a : α} {f : α → Option β} {b : β}
    (hx : x = some a) (hf : f a = some b) : x >>= f = some b := by
  rw [hx]
  exact hf

theorem read?_render {m : Moment} (h : m.Valid) (hfits : m.Fits) :
    read? (String.ofList m.render) = some m := by
  have hpos := h.year_pos
  rw [read?, String.toList_ofList, render_eq]
  refine some_bind (number?_natural (by omega) rfl _) ?_
  refine some_bind (field?_padded '-' hfits.month _) ?_
  refine some_bind (field?_padded '-' hfits.day _) ?_
  refine some_bind (field?_padded 'T' hfits.hour _) ?_
  refine some_bind (field?_padded ':' hfits.minute _) ?_
  refine some_bind (field?_padded ':' hfits.second _) ?_
  refine some_bind (field?_padded '.' hfits.millisecond _) ?_
  dsimp only
  rw [Int.toNat_of_nonneg hfits.year]
  exact if_pos ⟨rfl, h⟩

theorem elapsed_eq {m : Moment} (h : m.Valid) : m.elapsed + startOfYear 1 = m.toMillis := by
  have hpos := h.year_pos
  have hthrough : daysBeforeYear m.date.year = daysThrough (m.date.year.toNat - 1) := by
    rw [← daysBeforeYear_eq_daysThrough]
    congr 1
    omega
  rw [Moment.elapsed, Moment.toMillis, Date.toDay, startOfYear_eq (Nat.le_refl 1), hthrough,
    show daysBeforeYear (1 : Nat) = 0 from rfl]
  omega

theorem read?_shown {millis : Int} (h : WithinYears millis) :
    read? (shown millis) = some (Moment.ofMillis millis) :=
  read?_render (Moment.valid_ofMillis h) (Moment.fits_ofMillis h)

/-- **Round trip.** -/
theorem decode?_shown {millis : Int} (h : WithinYears millis) :
    decode? (shown millis) = some millis := by
  rw [decode?, read?_shown h, Option.map_some, elapsed_eq (Moment.valid_ofMillis h),
    Moment.toMillis_ofMillis]

/-! ## Order -/

theorem cons_lt_cons_mark (mark : Char) (rest others : List Char) :
    mark :: rest < mark :: others ↔ rest < others := by
  simp

theorem natural_year {year : Int} (hfirst : 1000 ≤ year) (hlast : year ≤ 9999) :
    year.toNat < tenTo 4 ∧ Decimal.natural year.toNat = Decimal.padded 4 year.toNat := by
  have hlt : year.toNat < tenTo 4 := by
    rw [show tenTo 4 = 10000 from rfl]
    omega
  refine ⟨hlt, (Decimal.padded_eq_natural ?_ hlt).symm⟩
  rw [show tenTo 3 = 1000 from rfl]
  omega

/-- Texts of moments with years of four digits are in the order of their times. -/
theorem render_lt_iff {m n : Moment} (hm : m.Valid) (hn : n.Valid) (hmfits : m.Fits)
    (hnfits : n.Fits) (hmyear : 1000 ≤ m.date.year) (hnyear : 1000 ≤ n.date.year) :
    m.render < n.render ↔ m.toMillis < n.toMillis := by
  obtain ⟨hmlt, hmdigits⟩ := natural_year hmyear hm.year_le
  obtain ⟨hnlt, hndigits⟩ := natural_year hnyear hn.year_le
  rw [render_eq, render_eq, hmdigits, hndigits, Decimal.padded_append_lt_iff hmlt hnlt,
    cons_lt_cons_mark, Decimal.padded_append_lt_iff hmfits.month hnfits.month,
    cons_lt_cons_mark, Decimal.padded_append_lt_iff hmfits.day hnfits.day,
    cons_lt_cons_mark, Decimal.padded_append_lt_iff hmfits.hour hnfits.hour,
    cons_lt_cons_mark, Decimal.padded_append_lt_iff hmfits.minute hnfits.minute,
    cons_lt_cons_mark, Decimal.padded_append_lt_iff hmfits.second hnfits.second,
    cons_lt_cons_mark, Decimal.padded_append_lt_iff hmfits.millisecond hnfits.millisecond]
  have hdate := (hm.date.toDay_lt_iff hn.date).trans (Date.fields_lt_iff m.date n.date)
  have hback := (hn.date.toDay_lt_iff hm.date).trans (Date.fields_lt_iff n.date m.date)
  have hend : ¬ ['Z'] < ['Z'] := List.lt_irrefl _
  have := hm.hour
  have := hm.minute
  have := hm.second
  have := hm.millisecond
  have := hn.hour
  have := hn.minute
  have := hn.second
  have := hn.millisecond
  rw [Moment.toMillis, Moment.toMillis]
  generalize m.date.toDay = day at *
  generalize n.date.toDay = other at *
  simp only [hend, and_false, or_false]
  rcases Int.lt_trichotomy day other with hlt | rfl | hlt
  · have := hdate.mp hlt
    omega
  · have hsame : m.date.year = n.date.year ∧ m.date.month = n.date.month ∧
        m.date.day = n.date.day := by omega
    omega
  · have := hback.mp hlt
    omega

/-- **Order.** -/
theorem shown_lt_iff {millis other : Int} (h : InYears 1000 9999 millis)
    (hother : InYears 1000 9999 other) : shown millis < shown other ↔ millis < other := by
  obtain ⟨hyear, hlast⟩ := (inYears_iff (by decide) millis).mp h
  obtain ⟨hotherYear, hotherLast⟩ := (inYears_iff (by decide) other).mp hother
  have hwithin : WithinYears millis := ⟨Int.le_trans (by decide) hyear, hlast⟩
  have hotherWithin : WithinYears other := ⟨Int.le_trans (by decide) hotherYear, hotherLast⟩
  rw [String.lt_iff, shown, shown, String.toList_ofList, String.toList_ofList,
    render_lt_iff (Moment.valid_ofMillis hwithin) (Moment.valid_ofMillis hotherWithin)
      (Moment.fits_ofMillis hwithin) (Moment.fits_ofMillis hotherWithin) hyear hotherYear,
    Moment.toMillis_ofMillis, Moment.toMillis_ofMillis]

/-- **Timestamps.** Every time in the years 1 to 9999 has a text, which shows a date of the calendar
and a time of a day and is read back as that time; so no other time has it. From the year 1000 on
texts are in the order of their times. -/
theorem timestamps_roundTrip :
    (∀ millis, InYears 1 9999 millis → ∃ text m, format millis = .ok text ∧
      read? text = some m ∧ m.Valid ∧ decode? text = some millis) ∧
    (∀ millis other, InYears 1 9999 millis → InYears 1 9999 other →
      format millis = format other → millis = other) ∧
    (∀ millis other text later, InYears 1000 9999 millis → InYears 1000 9999 other →
      format millis = .ok text → format other = .ok later → (text < later ↔ millis < other)) := by
  have hwithin : ∀ {first millis}, 1 ≤ first → InYears first 9999 millis → WithinYears millis := by
    intro first millis hfirst h
    obtain ⟨hyear, hlast⟩ := (inYears_iff hfirst millis).mp h
    exact ⟨by omega, hlast⟩
  refine ⟨fun millis h => ?_, fun millis other h hother heq => ?_,
    fun millis other text later h hother htext hlater => ?_⟩
  · have hyears := hwithin (Nat.le_refl 1) h
    exact ⟨shown millis, Moment.ofMillis millis, format_eq hyears, read?_shown hyears,
      Moment.valid_ofMillis hyears, decode?_shown hyears⟩
  · have hyears := hwithin (Nat.le_refl 1) h
    have hotherYears := hwithin (Nat.le_refl 1) hother
    rw [format_eq hyears, format_eq hotherYears] at heq
    exact (shown_inj hyears hotherYears).mp (Except.ok.inj heq)
  · rw [format_eq (hwithin (by decide) h)] at htext
    rw [format_eq (hwithin (by decide) hother)] at hlater
    rw [← Except.ok.inj htext, ← Except.ok.inj hlater]
    exact shown_lt_iff h hother

/-- The first time that can be shown, the millisecond before the epoch and a leap day of a
century. -/
theorem timestamps_roundTrip_edges :
    (format (-62135596800000) = .ok "1-01-01T00:00:00.000Z" ∧
      ∃ text m, format (-62135596800000) = .ok text ∧ read? text = some m ∧ m.Valid ∧
        decode? text = some (-62135596800000)) ∧
    format (-1) = .ok "1969-12-31T23:59:59.999Z" ∧
    format 951782400000 = .ok "2000-02-29T00:00:00.000Z" ∧
    ("1969-12-31T23:59:59.999Z" < "2000-02-29T00:00:00.000Z" ↔ (-1 : Int) < 951782400000) := by
  have hfirst : InYears 1 9999 (-62135596800000) := (inYears_iff (by decide) _).mpr (by decide)
  have hbefore : InYears 1000 9999 (-1) := (inYears_iff (by decide) _).mpr (by decide)
  have hleap : InYears 1000 9999 951782400000 := (inYears_iff (by decide) _).mpr (by decide)
  obtain ⟨hdecode, -, horder⟩ := timestamps_roundTrip
  have htext : format (-1) = .ok "1969-12-31T23:59:59.999Z" := rfl
  have hlater : format 951782400000 = .ok "2000-02-29T00:00:00.000Z" := rfl
  exact ⟨⟨rfl, hdecode _ hfirst⟩, htext, hlater, horder _ _ _ _ hbefore hleap htext hlater⟩

end Telemetry.Timestamp
