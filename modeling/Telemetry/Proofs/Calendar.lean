import Mathlib.Order.Monotone.Basic
import Mathlib.Order.SuccPred.IntervalSucc
import Telemetry.CivilTime

/-!
The calendar counts every day once.

Proved here:

* `yearOfDay_spec`: the place of a day in the cycles of 400, 100 and 4 years;
* `daysBeforeYear_yearOfDay`, `yearOfDay_lt`: the days before its year and the days of that year
  before it, and that these are less than a year;
* `monthOfDay_spec`: the same for the months of a year;
* `Date.toDay_ofDay`: hence the date of a day determines it;
* `daysBeforeYear_succ`, `daysBeforeYear_eq_daysThrough`: the days before a year are those of all
  years up to it, each counted by the rule for leap years;
* `Date.valid_ofDay`, `Date.le_year_ofDay_iff`: every day is on a date of the calendar, in the year
  whose days hold it;
* `Date.toDay_lt_iff`: dates follow each other by year, month and day.
-/

namespace Telemetry

/-! ## Years -/

/-- A day in whole cycles of 400 years, centuries, cycles of four years and years. Only the last
year of a cycle has a last day of its own, and only the last century has a last cycle of its
own. -/
theorem yearOfDay_spec (day : Int) :
    ∃ (cycle : Int) (century four single : Nat), century ≤ 3 ∧ four ≤ 24 ∧ single ≤ 3 ∧
      (yearOfDay day).1 = 400 * cycle + (100 * century + 4 * four + single : Nat) + 1 ∧
      day = 146097 * cycle +
        (36524 * century + 1461 * four + 365 * single + (yearOfDay day).2 : Nat) ∧
      ((yearOfDay day).2 < 365 ∨
        (yearOfDay day).2 = 365 ∧ single = 3 ∧ (four = 24 → century = 3)) := by
  have hday : ((day % 146097).toNat : Int) = day % 146097 := by omega
  have hlt : (day % 146097).toNat < 146097 := by omega
  dsimp only [yearOfDay]
  generalize (day % 146097).toNat = in400 at hday hlt ⊢
  refine ⟨day / 146097, min (in400 / 36524) 3, (in400 - 36524 * min (in400 / 36524) 3) / 1461,
    min ((in400 - 36524 * min (in400 / 36524) 3) % 1461 / 365) 3, ?_⟩
  have hcentury : min (in400 / 36524) 3 ≤ 3 := Nat.min_le_right ..
  have hin100 : 36524 * min (in400 / 36524) 3 ≤ in400 ∧
      (in400 < 36524 * min (in400 / 36524) 3 + 36524 ∨
        in400 = 36524 * min (in400 / 36524) 3 + 36524 ∧ min (in400 / 36524) 3 = 3) := by
    omega
  generalize min (in400 / 36524) 3 = century at hcentury hin100 ⊢
  obtain ⟨in100, rfl⟩ := Nat.exists_eq_add_of_le hin100.1
  rw [Nat.add_sub_cancel_left]
  have hfour := Nat.div_add_mod in100 1461
  have hin4 := Nat.mod_lt in100 (show 0 < 1461 by decide)
  generalize in100 / 1461 = four at hfour ⊢
  generalize in100 % 1461 = in4 at hfour hin4 ⊢
  omega

theorem daysBeforeYear_eq (cycle : Int) {century four single : Nat} (hcentury : century ≤ 3)
    (hfour : four ≤ 24) (hsingle : single ≤ 3) :
    daysBeforeYear (400 * cycle + (100 * century + 4 * four + single : Nat) + 1) =
      146097 * cycle + (36524 * century + 1461 * four + 365 * single : Nat) := by
  have h4 : (400 * cycle + (100 * century + 4 * four + single : Nat)) / 4 =
      100 * cycle + 25 * century + four := by omega
  have h100 : (400 * cycle + (100 * century + 4 * four + single : Nat)) / 100 =
      4 * cycle + century := by omega
  have h400 : (400 * cycle + (100 * century + 4 * four + single : Nat)) / 400 = cycle := by omega
  simp only [daysBeforeYear, Int.add_sub_cancel, h4, h100, h400]
  omega

theorem daysBeforeYear_yearOfDay (day : Int) :
    daysBeforeYear (yearOfDay day).1 + (yearOfDay day).2 = day := by
  obtain ⟨cycle, century, four, single, hcentury, hfour, hsingle, hyear, hday, -⟩ :=
    yearOfDay_spec day
  rw [hyear, daysBeforeYear_eq cycle hcentury hfour hsingle]
  omega

/-- The number of days of a year. -/
def daysInYear (leap : Bool) : Nat := if leap then 366 else 365

theorem isLeap_iff (year : Int) :
    isLeap year = true ↔ year % 4 = 0 ∧ (year % 100 ≠ 0 ∨ year % 400 = 0) := by
  simp [isLeap]

theorem yearOfDay_lt (day : Int) :
    (yearOfDay day).2 < daysInYear (isLeap (yearOfDay day).1) := by
  obtain ⟨cycle, century, four, single, hcentury, hfour, hsingle, hyear, -, hlast⟩ :=
    yearOfDay_spec day
  rcases hlast with hlast | ⟨hlast, rfl, hcycle⟩
  · rw [daysInYear]
    split <;> omega
  · have hleap : isLeap (yearOfDay day).1 = true := by
      rw [isLeap_iff, hyear]
      omega
    rw [hleap, hlast]
    decide

/-! ## Months -/

/-- A day of a year is as many days after the start of its month, and in that month. -/
theorem monthOfDay_spec {lengths : List Nat} {day : Nat} (h : day < lengths.foldr (· + ·) 0) :
    (lengths.take (monthOfDay lengths day).1).foldr (· + ·) 0 + (monthOfDay lengths day).2 = day ∧
      ∃ length, lengths[(monthOfDay lengths day).1]? = some length ∧
        (monthOfDay lengths day).2 < length := by
  induction lengths generalizing day with
  | nil => cases h
  | cons length rest ih =>
    rw [List.foldr_cons] at h
    rw [monthOfDay]
    split
    · next hlt => exact ⟨Nat.zero_add day, length, rfl, hlt⟩
    · next hle =>
      obtain ⟨hsum, hin⟩ := ih (show day - length < rest.foldr (· + ·) 0 by omega)
      refine ⟨?_, hin⟩
      dsimp only
      rw [List.take_succ_cons, List.foldr_cons]
      omega

theorem sum_monthLengths (leap : Bool) :
    (monthLengths leap).foldr (· + ·) 0 = daysInYear leap := by
  cases leap <;> rfl

theorem length_monthLengths (leap : Bool) : (monthLengths leap).length = 12 := by
  cases leap <;> rfl

theorem monthLengths_le (leap : Bool) : ∀ length ∈ monthLengths leap, length ≤ 31 := by
  cases leap <;> decide

/-! ## Dates -/

namespace Date

/-- The month and the day of a date count from one, and a month has at most 31 days. -/
theorem ofDay_bounds (day : Int) :
    1 ≤ (ofDay day).month ∧ (ofDay day).month ≤ 12 ∧ 1 ≤ (ofDay day).day ∧
      (ofDay day).day ≤ 31 := by
  have hlt := yearOfDay_lt day
  rw [← sum_monthLengths] at hlt
  obtain ⟨-, length, hlength, hin⟩ := monthOfDay_spec hlt
  have hmonth := (List.getElem?_eq_some_iff.mp hlength).1
  rw [length_monthLengths] at hmonth
  have hle := monthLengths_le _ length (List.mem_of_getElem? hlength)
  rw [ofDay]
  dsimp only
  omega

/-- **Dates.** The date of a day is on that day. -/
theorem toDay_ofDay (day : Int) : (ofDay day).toDay = day := by
  have hlt := yearOfDay_lt day
  rw [← sum_monthLengths] at hlt
  obtain ⟨hmonth, -⟩ := monthOfDay_spec hlt
  have hyear := daysBeforeYear_yearOfDay day
  rw [ofDay, toDay]
  dsimp only
  rw [daysBeforeMonth, Nat.add_sub_cancel, Nat.add_sub_cancel]
  omega

end Date

/-! ## Years counted one by one -/

theorem daysBeforeYear_succ (year : Int) :
    daysBeforeYear (year + 1) = daysBeforeYear year + daysInYear (isLeap year) := by
  have hleap := isLeap_iff year
  simp only [daysBeforeYear, Int.add_sub_cancel]
  rw [daysInYear]
  split
  · next h =>
    have := hleap.mp h
    omega
  · next h =>
    have := mt hleap.mpr h
    omega

theorem daysBeforeYear_mono {year later : Int} (h : year ≤ later) :
    daysBeforeYear year ≤ daysBeforeYear later := by
  have hmono : Monotone daysBeforeYear := monotone_int_of_le_succ fun year => by
    rw [daysBeforeYear_succ]
    omega
  exact hmono h

/-- The days of the years from the first one through another one. -/
def daysThrough : Nat → Nat
  | 0 => 0
  | year + 1 => daysThrough year + daysInYear (isLeap (year + 1 : Nat))

theorem daysBeforeYear_eq_daysThrough (year : Nat) :
    daysBeforeYear (year + 1) = daysThrough year := by
  induction year with
  | zero => rfl
  | succ year ih =>
    rw [daysThrough, daysBeforeYear_succ, Int.natCast_add, Int.natCast_add (daysThrough year), ← ih]
    rfl

/-! ## The order of dates -/

theorem daysBeforeMonth_add_le (year : Int) {month later : Nat} (hmonth : 1 ≤ month)
    (hlt : month < later) (hlater : later ≤ 13) :
    daysBeforeMonth (isLeap year) month + daysInMonth year month ≤
      daysBeforeMonth (isLeap year) later := by
  have htable : ∀ leap, ∀ later < 14, ∀ month < later, 1 ≤ month →
      daysBeforeMonth leap month + (monthLengths leap).getD (month - 1) 0 ≤
        daysBeforeMonth leap later := by
    decide
  rw [daysInMonth, if_neg (by omega)]
  exact htable _ later (by omega) month hlt hmonth

namespace Date

/-- A date that the calendar has. -/
structure Valid (d : Date) : Prop where
  month_pos : 1 ≤ d.month
  month_le : d.month ≤ 12
  day_pos : 1 ≤ d.day
  day_le : d.day ≤ daysInMonth d.year d.month

instance (d : Date) : Decidable d.Valid :=
  decidable_of_iff
    (1 ≤ d.month ∧ d.month ≤ 12 ∧ 1 ≤ d.day ∧ d.day ≤ daysInMonth d.year d.month)
    ⟨fun h => ⟨h.1, h.2.1, h.2.2.1, h.2.2.2⟩,
      fun h => ⟨h.month_pos, h.month_le, h.day_pos, h.day_le⟩⟩

/-- **Every day** is on a date of the calendar. -/
theorem valid_ofDay (day : Int) : (ofDay day).Valid := by
  have hlt := yearOfDay_lt day
  rw [← sum_monthLengths] at hlt
  obtain ⟨-, length, hlength, hin⟩ := monthOfDay_spec hlt
  obtain ⟨hmonth_pos, hmonth_le, hday_pos, -⟩ := ofDay_bounds day
  refine ⟨hmonth_pos, hmonth_le, hday_pos, ?_⟩
  rw [daysInMonth, if_neg (by omega), ofDay]
  dsimp only
  rw [Nat.add_sub_cancel, List.getD_eq_getElem?_getD, hlength]
  exact hin

/-- The days from a year on are those on dates from that year on. -/
theorem le_year_ofDay_iff (year day : Int) :
    year ≤ (ofDay day).year ↔ daysBeforeYear year ≤ day := by
  have hstart := daysBeforeYear_yearOfDay day
  have hlt := yearOfDay_lt day
  have hnext := daysBeforeYear_succ (yearOfDay day).1
  rw [show (ofDay day).year = (yearOfDay day).1 from rfl]
  constructor
  · intro hle
    have := daysBeforeYear_mono hle
    omega
  · intro hle
    by_contra hnot
    have := daysBeforeYear_mono (show (yearOfDay day).1 + 1 ≤ year by omega)
    omega

/-- Year, month and day. -/
def fields (d : Date) : List Int := [d.year, d.month, d.day]

theorem fields_lt_iff (d later : Date) :
    d.fields < later.fields ↔
      d.year < later.year ∨ d.year = later.year ∧
        (d.month < later.month ∨ d.month = later.month ∧ d.day < later.day) := by
  simp only [fields, List.cons_lt_cons_iff, List.not_lt_nil, and_false, or_false]
  omega

section Valid

variable {d later : Date} (hd : d.Valid) (hlater : later.Valid)

include hd

/-- The days of a month before a date are fewer than the month has. -/
theorem Valid.day_lt : d.day - 1 < daysInMonth d.year d.month := by
  have := hd.day_pos
  have := hd.day_le
  omega

theorem Valid.toDay_lt_year : d.toDay < daysBeforeYear (d.year + 1) := by
  have hmonth := daysBeforeMonth_add_le d.year hd.month_pos
    (show d.month < 13 from Nat.lt_succ_of_le hd.month_le) (Nat.le_refl 13)
  have hday := hd.day_lt
  have hyear : daysBeforeMonth (isLeap d.year) 13 = daysInYear (isLeap d.year) := by
    cases isLeap d.year <;> rfl
  rw [toDay, daysBeforeYear_succ]
  omega

include hlater

theorem Valid.toDay_lt (h : d.fields < later.fields) : d.toDay < later.toDay := by
  rcases (fields_lt_iff d later).mp h with hyear | ⟨hyear, hmonth | ⟨hmonth, hday⟩⟩
  · have hnext := hd.toDay_lt_year
    have hmono := daysBeforeYear_mono (show d.year + 1 ≤ later.year from hyear)
    have hstart : daysBeforeYear later.year ≤ later.toDay := by
      rw [toDay]
      omega
    omega
  · have hnext := daysBeforeMonth_add_le d.year hd.month_pos hmonth
      (Nat.le_succ_of_le hlater.month_le)
    have hin := hd.day_lt
    rw [toDay, toDay, ← hyear]
    omega
  · have hpos := hd.day_pos
    rw [toDay, toDay, ← hyear, ← hmonth]
    omega

/-- **The order of dates** is that of their days. -/
theorem Valid.toDay_lt_iff : d.toDay < later.toDay ↔ d.fields < later.fields := by
  refine ⟨fun hlt => ?_, hd.toDay_lt hlater⟩
  by_contra hnot
  by_cases hback : later.fields < d.fields
  · have := hlater.toDay_lt hd hback
    omega
  · -- neither is before the other one, so they are the same date
    rw [fields_lt_iff] at hnot hback
    have heq : d = later := by
      obtain ⟨year, month, day⟩ := d
      obtain ⟨year', month', day'⟩ := later
      dsimp only at hnot hback
      obtain ⟨rfl, rfl, rfl⟩ : year = year' ∧ month = month' ∧ day = day' := by omega
      rfl
    rw [heq] at hlt
    omega

end Valid

end Date

end Telemetry
