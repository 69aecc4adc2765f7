import Mathlib.Data.List.Basic
import Telemetry.Proofs.Calendar
import Telemetry.Proofs.Decimal.Digits
import Telemetry.Timestamp

/-!
Timestamps lose nothing.

Proved here:

* `Moment.toMillis_ofMillis`: the parts of an epoch time give it back;
* `Moment.render_inj`: the text of a moment determines its parts;
* `format_eq`, `shown_inj`: all times in years 1 to 9999 have a text, which determines them.
-/

namespace Telemetry.Timestamp

/-- A time in years that a timestamp can show. -/
def WithinYears (millis : Int) : Prop :=
  1 ≤ (Moment.ofMillis millis).date.year ∧ (Moment.ofMillis millis).date.year ≤ 9999

instance (millis : Int) : Decidable (WithinYears millis) :=
  inferInstanceAs (Decidable (_ ∧ _))

namespace Moment

/-- **Round trip.** The moment of an epoch time is at that time. -/
theorem toMillis_ofMillis (millis : Int) : (ofMillis millis).toMillis = millis := by
  rw [ofMillis, toMillis]
  dsimp only
  rw [Date.toDay_ofDay]
  omega

/-- The parts of a moment fit the places that its text has for them. -/
structure Fits (m : Moment) : Prop where
  year : 0 ≤ m.date.year
  month : m.date.month < 100
  day : m.date.day < 100
  hour : m.hour < 100
  minute : m.minute < 100
  second : m.second < 100
  millisecond : m.millisecond < 1000

theorem fits_ofMillis {millis : Int} (h : WithinYears millis) : (ofMillis millis).Fits := by
  have hdate := Date.ofDay_bounds (millis / 1000 / 86400 + epochDay)
  refine ⟨Int.le_trans (by decide) h.1, ?_, ?_, ?_, ?_, ?_, ?_⟩
  all_goals
    dsimp only [ofMillis]
    omega

/-- The text of a moment determines its parts: only the year has no fixed number of digits, and it
ends at the first dash. -/
theorem render_inj {m n : Moment} (hm : m.Fits) (hn : n.Fits) (h : m.render = n.render) :
    m = n := by
  simp only [render, List.append_assoc, List.cons_append] at h
  obtain ⟨hyear, h⟩ := Decimal.natural_append_inj rfl h
  obtain ⟨hmonth, h⟩ := Decimal.padded_append_inj hm.month hn.month h
  obtain ⟨hday, h⟩ := Decimal.padded_append_inj hm.day hn.day (List.cons.inj h).2
  obtain ⟨hhour, h⟩ := Decimal.padded_append_inj hm.hour hn.hour (List.cons.inj h).2
  obtain ⟨hminute, h⟩ := Decimal.padded_append_inj hm.minute hn.minute (List.cons.inj h).2
  obtain ⟨hsecond, h⟩ := Decimal.padded_append_inj hm.second hn.second (List.cons.inj h).2
  obtain ⟨hmillisecond, -⟩ :=
    Decimal.padded_append_inj hm.millisecond hn.millisecond (List.cons.inj h).2
  have hyear : m.date.year = n.date.year := by
    have hmyear := hm.year
    have hnyear := hn.year
    omega
  obtain ⟨⟨year, month, day⟩, hour, minute, second, millisecond⟩ := m
  obtain ⟨⟨year', month', day'⟩, hour', minute', second', millisecond'⟩ := n
  dsimp only at *
  subst_vars
  rfl

end Moment

/-- The text of a time. -/
def shown (millis : Int) : String := String.ofList (Moment.ofMillis millis).render

/-- A time whose year can be shown is far within what seconds and years can hold. -/
theorem format_eq {millis : Int} (h : WithinYears millis) : format millis = .ok (shown millis) := by
  obtain ⟨hfirst, hlast⟩ := h
  have hyear : (Moment.ofMillis millis).date.year =
      (yearOfDay (millis / 1000 / 86400 + epochDay)).1 := rfl
  obtain ⟨cycle, century, four, single, hcentury, hfour, hsingle, hplace, hday, hin⟩ :=
    yearOfDay_spec (millis / 1000 / 86400 + epochDay)
  have hepoch : epochDay = 719162 := rfl
  have hseconds : ¬ (millis / 1000 < -(twoTo 63 : Nat) ∨ (twoTo 63 : Nat) ≤ millis / 1000) := by
    rw [show twoTo 63 = 9223372036854775808 from rfl]
    omega
  have hholds : holdsYear (Moment.ofMillis millis).date.year = true := by
    simp only [holdsYear, Bool.and_eq_true, decide_eq_true_eq]
    omega
  rw [format, if_neg hseconds, if_neg (by simp [hholds]), if_neg (by omega)]
  rfl

/-- **Timestamps** of years 1 to 9999 determine their times. -/
theorem shown_inj {millis other : Int} (h : WithinYears millis) (hother : WithinYears other) :
    shown millis = shown other ↔ millis = other := by
  constructor
  · intro heq
    have hrender := String.ofList_injective heq
    have hmoment := Moment.render_inj (Moment.fits_ofMillis h) (Moment.fits_ofMillis hother) hrender
    rw [← Moment.toMillis_ofMillis millis, hmoment, Moment.toMillis_ofMillis]
  · exact congrArg shown

end Telemetry.Timestamp
