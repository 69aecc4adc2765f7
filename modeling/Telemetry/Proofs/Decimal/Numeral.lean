import Mathlib.Algebra.Order.Floor.Semifield
import Mathlib.Data.Rat.Floor
import Telemetry.Proofs.Decimal.Digits

/-!
Decimal numerals: a sign, digits before the point and, if there are any, digits after it. Many of
them stand for one number, of which the canonical one has no zeros that could be left out.

Proved here:

* `Numeral.text_injective`: a text is that of one numeral only;
* `Numeral.Canonical.ext_of_value`: a sign and a number have one canonical numeral;
* `Numeral.Canonical.length_text_le`: no numeral of the same sign and number has a shorter text.
-/

namespace Telemetry.Decimal

/-- A decimal text taken apart. There are digits before the point. -/
@[ext] structure Numeral where
  negative : Bool
  whole : List Char
  fraction : List Char
  whole_ne_nil : whole ≠ []
  isDigit : ∀ c ∈ whole ++ fraction, c.isDigit = true

namespace Numeral

/-- Digits after a point, which stands only where there are any. -/
def pointed (digits : List Char) : List Char := if digits = [] then [] else '.' :: digits

/-- A text with a minus if the number is negative. -/
def signed (negative : Bool) (digits : List Char) : List Char :=
  if negative then '-' :: digits else digits

/-- The text of a numeral. -/
def text (d : Numeral) : List Char := signed d.negative (d.whole ++ pointed d.fraction)

/-- The number of all digits, the point left out. -/
def units (d : Numeral) : Nat := Nat.ofDigitChars 10 (d.whole ++ d.fraction) 0

/-- The number without its sign. -/
def magnitude (d : Numeral) : ℚ := d.units / tenTo d.fraction.length

/-- The number that a numeral stands for. -/
def value (d : Numeral) : ℚ := if d.negative then -d.magnitude else d.magnitude

/-- No zero could be left out: the digits before the point start with none unless it is the only
one, and those after it end in none. -/
structure Canonical (d : Numeral) : Prop where
  leading : d.whole.head? = some '0' → d.whole = ['0']
  trailing : d.fraction.getLast? ≠ some '0'

theorem isDigit_whole (d : Numeral) : ∀ c ∈ d.whole, c.isDigit = true :=
  fun c hc => d.isDigit c (List.mem_append_left _ hc)

theorem isDigit_fraction (d : Numeral) : ∀ c ∈ d.fraction, c.isDigit = true :=
  fun c hc => d.isDigit c (List.mem_append_right _ hc)

/-! ### The text -/

theorem pointed_inj {cs ds : List Char} : pointed cs = pointed ds ↔ cs = ds := by
  cases cs <;> cases ds <;> simp [pointed]

theorem length_pointed (cs : List Char) :
    (pointed cs).length = if cs.length = 0 then 0 else cs.length + 1 := by
  cases cs <;> rfl

theorem takeWhile_isDigit (d : Numeral) :
    (d.whole ++ pointed d.fraction).takeWhile Char.isDigit = d.whole := by
  rw [List.takeWhile_append_of_pos d.isDigit_whole, pointed]
  split
  · rw [List.takeWhile_nil, List.append_nil]
  · rw [List.takeWhile_cons_of_neg (by decide), List.append_nil]

theorem digits_injective {d e : Numeral}
    (h : d.whole ++ pointed d.fraction = e.whole ++ pointed e.fraction) :
    d.whole = e.whole ∧ d.fraction = e.fraction := by
  have hwhole := congrArg (List.takeWhile Char.isDigit) h
  rw [takeWhile_isDigit, takeWhile_isDigit] at hwhole
  rw [hwhole] at h
  exact ⟨hwhole, pointed_inj.mp (List.append_cancel_left h)⟩

theorem minus_ne_digits (d : Numeral) (rest others : List Char) :
    '-' :: rest ≠ d.whole ++ others := by
  intro heq
  obtain ⟨c, cs, hcons⟩ := List.exists_cons_of_ne_nil d.whole_ne_nil
  rw [hcons, List.cons_append, List.cons.injEq] at heq
  have hdigit := d.isDigit_whole c (hcons ▸ List.mem_cons_self ..)
  rw [← heq.1] at hdigit
  exact absurd hdigit (by decide)

theorem text_injective {d e : Numeral} (h : d.text = e.text) : d = e := by
  rw [text, text] at h
  cases hd : d.negative <;> cases he : e.negative <;> rw [hd, he] at h
  · obtain ⟨hwhole, hfraction⟩ := digits_injective h
    exact Numeral.ext (hd.trans he.symm) hwhole hfraction
  · exact absurd h.symm (d.minus_ne_digits _ _)
  · exact absurd h (e.minus_ne_digits _ _)
  · obtain ⟨hwhole, hfraction⟩ := digits_injective (List.cons.inj h).2
    exact Numeral.ext (hd.trans he.symm) hwhole hfraction

theorem length_text (d : Numeral) :
    d.text.length = (if d.negative then 1 else 0) + d.whole.length +
      if d.fraction.length = 0 then 0 else d.fraction.length + 1 := by
  rw [text, signed, ← length_pointed]
  split <;> simp only [List.length_cons, List.length_append] <;> omega

/-! ### The number -/

theorem magnitude_nonneg (d : Numeral) : 0 ≤ d.magnitude :=
  div_nonneg (Nat.cast_nonneg _) (Nat.cast_nonneg _)

theorem abs_value (d : Numeral) : |d.value| = d.magnitude := by
  rw [value]
  split
  · rw [abs_neg, abs_of_nonneg d.magnitude_nonneg]
  · rw [abs_of_nonneg d.magnitude_nonneg]

/-- The digits before the point are the whole part of the number. -/
theorem floor_magnitude (d : Numeral) :
    ⌊d.magnitude⌋₊ = Nat.ofDigitChars 10 d.whole 0 := by
  have hlt := ofDigitChars_lt d.isDigit_fraction
  have hpos := tenTo_pos d.fraction.length
  rw [magnitude, Nat.floor_div_eq_div, units, ofDigitChars_append_eq, Nat.add_comm,
    Nat.add_mul_div_right _ _ hpos, Nat.div_eq_of_lt hlt, Nat.zero_add]

/-- Numerals of one magnitude have the same digits up to zeros at the end. -/
theorem units_mul_eq {d e : Numeral} (h : d.magnitude = e.magnitude) :
    d.units * tenTo e.fraction.length = e.units * tenTo d.fraction.length := by
  have hd : (tenTo d.fraction.length : ℚ) ≠ 0 :=
    Nat.cast_ne_zero.mpr (Nat.ne_of_gt (tenTo_pos _))
  have he : (tenTo e.fraction.length : ℚ) ≠ 0 :=
    Nat.cast_ne_zero.mpr (Nat.ne_of_gt (tenTo_pos _))
  rw [magnitude, magnitude, div_eq_div_iff hd he] at h
  exact_mod_cast h

namespace Canonical

variable {d e : Numeral} (hd : d.Canonical)

include hd

theorem whole_eq : d.whole = natural ⌊|d.value|⌋₊ := by
  rw [abs_value, floor_magnitude,
    natural_ofDigitChars d.isDigit_whole d.whole_ne_nil hd.leading]

/-- With digits after the point, the last of all digits is no zero. -/
theorem units_mod_ten (hne : d.fraction ≠ []) : d.units % 10 ≠ 0 := by
  obtain ⟨cs, c, hlast⟩ := (List.eq_nil_or_concat d.fraction).resolve_left hne
  have hdigit : c.isDigit = true := d.isDigit_fraction c (by simp [hlast])
  have hzero : c ≠ '0' := fun heq => hd.trailing (by simp [hlast, heq])
  have hvalue : c.toNat - '0'.toNat ≠ 0 := fun heq => by
    have hchar := digitChar_digit hdigit
    rw [heq] at hchar
    exact hzero hchar.symm
  have hlt := digit_lt hdigit
  rw [units, hlast, List.concat_eq_append, ← List.append_assoc, ofDigitChars_concat]
  omega

/-- No numeral of the same magnitude has fewer digits after the point. -/
theorem length_fraction_le (h : d.magnitude = e.magnitude) :
    d.fraction.length ≤ e.fraction.length := by
  by_contra hlt
  obtain ⟨more, hmore⟩ := Nat.exists_eq_add_of_lt (Nat.lt_of_not_le hlt)
  have hunits := units_mul_eq h
  rw [hmore, Nat.add_assoc, tenTo_add, Nat.mul_comm (tenTo e.fraction.length), ← Nat.mul_assoc]
    at hunits
  have hd10 := Nat.mul_right_cancel (tenTo_pos _) hunits
  refine hd.units_mod_ten (fun hnil => ?_) ?_
  · rw [hnil, List.length_nil] at hmore
    omega
  · rw [hd10, tenTo_succ, ← Nat.mul_assoc]
    exact Nat.mul_mod_left _ _

theorem length_whole_le (h : d.magnitude = e.magnitude) :
    d.whole.length ≤ e.whole.length := by
  have hfloor := e.floor_magnitude
  rw [hd.whole_eq, abs_value, h, hfloor, natural,
    Nat.length_toDigits_le_iff (by decide) (List.length_pos_iff.mpr e.whole_ne_nil)]
  exact ofDigitChars_lt e.isDigit_whole

/-- **Shortness.** No numeral of the same sign and number has a shorter text. -/
theorem length_text_le (hsign : d.negative = e.negative) (h : d.value = e.value) :
    d.text.length ≤ e.text.length := by
  have hmagnitude : d.magnitude = e.magnitude := by rw [← abs_value, h, abs_value]
  have hwhole := hd.length_whole_le hmagnitude
  have hfraction := hd.length_fraction_le hmagnitude
  rw [length_text, length_text, hsign]
  split <;> split <;> split <;> omega

/-- **Uniqueness.** A sign and a number have one canonical numeral. -/
theorem ext_of_value (he : e.Canonical) (hsign : d.negative = e.negative)
    (h : d.value = e.value) : d = e := by
  have hmagnitude : d.magnitude = e.magnitude := by rw [← abs_value, h, abs_value]
  have hlength : d.fraction.length = e.fraction.length :=
    Nat.le_antisymm (hd.length_fraction_le hmagnitude) (he.length_fraction_le hmagnitude.symm)
  have hwhole : d.whole = e.whole := by rw [hd.whole_eq, he.whole_eq, h]
  have hunits := units_mul_eq hmagnitude
  rw [hlength] at hunits
  have hdigits := Nat.mul_right_cancel (tenTo_pos _) hunits
  have hfraction : d.fraction = e.fraction := by
    rw [units, units, ofDigitChars_append_eq, ofDigitChars_append_eq, hwhole, hlength] at hdigits
    rw [← padded_ofDigitChars d.isDigit_fraction, ← padded_ofDigitChars e.isDigit_fraction,
      hlength, Nat.add_left_cancel hdigits]
  exact Numeral.ext hsign hwhole hfraction

end Canonical
end Numeral
end Telemetry.Decimal
