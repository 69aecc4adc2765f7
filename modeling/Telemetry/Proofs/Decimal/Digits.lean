import Mathlib.Data.List.Basic
import Mathlib.Data.List.Induction
import Telemetry.Decimal.Fixed

/-!
Decimal texts determine their numbers.

Proved here:

* `natural_inj`, `integer_inj`: the text of an integer of any size determines it;
* `padded_inj`: so do as many last digits as the number has;
* `padded_eq_natural`, `head?_natural`: these are all of its digits, which start with no zero;
* `padded_append_lt_iff`: texts of as many digits are in the order of their numbers;
* `padded_ofDigitChars`, `natural_ofDigitChars`: digits are those of their number, as many as they
  are, or without saying how many if they start with no zero.
-/

namespace Telemetry.Decimal

/-! ## All digits -/

theorem isDigit_of_mem_natural {n : Nat} {c : Char} (h : c ∈ natural n) : c.isDigit = true :=
  Nat.isDigit_of_mem_toDigits (by decide) (by decide) h

theorem natural_inj {m n : Nat} : natural m = natural n ↔ m = n := by
  constructor
  · intro h
    have hread := congrArg (Nat.ofDigitChars 10 · 0) h
    simpa only [natural, Nat.ofDigitChars_ten_toDigits] using hread
  · exact congrArg natural

/-- A text that starts with a number goes on after its digits. -/
theorem natural_append_inj {m n : Nat} {mark : Char} (hmark : mark.isDigit = false)
    {rest others : List Char} (h : natural m ++ mark :: rest = natural n ++ mark :: others) :
    m = n ∧ rest = others := by
  have htake (k : Nat) (after : List Char) :
      (natural k ++ mark :: after).takeWhile Char.isDigit = natural k := by
    rw [List.takeWhile_append_of_pos fun c hc => isDigit_of_mem_natural hc,
      List.takeWhile_cons_of_neg (by simp [hmark]), List.append_nil]
  have hdigits := congrArg (List.takeWhile Char.isDigit) h
  rw [htake, htake] at hdigits
  rw [hdigits] at h
  exact ⟨natural_inj.mp hdigits, (List.cons.inj (List.append_cancel_left h)).2⟩

theorem minus_notMem_natural (n : Nat) : '-' ∉ natural n := by
  intro h
  exact absurd (isDigit_of_mem_natural h) (by decide)

/-- The text of an integer determines it, since only that of a negative one has a sign. -/
theorem integer_inj {m n : Int} : integer m = integer n ↔ m = n := by
  constructor
  · intro h
    have hdigits := String.ofList_injective h
    have hsign (k l : Nat) : '-' :: natural k ≠ natural l := fun heq =>
      minus_notMem_natural l (heq ▸ List.mem_cons_self ..)
    split at hdigits <;> split at hdigits
    · have habs := natural_inj.mp (List.cons.inj hdigits).2
      omega
    · exact absurd hdigits (hsign _ _)
    · exact absurd hdigits.symm (hsign _ _)
    · have habs := natural_inj.mp hdigits
      omega
  · exact congrArg integer

/-! ## Digit by digit -/

theorem digitChar_eq {n : Nat} (h : n < 10) : Text.digitChar n = Nat.digitChar n := by
  have htable : ∀ v < 10, Text.digitChar v = Nat.digitChar v := by decide
  exact htable n h

theorem natural_of_lt {n : Nat} (h : n < 10) : natural n = [Text.digitChar n] := by
  rw [natural, Nat.toDigits_of_lt_base h, digitChar_eq h]

/-- The digits of a number of at least two are those of its tens and the last one. -/
theorem natural_concat {n : Nat} (h : 10 ≤ n) :
    natural n = natural (n / 10) ++ [Text.digitChar (n % 10)] := by
  have hlast := Nat.mod_lt n (show 0 < 10 by decide)
  have happend := Nat.toDigits_append_toDigits (b := 10) (n := n / 10) (d := n % 10) (by decide)
    (by omega) hlast
  rw [Nat.toDigits_of_lt_base hlast, Nat.div_add_mod] at happend
  rw [natural, natural, digitChar_eq hlast, happend]

theorem padded_eq_natural {width n : Nat} (hle : tenTo width ≤ n) (hlt : n < tenTo (width + 1)) :
    padded (width + 1) n = natural n := by
  induction width generalizing n with
  | zero =>
    rw [tenTo_succ, tenTo_zero] at hlt
    rw [natural_of_lt hlt, padded, padded, Nat.mod_eq_of_lt hlt, List.nil_append]
  | succ width ih =>
    rw [tenTo_succ] at hle hlt
    have hten := tenTo_pos width
    rw [natural_concat (n := n) (by omega), padded, ih (by omega) (by omega)]

theorem head?_natural {n : Nat} (h : 0 < n) : (natural n).head? ≠ some '0' := by
  induction n using Nat.strongRecOn with
  | _ n ih =>
    by_cases hlt : n < 10
    · have hzero : ∀ v < 10, 0 < v → Text.digitChar v ≠ '0' := by decide
      rw [natural_of_lt hlt]
      simpa using hzero n hlt h
    · have htens := ih (n / 10) (by omega) (by omega)
      rw [natural_concat (by omega), List.head?_append_of_ne_nil]
      · exact htens
      · exact Nat.toDigits_ne_nil

/-! ## The last digits -/

theorem digitChar_inj {m n : Nat} (hm : m < 10) (hn : n < 10)
    (h : Text.digitChar m = Text.digitChar n) : m = n := by
  have hvalue : ∀ v < 10, (Text.digitChar v).toNat = 48 + v := by decide
  have hnat := congrArg Char.toNat h
  rw [hvalue m hm, hvalue n hn] at hnat
  exact Nat.add_left_cancel hnat

theorem padded_inj {width m n : Nat} (hm : m < tenTo width) (hn : n < tenTo width)
    (h : padded width m = padded width n) : m = n := by
  induction width generalizing m n with
  | zero =>
    rw [tenTo_zero] at hm hn
    omega
  | succ width ih =>
    rw [tenTo_succ] at hm hn
    obtain ⟨hrest, hlast⟩ := List.append_inj' h rfl
    have htens := ih (by omega) (by omega) hrest
    have hones := digitChar_inj (Nat.mod_lt m (by decide)) (Nat.mod_lt n (by decide))
      (List.cons.inj hlast).1
    omega

/-- A text that starts with the last digits of a number goes on after them. -/
theorem padded_append_inj {width m n : Nat} (hm : m < tenTo width) (hn : n < tenTo width)
    {rest others : List Char} (h : padded width m ++ rest = padded width n ++ others) :
    m = n ∧ rest = others := by
  obtain ⟨hdigits, hrest⟩ := List.append_inj h (by rw [padded_length, padded_length])
  exact ⟨padded_inj hm hn hdigits, hrest⟩

theorem digitChar_lt_iff {m n : Nat} (hm : m < 10) (hn : n < 10) :
    Text.digitChar m < Text.digitChar n ↔ m < n := by
  have htable : ∀ m < 10, ∀ n < 10, Text.digitChar m < Text.digitChar n ↔ m < n := by decide
  exact htable m hm n hn

theorem isDigit_of_mem_padded {width n : Nat} {c : Char} (h : c ∈ padded width n) :
    c.isDigit = true := by
  induction width generalizing n with
  | zero => cases h
  | succ width ih =>
    rcases List.mem_append.mp h with h | h
    · exact ih h
    · have htable : ∀ v < 10, (Text.digitChar v).isDigit = true := by decide
      rw [List.mem_singleton.mp h]
      exact htable _ (Nat.mod_lt n (by decide))

theorem ofDigitChars_concat (cs : List Char) (c : Char) :
    Nat.ofDigitChars 10 (cs ++ [c]) 0 = 10 * Nat.ofDigitChars 10 cs 0 + (c.toNat - '0'.toNat) := by
  rw [Nat.ofDigitChars_append, Nat.ofDigitChars_cons, Nat.ofDigitChars_nil]

/-- The last digits of a number that has no others give it back. -/
theorem ofDigitChars_padded {width n : Nat} (h : n < tenTo width) :
    Nat.ofDigitChars 10 (padded width n) 0 = n := by
  induction width generalizing n with
  | zero =>
    rw [tenTo_zero] at h
    rw [Nat.lt_one_iff.mp h]
    rfl
  | succ width ih =>
    have hvalue : ∀ v < 10, (Text.digitChar v).toNat - '0'.toNat = v := by decide
    rw [tenTo_succ] at h
    rw [padded, ofDigitChars_concat, ih (by omega), hvalue _ (Nat.mod_lt n (by decide))]
    omega

/-- Texts that start with as many digits of two numbers are in the order of the numbers, then in
that of what follows. -/
theorem padded_append_lt_iff {width m n : Nat} (hm : m < tenTo width) (hn : n < tenTo width)
    {rest others : List Char} :
    padded width m ++ rest < padded width n ++ others ↔ m < n ∨ m = n ∧ rest < others := by
  induction width generalizing m n rest others with
  | zero =>
    rw [tenTo_zero] at hm hn
    obtain rfl : m = n := by omega
    simp [padded]
  | succ width ih =>
    rw [tenTo_succ] at hm hn
    have hlast (k : Nat) : k % 10 < 10 := Nat.mod_lt k (by decide)
    have hinj : Text.digitChar (m % 10) = Text.digitChar (n % 10) ↔ m % 10 = n % 10 :=
      ⟨digitChar_inj (hlast m) (hlast n), congrArg _⟩
    simp only [padded, List.append_assoc, List.singleton_append]
    rw [ih (by omega) (by omega), List.cons_lt_cons_iff, digitChar_lt_iff (hlast m) (hlast n), hinj]
    by_cases htens : m / 10 = n / 10
    · by_cases hones : m % 10 = n % 10
      · obtain rfl : m = n := by omega
        simp
      · simp only [hones, false_and, or_false]
        omega
    · omega

/-! ## Digits from their number -/

section Digits

variable {cs : List Char}

theorem digit_lt {c : Char} (h : c.isDigit = true) : c.toNat - '0'.toNat < 10 := by
  have hrange := Char.isDigit_iff_toNat.mp h
  simp only [Char.reduceToNat] at hrange ⊢
  omega

theorem digitChar_digit {c : Char} (h : c.isDigit = true) :
    Text.digitChar (c.toNat - '0'.toNat) = c := by
  rw [Text.digitChar, Nat.add_sub_cancel' (Char.isDigit_iff_toNat.mp h).1, Char.ofNat_toNat]

theorem ofDigitChars_append_eq (cs ds : List Char) :
    Nat.ofDigitChars 10 (cs ++ ds) 0 =
      Nat.ofDigitChars 10 cs 0 * tenTo ds.length + Nat.ofDigitChars 10 ds 0 := by
  rw [Nat.ofDigitChars_append, Nat.ofDigitChars_eq_ofDigitChars_zero, Nat.mul_comm]
  rfl

theorem ofDigitChars_lt (h : ∀ c ∈ cs, c.isDigit = true) :
    Nat.ofDigitChars 10 cs 0 < tenTo cs.length := by
  induction cs using List.reverseRecOn with
  | nil => exact Nat.one_pos
  | append_singleton cs c ih =>
    have hlast := digit_lt (h c (by simp))
    have hrest := ih fun d hd => h d (by simp [hd])
    rw [ofDigitChars_concat, List.length_append, List.length_singleton, tenTo_succ]
    omega

theorem padded_ofDigitChars (h : ∀ c ∈ cs, c.isDigit = true) :
    padded cs.length (Nat.ofDigitChars 10 cs 0) = cs := by
  induction cs using List.reverseRecOn with
  | nil => rfl
  | append_singleton cs c ih =>
    have hdigit := h c (by simp)
    have hlast := digit_lt hdigit
    rw [List.length_append, List.length_singleton, padded, ofDigitChars_concat,
      show ∀ n, (10 * n + (c.toNat - '0'.toNat)) / 10 = n by omega,
      show ∀ n, (10 * n + (c.toNat - '0'.toNat)) % 10 = c.toNat - '0'.toNat by omega,
      ih fun d hd => h d (by simp [hd]), digitChar_digit hdigit]

/-- The first of the last digits of a number is zero if the others are all that it has. -/
theorem head?_padded {width n : Nat} (h : n < tenTo width) :
    (padded (width + 1) n).head? = some '0' := by
  induction width generalizing n with
  | zero =>
    rw [tenTo_zero, Nat.lt_one_iff] at h
    rw [h]
    rfl
  | succ width ih =>
    rw [tenTo_succ] at h
    rw [padded, List.head?_append_of_ne_nil _ (by simp [padded])]
    exact ih (by omega)

/-- Digits without zeros that could be left out are those of their number. -/
theorem natural_ofDigitChars (h : ∀ c ∈ cs, c.isDigit = true) (hne : cs ≠ [])
    (hzero : cs.head? = some '0' → cs = ['0']) :
    natural (Nat.ofDigitChars 10 cs 0) = cs := by
  obtain ⟨width, hwidth⟩ := Nat.exists_eq_add_of_lt (List.length_pos_iff.mpr hne)
  rw [Nat.zero_add] at hwidth
  have hpadded := padded_ofDigitChars h
  have hlt := ofDigitChars_lt h
  rw [hwidth] at hpadded hlt
  by_cases hle : tenTo width ≤ Nat.ofDigitChars 10 cs 0
  · rw [← padded_eq_natural hle hlt, hpadded]
  · -- the first digit is zero, and hence the only one
    have hhead := head?_padded (Nat.lt_of_not_le hle)
    rw [hpadded] at hhead
    rw [hzero hhead]
    rfl

end Digits

end Telemetry.Decimal
