/-!
Division rounded to the nearest whole number, a half going to the even neighbour.
Every decimal text and every binary64 result of the library is one such division
of exact whole numbers.

- `roundHalfEven_mul_right`: an exact quotient is kept.
- `roundHalfEven_mono`: rounding keeps the order of the numerators.
- `roundHalfEven_le_succ`: the result is the quotient or one more.
-/

namespace Telemetry

/-- `num / den` rounded to the nearest natural number, a half to the even one. -/
def roundHalfEven (num den : Nat) : Nat :=
  let quotient := num / den
  let twice := 2 * (num % den)
  if twice < den ∨ (twice = den ∧ quotient % 2 = 0) then quotient else quotient + 1

theorem roundHalfEven_le_succ (num den : Nat) :
    roundHalfEven num den ≤ num / den + 1 := by
  unfold roundHalfEven
  dsimp only
  split <;> omega

theorem le_roundHalfEven (num den : Nat) : num / den ≤ roundHalfEven num den := by
  unfold roundHalfEven
  dsimp only
  split <;> omega

theorem roundHalfEven_mul_right {den : Nat} (n : Nat) (h : 0 < den) :
    roundHalfEven (n * den) den = n := by
  simp [roundHalfEven, Nat.mul_div_cancel n h, Nat.mul_mod_left, h]

/-- A larger numerator never rounds to a smaller number. -/
theorem roundHalfEven_mono {a b den : Nat} (h : a ≤ b) :
    roundHalfEven a den ≤ roundHalfEven b den := by
  have hq := Nat.div_le_div_right (c := den) h
  by_cases heq : a / den = b / den
  · have hr : a % den ≤ b % den := by
      have ha := Nat.div_add_mod a den
      have hb := Nat.div_add_mod b den
      rw [heq] at ha
      omega
    unfold roundHalfEven
    rw [heq]
    dsimp only
    split <;> split <;> omega
  · have h1 := roundHalfEven_le_succ a den
    have h2 := le_roundHalfEven b den
    omega

end Telemetry
