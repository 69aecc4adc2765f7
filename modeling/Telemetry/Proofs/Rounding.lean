import Mathlib.Algebra.Order.Round
import Mathlib.Data.Rat.Floor
import Telemetry.Rounding

/-!
What rounding to the nearest whole number gives.

Proved here:

* `IsNearestEven.unique`: a number has only one nearest whole number, as of two as near the even one
  is taken;
* `isNearestEven_roundHalfEven`: the division that every decimal text and every binary64 result
  comes from gives it.
-/

namespace Telemetry

/-- No whole number is nearer, and an odd one has no rival as near. -/
structure IsNearestEven (q : ℚ) (n : ℤ) : Prop where
  nearest : ∀ k : ℤ, |q - n| ≤ |q - k|
  even : ∀ k : ℤ, k ≠ n → |q - k| = |q - n| → Even n

section Nearest

variable {q : ℚ} {m n : ℤ}

theorem abs_sub_le_add (q : ℚ) (m n : ℤ) : ((|m - n| : ℤ) : ℚ) ≤ |q - m| + |q - n| := by
  have htriangle := abs_sub_le (m : ℚ) q n
  rw [abs_sub_comm (m : ℚ) q] at htriangle
  exact_mod_cast htriangle

/-- Two whole numbers are at least one apart, so together as far from any number. -/
theorem one_le_of_ne (h : m ≠ n) (q : ℚ) : 1 ≤ |q - m| + |q - n| := by
  have hapart : (1 : ℤ) ≤ |m - n| := Int.one_le_abs (sub_ne_zero.mpr h)
  exact le_trans (by exact_mod_cast hapart) (abs_sub_le_add q m n)

theorem isNearestEven_of_half (hhalf : |q - n| ≤ 1 / 2) (heven : |q - n| = 1 / 2 → Even n) :
    IsNearestEven q n where
  nearest k := by
    by_cases hk : k = n
    · rw [hk]
    · have hapart := one_le_of_ne hk q
      linarith
  even k hk heq := by
    have hapart := one_le_of_ne hk q
    exact heven (by linarith)

theorem IsNearestEven.le_half (h : IsNearestEven q n) : |q - n| ≤ 1 / 2 :=
  (h.nearest (round q)).trans (abs_sub_round q)

/-- Of two neighbours one is odd, so they are not both nearest. -/
theorem IsNearestEven.unique (hm : IsNearestEven q m) (hn : IsNearestEven q n) : m = n := by
  by_contra hne
  have heq : |q - n| = |q - m| := le_antisymm (hn.nearest m) (hm.nearest n)
  obtain ⟨a, rfl⟩ := hm.even n (Ne.symm hne) heq
  obtain ⟨b, rfl⟩ := hn.even _ hne heq.symm
  have hnear : |a + a - (b + b)| ≤ 1 := by
    have hsum := abs_sub_le_add q (a + a) (b + b)
    have ha := hm.le_half
    have hb := hn.le_half
    exact_mod_cast hsum.trans (show _ ≤ (1 : ℚ) by linarith)
  have hbounds := abs_le.mp hnear
  omega

theorem IsNearestEven.neg (h : IsNearestEven q n) : IsNearestEven (-q) (-n) := by
  have habs (k : ℤ) : |-q - k| = |q - (-k : ℤ)| := by
    rw [← abs_neg]
    push_cast
    ring_nf
  refine ⟨fun k => ?_, fun k hk heq => (h.even (-k) (fun he => hk (by omega)) ?_).neg⟩
  · rw [habs, habs, neg_neg]
    exact h.nearest (-k)
  · rwa [habs, habs, neg_neg] at heq

/-- The distance of a quotient from the number that it is rounded to. -/
theorem roundHalfEven_within (num : Nat) {den : Nat} (h : 0 < den) :
    |2 * ((num : ℤ) - roundHalfEven num den * den)| ≤ den ∧
      (|2 * ((num : ℤ) - roundHalfEven num den * den)| = den →
        roundHalfEven num den % 2 = 0) := by
  have hdiv := Nat.div_add_mod num den
  have hlt := Nat.mod_lt num h
  unfold roundHalfEven
  dsimp only
  split
  · next hdown =>
    have hdist : 2 * ((num : ℤ) - (num / den : ℕ) * den) = 2 * (num % den : ℕ) := by
      zify at hdiv ⊢
      linarith
    rw [hdist, abs_of_nonneg (by positivity)]
    omega
  · next hup =>
    have hdist : 2 * ((num : ℤ) - (num / den + 1 : ℕ) * den) =
        -(2 * ((den : ℤ) - (num % den : ℕ))) := by
      zify at hdiv ⊢
      linarith
    rw [hdist, abs_neg, abs_of_nonneg (by omega)]
    omega

theorem isNearestEven_roundHalfEven (num : Nat) {den : Nat} (h : 0 < den) :
    IsNearestEven ((num : ℚ) / den) (roundHalfEven num den) := by
  obtain ⟨hle, htie⟩ := roundHalfEven_within num h
  have hden : (0 : ℚ) < den := Nat.cast_pos.mpr h
  have hdist : |(num : ℚ) / den - (roundHalfEven num den : ℤ)| * (2 * den) =
      (|2 * ((num : ℤ) - roundHalfEven num den * den)| : ℤ) := by
    rw [← abs_of_pos (show (0 : ℚ) < 2 * den by positivity), ← abs_mul]
    push_cast
    congr 1
    field_simp
  refine isNearestEven_of_half ?_ fun heq => ?_
  · rw [← mul_le_mul_iff_left₀ (show (0 : ℚ) < 2 * den by positivity), hdist]
    rw [show (1 : ℚ) / 2 * (2 * den) = ((den : ℤ) : ℚ) by push_cast; ring]
    exact_mod_cast hle
  · rw [heq, show (1 : ℚ) / 2 * (2 * den) = ((den : ℤ) : ℚ) by push_cast; ring] at hdist
    have hz := htie (by exact_mod_cast hdist.symm)
    exact_mod_cast Nat.even_iff.mpr hz

end Nearest

end Telemetry
