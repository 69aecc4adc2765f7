import Mathlib.Algebra.Order.Ring.Int
import Telemetry.Binary64.Basic

/-!
Rounding to binary64 in units of 2^-1074, apart from signs and overflow.

Proved here:

* `nearest_mono`: a larger quotient never rounds to a smaller number, also across the
  places where the exponent changes;
* `nearest_mul_right`, `nearest_one`: a representable number is kept;
* `rank_ofUnits`: a sum or difference whose exact value is representable is exact;
* `rank_ofUnits_mono`: rounding keeps the order, overflow included.
-/

namespace Telemetry.Binary64

/-! ## Magnitudes -/

/-- The units to which `num / den` units are rounded, before the check for overflow. -/
def nearest (num den : Nat) : Nat :=
  roundHalfEven num (den * twoTo ((num / den).log2 - 52)) * twoTo ((num / den).log2 - 52)

theorem ofRatio_eq (negative : Bool) (num den : Nat) :
    (∃ m : Magnitude, m.val = nearest num den ∧ nearest num den < unitsAtOverflow ∧
        ofRatio negative num den = .finite negative m) ∨
      (unitsAtOverflow ≤ nearest num den ∧ ofRatio negative num den = .infinite negative) := by
  unfold ofRatio nearest
  by_cases h : roundHalfEven num (den * twoTo ((num / den).log2 - 52)) *
      twoTo ((num / den).log2 - 52) < unitsAtOverflow
  · simp only [h, dite_true]
    exact Or.inl ⟨_, rfl, trivial, rfl⟩
  · simp only [h, dite_false]
    exact Or.inr ⟨Nat.le_of_not_lt h, trivial⟩

/-- The significand of a number past the subnormal range has all of its 53 bits. -/
private theorem significand_ge {num den : Nat} (h : 0 < (num / den).log2 - 52) :
    twoTo 52 ≤ roundHalfEven num (den * twoTo ((num / den).log2 - 52)) := by
  have hne : num / den ≠ 0 := by
    intro h0
    rw [h0] at h
    exact absurd h (by decide)
  have hlog := Nat.log2_self_le hne
  refine Nat.le_trans ?_ (le_roundHalfEven num _)
  rw [← Nat.div_div_eq_div_mul, Nat.le_div_iff_mul_le (twoTo_pos _), ← twoTo_add,
    show 52 + ((num / den).log2 - 52) = (num / den).log2 by omega]
  exact hlog

/-- Where the exponents differ, the smaller number is at most the power of two from which
the larger one starts. -/
private theorem nearest_le_of_exponent_lt {a b den : Nat}
    (h : (a / den).log2 - 52 < (b / den).log2 - 52) : nearest a den ≤ nearest b den := by
  have ha := significand_le a den
  have hb : twoTo 52 ≤ roundHalfEven b (den * twoTo ((b / den).log2 - 52)) :=
    significand_ge (by omega)
  calc nearest a den
      ≤ twoTo 53 * twoTo ((a / den).log2 - 52) := Nat.mul_le_mul_right _ ha
    _ = twoTo 52 * twoTo ((a / den).log2 - 52 + 1) := by
        rw [← twoTo_add, ← twoTo_add]; congr 1; omega
    _ ≤ twoTo 52 * twoTo ((b / den).log2 - 52) := Nat.mul_le_mul_left _ (twoTo_le h)
    _ ≤ nearest b den := Nat.mul_le_mul_right _ hb

theorem log2_mono {a b : Nat} (h : a ≤ b) : a.log2 ≤ b.log2 := by
  by_cases ha : a = 0
  · subst ha; simp
  · exact (Nat.le_log2 (by omega)).mpr (Nat.le_trans (Nat.log2_self_le ha) h)

theorem nearest_mono {a b : Nat} (den : Nat) (h : a ≤ b) : nearest a den ≤ nearest b den := by
  have hlog := log2_mono (Nat.div_le_div_right (c := den) h)
  by_cases heq : (a / den).log2 - 52 = (b / den).log2 - 52
  · unfold nearest
    rw [heq]
    exact Nat.mul_le_mul_right _ (roundHalfEven_mono h)
  · exact nearest_le_of_exponent_lt (by omega)

/-- A significand of 2^53 is one of 2^52 with the next exponent. -/
private theorem exists_short_significand {u : Nat} (h : Representable u) :
    ∃ s e, s < twoTo 53 ∧ u = s * twoTo e := by
  obtain ⟨_, s, e, hs, rfl⟩ := h
  rcases Nat.lt_or_eq_of_le hs with hlt | heq
  · exact ⟨s, e, hlt, rfl⟩
  · exact ⟨twoTo 52, e + 1, by decide, by rw [heq, ← twoTo_add, ← twoTo_add]; congr 1; omega⟩

/-- The exponent chosen for a representable number divides it. -/
private theorem exponent_dvd {u : Nat} (h : Representable u) : twoTo (u.log2 - 52) ∣ u := by
  obtain ⟨s, e, hs, rfl⟩ := exists_short_significand h
  have he : (s * twoTo e).log2 - 52 ≤ e := by
    by_cases h0 : s * twoTo e = 0
    · rw [h0]; simp
    · have hlt : s * twoTo e < 2 ^ (53 + e) := by
        rw [Nat.pow_add]
        exact (Nat.mul_lt_mul_right (twoTo_pos e)).mpr hs
      have := (Nat.log2_lt h0).mpr hlt
      omega
  exact Nat.dvd_trans (Nat.pow_dvd_pow 2 he) (Nat.dvd_mul_left _ _)

theorem nearest_mul_right {u den : Nat} (hden : 0 < den) (h : Representable u) :
    nearest (u * den) den = u := by
  obtain ⟨q, hq⟩ := exponent_dvd h
  unfold nearest
  rw [Nat.mul_div_cancel u hden]
  generalize twoTo (u.log2 - 52) = scale at hq
  subst hq
  by_cases hs : scale = 0
  · simp [hs]
  · rw [show scale * q * den = q * (den * scale) by ac_rfl,
      roundHalfEven_mul_right q (Nat.mul_pos hden (by omega)), Nat.mul_comm]

theorem nearest_one {u : Nat} (h : Representable u) : nearest u 1 = u := by
  simpa using nearest_mul_right Nat.one_pos h

theorem nearest_zero {den : Nat} (hden : 0 < den) : nearest 0 den = 0 := by
  simpa using nearest_mul_right hden representable_zero

/-! ## Signed numbers of units -/

@[simp] theorem rank_zero : rank zero = 0 := rfl

@[simp] theorem rank_signedZero (negative : Bool) : rank (signedZero negative) = 0 := by
  cases negative <;> rfl

theorem rank_ofRatio (negative : Bool) (num den : Nat) :
    rank (ofRatio negative num den) =
      (if negative then -1 else 1) * (min (nearest num den) unitsAtOverflow : Nat) := by
  rcases ofRatio_eq negative num den with ⟨m, hm, hlt, h⟩ | ⟨hle, h⟩
  · rw [h, Nat.min_eq_left (Nat.le_of_lt hlt), ← hm]
    cases negative <;> simp [rank]
  · rw [h, Nat.min_eq_right hle]
    cases negative <;> simp [rank]

theorem rank_ofRatio_nonneg {negative : Bool} {num den : Nat} (hden : 0 < den)
    (h : negative = true → num = 0) : 0 ≤ (ofRatio negative num den).rank := by
  rw [rank_ofRatio]
  cases negative with
  | false => simp
  | true => simp [h rfl, nearest_zero hden]

theorem isFinite_ofRatio {negative : Bool} {num den : Nat}
    (h : nearest num den < unitsAtOverflow) : (ofRatio negative num den).isFinite = true := by
  rcases ofRatio_eq negative num den with ⟨m, _, _, he⟩ | ⟨hle, _⟩
  · rw [he]; rfl
  · omega

theorem isFinite_ofUnits {u : Int} {bound : Nat} (hb : Representable bound)
    (h : u.natAbs ≤ bound) : (ofUnits u).isFinite = true := by
  have hle := nearest_mono 1 h
  rw [nearest_one hb] at hle
  exact isFinite_ofRatio (Nat.lt_of_le_of_lt hle hb.1)

theorem rank_ofUnits {u : Int} (h : Representable u.natAbs) : rank (ofUnits u) = u := by
  unfold ofUnits
  rw [rank_ofRatio, nearest_one h, Nat.min_eq_left (Nat.le_of_lt h.1)]
  by_cases hu : u < 0
  · simp only [hu, decide_true, if_true]
    omega
  · simp only [hu, decide_false, Bool.false_eq_true, if_false]
    omega

theorem rank_ofUnits_natCast {u : Nat} (h : Representable u) : rank (ofUnits (u : Int)) = u :=
  rank_ofUnits (by rwa [Int.natAbs_natCast])

/-- Rounding keeps the order; past the finite numbers it stops at the infinities. -/
theorem rank_ofUnits_mono {u v : Int} (h : u ≤ v) : rank (ofUnits u) ≤ rank (ofUnits v) := by
  unfold ofUnits
  rw [rank_ofRatio, rank_ofRatio]
  by_cases hu : u < 0
  · by_cases hv : v < 0
    · have := nearest_mono 1 (show v.natAbs ≤ u.natAbs by omega)
      simp only [hu, hv, decide_true, if_true]
      omega
    · simp only [hu, hv, decide_true, decide_false, if_true, Bool.false_eq_true, if_false]
      omega
  · have hv : ¬ v < 0 := by omega
    have := nearest_mono 1 (show u.natAbs ≤ v.natAbs by omega)
    simp only [hu, hv, decide_false, Bool.false_eq_true, if_false]
    omega

theorem rank_ofUnits_nonneg {u : Int} (h : 0 ≤ u) : 0 ≤ rank (ofUnits u) := by
  have := rank_ofUnits_mono h
  rwa [rank_ofUnits (u := 0) representable_zero] at this

theorem rank_ofUnits_nonpos {u : Int} (h : u ≤ 0) : rank (ofUnits u) ≤ 0 := by
  have := rank_ofUnits_mono h
  rwa [rank_ofUnits (u := 0) representable_zero] at this

end Telemetry.Binary64
