import Telemetry.Proofs.Binary64.Exactness

/-!
Whole numbers as doubles.

Proved here:

* `Binary64.ofInt_div_ofInt`: the quotient of whole numbers is the double nearest to it;
* `Representable.succ_le`: the next number after one of 53 significant bits;
* `Binary64.isFinite_ofInt_succ`: the whole number after the integer part of a double is within the
  doubles.
-/

namespace Telemetry

/-! ## Quotients of whole numbers -/

theorem roundHalfEven_mul_mul_right (num den : Nat) {k : Nat} (hk : 0 < k) :
    roundHalfEven (num * k) (den * k) = roundHalfEven num den := by
  have hless : 2 * (num % den * k) < den * k ↔ 2 * (num % den) < den := by
    rw [← Nat.mul_assoc, Nat.mul_lt_mul_right hk]
  have htie : 2 * (num % den * k) = den * k ↔ 2 * (num % den) = den := by
    rw [← Nat.mul_assoc, Nat.mul_right_cancel_iff hk]
  simp only [roundHalfEven, Nat.mul_div_mul_right num den hk, Nat.mul_mod_mul_right, hless, htie]

namespace Binary64

theorem ofRatio_mul_mul_right (negative : Bool) (num den : Nat) {k : Nat} (hk : 0 < k) :
    ofRatio negative (num * k) (den * k) = ofRatio negative num den := by
  have hround (e : Nat) :
      roundHalfEven (num * k) (den * k * twoTo e) = roundHalfEven num (den * twoTo e) := by
    rw [Nat.mul_right_comm, roundHalfEven_mul_mul_right num _ hk]
  simp only [ofRatio, Nat.mul_div_mul_right num den hk, hround]

theorem ofInt_natCast {n : Nat} (h : n ≤ twoTo 53) :
    ∃ m : Magnitude, m.val = n * unitsPerOne ∧ ofInt n = .finite false m := by
  have hunits := representable_whole h
  have hratio : ofInt n = ofRatio false (n * unitsPerOne) 1 := by
    rw [ofInt, ofUnits, ← Int.natCast_mul, Int.natAbs_natCast,
      decide_eq_false (Int.not_lt.mpr (Int.natCast_nonneg _))]
  rcases ofRatio_eq false (n * unitsPerOne) 1 with ⟨m, hm, -, heq⟩ | ⟨hover, -⟩
  · exact ⟨m, hm.trans (nearest_one hunits), hratio.trans heq⟩
  · rw [nearest_one hunits] at hover
    exact absurd hunits.1 (Nat.not_lt.mpr hover)

/-- The quotient of whole numbers that are doubles is the double nearest to it. -/
theorem ofInt_div_ofInt {n d : Nat} (hn : n ≤ twoTo 53) (hd : d ≤ twoTo 53) (hpos : 0 < d) :
    ofInt n / ofInt d = ofRatio false (n * unitsPerOne) d := by
  obtain ⟨u, hu, hnum⟩ := ofInt_natCast hn
  obtain ⟨v, hv, hden⟩ := ofInt_natCast hd
  have hne : v.val ≠ 0 := by
    rw [hv]
    exact Nat.ne_of_gt (Nat.mul_pos hpos unitsPerOne_pos)
  have hdiv : ofInt n / ofInt d = ofRatio false (u.val * unitsPerOne) v.val := by
    rw [hnum, hden]
    show div _ _ = _
    rw [div, if_neg hne]
    rfl
  rw [hdiv, hu, hv, ofRatio_mul_mul_right false _ _ unitsPerOne_pos]

end Binary64

/-! ## Neighbours -/

/-- No number is between a number of 53 significant bits and the next. -/
theorem Representable.succ_le {u significand exponent : Nat} (hu : Representable u)
    (hbits : twoTo 52 ≤ significand) (hlt : significand * twoTo exponent < u) :
    (significand + 1) * twoTo exponent ≤ u := by
  obtain ⟨-, s, e, hs, rfl⟩ := hu
  by_cases he : exponent ≤ e
  · -- both are multiples of the lesser power
    obtain ⟨d, rfl⟩ := Nat.exists_eq_add_of_le' he
    rw [twoTo_add, ← Nat.mul_assoc] at hlt ⊢
    exact Nat.mul_le_mul_right _ (Nat.lt_of_mul_lt_mul_right hlt)
  · obtain ⟨d, rfl⟩ := Nat.exists_eq_add_of_lt (Nat.lt_of_not_le he)
    have hle : s * twoTo e ≤ significand * twoTo (e + d + 1) := calc
      s * twoTo e ≤ twoTo 53 * twoTo e := Nat.mul_le_mul_right _ hs
      _ = twoTo 52 * twoTo (e + 1) := by rw [twoTo_succ e, twoTo_succ 52]; ac_rfl
      _ ≤ significand * twoTo (e + d + 1) := Nat.mul_le_mul hbits (twoTo_le (by omega))
    omega

namespace Binary64

/-- The largest double. -/
def largest : Int := (2 ^ 53 - 1) * 2 ^ 971

theorem rank_le_largest {x : Binary64} (h : x.isFinite = true) :
    x.rank ≤ largest * unitsPerOne := by
  have hunits := representable_rank h
  have hmost : x.rank.natAbs ≤ (2 ^ 53 - 1) * twoTo 2045 := by
    by_contra hmore
    have hnext := hunits.succ_le (show twoTo 52 ≤ 2 ^ 53 - 1 by decide) (Nat.lt_of_not_le hmore)
    have hover : unitsAtOverflow ≤ (2 ^ 53 - 1 + 1) * twoTo 2045 := by
      rw [unitsAtOverflow_eq]
      decide +kernel
    exact absurd hunits.1 (Nat.not_lt.mpr (Nat.le_trans hover hnext))
  have hwhole : ((2 ^ 53 - 1) * twoTo 2045 : Nat) = largest * unitsPerOne := by
    rw [unitsPerOne_eq]
    decide +kernel
  omega

/-- The whole number after the integer part of a double is within the doubles. -/
theorem isFinite_ofInt_succ {x : Binary64} (h0 : 0 ≤ x.rank) {n : Int}
    (h : x.toInteger = .ok n) : (ofInt (n + 1)).isFinite = true := by
  have hfinite : x.isFinite = true := by
    by_contra hnot
    obtain ⟨fault, hfault⟩ := exists_toInteger_fault (Bool.eq_false_iff.mpr hnot)
    rw [hfault] at h
    cases h
  obtain rfl : x.rank / unitsPerOne = n := by
    rw [toInteger_of_nonneg hfinite h0] at h
    exact Except.ok.inj h
  have hone := unitsPerOne_pos_int
  have hnonneg : 0 ≤ x.rank / unitsPerOne := Int.ediv_nonneg h0 (Int.le_of_lt hone)
  have hfloor : x.rank / unitsPerOne ≤ largest := by
    refine Int.le_of_lt_add_one (Int.ediv_lt_of_lt_mul hone ?_)
    have hlargest := rank_le_largest hfinite
    rw [Int.add_mul]
    omega
  exact isFinite_ofInt_of_le (by omega) (Int.add_le_add_right hfloor 1) (by decide +kernel)

theorem rank_nonneg_of_not_leInt {x : Binary64} (h : x.leInt 0 = false) : 0 ≤ x.rank := by
  cases x with
  | nan => exact Int.le_refl 0
  | infinite s =>
    cases s with
    | true => cases h
    | false => exact Int.natCast_nonneg _
  | finite s m =>
    have hnot := mt (leInt_iff (x := .finite s m) rfl 0).mpr (Bool.eq_false_iff.mp h)
    omega

end Binary64
end Telemetry
