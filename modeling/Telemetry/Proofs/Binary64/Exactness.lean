import Telemetry.Fault
import Telemetry.Binary64.Arithmetic
import Telemetry.Proofs.Binary64.Rounding

/-!
Where binary64 arithmetic is exact: integers up to 2^53, and what is left of a number
after whole parts are taken away.

Proved here:

* `rank_ofInt`, `ofIntWithin_eq`: integers as binary64 numbers;
* `rank_add`, `rank_sub`: a sum of finite numbers is the rounded sum of their units;
* `rank_sub_whole`: differences of integers up to 2^53 are exact;
* `truncate_sub_le`: the integer part of a rounded difference never exceeds the
  difference of the integer parts;
* `isFinite_mul_fraction`: a number times a fraction does not overflow;
* `rank_mul_mono`: products of numbers that are not negative keep the order of their factors.
-/

namespace Telemetry

theorem twoTo_eq_pow (n : Nat) : twoTo n = 2 ^ n := rfl

theorem twoTo_lt {m n : Nat} (h : m < n) : twoTo m < twoTo n :=
  Nat.pow_lt_pow_right (by decide) h

theorem unitsPerOne_pos_int : (0 : Int) < unitsPerOne := Int.natCast_pos.mpr unitsPerOne_pos

theorem Representable.mono {u v : Nat} (hv : Representable v) (hle : u ≤ v)
    (h : ∃ significand exponent, significand ≤ twoTo 53 ∧ u = significand * twoTo exponent) :
    Representable u :=
  ⟨Nat.lt_of_le_of_lt hle hv.1, h⟩

theorem representable_twoTo {e : Nat} (h : e < 2098) : Representable (twoTo e) := by
  refine ⟨?_, 1, e, twoTo_pos 53, (Nat.one_mul _).symm⟩
  rw [unitsAtOverflow_eq]
  exact twoTo_lt h

theorem representable_whole {n : Nat} (h : n ≤ twoTo 53) : Representable (n * unitsPerOne) := by
  rw [unitsPerOne_eq]
  refine ⟨?_, n, 1074, h, rfl⟩
  calc n * twoTo 1074
      ≤ twoTo 53 * twoTo 1074 := Nat.mul_le_mul_right _ h
    _ = twoTo 1127 := (twoTo_add 53 1074).symm
    _ < unitsAtOverflow := (representable_twoTo (by decide)).1

/-- Taking whole ones away from a number up to 2^53 leaves a representable number. -/
theorem representable_sub_whole {u n : Nat} (hu : Representable u)
    (hle : u ≤ twoTo 53 * unitsPerOne) (hn : n * unitsPerOne ≤ u) :
    Representable (u - n * unitsPerOne) := by
  refine hu.mono (Nat.sub_le _ _) ?_
  obtain ⟨_, s, e, hs, rfl⟩ := hu
  rcases Nat.le_total e 1074 with he | he
  · have hone : unitsPerOne = twoTo (1074 - e) * twoTo e := by
      rw [unitsPerOne_eq, ← twoTo_add, Nat.sub_add_cancel he]
    refine ⟨s - n * twoTo (1074 - e), e, Nat.le_trans (Nat.sub_le _ _) hs, ?_⟩
    rw [hone, Nat.sub_mul, Nat.mul_assoc]
  · have hone : twoTo e = twoTo (e - 1074) * unitsPerOne := by
      rw [unitsPerOne_eq, ← twoTo_add, Nat.sub_add_cancel he]
    rw [hone, ← Nat.mul_assoc] at hle ⊢
    refine ⟨s * twoTo (e - 1074) - n, 1074, ?_, ?_⟩
    · exact Nat.le_trans (Nat.sub_le _ _) (Nat.le_of_mul_le_mul_right hle unitsPerOne_pos)
    · rw [Nat.sub_mul, unitsPerOne_eq]

namespace Binary64

/-! ## Comparisons by units -/

theorem representable_rank {x : Binary64} (h : x.isFinite = true) :
    Representable x.rank.natAbs := by
  cases x with
  | nan => cases h
  | infinite s => cases h
  | finite s m => cases s <;> simpa [rank] using m.property

theorem isNaN_of_isFinite {x : Binary64} (h : x.isFinite = true) : x.isNaN = false := by
  cases x <;> first | rfl | cases h

theorem lt_iff {x y : Binary64} (hx : x.isNaN = false) (hy : y.isNaN = false) :
    x.lt y = true ↔ x.rank < y.rank := by
  simp [lt, hx, hy]

theorem le_iff {x y : Binary64} (hx : x.isNaN = false) (hy : y.isNaN = false) :
    x.le y = true ↔ x.rank ≤ y.rank := by
  simp [le, hx, hy]

theorem eqInt_iff {x : Binary64} {n : Int} :
    x.eqInt n = true ↔ x.isFinite = true ∧ x.rank = n * unitsPerOne := by
  cases x <;> simp [eqInt, isFinite]

theorem rank_lt_of_lt {x y : Binary64} (h : x.lt y = true) : x.rank < y.rank := by
  rw [lt, Bool.and_eq_true] at h
  exact of_decide_eq_true h.2

theorem leInt_iff {x : Binary64} (h : x.isFinite = true) (n : Int) :
    x.leInt n = true ↔ x.rank ≤ n * unitsPerOne := by
  cases x with
  | nan => cases h
  | infinite s => cases h
  | finite s m => exact decide_eq_true_iff

theorem gtInt_iff {x : Binary64} (h : x.isFinite = true) (n : Int) :
    x.gtInt n = true ↔ n * unitsPerOne < x.rank := by
  cases x with
  | nan => cases h
  | infinite s => cases h
  | finite s m => exact decide_eq_true_iff

/-! ## Integers -/

theorem isFinite_ofInt {n : Int} (h : n.natAbs ≤ twoTo 1023) : (ofInt n).isFinite = true := by
  refine isFinite_ofUnits (representable_twoTo (e := 2097) (by decide)) ?_
  rw [Int.natAbs_mul, Int.natAbs_natCast, unitsPerOne_eq, twoTo_add 1023 1074]
  exact Nat.mul_le_mul_right _ h

theorem rank_ofInt {n : Int} (h : n.natAbs ≤ twoTo 53) :
    (ofInt n).rank = n * unitsPerOne := by
  refine rank_ofUnits ?_
  rw [Int.natAbs_mul, Int.natAbs_natCast]
  exact representable_whole h

theorem rank_ofInt_nonneg (n : Nat) : 0 ≤ (ofInt n).rank :=
  rank_ofUnits_nonneg (Int.mul_nonneg (Int.natCast_nonneg n) (Int.le_of_lt unitsPerOne_pos_int))

theorem natAbs_le_of_le_53 {n : Nat} (h : n ≤ twoTo 53) : n ≤ twoTo 1023 :=
  Nat.le_trans h (twoTo_le (by decide))

theorem isFinite_ofInt_of_le {n m : Int} (h0 : 0 ≤ n) (hle : n ≤ m)
    (hm : (ofInt m).isInfinite = false) : (ofInt n).isFinite = true := by
  have hunits : (n * unitsPerOne).natAbs ≤ (m * unitsPerOne).natAbs := by
    rw [Int.natAbs_mul, Int.natAbs_mul]
    exact Nat.mul_le_mul_right _ (by omega)
  have hnearest := nearest_mono 1 hunits
  rcases ofRatio_eq (decide (m * unitsPerOne < 0)) (m * unitsPerOne).natAbs 1 with
    ⟨_, -, hlt, -⟩ | ⟨-, hinfinite⟩
  · exact isFinite_ofRatio (Nat.lt_of_le_of_lt hnearest hlt)
  · rw [ofInt, ofUnits, hinfinite] at hm
    cases hm

theorem ofIntWithin_of_not_infinite {n : Int} (h : (ofInt n).isInfinite = false) :
    ofIntWithin n = .ok (ofInt n) :=
  if_neg (Bool.eq_false_iff.mp h)

theorem ofIntWithin_eq_ok {n : Int} (h : (ofInt n).isFinite = true) :
    ofIntWithin n = .ok (ofInt n) := by
  refine ofIntWithin_of_not_infinite ?_
  cases hx : ofInt n <;> simp_all [isFinite, isInfinite]

theorem ofIntWithin_eq {n : Int} (h : n.natAbs ≤ twoTo 1023) :
    ofIntWithin n = .ok (ofInt n) := ofIntWithin_eq_ok (isFinite_ofInt h)

theorem exists_toInteger {x : Binary64} (hx : x.isFinite = true) :
    ∃ n, x.toInteger = .ok n := by
  cases x with
  | nan => cases hx
  | infinite s => cases hx
  | finite s m => exact ⟨_, rfl⟩

theorem exists_toInteger_fault {x : Binary64} (hx : x.isFinite = false) :
    ∃ fault, x.toInteger = .error fault := by
  cases x with
  | nan => exact ⟨_, rfl⟩
  | infinite s => exact ⟨_, rfl⟩
  | finite s m => cases hx

theorem toInteger_of_nonneg {x : Binary64} (hx : x.isFinite = true) (h : 0 ≤ x.rank) :
    x.toInteger = .ok (x.rank / unitsPerOne) := by
  cases x with
  | nan => cases hx
  | infinite s => cases hx
  | finite s m =>
    cases s with
    | false => rfl
    | true =>
      have hm : m.val = 0 := by
        simp only [rank, if_true] at h
        omega
      simp [toInteger, truncate, rank, hm]

theorem nonneg_of_toInteger {x : Binary64} (hx : 0 ≤ x.rank) {n : Int}
    (h : x.toInteger = .ok n) : 0 ≤ n := by
  have hfinite : x.isFinite = true := by
    cases x with
    | nan => cases h
    | infinite s => cases h
    | finite s m => rfl
  rw [toInteger_of_nonneg hfinite hx, Except.ok.injEq] at h
  exact h ▸ Int.ediv_nonneg hx (Int.le_of_lt unitsPerOne_pos_int)

/-! ## Sums and differences -/

theorem rank_neg (x : Binary64) : rank (neg x) = -rank x := by
  cases x with
  | nan => rfl
  | infinite s => cases s <;> simp [neg, rank]
  | finite s m => cases s <;> simp [neg, rank]

theorem isFinite_neg (x : Binary64) : (neg x).isFinite = x.isFinite := by
  cases x <;> rfl

/-- The sum of finite numbers, the sign of a zero apart, is the rounded sum of units. -/
theorem add_eq {x y : Binary64} (hx : x.isFinite = true) (hy : y.isFinite = true) :
    (∃ s, x + y = signedZero s ∧ x.rank + y.rank = 0) ∨ x + y = ofUnits (x.rank + y.rank) := by
  cases x with
  | nan => cases hx
  | infinite s => cases hx
  | finite s m =>
    cases y with
    | nan => cases hy
    | infinite t => cases hy
    | finite t n =>
      by_cases h : m.val = 0 ∧ n.val = 0
      · refine Or.inl ⟨s && t, if_pos h, ?_⟩
        cases s <;> cases t <;> simp [rank, h.1, h.2]
      · exact Or.inr (if_neg h)

theorem rank_add {x y : Binary64} (hx : x.isFinite = true) (hy : y.isFinite = true) :
    (x + y).rank = (ofUnits (x.rank + y.rank)).rank := by
  rcases add_eq hx hy with ⟨s, h, h0⟩ | h
  · rw [h, h0, rank_signedZero, rank_ofUnits (u := 0) representable_zero]
  · rw [h]

theorem isFinite_add {x y : Binary64} (hx : x.isFinite = true) (hy : y.isFinite = true)
    {bound : Nat} (hb : Representable bound) (h : (x.rank + y.rank).natAbs ≤ bound) :
    (x + y).isFinite = true := by
  rcases add_eq hx hy with ⟨s, he, _⟩ | he
  · rw [he]; rfl
  · rw [he]; exact isFinite_ofUnits hb h

theorem add_exact {x y total : Binary64} (hx : x.isFinite = true) (hy : y.isFinite = true)
    (htotal : total.isFinite = true) (h : x.rank + y.rank = total.rank) :
    (x + y).isFinite = true ∧ (x + y).rank = total.rank := by
  have hrep := representable_rank htotal
  refine ⟨isFinite_add hx hy hrep (Nat.le_of_eq (congrArg Int.natAbs h)), ?_⟩
  rw [rank_add hx hy, h, rank_ofUnits hrep]

theorem rank_sub {x y : Binary64} (hx : x.isFinite = true) (hy : y.isFinite = true) :
    (x - y).rank = (ofUnits (x.rank - y.rank)).rank := by
  have h := rank_add hx ((isFinite_neg y).trans hy)
  rwa [rank_neg, ← Int.sub_eq_add_neg] at h

theorem isFinite_sub {x y : Binary64} (hx : x.isFinite = true) (hy : y.isFinite = true)
    {bound : Nat} (hb : Representable bound) (h : (x.rank - y.rank).natAbs ≤ bound) :
    (x - y).isFinite = true := by
  refine isFinite_add hx ((isFinite_neg y).trans hy) hb ?_
  rwa [rank_neg, ← Int.sub_eq_add_neg]

theorem eqInt_zero : zero.eqInt 0 = true :=
  eqInt_iff.mpr ⟨rfl, by rw [rank_zero, Int.zero_mul]⟩

/-- Whatever is taken away from NaN or an infinity, no finite number is left. -/
theorem isFinite_sub_eq_false {x : Binary64} (hx : x.isFinite = false) (y : Binary64) :
    (x - y).isFinite = false := by
  show (add x (neg y)).isFinite = false
  cases x with
  | nan => rfl
  | finite s m => cases hx
  | infinite s =>
    cases y with
    | nan => rfl
    | finite t n => rfl
    | infinite t =>
      simp only [neg, add]
      split <;> rfl

theorem eqInt_add {x y : Binary64} {m n : Int} (hx : x.eqInt m = true) (hy : y.eqInt n = true)
    (h : (m + n).natAbs ≤ twoTo 53) : (x + y).eqInt (m + n) = true := by
  obtain ⟨hxf, hxr⟩ := eqInt_iff.mp hx
  obtain ⟨hyf, hyr⟩ := eqInt_iff.mp hy
  have hunits : x.rank + y.rank = (m + n) * unitsPerOne := by rw [hxr, hyr, ← Int.add_mul]
  refine eqInt_iff.mpr ⟨isFinite_add hxf hyf (representable_whole h) ?_, ?_⟩
  · rw [hunits, Int.natAbs_mul, Int.natAbs_natCast]
  · rw [rank_add hxf hyf, hunits]
    exact rank_ofInt h

theorem rank_sub_whole {x y : Binary64} {m n : Int} (hx : x.eqInt m = true)
    (hy : y.eqInt n = true) (h : (m - n).natAbs ≤ twoTo 53) :
    (x - y).rank = (m - n) * unitsPerOne := by
  obtain ⟨hxf, hxr⟩ := eqInt_iff.mp hx
  obtain ⟨hyf, hyr⟩ := eqInt_iff.mp hy
  rw [rank_sub hxf hyf, hxr, hyr, ← Int.sub_mul]
  exact rank_ofInt h

section Differences

variable {x y : Binary64} (hx : x.isFinite = true) (hy : y.isFinite = true)
  (h0 : 0 ≤ y.rank) (hyx : y.rank ≤ x.rank)

include hx hy h0 hyx

omit h0 in
theorem rank_sub_nonneg : 0 ≤ (x - y).rank := by
  rw [rank_sub hx hy]
  exact rank_ofUnits_nonneg (by omega)

theorem isFinite_sub_of_le : (x - y).isFinite = true :=
  isFinite_sub hx hy (representable_rank hx) (by omega)

/-- What is subtracted is at least the integer part of `y`, and `x` less that integer part
is representable, so that rounding cannot lift the difference past it. -/
theorem rank_sub_le (hle : x.rank ≤ (twoTo 53 : Nat) * unitsPerOne) :
    (x - y).rank ≤ x.rank - y.rank / unitsPerOne * unitsPerOne := by
  have hpos := unitsPerOne_pos_int
  have hfloor := Int.ediv_mul_le y.rank (by omega : (unitsPerOne : Int) ≠ 0)
  obtain ⟨n, hn⟩ := Int.eq_ofNat_of_zero_le (Int.ediv_nonneg h0 (Int.le_of_lt hpos))
  obtain ⟨u, hu⟩ := Int.eq_ofNat_of_zero_le (Int.le_trans h0 hyx)
  have hrep := representable_rank hx
  rw [hu, Int.natAbs_natCast] at hrep
  rw [hn, ← Int.natCast_mul] at hfloor ⊢
  rw [hu, ← Int.natCast_mul] at hle
  rw [hu] at hyx
  have hnu : n * unitsPerOne ≤ u := Int.ofNat_le.mp (Int.le_trans hfloor hyx)
  have hsub := representable_sub_whole hrep (Int.ofNat_le.mp hle) hnu
  rw [rank_sub hx hy, hu, ← Int.ofNat_sub hnu]
  calc (ofUnits ((u : Int) - y.rank)).rank
      ≤ (ofUnits ((u - n * unitsPerOne : Nat) : Int)).rank := rank_ofUnits_mono (by omega)
    _ = ((u - n * unitsPerOne : Nat) : Int) := rank_ofUnits_natCast hsub

/-- **Integer parts of differences.** However the difference is rounded, its integer part
is not negative and at most the difference of the integer parts. -/
theorem truncate_sub_le (hle : x.rank ≤ (twoTo 53 : Nat) * unitsPerOne) :
    ∃ n : Int, (x - y).toInteger = .ok n ∧ 0 ≤ n ∧
      n ≤ x.rank / unitsPerOne - y.rank / unitsPerOne := by
  have hpos := unitsPerOne_pos_int
  have hnonneg := rank_sub_nonneg hx hy hyx
  refine ⟨_, toInteger_of_nonneg (isFinite_sub_of_le hx hy h0 hyx) hnonneg,
    Int.ediv_nonneg hnonneg (by omega), ?_⟩
  calc (x - y).rank / unitsPerOne
      ≤ (x.rank - y.rank / unitsPerOne * unitsPerOne) / unitsPerOne :=
        Int.ediv_le_ediv hpos (rank_sub_le hx hy h0 hyx hle)
    _ = x.rank / unitsPerOne - y.rank / unitsPerOne := by
        rw [Int.sub_mul_ediv_right _ _ (by omega)]

end Differences

/-! ## Products -/

theorem mul_eq (x y : Binary64) : x * y = mul x y := rfl

/-- A number times a fraction is no larger than the number, so it does not overflow. -/
theorem isFinite_mul_fraction {x y : Binary64} (hx : x.isFinite = true)
    (hy : y.isFinite = true) (h : x.rank.natAbs ≤ unitsPerOne) : (x * y).isFinite = true := by
  cases x with
  | nan => cases hx
  | infinite s => cases hx
  | finite s m =>
    cases y with
    | nan => cases hy
    | infinite t => cases hy
    | finite t n =>
      have hm : m.val ≤ unitsPerOne := by cases s <;> simpa [rank] using h
      have hle := nearest_mono unitsPerOne (Nat.mul_le_mul_right n.val hm)
      rw [Nat.mul_comm unitsPerOne, nearest_mul_right unitsPerOne_pos n.property] at hle
      have hlt := Nat.lt_of_le_of_lt hle n.property.1
      rw [mul_eq, mul]
      exact isFinite_ofRatio hlt

/-! ### Signs -/

theorem rank_nonneg_of_not_isNegative {x : Binary64} (h : x.isNegative = false) :
    0 ≤ x.rank := by
  cases hx : x.isNaN with
  | true => cases x <;> simp_all [isNaN, rank]
  | false =>
    by_contra hneg
    have : x.lt zero = true := (lt_iff hx rfl).mpr (by rw [rank_zero]; omega)
    rw [isNegative, this] at h
    cases h

theorem not_isNegative_of_rank_nonneg {x : Binary64} (h : 0 ≤ x.rank) : x.isNegative = false := by
  refine Bool.eq_false_iff.mpr fun hneg => ?_
  have := rank_lt_of_lt hneg
  rw [rank_zero] at this
  omega

theorem not_isNegative_of_eqInt {x : Binary64} {n : Nat} (h : x.eqInt n = true) :
    x.isNegative = false := by
  refine not_isNegative_of_rank_nonneg ?_
  rw [(eqInt_iff.mp h).2]
  exact Int.mul_nonneg (Int.natCast_nonneg n) (Int.le_of_lt unitsPerOne_pos_int)

theorem eq_zero_of_rank_nonneg {negative : Bool} {m : Magnitude}
    (h : 0 ≤ rank (.finite negative m)) (hnegative : negative = true) : m.val = 0 := by
  subst hnegative
  simp only [rank, if_true] at h
  omega

theorem not_negative_of_rank_nonneg {negative : Bool}
    (h : 0 ≤ rank (.infinite negative)) : negative = false := by
  have hpos : 0 < unitsAtOverflow := unitsAtOverflow_eq ▸ twoTo_pos 2098
  cases negative with
  | false => rfl
  | true =>
    simp only [rank, if_true] at h
    omega

theorem rank_mul_nonneg {x y : Binary64} (hx : 0 ≤ x.rank) (hy : 0 ≤ y.rank) :
    0 ≤ (x * y).rank := by
  rw [mul_eq]
  cases x with
  | nan => exact Int.le_refl 0
  | infinite s =>
    obtain rfl := not_negative_of_rank_nonneg hx
    cases y with
    | nan => exact Int.le_refl 0
    | infinite t =>
      obtain rfl := not_negative_of_rank_nonneg hy
      exact hx
    | finite t n =>
      rw [mul]
      split
      · exact Int.le_refl 0
      · next hn =>
        cases t with
        | false => exact hx
        | true => exact absurd (eq_zero_of_rank_nonneg hy rfl) hn
  | finite s m =>
    cases y with
    | nan => exact Int.le_refl 0
    | infinite t =>
      obtain rfl := not_negative_of_rank_nonneg hy
      rw [mul]
      split
      · exact Int.le_refl 0
      · next hm =>
        cases s with
        | false => exact hy
        | true => exact absurd (eq_zero_of_rank_nonneg hx rfl) hm
    | finite t n =>
      refine rank_ofRatio_nonneg unitsPerOne_pos fun hsign => ?_
      rcases Bool.eq_false_or_eq_true s with hs | hs
      · rw [eq_zero_of_rank_nonneg hx hs, Nat.zero_mul]
      · rw [eq_zero_of_rank_nonneg hy (by simpa [hs] using hsign), Nat.mul_zero]

theorem rank_zero_mul {y : Binary64} (hy : y.isFinite = true) :
    (zero * y).rank = 0 := by
  cases y with
  | nan => cases hy
  | infinite t => cases hy
  | finite t n =>
    show rank (ofRatio (false != t) (0 * n.val) unitsPerOne) = 0
    rw [Nat.zero_mul, rank_ofRatio, nearest_zero unitsPerOne_pos]
    simp

/-- The product of numbers that are not negative is their rounded product in units. -/
theorem rank_mul_of_nonneg {x y : Binary64} (hx : x.isFinite = true) (hy : y.isFinite = true)
    (hx0 : 0 ≤ x.rank) (hy0 : 0 ≤ y.rank) :
    (x * y).rank =
      (min (nearest (x.rank.toNat * y.rank.toNat) unitsPerOne) unitsAtOverflow : Nat) := by
  cases x with
  | nan => cases hx
  | infinite s => cases hx
  | finite s m =>
    cases y with
    | nan => cases hy
    | infinite t => cases hy
    | finite t n =>
      rw [mul_eq, mul, rank_ofRatio]
      have hm : (rank (.finite s m)).toNat = m.val := by
        cases s with
        | false => rfl
        | true => simp [rank, eq_zero_of_rank_nonneg hx0 rfl]
      have hn : (rank (.finite t n)).toNat = n.val := by
        cases t with
        | false => rfl
        | true => simp [rank, eq_zero_of_rank_nonneg hy0 rfl]
      rw [hm, hn]
      -- where a sign is negative its factor is zero, and so is the product
      have hsign : (s != t) = true → m.val * n.val = 0 := by
        intro hst
        cases s with
        | true => rw [eq_zero_of_rank_nonneg hx0 rfl, Nat.zero_mul]
        | false =>
          cases t with
          | true => rw [eq_zero_of_rank_nonneg hy0 rfl, Nat.mul_zero]
          | false => cases hst
      split
      · next hst => simp [hsign hst, nearest_zero unitsPerOne_pos]
      · rw [Int.one_mul]

/-- **Products** keep the order of their first factors. -/
theorem rank_mul_mono {x z y : Binary64} (hx : x.isFinite = true) (hz : z.isFinite = true)
    (hy : y.isFinite = true) (hx0 : 0 ≤ x.rank) (hxz : x.rank ≤ z.rank) (hy0 : 0 ≤ y.rank) :
    (x * y).rank ≤ (z * y).rank := by
  rw [rank_mul_of_nonneg hx hy hx0 hy0, rank_mul_of_nonneg hz hy (Int.le_trans hx0 hxz) hy0]
  have hunits : x.rank.toNat * y.rank.toNat ≤ z.rank.toNat * y.rank.toNat :=
    Nat.mul_le_mul_right _ (by omega)
  have := nearest_mono unitsPerOne hunits
  omega

theorem isFinite_of_mul {x y : Binary64} (h : (x * y).isFinite = true) : y.isFinite = true := by
  rw [mul_eq] at h
  cases y with
  | finite t n => rfl
  | nan => cases x <;> cases h
  | infinite t =>
    cases x with
    | nan => cases h
    | infinite s => cases h
    | finite s m =>
      rw [mul] at h
      split at h <;> cases h

end Binary64
end Telemetry
