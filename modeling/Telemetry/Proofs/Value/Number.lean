import Telemetry.Value.Number
import Telemetry.Proofs.Binary64.Exactness

/-!
Counts as numbers, integers and doubles alike, by their units of 2^-1074.

Proved here:

* `less_iff`, `gtInt_iff`, `leInt_iff`, `eqInt_iff`: comparisons are those of the units;
* `sub_toInteger`: the integer part of a difference lies between zero and the difference
  of the integer parts;
* `sub_toInteger_whole`: differences of whole counts up to 2^53 are exact;
* `exists_sub_toInteger`, `exists_sub_fault`: a difference has an integer part as long as both
  numbers are finite and within the doubles, and none if the first is not finite.
-/

namespace Telemetry.Value.Number

/-- Whether a number is neither NaN nor infinite. -/
def isFinite : Number → Bool
  | .int _ => true
  | .float x => x.isFinite

/-- Whether a number has the value of an integer. -/
def eqInt : Number → Int → Bool
  | .int m, n => decide (m = n)
  | .float x, n => x.eqInt n

/-- The units of a finite number. -/
def units : Number → Int
  | .int n => n * unitsPerOne
  | .float x => x.rank

/-- The integer part of a number that is not negative. -/
def floor (x : Number) : Int := x.units / unitsPerOne

theorem eqInt_iff {x : Number} {n : Int} :
    x.eqInt n = true ↔ x.isFinite = true ∧ x.units = n * unitsPerOne := by
  cases x with
  | int m =>
    have hne := Int.ne_of_gt unitsPerOne_pos_int
    simp [eqInt, isFinite, units, Int.mul_eq_mul_right_iff hne]
  | float x => exact Binary64.eqInt_iff

theorem leInt_iff {x : Number} (h : x.isFinite = true) (n : Int) :
    x.leInt n = true ↔ x.units ≤ n * unitsPerOne := by
  cases x with
  | int m => simp [leInt, units, Int.mul_le_mul_right unitsPerOne_pos_int]
  | float x => exact Binary64.leInt_iff h n

theorem gtInt_iff {x : Number} (h : x.isFinite = true) (n : Int) :
    x.gtInt n = true ↔ n * unitsPerOne < x.units := by
  cases x with
  | int m => simp [gtInt, units, Int.mul_lt_mul_right unitsPerOne_pos_int]
  | float x => exact Binary64.gtInt_iff h n

theorem less_iff {x y : Number} (hx : x.isFinite = true) (hy : y.isFinite = true) :
    x.less y = true ↔ x.units < y.units := by
  cases x with
  | int m =>
    cases y with
    | int n => simp [less, units, Int.mul_lt_mul_right unitsPerOne_pos_int]
    | float y => exact Binary64.gtInt_iff hy m
  | float x =>
    cases y with
    | int n =>
      have hle := Binary64.leInt_iff hx n
      have heq := Binary64.eqInt_iff (x := x) (n := n)
      simp only [less, units, Bool.and_eq_true, Bool.not_eq_true', ← Bool.not_eq_true, hle, heq]
      simp only [isFinite] at hx
      simp only [hx, true_and]
      omega
    | float y =>
      exact Binary64.lt_iff (Binary64.isNaN_of_isFinite hx) (Binary64.isNaN_of_isFinite hy)

theorem exists_toBinary64 {x : Number} (hx : x.isFinite = true)
    (h : x.units.natAbs ≤ twoTo 53 * unitsPerOne) :
    ∃ y, x.toBinary64 = .ok y ∧ y.isFinite = true ∧ y.rank = x.units := by
  cases x with
  | int n =>
    rw [units, Int.natAbs_mul, Int.natAbs_natCast] at h
    have hn := Nat.le_of_mul_le_mul_right h unitsPerOne_pos
    have hn' := Binary64.natAbs_le_of_le_53 hn
    exact ⟨_, Binary64.ofIntWithin_eq hn', Binary64.isFinite_ofInt hn', Binary64.rank_ofInt hn⟩
  | float y => exact ⟨y, rfl, hx, rfl⟩

theorem sub_cases (x y : Number) :
    (∃ m n, x = .int m ∧ y = .int n) ∨
      ∀ a b, x.toBinary64 = .ok a → y.toBinary64 = .ok b → x.sub y = .ok (.float (a - b)) := by
  cases x with
  | int m =>
    cases y with
    | int n => exact Or.inl ⟨m, n, rfl, rfl⟩
    | float y =>
      refine Or.inr fun a b ha hb => ?_
      cases hb
      simp only [toBinary64] at ha
      simp [sub, ha, Except.map]
  | float x =>
    refine Or.inr fun a b ha hb => ?_
    cases ha
    cases y with
    | int n =>
      simp only [toBinary64] at hb
      simp [sub, hb, Except.map]
    | float y => cases hb; rfl

section Differences

variable {x y : Number} (hx : x.isFinite = true) (hy : y.isFinite = true)
  (h0 : 0 ≤ y.units) (hyx : y.units ≤ x.units)
  (hle : x.units ≤ (twoTo 53 * unitsPerOne : Nat))

include hx hy h0 hyx hle

/-- Between counts that do not decrease, the difference has an integer part, which never
exceeds the growth of the integer parts. -/
theorem sub_toInteger :
    ∃ growth n, x.sub y = .ok growth ∧ growth.toInteger = .ok n ∧ 0 ≤ n ∧
      n ≤ x.floor - y.floor := by
  rcases sub_cases x y with ⟨m, n, rfl, rfl⟩ | h
  · refine ⟨_, m - n, rfl, rfl, ?_, ?_⟩
    · exact Int.sub_nonneg_of_le (Int.le_of_mul_le_mul_right hyx unitsPerOne_pos_int)
    · simp [floor, units, Int.mul_ediv_cancel _ (Int.ne_of_gt unitsPerOne_pos_int)]
  · obtain ⟨a, ha, haf, har⟩ := exists_toBinary64 hx (by omega)
    obtain ⟨b, hb, hbf, hbr⟩ := exists_toBinary64 hy (by omega)
    rw [← hbr] at h0
    rw [← har, ← hbr] at hyx
    rw [← har, Int.natCast_mul] at hle
    obtain ⟨n, hn, hn0, hnle⟩ := Binary64.truncate_sub_le haf hbf h0 hyx hle
    rw [har, hbr] at hnle
    exact ⟨_, n, h a b ha hb, hn, hn0, hnle⟩

theorem sub_toInteger_whole {m n : Int} (hm : x.eqInt m = true) (hn : y.eqInt n = true) :
    ∃ growth, x.sub y = .ok growth ∧ growth.toInteger = .ok (m - n) := by
  rcases sub_cases x y with ⟨i, j, rfl, rfl⟩ | h
  · simp only [eqInt, decide_eq_true_eq] at hm hn
    exact ⟨_, rfl, by rw [hm, hn]; rfl⟩
  · obtain ⟨a, ha, haf, har⟩ := exists_toBinary64 hx (by omega)
    obtain ⟨b, hb, hbf, hbr⟩ := exists_toBinary64 hy (by omega)
    have hmu := (eqInt_iff.mp hm).2
    have hnu := (eqInt_iff.mp hn).2
    rw [← har, ← hbr] at hyx
    rw [← hbr] at h0
    have hbound : (m - n).natAbs ≤ twoTo 53 := by
      refine Nat.le_of_mul_le_mul_right ?_ unitsPerOne_pos
      rw [← Int.natAbs_natCast unitsPerOne, ← Int.natAbs_mul, Int.sub_mul, ← hmu, ← hnu,
        Int.natAbs_natCast]
      omega
    have hrank := Binary64.rank_sub_whole (Binary64.eqInt_iff.mpr ⟨haf, har.trans hmu⟩)
      (Binary64.eqInt_iff.mpr ⟨hbf, hbr.trans hnu⟩) hbound
    refine ⟨_, h a b ha hb, ?_⟩
    rw [toInteger, Binary64.toInteger_of_nonneg (Binary64.isFinite_sub_of_le haf hbf h0 hyx)
      (Binary64.rank_sub_nonneg haf hbf hyx), hrank,
      Int.mul_ediv_cancel _ (Int.ne_of_gt unitsPerOne_pos_int)]

end Differences

/-! ## Counts of any size -/

/-- A count below an integer within the doubles has a nearest double. -/
theorem exists_toBinary64_of_le {x : Number} (hx : x.isFinite = true) (h0 : 0 ≤ x.units)
    {m : Int} (hm : (Binary64.ofInt m).isInfinite = false) (hle : x.units ≤ m * unitsPerOne) :
    ∃ y, x.toBinary64 = .ok y ∧ y.isFinite = true ∧
      y.rank = (Binary64.ofUnits x.units).rank := by
  cases x with
  | int n =>
    have hpos := unitsPerOne_pos_int
    have hn0 : 0 ≤ n := Int.nonneg_of_mul_nonneg_left h0 hpos
    have hnm : n ≤ m := Int.le_of_mul_le_mul_right hle hpos
    have hfinite := Binary64.isFinite_ofInt_of_le hn0 hnm hm
    exact ⟨_, Binary64.ofIntWithin_eq_ok hfinite, hfinite, rfl⟩
  | float y => exact ⟨y, rfl, hx, (Binary64.rank_ofUnits (Binary64.representable_rank hx)).symm⟩

/-- Between finite counts that do not decrease, within the doubles, the difference has an
integer part. -/
theorem exists_sub_toInteger {x y : Number} (hx : x.isFinite = true) (hy : y.isFinite = true)
    (h0 : 0 ≤ y.units) (hyx : y.units ≤ x.units) {m : Int}
    (hm : (Binary64.ofInt m).isInfinite = false) (hle : x.units ≤ m * unitsPerOne) :
    ∃ growth n, x.sub y = .ok growth ∧ growth.toInteger = .ok n := by
  rcases sub_cases x y with ⟨m, n, rfl, rfl⟩ | h
  · exact ⟨_, m - n, rfl, rfl⟩
  · obtain ⟨a, ha, haf, har⟩ := exists_toBinary64_of_le hx (Int.le_trans h0 hyx) hm hle
    obtain ⟨b, hb, hbf, hbr⟩ := exists_toBinary64_of_le hy h0 hm (Int.le_trans hyx hle)
    have hba : b.rank ≤ a.rank := by
      rw [har, hbr]
      exact Binary64.rank_ofUnits_mono hyx
    have hb0 : 0 ≤ b.rank := by
      have := Binary64.rank_ofUnits_mono h0
      rwa [Binary64.rank_ofUnits (u := 0) Binary64.representable_zero, ← hbr] at this
    obtain ⟨n, hn⟩ := Binary64.exists_toInteger (Binary64.isFinite_sub_of_le haf hbf hb0 hba)
    exact ⟨_, n, h a b ha hb, hn⟩

/-- A difference from NaN or an infinity has no integer part. -/
theorem exists_sub_fault {x : Number} (hx : x.isFinite = false) {y growth : Number}
    (hsub : x.sub y = .ok growth) : ∃ fault, growth.toInteger = .error fault := by
  cases x with
  | int m => cases hx
  | float x =>
    have hfloat : ∃ z, growth = .float (x - z) := by
      cases y with
      | float y => exact ⟨y, (Except.ok.inj hsub).symm⟩
      | int n =>
        rw [sub] at hsub
        cases hwithin : Binary64.ofIntWithin n with
        | error fault => rw [hwithin] at hsub; cases hsub
        | ok z => exact ⟨z, by rw [hwithin] at hsub; exact (Except.ok.inj hsub).symm⟩
    obtain ⟨z, rfl⟩ := hfloat
    exact Binary64.exists_toInteger_fault (Binary64.isFinite_sub_eq_false hx z)

end Telemetry.Value.Number
