import Mathlib.Algebra.BigOperators.Ring.Finset
import Mathlib.Algebra.Order.BigOperators.Group.List
import Mathlib.Algebra.Order.Ring.Nat
import Mathlib.Data.List.Induction
import Telemetry.Proofs.Binary64.Exactness

/-!
Sums of binary64 numbers, added from left to right.

Proved here:

* `zero_le_add`, `zero_le_sub`, `zero_le_sum`: what is added from numbers that are not negative is
  not negative, and neither is a difference to a number that is not greater;
* `exact_sum`: a sum of numbers is exact if the exact sum of any of them is a double;
* `sumsRepresentable_of_grid`: so it is for numbers of one grid, as long as all together are up to
  2^53 of its steps.
-/

namespace Telemetry

/-- Numbers of units of which any have together a representable number. -/
def SumsRepresentable (units : List Int) : Prop :=
  ∀ part : List Int, part.Sublist units → Representable part.sum.natAbs

theorem SumsRepresentable.sublist {units part : List Int} (h : SumsRepresentable units)
    (hpart : part.Sublist units) : SumsRepresentable part :=
  fun _ hsub => h _ (hsub.trans hpart)

theorem SumsRepresentable.perm {units others : List Int} (h : SumsRepresentable units)
    (hperm : others.Perm units) : SumsRepresentable others := by
  intro part hpart
  obtain ⟨part', hperm', hpart'⟩ := List.exists_perm_sublist hpart hperm
  rw [← hperm'.sum_eq]
  exact h part' hpart'

theorem SumsRepresentable.of_mem {units : List Int} (h : SumsRepresentable units) {u : Int}
    (hu : u ∈ units) : Representable u.natAbs := by
  have hone := h [u] (List.singleton_sublist.mpr hu)
  rwa [List.sum_singleton] at hone

/-- Up to 2^53 steps of a grid are representable, whatever power of two the step is. -/
theorem representable_steps {steps exponent : Nat} (h : steps ≤ twoTo 53)
    (hexponent : exponent < 2045) : Representable (steps * twoTo exponent) := by
  refine ⟨?_, steps, exponent, h, rfl⟩
  calc steps * twoTo exponent
      ≤ twoTo 53 * twoTo exponent := Nat.mul_le_mul_right _ h
    _ = twoTo (53 + exponent) := (twoTo_add 53 exponent).symm
    _ < unitsAtOverflow := (representable_twoTo (by omega)).1

/-- **Grids.** Whole numbers of steps that are not negative have representable sums if all together
are up to 2^53 steps. -/
theorem sumsRepresentable_of_grid {exponent : Nat} (hexponent : exponent < 2045) {steps : List Nat}
    (hsum : steps.sum ≤ twoTo 53) :
    SumsRepresentable (steps.map fun k : Nat => (k : Int) * twoTo exponent) := by
  intro part hpart
  obtain ⟨chosen, hchosen, rfl⟩ := List.sublist_map_iff.mp hpart
  have htotal : (chosen.map fun k : Nat => (k : Int) * twoTo exponent).sum =
      ((chosen.sum * twoTo exponent : Nat) : Int) := by
    rw [List.sum_map_mul_right, ← Nat.cast_list_sum, Int.natCast_mul]
  rw [htotal, Int.natAbs_natCast]
  refine representable_steps (Nat.le_trans ?_ hsum) hexponent
  exact hchosen.sum_le_sum fun _ _ => Nat.zero_le _

namespace Binary64

/-! ## Signs -/

theorem zero_le_iff {x : Binary64} : zero.le x = true ↔ x.isNaN = false ∧ 0 ≤ x.rank := by
  simp [le, zero, isNaN, rank]

theorem isNaN_ofUnits (u : Int) : (ofUnits u).isNaN = false := by
  rcases ofRatio_eq (decide (u < 0)) u.natAbs 1 with ⟨m, -, -, h⟩ | ⟨-, h⟩ <;>
    rw [ofUnits, h] <;> rfl

theorem isNaN_add {x y : Binary64} (hx : x.isFinite = true) (hy : y.isFinite = true) :
    (x + y).isNaN = false := by
  rcases add_eq hx hy with ⟨s, h, -⟩ | h
  · rw [h]
    rfl
  · rw [h]
    exact isNaN_ofUnits _

/-- A sum of numbers that are not negative is not negative, overflow included. -/
theorem zero_le_add {x y : Binary64} (hx : zero.le x = true) (hy : zero.le y = true) :
    zero.le (x + y) = true := by
  obtain ⟨hxn, hx⟩ := zero_le_iff.mp hx
  obtain ⟨hyn, hy⟩ := zero_le_iff.mp hy
  cases x with
  | nan => cases hxn
  | infinite s =>
    obtain rfl := not_negative_of_rank_nonneg hx
    cases y with
    | nan => cases hyn
    | infinite t =>
      obtain rfl := not_negative_of_rank_nonneg hy
      exact zero_le_iff.mpr ⟨rfl, hx⟩
    | finite t n => exact zero_le_iff.mpr ⟨rfl, hx⟩
  | finite s m =>
    cases y with
    | nan => cases hyn
    | infinite t => exact zero_le_iff.mpr ⟨rfl, hy⟩
    | finite t n =>
      refine zero_le_iff.mpr ⟨isNaN_add rfl rfl, ?_⟩
      rw [rank_add rfl rfl]
      exact rank_ofUnits_nonneg (Int.add_nonneg hx hy)

theorem zero_le_sub {x y : Binary64} (hx : x.isFinite = true) (hy : y.isFinite = true)
    (hle : y.le x = true) : zero.le (x - y) = true := by
  have hrank := (le_iff (isNaN_of_isFinite hy) (isNaN_of_isFinite hx)).mp hle
  exact zero_le_iff.mpr
    ⟨isNaN_add hx ((isFinite_neg y).trans hy), rank_sub_nonneg hx hy hrank⟩

theorem sum_concat (xs : List Binary64) (x : Binary64) : sum (xs ++ [x]) = sum xs + x := by
  rw [sum, sum, List.foldl_concat]

theorem zero_le_sum {xs : List Binary64} (h : ∀ x ∈ xs, zero.le x = true) :
    zero.le (sum xs) = true := by
  induction xs using List.reverseRecOn with
  | nil => rfl
  | append_singleton xs x ih =>
    rw [List.forall_mem_append, List.forall_mem_singleton] at h
    rw [sum_concat]
    exact zero_le_add (ih h.1) h.2

/-! ## Exactness -/

theorem exact_sub {x y : Binary64} (hx : x.isFinite = true) (hy : y.isFinite = true)
    (h : Representable (x.rank - y.rank).natAbs) :
    (x - y).isFinite = true ∧ (x - y).rank = x.rank - y.rank :=
  ⟨isFinite_sub hx hy h (Nat.le_refl _), by rw [rank_sub hx hy, rank_ofUnits h]⟩

/-- **Sums.** Finite numbers are added exactly if the sum of any of them is representable. -/
theorem exact_sum {xs : List Binary64} (hfinite : ∀ x ∈ xs, x.isFinite = true)
    (h : SumsRepresentable (xs.map (·.rank))) :
    (sum xs).isFinite = true ∧ (sum xs).rank = (xs.map (·.rank)).sum := by
  induction xs using List.reverseRecOn with
  | nil => exact ⟨rfl, rfl⟩
  | append_singleton xs x ih =>
    rw [List.forall_mem_append, List.forall_mem_singleton] at hfinite
    have hall := h _ (List.Sublist.refl _)
    rw [List.map_append, List.map_singleton] at h hall ⊢
    obtain ⟨hf, hrank⟩ := ih hfinite.1 (h.sublist (List.sublist_append_left _ _))
    rw [List.sum_append, List.sum_singleton, ← hrank] at hall ⊢
    rw [sum_concat, rank_add hf hfinite.2, rank_ofUnits hall]
    exact ⟨isFinite_add hf hfinite.2 hall (Nat.le_refl _), rfl⟩

end Binary64
end Telemetry
