import Mathlib.Data.List.GetD
import Telemetry.Binary64.Sorted
import Telemetry.Proofs.Binary64.Exactness
import Telemetry.Proofs.RunSort

/-!
Sorted lists, and places in those without NaN.

Proved here:

* `sorted_perm`, `sorted_pairwise`: sorting keeps the members of a list, and without NaN the
  result is ascending;
* `lt_placeOf_iff`: a value's place is past exactly the members below the value, also where
  members are equal to it or to each other;
* `isLargest_foldl`, `isSmallest_sorted`, `isLargest_sorted`: the extremes of a list.
-/

namespace Telemetry.Binary64

theorem le_iff_not_lt {x y : Binary64} (hx : x.isNaN = false) (hy : y.isNaN = false) :
    x.le y = true ↔ ¬ y.lt x = true := by
  rw [le_iff hx hy, lt_iff hy hx, Int.not_lt]

/-! ## Sorting -/

theorem sorted_eq {xs : List Binary64} (h : ∀ x ∈ xs, x.isNaN = false) :
    sorted xs = xs.mergeSort le := by
  have hany : ¬ xs.any isNaN = true := by simpa using h
  rw [sorted, if_neg hany]

theorem sorted_perm (xs : List Binary64) : (sorted xs).Perm xs := by
  rw [sorted]
  split
  · exact RunSort.sort_perm lt xs
  · exact List.mergeSort_perm xs le

/-- The order of ranks, which is total also where NaN is. -/
def rankLe (x y : Binary64) : Bool := decide (x.rank ≤ y.rank)

theorem mergeSort_rankLe {xs : List Binary64} (h : ∀ x ∈ xs, x.isNaN = false) :
    xs.mergeSort le = xs.mergeSort rankLe := by
  have hmap : (xs.mergeSort le).map id = (xs.map id).mergeSort rankLe := by
    refine List.map_mergeSort fun x hx y hy => ?_
    rw [Bool.eq_iff_iff, le_iff (h x hx) (h y hy), rankLe, decide_eq_true_iff]
    rfl
  rwa [List.map_id, List.map_id] at hmap

theorem sorted_pairwise {xs : List Binary64} (h : ∀ x ∈ xs, x.isNaN = false) :
    (sorted xs).Pairwise fun x y => x.le y = true := by
  have hrank : (xs.mergeSort rankLe).Pairwise fun x y => rankLe x y = true := by
    refine List.pairwise_mergeSort (fun x y z hxy hyz => ?_) (fun x y => ?_) xs
    · simp only [rankLe, decide_eq_true_eq] at *
      omega
    · simp only [rankLe, Bool.or_eq_true, decide_eq_true_eq]
      omega
  rw [← mergeSort_rankLe h, ← sorted_eq h] at hrank
  refine hrank.imp_of_mem fun {x y} hx hy hxy => ?_
  have hmem {z : Binary64} (hz : z ∈ sorted xs) : z.isNaN = false :=
    h z ((sorted_perm xs).mem_iff.mp hz)
  rw [le_iff (hmem hx) (hmem hy)]
  exact of_decide_eq_true hxy

/-! ## Places -/

section Places

variable {xs : List Binary64} (hs : xs.Pairwise fun x y => x.le y = true)
  (hxs : ∀ x ∈ xs, x.isNaN = false) {v : Binary64} (hv : v.isNaN = false)

include hs hxs hv

private theorem exists_place :
    ∃ stop, stop ≤ xs.length ∧ ∀ i, i < xs.length → ((xs.getD i zero).lt v = true ↔ i < stop) := by
  induction xs with
  | nil => exact ⟨0, Nat.le_refl 0, fun i hi => absurd hi (Nat.not_lt_zero i)⟩
  | cons x rest ih =>
    obtain ⟨hle, hrest⟩ := List.pairwise_cons.mp hs
    have hx := hxs x (List.mem_cons_self ..)
    have hn : ∀ y ∈ rest, y.isNaN = false := fun y hy => hxs y (List.mem_cons_of_mem _ hy)
    obtain ⟨stop, hstop, h⟩ := ih hrest hn
    by_cases hlt : x.lt v = true
    · refine ⟨stop + 1, Nat.succ_le_succ hstop, fun i hi => ?_⟩
      cases i with
      | zero => simp [hlt]
      | succ i => simpa using h i (Nat.lt_of_succ_lt_succ hi)
    · refine ⟨0, Nat.zero_le _, fun i hi => ?_⟩
      cases i with
      | zero => simp [hlt]
      | succ i =>
        have hi' : i < rest.length := Nat.lt_of_succ_lt_succ hi
        have hmem : rest[i] ∈ rest := List.getElem_mem hi'
        have hxy := (le_iff hx (hn _ hmem)).mp (hle _ hmem)
        rw [lt_iff hx hv] at hlt
        have hnot : ¬ rest[i].lt v = true := by
          rw [lt_iff (hn _ hmem) hv]
          omega
        simpa [List.getD_eq_getElem?_getD, List.getElem?_eq_getElem hi'] using hnot

/-- **Places.** The place of a value is past the members that are less than it. -/
theorem lt_placeOf_iff {i : Nat} (hi : i < xs.length) :
    i < placeOf xs v ↔ (xs.getD i zero).lt v = true := by
  obtain ⟨stop, hstop, h⟩ := exists_place hs hxs hv
  have heq : placeOf xs v = stop :=
    boundary_spec (Nat.zero_le stop) hstop fun i _ hi => h i hi
  rw [heq, h i hi]

theorem placeOf_le_iff {i : Nat} (hi : i < xs.length) :
    placeOf xs v ≤ i ↔ v.le (xs.getD i zero) = true := by
  have hmem : (xs.getD i zero).isNaN = false := by
    rw [List.getD_eq_getElem?_getD, List.getElem?_eq_getElem hi]
    exact hxs _ (List.getElem_mem hi)
  rw [le_iff_not_lt hv hmem, ← lt_placeOf_iff hs hxs hv hi, Nat.not_lt]

end Places

/-! ## Largest and smallest members -/

/-- A member of a list that no other one is above. -/
def IsLargest (xs : List Binary64) (m : Binary64) : Prop := m ∈ xs ∧ ∀ x ∈ xs, x.le m = true

/-- A member of a list that no other one is below. -/
def IsSmallest (xs : List Binary64) (m : Binary64) : Prop := m ∈ xs ∧ ∀ x ∈ xs, m.le x = true

theorem le_refl {x : Binary64} (hx : x.isNaN = false) : x.le x = true :=
  (le_iff hx hx).mpr (Int.le_refl _)

theorem le_trans {x y z : Binary64} (hxy : x.le y = true) (hyz : y.le z = true) :
    x.le z = true := by
  simp only [le, Bool.and_eq_true, decide_eq_true_eq] at *
  exact ⟨⟨hxy.1.1, hyz.1.2⟩, Int.le_trans hxy.2 hyz.2⟩

theorem maxKeepFirst_spec {x y : Binary64} (hx : x.isNaN = false) (hy : y.isNaN = false) :
    (x.maxKeepFirst y = x ∨ x.maxKeepFirst y = y) ∧
      x.le (x.maxKeepFirst y) = true ∧ y.le (x.maxKeepFirst y) = true := by
  rw [maxKeepFirst]
  split
  · next hlt =>
    rw [lt_iff hx hy] at hlt
    exact ⟨Or.inr rfl, (le_iff hx hy).mpr (by omega), le_refl hy⟩
  · next hge => exact ⟨Or.inl rfl, le_refl hx, (le_iff_not_lt hy hx).mpr hge⟩

/-- The maximum of a list without NaN, kept from left to right. -/
theorem isLargest_foldl {xs : List Binary64} (hxs : ∀ y ∈ xs, y.isNaN = false) {x : Binary64}
    (hx : x.isNaN = false) : IsLargest (x :: xs) (xs.foldl maxKeepFirst x) := by
  induction xs generalizing x with
  | nil => exact ⟨List.mem_singleton_self x, by simp [le_refl hx]⟩
  | cons y rest ih =>
    rw [List.forall_mem_cons] at hxs
    obtain ⟨hkept, hxm, hym⟩ := maxKeepFirst_spec hx hxs.1
    have hm : (x.maxKeepFirst y).isNaN = false := by
      rcases hkept with h | h
      · rwa [h]
      · rw [h]
        exact hxs.1
    obtain ⟨hmem, hle⟩ := ih hxs.2 hm
    rw [List.forall_mem_cons] at hle
    rw [List.foldl_cons]
    refine ⟨?_, ?_⟩
    · rcases List.mem_cons.mp hmem with heq | hrest
      · rw [heq]
        rcases hkept with h | h <;> simp [h]
      · simp [hrest]
    · simp only [List.forall_mem_cons]
      exact ⟨le_trans hxm hle.1, le_trans hym hle.1, hle.2⟩

/-! ## Members of a sorted list -/

section Sorted

variable {xs : List Binary64}

theorem getElem?_sorted {i : Nat} (hi : i < xs.length) :
    (sorted xs)[i]? = some ((sorted xs).getD i zero) := by
  rw [List.getD_eq_getElem?_getD, List.getElem?_eq_getElem (by rwa [(sorted_perm xs).length_eq])]
  rfl

theorem getD_sorted_mem {i : Nat} (hi : i < xs.length) : (sorted xs).getD i zero ∈ xs :=
  (sorted_perm xs).mem_iff.mp (List.mem_of_getElem? (getElem?_sorted hi))

theorem exists_getD_sorted {x : Binary64} (hx : x ∈ xs) :
    ∃ i, i < xs.length ∧ (sorted xs).getD i zero = x := by
  obtain ⟨i, hi, heq⟩ := List.mem_iff_getElem.mp ((sorted_perm xs).mem_iff.mpr hx)
  refine ⟨i, by rwa [← (sorted_perm xs).length_eq], ?_⟩
  rw [List.getD_eq_getElem _ _ hi, heq]

variable (hxs : ∀ x ∈ xs, x.isNaN = false)

include hxs

theorem getD_sorted_le {i j : Nat} (hij : i ≤ j) (hj : j < xs.length) :
    ((sorted xs).getD i zero).le ((sorted xs).getD j zero) = true := by
  rcases Nat.lt_or_eq_of_le hij with hlt | rfl
  · have hlen := (sorted_perm xs).length_eq
    rw [List.getD_eq_getElem _ _ (by omega), List.getD_eq_getElem _ _ (by omega)]
    exact List.pairwise_iff_getElem.mp (sorted_pairwise hxs) i j _ _ hlt
  · exact le_refl (hxs _ (getD_sorted_mem hj))

theorem isSmallest_sorted (hne : xs ≠ []) : IsSmallest xs ((sorted xs).getD 0 zero) := by
  refine ⟨getD_sorted_mem (List.length_pos_iff.mpr hne), fun x hx => ?_⟩
  obtain ⟨i, hi, rfl⟩ := exists_getD_sorted hx
  exact getD_sorted_le hxs (Nat.zero_le i) hi

theorem isLargest_sorted (hne : xs ≠ []) :
    IsLargest xs ((sorted xs).getD (xs.length - 1) zero) := by
  have hpos := List.length_pos_iff.mpr hne
  refine ⟨getD_sorted_mem (by omega), fun x hx => ?_⟩
  obtain ⟨i, hi, rfl⟩ := exists_getD_sorted hx
  exact getD_sorted_le hxs (by omega) (by omega)

end Sorted

end Telemetry.Binary64
