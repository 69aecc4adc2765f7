import Mathlib.Algebra.Order.Ring.Int
import Mathlib.Data.List.DropRight
import Mathlib.Data.List.GetD
import Mathlib.Order.Bounds.Defs
import Telemetry.Series.Distribution

/-!
Leaving out the empty buckets at the end of a list of counts.

Proved here, for counts that are not negative:

* `trimEmpty_isPrefix`, `sum_trimEmpty`: what is left is a prefix with the same sum;
* `isLeast_trimEmpty`: it is the shortest non-empty prefix that no observation is outside
  of;
* `trimEmpty_append_zeros`: more empty buckets at the end change nothing.
-/

namespace Telemetry.Distribution

theorem trimEmpty_singleton (n : Int) : trimEmpty [n] = [n] := by
  by_cases h : n ≤ 0 <;> simp [trimEmpty, h]

theorem trimEmpty_concat_empty {counts : List Int} (hne : counts ≠ []) {n : Int} (h : n ≤ 0) :
    trimEmpty (counts ++ [n]) = trimEmpty counts := by
  have hkept : ((counts ++ [n]).reverse.dropWhile (· ≤ 0)).reverse =
      (counts.reverse.dropWhile (· ≤ 0)).reverse :=
    List.rdropWhile_concat_pos _ counts n (by simpa using h)
  have hone : (counts ++ [n]).take 1 = counts.take 1 :=
    List.take_append_of_le_length (List.length_pos_iff.mpr hne)
  simp only [trimEmpty, hkept, hone]

theorem trimEmpty_concat_filled (counts : List Int) {n : Int} (h : 0 < n) :
    trimEmpty (counts ++ [n]) = counts ++ [n] := by
  have hkept : ((counts ++ [n]).reverse.dropWhile (· ≤ 0)).reverse = counts ++ [n] :=
    List.rdropWhile_concat_neg _ counts n (by simpa using h)
  unfold trimEmpty
  dsimp only
  rw [hkept, if_neg (by simp)]

theorem trimEmpty_isPrefix (counts : List Int) : trimEmpty counts <+: counts := by
  unfold trimEmpty
  dsimp only
  split
  · exact List.take_prefix 1 counts
  · exact List.rdropWhile_prefix _ counts

theorem trimEmpty_length_pos {counts : List Int} (h : counts ≠ []) :
    0 < (trimEmpty counts).length := by
  unfold trimEmpty
  dsimp only
  split
  · rw [List.length_take]
    exact Nat.lt_min.mpr ⟨Nat.one_pos, List.length_pos_iff.mpr h⟩
  · next hkept => exact List.length_pos_iff.mpr hkept

theorem trimEmpty_eq_take (counts : List Int) :
    trimEmpty counts = counts.take (trimEmpty counts).length :=
  List.prefix_iff_eq_take.mp (trimEmpty_isPrefix counts)

theorem sum_trimEmpty {counts : List Int} (h : ∀ n ∈ counts, 0 ≤ n) :
    (trimEmpty counts).sum = counts.sum := by
  induction counts using List.reverseRecOn with
  | nil => rfl
  | append_singleton counts n ih =>
    have hn : 0 ≤ n := h n (by simp)
    by_cases hpos : 0 < n
    · rw [trimEmpty_concat_filled counts hpos]
    · by_cases hne : counts = []
      · subst hne
        rw [List.nil_append, trimEmpty_singleton]
      · rw [trimEmpty_concat_empty hne (by omega), ih fun m hm => h m (by simp [hm]),
          List.sum_append, List.sum_singleton]
        omega

/-- The prefix lengths after which every bucket is empty. -/
def Covers (counts : List Int) (k : Nat) : Prop :=
  0 < k ∧ ∀ j, k ≤ j → counts.getD j 0 = 0

theorem covers_concat_iff (counts : List Int) (n : Int) (k : Nat) :
    Covers (counts ++ [n]) k ↔ Covers counts k ∧ (k ≤ counts.length → n = 0) := by
  constructor
  · rintro ⟨hk, h⟩
    refine ⟨⟨hk, fun j hj => ?_⟩, fun hle => by simpa using h counts.length hle⟩
    by_cases hlt : j < counts.length
    · simpa [List.getD_eq_getElem?_getD, List.getElem?_append_left hlt] using h j hj
    · exact List.getD_eq_default _ _ (Nat.le_of_not_lt hlt)
  · rintro ⟨⟨hk, h⟩, hn⟩
    refine ⟨hk, fun j hj => ?_⟩
    rcases Nat.lt_trichotomy j counts.length with hlt | rfl | hgt
    · simpa [List.getD_eq_getElem?_getD, List.getElem?_append_left hlt] using h j hj
    · simpa using hn hj
    · refine List.getD_eq_default _ _ ?_
      rw [List.length_append, List.length_singleton]
      omega

/-- **Exact trimming.** What is left is the shortest non-empty prefix that holds every
observation. -/
theorem isLeast_trimEmpty {counts : List Int} (hne : counts ≠ []) (h : ∀ n ∈ counts, 0 ≤ n) :
    IsLeast {k | Covers counts k} (trimEmpty counts).length := by
  induction counts using List.reverseRecOn with
  | nil => exact absurd rfl hne
  | append_singleton counts n ih =>
    have hn : 0 ≤ n := h n (by simp)
    by_cases hpos : 0 < n
    · rw [trimEmpty_concat_filled counts hpos, List.length_append]
      refine ⟨⟨by simp, fun j hj => ?_⟩, fun k hk => ?_⟩
      · exact List.getD_eq_default _ _ (by rwa [List.length_append])
      · have hlast := ((covers_concat_iff counts n k).mp hk).2
        by_contra hlt
        rw [List.length_singleton, Nat.not_le] at hlt
        exact absurd (hlast (Nat.le_of_lt_succ hlt)) (Int.ne_of_gt hpos)
    · have h0 : n = 0 := by omega
      subst h0
      by_cases hnil : counts = []
      · subst hnil
        rw [List.nil_append, trimEmpty_singleton]
        refine ⟨⟨Nat.one_pos, fun j hj => ?_⟩, fun k hk => hk.1⟩
        cases j <;> simp
      · rw [trimEmpty_concat_empty hnil (Int.le_refl 0)]
        have heq : {k | Covers (counts ++ [0]) k} = {k | Covers counts k} := by
          ext k
          simp [covers_concat_iff]
        rw [heq]
        exact ih hnil fun m hm => h m (by simp [hm])

theorem trimEmpty_append_zeros {counts zeros : List Int} (hne : counts ≠ [])
    (h : ∀ n ∈ zeros, n = 0) : trimEmpty (counts ++ zeros) = trimEmpty counts := by
  induction zeros using List.reverseRecOn with
  | nil => rw [List.append_nil]
  | append_singleton zeros n ih =>
    rw [← List.append_assoc, trimEmpty_concat_empty (by simp [hne])
      (Int.le_of_eq (h n (by simp)))]
    exact ih fun m hm => h m (by simp [hm])

end Telemetry.Distribution
