import Mathlib.Data.List.Lex
import Mathlib.Data.List.Nodup
import Telemetry.Meter.Id

/-!
The identity of a meter: its tags in order of their keys are a normal form of the mapping that
they were made from.

Proved here:

* `Text.atMost_iff`, `atMost_trans`, `atMost_total`: texts are in linear order by their code
  points;
* `OrderedMap.entries_ofList`, `get?_ofList`: a list without repeated keys is read as the mapping
  that it spells;
* `Pairs.perm_iff`: two such lists spell the same mapping exactly if they have the same members;
* `MeterId.eq_sortTags_iff`: the sorted tags are the only arrangement in the order of their keys;
* `MeterId.sortTags_eq_iff`: two mappings have the same sorted tags exactly if they are the same;
* `MeterId.get?_ofList_sortTags`: sorted tags are read as the mapping that was sorted.
-/

namespace Telemetry

/-! ## The order of texts -/

namespace Text

theorem pointsAtMost_iff {ms ns : List Nat} : pointsAtMost ms ns = true ↔ ms ≤ ns := by
  induction ms generalizing ns with
  | nil => simp [pointsAtMost, ← not_lt]
  | cons m ms ih =>
    cases ns with
    | nil => simp [pointsAtMost, ← not_lt]
    | cons n ns =>
      have hhead : pointsAtMost (m :: ms) (n :: ns) = true ↔ m < n ∨ m = n ∧ ms ≤ ns := by
        rw [pointsAtMost, ← ih]
        simp
      rw [hhead, le_iff_lt_or_eq, le_iff_lt_or_eq, List.cons_lt_cons_iff, List.cons.injEq,
        and_or_left, or_assoc]

theorem atMost_iff {s t : String} : atMost s t = true ↔ points s ≤ points t := pointsAtMost_iff

theorem atMost_trans {s t u : String} (hst : atMost s t = true) (htu : atMost t u = true) :
    atMost s u = true := by
  rw [atMost_iff] at *
  exact hst.trans htu

theorem atMost_total (s t : String) : (atMost s t || atMost t s) = true := by
  rw [Bool.or_eq_true, atMost_iff, atMost_iff]
  exact le_total _ _

end Text

/-! ## Lists of pairs as mappings -/

section Pairs

variable {κ υ : Type} [DecidableEq κ]

theorem Pairs.set_of_none {k : κ} {ps : List (κ × υ)} (h : get? k ps = none) (v : υ) :
    set k v ps = ps ++ [(k, v)] := by
  induction ps with
  | nil => rfl
  | cons p rest ih =>
    rw [get?] at h
    split at h
    · cases h
    · next hne => rw [set, if_neg hne, ih h, List.cons_append]

theorem OrderedMap.entries_insertAll {ps : List (κ × υ)} (m : OrderedMap κ υ)
    (h : ((m.entries ++ ps).map (·.1)).Nodup) : (m.insertAll ps).entries = m.entries ++ ps := by
  induction ps generalizing m with
  | nil => exact (List.append_nil _).symm
  | cons p rest ih =>
    have hinsert : (m.insert p.1 p.2).entries = m.entries ++ [p] := by
      refine Pairs.set_of_none ?_ _
      rw [List.map_append, List.nodup_append] at h
      rw [← Option.not_isSome_iff_eq_none, ← Pairs.mem_keys_iff]
      exact fun hmem => h.2.2 _ hmem p.1 (by simp) rfl
    have hmoved : m.entries ++ p :: rest = (m.insert p.1 p.2).entries ++ rest := by
      rw [hinsert, List.append_assoc, List.singleton_append]
    rw [hmoved] at h ⊢
    exact ih _ h

/-- A list without repeated keys is that of the map that it is read as. -/
theorem OrderedMap.entries_ofList {ps : List (κ × υ)} (h : (ps.map (·.1)).Nodup) :
    (ofList ps).entries = ps :=
  entries_insertAll empty h

theorem OrderedMap.get?_ofList {ps : List (κ × υ)} (h : (ps.map (·.1)).Nodup) (k : κ) :
    (ofList ps).get? k = Pairs.get? k ps := by
  rw [get?, entries_ofList h]

/-- Lists without repeated keys spell the same mapping exactly if they have the same members. -/
theorem Pairs.perm_iff {ps qs : List (κ × υ)} (hps : (ps.map (·.1)).Nodup)
    (hqs : (qs.map (·.1)).Nodup) : ps.Perm qs ↔ ∀ k, get? k ps = get? k qs := by
  rw [List.perm_ext_iff_of_nodup (List.Nodup.of_map _ hps) (List.Nodup.of_map _ hqs)]
  constructor
  · intro h k
    refine Option.ext fun v => ?_
    rw [get?_eq_some_iff hps, get?_eq_some_iff hqs, h]
  · rintro h ⟨k, v⟩
    rw [← get?_eq_some_iff hps, ← get?_eq_some_iff hqs, h]

end Pairs

/-! ## Sorted tags -/

namespace MeterId

variable (tags other : OrderedMap String String)

theorem sortTags_perm : (sortTags tags).Perm tags.entries := List.mergeSort_perm _ _

theorem nodup_sortTags : ((sortTags tags).map (·.1)).Nodup :=
  ((sortTags_perm tags).map _).nodup_iff.mpr tags.nodup

theorem sortTags_pairwise :
    (sortTags tags).Pairwise fun a b => Text.atMost a.1 b.1 = true := by
  refine List.pairwise_mergeSort (fun a b c hab hbc => ?_) (fun a b => ?_) _
  · exact Text.atMost_trans hab hbc
  · exact Text.atMost_total a.1 b.1

theorem get?_sortTags (k : String) : Pairs.get? k (sortTags tags) = tags.get? k :=
  (Pairs.perm_iff (nodup_sortTags tags) tags.nodup).mp (sortTags_perm tags) k

variable {tags other}

/-- The sorted tags are the only arrangement of the pairs in the order of their keys. -/
theorem eq_sortTags_iff {ps : List (String × String)} :
    ps = sortTags tags ↔ ps.Perm tags.entries ∧
      ps.Pairwise fun a b => Text.points a.1 ≤ Text.points b.1 := by
  have hsorted := (sortTags_pairwise tags).imp Text.atMost_iff.mp
  constructor
  · rintro rfl
    exact ⟨sortTags_perm tags, hsorted⟩
  · rintro ⟨hperm, hascending⟩
    have hsame := hperm.trans (sortTags_perm tags).symm
    refine List.Perm.eq_of_pairwise (fun a b ha hb hab hba => ?_) hascending hsorted hsame
    have hkey := Text.points_injective (le_antisymm hab hba)
    have hmem := fun p => Pairs.get?_eq_some_iff (nodup_sortTags tags) p
    have ha' := (hmem a.1 a.2).mpr (hsame.mem_iff.mp ha)
    have hb' := (hmem b.1 b.2).mpr hb
    rw [← hkey, ha'] at hb'
    exact Prod.ext hkey (Option.some.inj hb')

/-- **Tags.** Two mappings have the same sorted tags exactly if they are the same mapping. -/
theorem sortTags_eq_iff : sortTags tags = sortTags other ↔ ∀ k, tags.get? k = other.get? k := by
  constructor
  · intro h k
    rw [← get?_sortTags, h, get?_sortTags]
  · intro h
    have hentries : tags.entries.Perm other.entries :=
      (Pairs.perm_iff tags.nodup other.nodup).mpr h
    obtain ⟨hperm, hascending⟩ := eq_sortTags_iff.mp (Eq.refl (sortTags tags))
    exact eq_sortTags_iff.mpr ⟨hperm.trans hentries, hascending⟩

theorem get?_ofList_sortTags (k : String) :
    (OrderedMap.ofList (sortTags tags)).get? k = tags.get? k := by
  rw [OrderedMap.get?_ofList (nodup_sortTags tags), get?_sortTags]

end MeterId
end Telemetry
