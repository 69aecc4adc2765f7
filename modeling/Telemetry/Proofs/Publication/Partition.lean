import Mathlib.Data.List.Basic
import Mathlib.Data.Rat.Floor
import Telemetry.Publication.Partition

/-!
Filing by index as slicing: partition `j` is the slice of `size` items from item `j * size`
on.

Proved here:

* `file_slices`: filing one more item under its index is slicing a list with one more item,
  whether the item opens a partition or not;
* `ofList_eq`: hence filing all items never finds a partition that is not open, and gives the
  slices;
* `flatten_slices`, `length_mem_slices`, `length_mem_dropLast_slices`: the slices are the whole list
  in order, none is empty or too long, and all but the last are full;
* `ofList_sliced`: what a size makes of a list, and that each item finds the last partition open.
-/

namespace Telemetry.Partition

variable {α : Type}

/-! ## Slices -/

/-- How many partitions of a size hold a number of items. -/
def count (size items : Nat) : Nat := (items + size - 1) / size

/-- The items of one partition. -/
def slice (size : Nat) (items : List α) (j : Nat) : List α := (items.drop (j * size)).take size

/-- The items of all partitions. -/
def slices (size : Nat) (items : List α) : List (List α) :=
  (List.range (count size items.length)).map (slice size items)

@[simp] theorem length_slices (size : Nat) (items : List α) :
    (slices size items).length = count size items.length := by
  simp [slices]

@[simp] theorem slices_nil {size : Nat} (h : 0 < size) : slices size ([] : List α) = [] := by
  have h0 : count size 0 = 0 := Nat.div_eq_of_lt (by omega)
  simp [slices, h0]

theorem length_slice (size : Nat) (items : List α) (j : Nat) :
    (slice size items j).length = min size (items.length - j * size) := by
  rw [slice, List.length_take, List.length_drop]

/-- The slices up to one of them are the items up to its start. -/
theorem flatten_map_slice (size : Nat) (items : List α) (k : Nat) :
    ((List.range k).map (slice size items)).flatten = items.take (k * size) := by
  induction k with
  | zero => simp
  | succ k ih =>
    rw [List.range_succ, List.map_append, List.flatten_append, ih, Nat.add_mul, Nat.one_mul,
      List.take_add]
    simp [slice]

section Size

variable {size : Nat} (h : 0 < size)

include h

theorem count_succ (n : Nat) : count size (n + 1) = n / size + 1 := by
  rw [count, show n + 1 + size - 1 = n + size by omega, Nat.add_div_right _ h]

/-- The last partition is either full, or the one in which the next item is filed. -/
theorem count_eq (n : Nat) :
    count size n = if n % size = 0 then n / size else n / size + 1 := by
  cases n with
  | zero => simpa [count] using Nat.div_eq_of_lt (show size - 1 < size by omega)
  | succ m =>
    rw [count_succ h, Nat.succ_div]
    simp only [Nat.dvd_iff_mod_eq_zero]
    split <;> rfl

theorem le_count_mul (n : Nat) : n ≤ count size n * size := by
  cases n with
  | zero => exact Nat.zero_le _
  | succ m =>
    rw [count_succ h, Nat.mul_comm]
    exact Nat.lt_mul_div_succ m h

theorem mul_lt_of_lt_count {n j : Nat} (hj : j < count size n) : j * size < n := by
  cases n with
  | zero =>
    rw [count, Nat.div_eq_of_lt (by omega)] at hj
    exact absurd hj (Nat.not_lt_zero j)
  | succ m =>
    rw [count_succ h, Nat.lt_succ_iff] at hj
    exact Nat.lt_succ_of_le ((Nat.le_div_iff_mul_le h).mp hj)

/-- The partitions hold the items in their order, and nothing else. -/
theorem flatten_slices (items : List α) : (slices size items).flatten = items := by
  rw [slices, flatten_map_slice, List.take_of_length_le (le_count_mul h _)]

theorem length_mem_slices {items part : List α} (hpart : part ∈ slices size items) :
    1 ≤ part.length ∧ part.length ≤ size := by
  obtain ⟨j, hj, rfl⟩ := List.mem_map.mp hpart
  have hstart := mul_lt_of_lt_count h (List.mem_range.mp hj)
  rw [length_slice]
  omega

theorem length_mem_dropLast_slices {items part : List α}
    (hpart : part ∈ (slices size items).dropLast) : part.length = size := by
  rw [slices, ← List.map_dropLast, List.dropLast_eq_take, List.length_range, List.take_range]
    at hpart
  obtain ⟨j, hj, rfl⟩ := List.mem_map.mp hpart
  rw [List.mem_range] at hj
  have hnext := mul_lt_of_lt_count h (show j + 1 < count size items.length by omega)
  rw [Nat.succ_mul] at hnext
  rw [length_slice]
  omega

theorem count_eq_ceil (n : Nat) : count size n = ⌈(n : ℚ) / size⌉₊ := by
  have hsize : (0 : ℚ) < size := Nat.cast_pos.mpr h
  refine le_antisymm (Nat.le_of_not_lt fun hlt => ?_) (Nat.ceil_le.mpr ?_)
  · have hstart := mul_lt_of_lt_count h hlt
    have hle := (div_le_iff₀ hsize).mp (Nat.le_ceil ((n : ℚ) / size))
    exact absurd hstart (Nat.not_lt.mpr (by exact_mod_cast hle))
  · rw [div_le_iff₀ hsize]
    exact_mod_cast le_count_mul h n

/-! ## Filing -/

/-- An item that is added is in the slice of its own number, and changes no other. -/
theorem slice_concat (items : List α) (item : α) {j : Nat} (hj : j ≤ items.length / size) :
    slice size (items ++ [item]) j =
      if j = items.length / size then slice size items j ++ [item] else slice size items j := by
  have hle : j * size ≤ items.length := (Nat.le_div_iff_mul_le h).mp hj
  have hlt : items.length < items.length / size * size + size := by
    rw [← Nat.succ_mul, Nat.mul_comm]
    exact Nat.lt_mul_div_succ _ h
  rw [slice, slice, List.drop_append_of_le_length hle]
  split
  · next heq =>
    rw [← heq] at hlt
    rw [List.take_of_length_le (by simp; omega), List.take_of_length_le (by simp; omega)]
  · next hne =>
    have hnext : (j + 1) * size ≤ items.length :=
      (Nat.le_div_iff_mul_le h).mp (show j + 1 ≤ items.length / size by omega)
    rw [Nat.succ_mul] at hnext
    rw [List.take_append_of_le_length (by simp; omega)]

/-- The partitions that are open when the next item is filed: the slices so far, and an empty
one if the last of them is full. -/
theorem opened_eq (items : List α) :
    (if items.length % size = 0 then slices size items ++ [[]] else slices size items) =
      (List.range (items.length / size + 1)).map (slice size items) := by
  have hcount := count_eq h items.length
  split
  · next h0 =>
    have hfull : items.length / size * size = items.length :=
      Nat.div_mul_cancel (Nat.dvd_of_mod_eq_zero h0)
    rw [if_pos h0] at hcount
    rw [slices, hcount, List.range_succ, List.map_append, List.map_singleton, slice, hfull,
      List.drop_length, List.take_nil]
  · next h0 =>
    rw [if_neg h0] at hcount
    rw [slices, hcount]

/-- **One item.** Filing it under its index is slicing the items with it. -/
theorem file_slices (items : List α) (item : α) :
    file size (slices size items) items.length item = some (slices size (items ++ [item])) := by
  simp only [file, opened_eq h, List.length_map, List.length_range, Nat.lt_succ_self, if_true,
    Option.some.injEq]
  rw [slices, List.length_append, List.length_singleton, count_succ h]
  refine List.ext_getElem? fun j => ?_
  rw [List.getElem?_modify, List.getElem?_map, List.getElem?_map]
  by_cases hj : j < items.length / size + 1
  · rw [List.getElem?_range hj]
    simp only [Option.map_some, slice_concat h items item (Nat.le_of_lt_succ hj), eq_comm (a := j)]
    split <;> rfl
  · rw [List.getElem?_eq_none (by simpa using hj)]
    rfl

/-- **All items.** No item is ever refused, and the partitions are the slices. -/
theorem fileAll_slices (filed items : List α) :
    fileAll size (slices size filed) filed.length items = some (slices size (filed ++ items)) := by
  induction items generalizing filed with
  | nil => rw [fileAll, List.append_nil]
  | cons item rest ih =>
    have hnext := ih (filed ++ [item])
    rw [List.length_append, List.length_singleton, List.append_assoc, List.singleton_append]
      at hnext
    rw [fileAll, file_slices h]
    exact hnext

end Size

theorem ofList_eq {size : Int} (h : 0 < size) (items : List α) :
    ofList size items = .ok (slices size.toNat items) := by
  have hpos : 0 < size.toNat := by omega
  have hall := fileAll_slices hpos [] items
  rw [slices_nil hpos, List.length_nil, List.nil_append] at hall
  rw [ofList, if_neg (by omega), hall]

theorem ofListBy_eq {size : Value} {n : Int} (hsize : size.number? = some (.int n)) (h : 0 < n)
    (items : List α) : ofListBy size items = .ok (slices n.toNat items) := by
  have hmost : size.atMost 0 = .ok false := by
    rw [Value.atMost, hsize]
    exact congrArg Except.ok (decide_eq_false (by omega))
  simp only [ofListBy, hmost, hsize]
  exact ofList_eq h items

/-- Whatever the size, partitions hold the items in their order. -/
theorem flatten_of_ofListBy {size : Value} {items : List α} {parts : List (List α)}
    (h : ofListBy size items = .ok parts) : parts.flatten = items := by
  obtain ⟨small, -, h⟩ := Fault.exists_of_bind_eq_ok h
  cases small with
  | true => cases h
  | false =>
    rw [if_neg Bool.false_ne_true] at h
    split at h
    · next n _ _ =>
      by_cases hn : 0 < n
      · rw [ofList_eq hn, Except.ok.injEq] at h
        rw [← h]
        exact flatten_slices (by omega) _
      · rw [ofList, if_pos (by omega)] at h
        cases h
    · cases h
      rfl
    · cases h

/-! ## The partitions of a list -/

/-- The partitions that are open when the item of an index is filed. -/
def opened (size : Nat) (parts : List (List α)) (index : Nat) : List (List α) :=
  if index % size = 0 then parts ++ [[]] else parts

/-- The partitions of a size: the slices between its multiples. -/
structure Sliced (size : Nat) (items : List α) (parts : List (List α)) : Prop where
  slices_eq : parts = (List.range ⌈(items.length : ℚ) / size⌉₊).map fun j =>
    items.extract (j * size) ((j + 1) * size)
  full : ∀ part ∈ parts.dropLast, part.length = size
  filled : ∀ part ∈ parts, 1 ≤ part.length ∧ part.length ≤ size
  flatten_eq : parts.flatten = items
  nil_iff : parts = [] ↔ items = []

section Sliced

variable {size : Nat} (h : 0 < size) (items : List α)

theorem slice_eq_extract (size : Nat) (items : List α) (j : Nat) :
    slice size items j = items.extract (j * size) ((j + 1) * size) := by
  rw [List.extract_eq_take_drop, Nat.succ_mul, Nat.add_sub_cancel_left, slice]

include h

theorem sliced_slices : Sliced size items (slices size items) where
  slices_eq := by
    rw [slices, count_eq_ceil h]
    exact List.map_congr_left fun j _ => slice_eq_extract size items j
  full _ hpart := length_mem_dropLast_slices h hpart
  filled _ hpart := length_mem_slices h hpart
  flatten_eq := flatten_slices h items
  nil_iff := by
    constructor
    · intro hnil
      rw [← flatten_slices h items, hnil, List.flatten_nil]
    · rintro rfl
      exact slices_nil h

/-- The item of an index is filed in the last partition that is open then. -/
theorem exists_filed {k : Nat} (hk : k < items.length) :
    ∃ parts, fileAll size [] 0 (items.take k) = some parts ∧
      k / size + 1 = (opened size parts k).length := by
  have hfiled := fileAll_slices h [] (items.take k)
  rw [slices_nil h, List.length_nil, List.nil_append] at hfiled
  have hlength : (items.take k).length = k := List.length_take_of_le (Nat.le_of_lt hk)
  have hopened := congrArg List.length (opened_eq h (items.take k))
  rw [hlength, List.length_map, List.length_range] at hopened
  exact ⟨_, hfiled, hopened.symm⟩

end Sliced

/-- **Partitions.** A size that is not positive is refused. With any other, each item finds the
partition of its index open, as the last of those so far, and the partitions are the slices of the
list between the multiples of the size. -/
theorem ofList_sliced (size : Int) (items : List α) :
    (size ≤ 0 → ofList size items = .error .partitionSizeNotPositive) ∧
    (1 ≤ size →
      (∀ k < items.length, ∃ parts, fileAll size.toNat [] 0 (items.take k) = some parts ∧
        k / size.toNat + 1 = (opened size.toNat parts k).length) ∧
      ∃ parts, ofList size items = .ok parts ∧ Sliced size.toNat items parts) := by
  refine ⟨fun hsize => by rw [ofList, if_pos hsize], fun hsize => ?_⟩
  have hpos : 0 < size.toNat := by omega
  exact ⟨fun k hk => exists_filed hpos items hk, _, ofList_eq hsize items,
    sliced_slices hpos items⟩

/-- Five items by two, and by none. -/
theorem ofList_sliced_pairs :
    (∃ parts, ofList 2 [1, 2, 3, 4, 5] = .ok parts ∧ Sliced 2 [1, 2, 3, 4, 5] parts ∧
      parts = [[1, 2], [3, 4], [5]]) ∧
    ofList 0 [1, 2, 3, 4, 5] = .error .partitionSizeNotPositive := by
  obtain ⟨parts, hparts, hsliced⟩ := ((ofList_sliced 2 [1, 2, 3, 4, 5]).2 (by decide)).2
  have hpairs : ofList 2 [1, 2, 3, 4, 5] = .ok [[1, 2], [3, 4], [5]] := by rfl
  exact ⟨⟨parts, hparts, hsliced, Except.ok.inj (hparts.symm.trans hpairs)⟩,
    (ofList_sliced 0 [1, 2, 3, 4, 5]).1 (by decide)⟩

end Telemetry.Partition
