/-!
Finite maps that remember the order in which their keys were first added. Setting a key
that is present keeps its place; erasing it and setting it again moves it to the end.

- `get?_insert`, `get?_erase`: the map as a function of its keys.
- `Pairs.keys_set`: the order of the keys after a set.
- `get?_eq_some_iff`: the map as a list of pairs.
-/

namespace Telemetry

namespace Pairs

variable {κ υ : Type} [DecidableEq κ]

def get? (k : κ) : List (κ × υ) → Option υ
  | [] => none
  | p :: rest => if p.1 = k then some p.2 else get? k rest

/-- The first pair with the key gets the value; without one, a pair is added at the end. -/
def set (k : κ) (v : υ) : List (κ × υ) → List (κ × υ)
  | [] => [(k, v)]
  | p :: rest => if p.1 = k then (k, v) :: rest else p :: set k v rest

def erase (k : κ) : List (κ × υ) → List (κ × υ)
  | [] => []
  | p :: rest => if p.1 = k then rest else p :: erase k rest

theorem get?_set (k j : κ) (v : υ) (ps : List (κ × υ)) :
    get? j (set k v ps) = if j = k then some v else get? j ps := by
  induction ps with
  | nil => by_cases h : k = j <;> simp [set, get?, h, eq_comm]
  | cons p rest ih =>
    by_cases hp : p.1 = k
    · by_cases hj : j = k
      · simp [set, get?, hp, hj]
      · have : k ≠ j := fun h => hj h.symm
        simp [set, get?, hp, hj, this]
    · by_cases hj : p.1 = j
      · have : j ≠ k := fun h => hp (hj.trans h)
        simp [set, get?, hj, this]
      · simp [set, get?, hp, hj, ih]

theorem keys_set (k : κ) (v : υ) (ps : List (κ × υ)) :
    (set k v ps).map (·.1) =
      if k ∈ ps.map (·.1) then ps.map (·.1) else ps.map (·.1) ++ [k] := by
  induction ps with
  | nil => simp [set]
  | cons p rest ih =>
    by_cases hp : p.1 = k
    · simp [set, hp]
    · have hk : k ≠ p.1 := fun h => hp h.symm
      rw [set, if_neg hp, List.map_cons, ih]
      by_cases hm : k ∈ rest.map (·.1)
      · simp only [hm, if_true, List.map_cons, List.mem_cons, or_true]
      · simp only [hm, if_false, List.map_cons, List.mem_cons, hk, or_false, List.cons_append]

theorem mem_keys_iff (k : κ) (ps : List (κ × υ)) :
    k ∈ ps.map (·.1) ↔ (get? k ps).isSome := by
  induction ps with
  | nil => simp [get?]
  | cons p rest ih =>
    by_cases hp : p.1 = k
    · simp [get?, hp]
    · have hk : k ≠ p.1 := fun h => hp h.symm
      rw [get?, if_neg hp, ← ih, List.map_cons, List.mem_cons]
      simp only [hk, false_or]

theorem erase_sublist (k : κ) (ps : List (κ × υ)) : (erase k ps).Sublist ps := by
  induction ps with
  | nil => exact List.Sublist.slnil
  | cons p rest ih =>
    unfold erase
    split
    · exact List.sublist_cons_self p rest
    · exact ih.cons_cons p

theorem get?_erase {ps : List (κ × υ)} (h : (ps.map (·.1)).Nodup) (k j : κ) :
    get? j (erase k ps) = if j = k then none else get? j ps := by
  induction ps with
  | nil => simp [erase, get?]
  | cons p rest ih =>
    rw [List.map_cons, List.nodup_cons] at h
    by_cases hp : p.1 = k
    · rw [erase, if_pos hp]
      by_cases hj : j = k
      · rw [if_pos hj, hj, ← hp]
        have hn := mt (mem_keys_iff p.1 rest).2 h.1
        simpa using hn
      · have : p.1 ≠ j := fun he => hj (he ▸ hp)
        rw [if_neg hj, get?, if_neg this]
    · rw [erase, if_neg hp, get?, ih h.2]
      by_cases hj : p.1 = j
      · have : j ≠ k := fun he => hp (hj.trans he)
        simp [get?, hj, this]
      · simp [get?, hj]

theorem get?_eq_some_iff {ps : List (κ × υ)} (h : (ps.map (·.1)).Nodup) (k : κ) (v : υ) :
    get? k ps = some v ↔ (k, v) ∈ ps := by
  induction ps with
  | nil => simp [get?]
  | cons p rest ih =>
    rw [List.map_cons, List.nodup_cons] at h
    by_cases hp : p.1 = k
    · subst hp
      rw [get?, if_pos rfl, List.mem_cons]
      constructor
      · intro he
        exact Or.inl (Prod.ext rfl (Option.some.inj he).symm)
      · rintro (he | he)
        · rw [← he]
        · exact absurd (List.mem_map_of_mem (f := (·.1)) he) h.1
    · rw [get?, if_neg hp, ih h.2, List.mem_cons]
      constructor
      · exact Or.inr
      · rintro (he | he)
        · exact absurd (congrArg (·.1) he).symm hp
        · exact he

end Pairs

/-- A finite map whose keys are in the order of their first insertion. -/
structure OrderedMap (κ υ : Type) where
  entries : List (κ × υ)
  nodup : (entries.map (·.1)).Nodup

namespace OrderedMap

variable {κ υ : Type} [DecidableEq κ]

instance [DecidableEq υ] : DecidableEq (OrderedMap κ υ) := fun a b =>
  decidable_of_iff (a.entries = b.entries) (by cases a; cases b; simp)

def empty : OrderedMap κ υ := ⟨[], List.nodup_nil⟩

instance : Inhabited (OrderedMap κ υ) := ⟨empty⟩

def keys (m : OrderedMap κ υ) : List κ := m.entries.map (·.1)

def values (m : OrderedMap κ υ) : List υ := m.entries.map (·.2)

def size (m : OrderedMap κ υ) : Nat := m.entries.length

def get? (m : OrderedMap κ υ) (k : κ) : Option υ := Pairs.get? k m.entries

def contains (m : OrderedMap κ υ) (k : κ) : Bool := (m.get? k).isSome

/-- Sets a key: in its place if present, else at the end. -/
def insert (m : OrderedMap κ υ) (k : κ) (v : υ) : OrderedMap κ υ where
  entries := Pairs.set k v m.entries
  nodup := by
    rw [Pairs.keys_set]
    split
    · exact m.nodup
    · next h =>
      rw [List.nodup_append]
      refine ⟨m.nodup, List.nodup_cons.2 ⟨List.not_mem_nil, List.nodup_nil⟩, ?_⟩
      intro a ha b hb hab
      rw [List.mem_singleton] at hb
      exact h (hb ▸ hab ▸ ha)

/-- Sets a key only if it is absent. -/
def insertNew (m : OrderedMap κ υ) (k : κ) (v : υ) : OrderedMap κ υ :=
  if m.contains k then m else m.insert k v

def erase (m : OrderedMap κ υ) (k : κ) : OrderedMap κ υ where
  entries := Pairs.erase k m.entries
  nodup := ((Pairs.erase_sublist k m.entries).map (·.1)).nodup m.nodup

/-- All pairs of a list set in turn: the last value of a key, at its first place. -/
def insertAll (m : OrderedMap κ υ) (ps : List (κ × υ)) : OrderedMap κ υ :=
  ps.foldl (fun m p => m.insert p.1 p.2) m

def ofList (ps : List (κ × υ)) : OrderedMap κ υ := empty.insertAll ps

theorem get?_insert (m : OrderedMap κ υ) (k j : κ) (v : υ) :
    (m.insert k v).get? j = if j = k then some v else m.get? j :=
  Pairs.get?_set k j v m.entries

theorem get?_erase (m : OrderedMap κ υ) (k j : κ) :
    (m.erase k).get? j = if j = k then none else m.get? j :=
  Pairs.get?_erase m.nodup k j

theorem get?_eq_some_iff (m : OrderedMap κ υ) (k : κ) (v : υ) :
    m.get? k = some v ↔ (k, v) ∈ m.entries :=
  Pairs.get?_eq_some_iff m.nodup k v

theorem mem_keys_iff (m : OrderedMap κ υ) (k : κ) : k ∈ m.keys ↔ (m.get? k).isSome :=
  Pairs.mem_keys_iff k m.entries

end OrderedMap
end Telemetry
