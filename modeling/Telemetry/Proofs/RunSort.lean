import Mathlib.Algebra.Ring.Nat
import Mathlib.Data.List.Perm.Basic
import Telemetry.RunSort

/-!
Sorting by merging runs loses nothing, whatever the comparison says.

Proved here:

* `countP_merge`: a merge under way keeps its members;
* `countP_mergeRuns`: merging two runs keeps the members of both;
* `sort_perm`: the sorted list has the members of the list.

The members of lists are compared by how many of them have a property, so that each step is
a sum over the parts that it cuts and joins.
-/

namespace Telemetry.RunSort

variable {α : Type} (lt : α → α → Id Bool) (p : α → Bool)

theorem countP_take_add_drop (n : Nat) (xs : List α) :
    (xs.take n).countP p + (xs.drop n).countP p = xs.countP p := by
  rw [← List.countP_append, List.take_append_drop]

/-! ## Runs -/

theorem descendingRun_append (x : α) (xs : List α) :
    (descendingRun lt x xs).run.1 ++ (descendingRun lt x xs).run.2 = xs := by
  induction xs generalizing x with
  | nil => rfl
  | cons y rest ih =>
    simp only [descendingRun, Id.run_bind]
    split
    · simpa using ih y
    · rfl

theorem ascendingRun_append (x : α) (xs : List α) :
    (ascendingRun lt x xs).run.1 ++ (ascendingRun lt x xs).run.2 = xs := by
  induction xs generalizing x with
  | nil => rfl
  | cons y rest ih =>
    simp only [ascendingRun, Id.run_bind]
    split
    · rfl
    · simpa using ih y

theorem countP_firstRun (xs : List α) :
    (firstRun lt xs).run.1.countP p + (firstRun lt xs).run.2.countP p = xs.countP p := by
  match xs with
  | [] => rfl
  | [x] => simp [firstRun]
  | x :: y :: rest =>
    simp only [firstRun, Id.run_bind]
    split
    · have hrest := congrArg (List.countP p) (descendingRun_append lt y rest)
      simp only [Id.run_bind, Id.run_pure, List.countP_reverse, List.countP_cons,
        List.countP_append] at hrest ⊢
      omega
    · have hrest := congrArg (List.countP p) (ascendingRun_append lt y rest)
      simp only [Id.run_bind, Id.run_pure, List.countP_cons, List.countP_append] at hrest ⊢
      omega

theorem firstRun_ne_nil (x : α) (xs : List α) : (firstRun lt (x :: xs)).run.1 ≠ [] := by
  cases xs with
  | nil => simp [firstRun]
  | cons y rest =>
    simp only [firstRun, Id.run_bind]
    split <;> simp

theorem countP_insertInto (xs : List α) (x : α) :
    (insertInto lt xs x).run.countP p = xs.countP p + [x].countP p := by
  simp only [insertInto, Id.run_bind, Id.run_pure, List.countP_append, List.countP_cons,
    List.countP_nil]
  have := countP_take_add_drop p
    (boundaryM (holdsAt (fun y => not <$> lt x y) xs.toArray) 0 xs.length).run xs
  omega

theorem countP_foldlM_insertInto (ys xs : List α) :
    (ys.foldlM (insertInto lt) xs).run.countP p = xs.countP p + ys.countP p := by
  induction ys generalizing xs with
  | nil => simp
  | cons y rest ih =>
    have hinsert := countP_insertInto lt p xs y
    simp only [List.foldlM_cons, Id.run_bind, ih, List.countP_cons, List.countP_nil] at hinsert ⊢
    omega

theorem countP_filledRun (least : Nat) (xs : List α) :
    (filledRun lt least xs).run.1.countP p + (filledRun lt least xs).run.2.countP p =
      xs.countP p := by
  have hfirst := countP_firstRun lt p xs
  have hcut := countP_take_add_drop p (least - (firstRun lt xs).run.1.length)
    (firstRun lt xs).run.2
  simp only [filledRun, Id.run_bind, Id.run_pure, countP_foldlM_insertInto]
  omega

theorem filledRun_ne_nil (least : Nat) (x : α) (xs : List α) :
    (filledRun lt least (x :: xs)).run.1 ≠ [] := by
  have hfirst := List.length_pos_iff.mpr (firstRun_ne_nil lt x xs)
  have hcount := countP_foldlM_insertInto lt (fun _ => true)
    ((firstRun lt (x :: xs)).run.2.take (least - (firstRun lt (x :: xs)).run.1.length))
    (firstRun lt (x :: xs)).run.1
  simp only [List.countP_true] at hcount
  rw [← List.length_pos_iff]
  simp only [filledRun, Id.run_bind, Id.run_pure, hcount]
  omega

/-! ## Merging -/

namespace Merge

/-- How many members of a merge have the property. -/
def countP (s : Merge α) : Nat := s.left.countP p + s.right.countP p + s.merged.countP p

theorem countP_takeLeft (n : Nat) (s : Merge α) : (s.takeLeft n).countP p = s.countP p := by
  have := countP_take_add_drop p n s.left
  simp only [countP, takeLeft, List.countP_append, List.countP_reverse]
  omega

theorem countP_takeRight (n : Nat) (s : Merge α) : (s.takeRight n).countP p = s.countP p := by
  have := countP_take_add_drop p n s.right
  simp only [countP, takeRight, List.countP_append, List.countP_reverse]
  omega

theorem countP_result (forwards : Bool) (s : Merge α) :
    (s.result forwards).countP p = s.countP p := by
  unfold result
  split
  · simp only [countP, List.countP_append, List.countP_reverse]
    omega
  · simp only [countP, List.countP_append, List.countP_reverse]
    omega

theorem countP_alternate (forwards : Bool) (fuel leftWins rightWins : Nat) (s : Merge α) :
    (alternate lt forwards fuel leftWins rightWins s).run.countP p = s.countP p := by
  induction fuel generalizing leftWins rightWins s with
  | zero => rfl
  | succ fuel ih =>
    unfold alternate
    split
    · simp only [Id.run_bind]
      split
      · split
        · exact countP_takeRight p 1 s
        · rw [ih, countP_takeRight]
      · split
        · exact countP_takeLeft p 1 s
        · rw [ih, countP_takeLeft]
    · rfl

theorem countP_gallopLeft (forwards : Bool) (s : Merge α) :
    (gallopLeft lt forwards s).run.2.countP p = s.countP p := by
  unfold gallopLeft
  split
  · rfl
  · simp only [Id.run_bind, Id.run_pure]
    split
    · rw [countP_takeLeft]
    · rw [countP_takeRight, countP_takeLeft]

theorem countP_gallopRight (forwards : Bool) (s : Merge α) :
    (gallopRight lt forwards s).run.2.countP p = s.countP p := by
  unfold gallopRight
  split
  · rfl
  · simp only [Id.run_bind, Id.run_pure]
    split
    · rw [countP_takeRight]
    · rw [countP_takeLeft, countP_takeRight]

theorem countP_gallop (forwards : Bool) (fuel patience : Nat) (s : Merge α) :
    (gallop lt forwards fuel patience s).run.countP p = s.countP p := by
  induction fuel generalizing patience s with
  | zero => rfl
  | succ fuel ih =>
    simp only [gallop, Id.run_bind]
    generalize (if patience > 1 then patience - 1 else patience) = patience
    have hleft : (gallopLeft lt forwards { s with patience }).run.2.countP p = s.countP p :=
      countP_gallopLeft lt p forwards _
    split
    · exact hleft
    · simp only [Id.run_bind]
      split
      · rw [Id.run_pure, countP_gallopRight, hleft]
      · split
        · rw [ih, countP_gallopRight, hleft]
        · exact (countP_gallopRight lt p forwards _).trans hleft

/-- **Merges** keep their members. -/
theorem countP_merge (forwards : Bool) (fuel : Nat) (s : Merge α) :
    (s.run lt forwards fuel).run.countP p = s.countP p := by
  induction fuel generalizing s with
  | zero => rfl
  | succ fuel ih =>
    simp only [run]
    split
    · rfl
    · simp only [Id.run_bind]
      split
      · rw [Id.run_pure, countP_alternate]
      · rw [Id.run_bind, ih, countP_gallop, countP_alternate]

end Merge

theorem countP_mergeRuns (patience : Nat) (xs ys : List α) :
    (mergeRuns lt patience xs ys).run.1.countP p = xs.countP p + ys.countP p := by
  unfold mergeRuns
  split
  · simp
  · next y rest =>
    simp only [Id.run_bind]
    generalize (placeIn (fun x => not <$> lt y x) xs.toArray 0).run = before
    have hbefore := countP_take_add_drop p before xs
    split
    · simp
    · next last _ =>
      simp only [Id.run_bind]
      generalize (placeIn (fun y => lt y last) (y :: rest).toArray _).run = count
      have hcount := countP_take_add_drop p count (y :: rest)
      split
      · simp
      · simp only [Id.run_bind, Id.run_pure, List.countP_append, Merge.countP_result,
          Merge.countP_merge]
        split
        · rw [Merge.countP_takeRight]
          simp only [Merge.countP, List.countP_nil]
          omega
        · rw [Merge.countP_takeLeft]
          simp only [Merge.countP, List.countP_nil, List.countP_reverse]
          omega

/-! ## Runs that wait -/

/-- How many members of waiting runs have the property. -/
def countPending (stack : List (Pending α)) : Nat := (stack.map (·.members.countP p)).sum

theorem countP_join (patience : Nat) (first second : Pending α) :
    (join lt patience first second).run.1.members.countP p =
      first.members.countP p + second.members.countP p := by
  simp only [join, Id.run_bind, Id.run_pure, countP_mergeRuns]

theorem countPending_collapse (power patience : Nat) (stack : List (Pending α)) :
    countPending p (collapse lt power patience stack).run.stack = countPending p stack := by
  induction hn : stack.length using Nat.strongRecOn generalizing stack patience with
  | _ n ih =>
    match stack with
    | [] => rw [collapse]; rfl
    | [last] => rw [collapse]; rfl
    | last :: before :: rest =>
      rw [collapse]
      split
      · have hjoin := countP_join lt p patience before last
        rw [Id.run_bind, ih _ (by simp [← hn]) _ _ rfl]
        simp only [countPending, List.map_cons, List.sum_cons, hjoin]
        omega
      · rfl

theorem countPending_push (n : Nat) (w : Waiting α) (run : List α) :
    countPending p (push lt n w run).run.stack = countPending p w.stack + run.countP p := by
  unfold push
  split
  · next hstack => simp [hstack, countPending]
  · next last rest hstack =>
    simp only [Id.run_bind, Id.run_pure]
    generalize boundaryPower n (n + 1) (2 * last.start + last.members.length)
      (2 * last.start + last.members.length + last.members.length + run.length) = power
    have hcollapse := countPending_collapse lt p power w.patience w.stack
    split
    · next hcollapsed =>
      rw [← hcollapse, hcollapsed]
      simp [countPending]
    · next hcollapsed =>
      rw [← hcollapse, hcollapsed]
      simp only [countPending, List.map_cons, List.sum_cons]
      omega

theorem countPending_pushRuns (n least fuel : Nat) (w : Waiting α) (xs : List α)
    (hfuel : xs.length ≤ fuel) :
    countPending p (pushRuns lt n least fuel w xs).run.stack =
      countPending p w.stack + xs.countP p := by
  induction fuel generalizing w xs with
  | zero =>
    obtain rfl := List.length_eq_zero_iff.mp (Nat.le_zero.mp hfuel)
    rfl
  | succ fuel ih =>
    cases xs with
    | nil => rfl
    | cons x xs =>
      have hlength := countP_filledRun lt (fun _ => true) least (x :: xs)
      have hpos := List.length_pos_iff.mpr (filledRun_ne_nil lt least x xs)
      have hcut := countP_filledRun lt p least (x :: xs)
      simp only [List.countP_true] at hlength
      simp only [pushRuns, Id.run_bind]
      rw [ih _ _ (by omega), countPending_push]
      omega

theorem countP_finish (patience : Nat) (stack : List (Pending α)) :
    (finish lt patience stack).run.countP p = countPending p stack := by
  induction hn : stack.length using Nat.strongRecOn generalizing stack patience with
  | _ n ih =>
    match stack with
    | [] => rw [finish]; rfl
    | [only] => rw [finish]; simp [countPending]
    | [last, before] =>
      rw [finish, Id.run_bind, Id.run_pure, countP_join]
      simp only [countPending, List.map_cons, List.map_nil, List.sum_cons, List.sum_nil]
      omega
    | last :: middle :: first :: rest =>
      rw [finish]
      split
      · have hjoin := countP_join lt p patience first middle
        rw [Id.run_bind, ih _ (by simp [← hn]) _ _ rfl]
        simp only [countPending, List.map_cons, List.sum_cons, hjoin]
        omega
      · have hjoin := countP_join lt p patience middle last
        rw [Id.run_bind, ih _ (by simp [← hn]) _ _ rfl]
        simp only [countPending, List.map_cons, List.sum_cons, hjoin]
        omega

/-- **Sorting** gives a list of the same members. -/
theorem sort_perm (lt : α → α → Bool) (xs : List α) : (sort lt xs).Perm xs := by
  classical
  refine List.perm_iff_count.mpr fun a => ?_
  simp only [List.count, sort, sortM, Id.run_bind, countP_finish]
  rw [countPending_pushRuns _ _ _ _ _ _ _ (Nat.le_refl _)]
  exact Nat.zero_add _

end Telemetry.RunSort
