import Telemetry.Bisection

/-!
Sorting by merging runs, for any comparison. Runs that are there already are kept, short
ones are filled up by insertion, and neighbours are merged by the power of the boundary
between them, which keeps the tree of merges balanced. A merge takes members one by one
until one of the runs wins often in a row; then it gallops over the members that win.

The comparison need not be an order. With an order the result is the ascending list;
without one it is what these steps make of it. It may also have effects: they come in the
sequence in which members are compared, so a comparison that can fail makes the sort fail
with the first failure it meets.

- `RunSort.place`: the search of a gallop.
- `RunSort.mergeRuns`: two neighbouring runs become one.
- `RunSort.sortM`: all of it.
- `RunSort.sort`: the same with a comparison that only compares.
-/

namespace Telemetry.RunSort

variable {α : Type} {m : Type → Type} [Monad m] (lt : α → α → m Bool)

/-! ## Runs -/

/-- The longest strictly descending run that follows `x`, and the rest. -/
def descendingRun (x : α) : List α → m (List α × List α)
  | [] => pure ([], [])
  | y :: rest => do
    if ← lt y x then
      let run ← descendingRun y rest
      return (y :: run.1, run.2)
    else return ([], y :: rest)

/-- The longest run without a descent that follows `x`, and the rest. -/
def ascendingRun (x : α) : List α → m (List α × List α)
  | [] => pure ([], [])
  | y :: rest => do
    if ← lt y x then return ([], y :: rest)
    else
      let run ← ascendingRun y rest
      return (y :: run.1, run.2)

def firstRun : List α → m (List α × List α)
  | [] => pure ([], [])
  | [x] => pure ([x], [])
  | x :: y :: rest => do
    if ← lt y x then
      let run ← descendingRun lt y rest
      return ((x :: y :: run.1).reverse, run.2)
    else
      let run ← ascendingRun lt y rest
      return (x :: y :: run.1, run.2)

/-- Whether a property holds at a position of a list. -/
def holdsAt (holds : α → m Bool) (xs : Array α) (i : Nat) : m Bool :=
  match xs[i]? with
  | some x => holds x
  | none => pure false

/-- Puts `x` before the first member found greater. -/
def insertInto (xs : List α) (x : α) : m (List α) := do
  let place ← boundaryM (holdsAt (fun y => not <$> lt x y) xs.toArray) 0 xs.length
  return xs.take place ++ x :: xs.drop place

def smallLength : Nat := 64

/-- The least length of a run in a list of `n` members: the first bits of `n`, rounded up
to the next number if a one is among the others. -/
def leastRun (n : Nat) (odd : Bool) : Nat :=
  if n < smallLength then n + (if odd then 1 else 0)
  else leastRun (n / 2) (odd || n % 2 = 1)
termination_by n
decreasing_by
  simp only [smallLength] at *
  omega

/-- The first run of a list, filled up to the length `least` by insertion, and the rest. -/
def filledRun (least : Nat) (xs : List α) : m (List α × List α) := do
  let run ← firstRun lt xs
  let missing := least - run.1.length
  return (← (run.2.take missing).foldlM (insertInto lt) run.1, run.2.drop missing)

/-! ## Galloping -/

/-- Steps of growing length while a property holds: the last step at which it did, and the
first at which it did not or the limit. -/
def stride (holds : Nat → m Bool) (limit : Nat) : Nat → Nat → Nat → m (Nat × Nat)
  | 0, last, step => pure (last, min step limit)
  | fuel + 1, last, step => do
    if step < limit then
      if ← holds step then stride holds limit fuel step (2 * step + 1)
      else return (last, step)
    else return (last, limit)

/-- The end of a property that holds at the first positions of `n`, sought from a position
in growing steps and then between the last two. -/
def place (holds : Nat → m Bool) (n start : Nat) : m Nat := do
  if ← holds start then
    let step ← stride (fun i => holds (start + i)) (n - start) n 0 1
    boundaryM holds (start + step.1 + 1) (start + step.2)
  else
    let step ← stride (fun i => not <$> holds (start - i)) (start + 1) n 0 1
    boundaryM holds (start + 1 - step.2) (start - step.1)

/-- Where the members of a list with a property end. -/
def placeIn (holds : α → m Bool) (xs : Array α) (start : Nat) : m Nat :=
  place (holdsAt holds xs) xs.size start

/-! ## Merging two runs -/

/-- A merge that is under way: what is left of both runs, what is merged, last first, and
after how many wins in a row it gallops. A merge that goes backwards has its lists from
their ends. -/
structure Merge (α : Type) where
  left : List α
  right : List α
  merged : List α
  patience : Nat

namespace Merge

def takeLeft (n : Nat) (s : Merge α) : Merge α :=
  { s with left := s.left.drop n, merged := (s.left.take n).reverse ++ s.merged }

def takeRight (n : Nat) (s : Merge α) : Merge α :=
  { s with right := s.right.drop n, merged := (s.right.take n).reverse ++ s.merged }

/-- Whether the rest is in order: the run that goes first is used up, or the other one is
down to its last member. -/
def isSettled (forwards : Bool) (s : Merge α) : Bool :=
  if forwards then s.right.isEmpty || s.left.tail.isEmpty
  else s.left.isEmpty || s.right.tail.isEmpty

def result (forwards : Bool) (s : Merge α) : List α :=
  if forwards then s.merged.reverse ++ s.right ++ s.left
  else (s.merged.reverse ++ s.left ++ s.right).reverse

/-- How many members at the start of a list, in the direction of the merge, go before the
others: those with the property when forwards, those without it when backwards. -/
def winners (forwards : Bool) (holds : α → m Bool) (xs : List α) : m Nat := do
  if forwards then placeIn holds xs.toArray 0
  else return xs.length - (← placeIn holds xs.reverse.toArray (xs.length - 1))

/-- Members one by one, until one of the runs wins `patience` times in a row. -/
def alternate (forwards : Bool) : Nat → Nat → Nat → Merge α → m (Merge α)
  | 0, _, _, s => pure s
  | fuel + 1, leftWins, rightWins, s =>
    match s.left, s.right with
    | a :: _, b :: _ => do
      if (← lt b a) == forwards then
        let s := s.takeRight 1
        if s.isSettled forwards || rightWins + 1 ≥ s.patience then return s
        else alternate forwards fuel 0 (rightWins + 1) s
      else
        let s := s.takeLeft 1
        if s.isSettled forwards || leftWins + 1 ≥ s.patience then return s
        else alternate forwards fuel (leftWins + 1) 0 s
    | _, _ => pure s

/-- The least number of members for which a gallop pays. -/
def leastGallop : Nat := 7

/-- A gallop over the left run, and one member of the right one. -/
def gallopLeft (forwards : Bool) (s : Merge α) : m (Nat × Merge α) :=
  match s.right with
  | [] => pure (0, s)
  | b :: _ => do
    let n ← winners forwards (fun a => not <$> lt b a) s.left
    let moved := s.takeLeft n
    return (n, if moved.isSettled forwards then moved else moved.takeRight 1)

/-- A gallop over the right run, and one member of the left one. -/
def gallopRight (forwards : Bool) (s : Merge α) : m (Nat × Merge α) :=
  match s.left with
  | [] => pure (0, s)
  | a :: _ => do
    let n ← winners forwards (fun b => lt b a) s.right
    let moved := s.takeRight n
    return (n, if moved.isSettled forwards then moved else moved.takeLeft 1)

/-- Gallops over both runs in turn while they pay; each makes the next merge gallop
sooner, and the end of galloping later again. -/
def gallop (forwards : Bool) : Nat → Nat → Merge α → m (Merge α)
  | 0, _, s => pure s
  | fuel + 1, patience, s => do
    let patience := if patience > 1 then patience - 1 else patience
    let (leftWins, s) ← gallopLeft lt forwards { s with patience }
    if s.isSettled forwards then return s
    else
      let (rightWins, s) ← gallopRight lt forwards s
      if s.isSettled forwards then return s
      else if leftWins ≥ leastGallop || rightWins ≥ leastGallop then
        gallop forwards fuel patience s
      else return { s with patience := patience + 1 }

def run (forwards : Bool) : Nat → Merge α → m (Merge α)
  | 0, s => pure s
  | fuel + 1, s => do
    if s.isSettled forwards then return s
    else
      let size := s.left.length + s.right.length
      let s ← alternate lt forwards size 0 0 s
      if s.isSettled forwards then return s
      else run forwards fuel (← gallop lt forwards size (s.patience + 1) s)

end Merge

/-- Merges two neighbouring runs, and gives the patience for the next merge. What is in its
place already at either end stays there; the shorter of the rests is the one set aside, so
that a merge goes forwards when that is the left one. -/
def mergeRuns (patience : Nat) (xs ys : List α) : m (List α × Nat) :=
  match ys with
  | [] => pure (xs, patience)
  | y :: _ => do
    let before ← placeIn (fun x => not <$> lt y x) xs.toArray 0
    let left := xs.drop before
    match left.getLast? with
    | none => return (xs ++ ys, patience)
    | some last =>
      let count ← placeIn (fun y => lt y last) ys.toArray (ys.length - 1)
      let right := ys.take count
      if right.isEmpty then return (xs ++ ys, patience)
      else
        let forwards := left.length ≤ right.length
        let s : Merge α :=
          if forwards then (Merge.mk left right [] patience).takeRight 1
          else (Merge.mk left.reverse right.reverse [] patience).takeLeft 1
        let s ← s.run lt forwards (left.length + right.length)
        return (xs.take before ++ s.result forwards ++ ys.drop count, s.patience)

/-! ## Merging all runs -/

/-- A run that waits for its merge: its members, its first position, and the power of the
boundary to the run after it. -/
structure Pending (α : Type) where
  members : List α
  start : Nat
  power : Nat

/-- The power of the boundary between two runs of a list of `n` members: the first binary
place in which the middles of the runs, as fractions of the list, differ. The middles are
given as multiples of half a member. -/
def boundaryPower (n : Nat) : Nat → Nat → Nat → Nat
  | 0, _, _ => 0
  | fuel + 1, a, b =>
    if n ≤ a then boundaryPower n fuel (2 * (a - n)) (2 * (b - n)) + 1
    else if n ≤ b then 1
    else boundaryPower n fuel (2 * a) (2 * b) + 1

/-- The runs that wait, the last first, and the patience of merges. -/
structure Waiting (α : Type) where
  stack : List (Pending α)
  patience : Nat

/-- Merges a waiting run with the one after it. -/
def join (patience : Nat) (first second : Pending α) : m (Pending α × Nat) := do
  let merged ← mergeRuns lt patience first.members second.members
  return ({ first with members := merged.1 }, merged.2)

/-- Merges the last runs while the boundary before them has a greater power. -/
def collapse (power patience : Nat) : List (Pending α) → m (Waiting α)
  | [] => pure ⟨[], patience⟩
  | [last] => pure ⟨[last], patience⟩
  | last :: before :: rest => do
    if before.power > power then
      let joined ← join lt patience before last
      collapse power joined.2 (joined.1 :: rest)
    else return ⟨last :: before :: rest, patience⟩
termination_by stack => stack.length

/-- Adds a run to those that wait. -/
def push (n : Nat) (w : Waiting α) (run : List α) : m (Waiting α) :=
  match w.stack with
  | [] => pure { w with stack := [⟨run, 0, 0⟩] }
  | last :: _ => do
    let a := 2 * last.start + last.members.length
    let power := boundaryPower n (n + 1) a (a + last.members.length + run.length)
    let collapsed ← collapse lt power w.patience w.stack
    let new : Pending α := ⟨run, last.start + last.members.length, 0⟩
    return { collapsed with
      stack :=
        match collapsed.stack with
        | [] => [new]
        | last :: rest => new :: { last with power } :: rest }

/-- Cuts a list of `n` members into runs, none but the last shorter than `least`, and adds
each to those that wait before the next one is cut. -/
def pushRuns (n least : Nat) : Nat → Waiting α → List α → m (Waiting α)
  | 0, w, _ => pure w
  | _ + 1, w, [] => pure w
  | fuel + 1, w, x :: xs => do
    let run ← filledRun lt least (x :: xs)
    pushRuns n least fuel (← push lt n w run.1) run.2

/-- Merges all waiting runs from the end; of three, the first two if the first is shorter
than the last. -/
def finish (patience : Nat) : List (Pending α) → m (List α)
  | [] => pure []
  | [only] => pure only.members
  | [last, before] => do return (← join lt patience before last).1.members
  | last :: middle :: first :: rest => do
    if first.members.length < last.members.length then
      let joined ← join lt patience first middle
      finish joined.2 (last :: joined.1 :: rest)
    else
      let joined ← join lt patience middle last
      finish joined.2 (joined.1 :: first :: rest)
termination_by stack => stack.length

def sortM (xs : List α) : m (List α) := do
  let n := xs.length
  let waiting ← pushRuns lt n (leastRun n false) n ⟨[], Merge.leastGallop⟩ xs
  finish lt waiting.patience waiting.stack

def sort (lt : α → α → Bool) (xs : List α) : List α :=
  Id.run (sortM (fun x y => pure (lt x y)) xs)

end Telemetry.RunSort
