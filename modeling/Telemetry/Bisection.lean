import Telemetry.Binary64.Compare

/-!
Binary search for the place where a property of positions ends, and the place of a number
in a sorted list.

- `boundary_spec`: when the property holds below some position and nowhere from it on, the
  search returns that position.
- `boundaryM`: the same search for a property that is tested with effects.
-/

namespace Telemetry

/-- The first position from `lo` to `hi` at which `holds` fails, by halving the range. -/
def boundary (holds : Nat → Bool) (lo hi : Nat) : Nat :=
  if lo < hi then
    let middle := (lo + hi) / 2
    if holds middle then boundary holds (middle + 1) hi else boundary holds lo middle
  else lo
termination_by hi - lo

def boundaryM {m : Type → Type} [Monad m] (holds : Nat → m Bool) (lo hi : Nat) : m Nat := do
  if lo < hi then
    let middle := (lo + hi) / 2
    if ← holds middle then boundaryM holds (middle + 1) hi else boundaryM holds lo middle
  else return lo
termination_by hi - lo

/-- The search finds the end of a property that holds exactly below some position. -/
theorem boundary_spec {holds : Nat → Bool} {lo hi stop : Nat} (hlo : lo ≤ stop)
    (hhi : stop ≤ hi) (h : ∀ i, lo ≤ i → i < hi → (holds i = true ↔ i < stop)) :
    boundary holds lo hi = stop := by
  fun_induction boundary holds lo hi with
  | case1 lo hi hlt middle hm ih =>
    have hs := (h middle (by omega) (by omega)).1 hm
    exact ih (by omega) hhi fun i h1 h2 => h i (by omega) h2
  | case2 lo hi hlt middle hm ih =>
    have hs := mt (h middle (by omega) (by omega)).2 hm
    exact ih hlo (by omega) fun i h1 h2 => h i h1 (by omega)
  | case3 lo hi hlt => omega

namespace Binary64

/-- The number of members of a sorted list that are less than `x`. -/
def placeOf (xs : List Binary64) (x : Binary64) : Nat :=
  boundary (fun i => (xs.getD i zero).lt x) 0 xs.length

end Binary64
end Telemetry
