import Telemetry.Binary64.Basic

/-!
Feeds: the outcomes of the callback of a function meter, one per call. The last outcome
repeats for ever, so a feed is total.
-/

namespace Telemetry

/-- The outcomes still to come: the next one, and those after it. -/
structure Feed (α : Type) where
  next : α
  later : List α
  deriving DecidableEq

namespace Feed

variable {α : Type}

/-- The feed of a list of outcomes; without any, the given one for ever. -/
def ofList (fallback : α) : List α → Feed α
  | [] => ⟨fallback, []⟩
  | a :: rest => ⟨a, rest⟩

def read (feed : Feed α) : α × Feed α :=
  match feed.later with
  | [] => (feed.next, feed)
  | a :: rest => (feed.next, ⟨a, rest⟩)

/-- The next number of a feed in which a call may fail: NaN for a failed call. -/
def readNumber (feed : Feed (Option Binary64)) : Binary64 × Feed (Option Binary64) :=
  let outcome := feed.read
  (outcome.1.getD .nan, outcome.2)

end Feed
end Telemetry
