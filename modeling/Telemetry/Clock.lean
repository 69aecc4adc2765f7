import Telemetry.Binary64.Arithmetic
import Telemetry.Fault

/-!
Wall time in milliseconds of the epoch.

- `Clock.ofNanoseconds`: from a system time in nanoseconds, rounded down.
- `Clock.advance`: a clock that is moved by hand.
-/

namespace Telemetry.Clock

/-- The wall time that a clock moved by hand starts at unless told otherwise. -/
def start : Int := 1

def ofNanoseconds (ns : Int) : Int := ns / 1000000

/-- The wall time some milliseconds and seconds later; a fraction of a millisecond is cut
off. -/
def advance (now millis : Int) (seconds : Binary64) : Except Fault Int :=
  (seconds * 1000).toInteger.map fun ms => now + (millis + ms)

end Telemetry.Clock
