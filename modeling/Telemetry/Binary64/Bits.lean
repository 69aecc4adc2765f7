import Telemetry.Binary64.Basic

/-!
The 64-bit interchange form: one sign bit, eleven exponent bits and fifty-two
fraction bits. A magnitude of `n` units has exponent `e = log2 n - 52` (zero below
2^53 units) and its exponent and fraction fields together are `e * 2^52 + n / 2^e`.
-/

namespace Telemetry.Binary64

/-- The pattern of a number; NaN has the quiet pattern. -/
def toBits : Binary64 → Nat
  | .nan => 0x7ff8000000000000
  | .infinite negative => (if negative then twoTo 63 else 0) + 0x7ff0000000000000
  | .finite negative magnitude =>
    let exponent := magnitude.val.log2 - 52
    (if negative then twoTo 63 else 0) + (exponent * twoTo 52 + magnitude.val / twoTo exponent)

end Telemetry.Binary64
