import Mathlib.Data.Finset.Insert
import Mathlib.Data.List.Sort
import Mathlib.Data.Prod.Lex
import Mathlib.Data.String.Basic
import Observatory.Lib.Radix
import Observatory.Rpc.Cluster

/-!
# The pilot's report

What the report makes of the recorded transactions (`examples/pilot_report.rs`):
which of them are eligible, and how many the protocol's selection accepts, one
for a code cluster and three for a submitter.
-/

namespace Observatory

/-- Why a record is not eligible. -/
def exclusion (r : PilotRecord) : Option String :=
  if r.operationCount ≠ 1 then some "unexpected_operation_count"
  else if r.diagnosticEventCount = 0 then some "no_diagnostic_events"
  else if r.rootContractId.isNone then some "no_root_contract_invocation"
  else r.codeUnresolvedReason.map UnresolvedCode.reason

/-! ## The order of the candidates -/

/-- One number of SplitMix64, and the state after it. -/
def splitMix64 (state : UInt64) : UInt64 × UInt64 :=
  let next := state + 0x9e3779b97f4a7c15
  let z := (next ^^^ (next >>> 30)) * 0xbf58476d1ce4e5b9
  let z := (z ^^^ (z >>> 27)) * 0x94d049bb133111eb
  (z ^^^ (z >>> 31), next)

/-- The number a hash is ordered by in a trial.  There is none for a text that cannot be cut
after sixteen bytes, where the program panics. -/
def orderKey (hash : String) (trial : UInt64) : Option UInt64 :=
  let bytes := Utf8.bytes hash
  if Utf8.isCharBoundary bytes 16 then
    let first : UInt64 := match Radix.fromStrRadix 16 UInt64.size (bytes.take 16) with
      | .ok n => UInt64.ofNat n
      | .error _ => 0
    some (splitMix64 (first ^^^ trial * 0xa0761d6478bd642f)).1
  else none

/-- A candidate with its number and its hash. -/
def keyed (trial : UInt64) (r : PilotRecord) : Option ((ℕ ×ₗ String) × PilotRecord) :=
  (orderKey r.transactionHash trial).map (fun k => (toLex (k.toNat, r.transactionHash), r))

/-- The candidates in the order of a trial.  A single one is not compared. -/
def ordered (candidates : List PilotRecord) (trial : UInt64) : Option (List PilotRecord) :=
  if candidates.length < 2 then some candidates
  else (candidates.mapM (keyed trial)).map (fun pairs =>
    (pairs.insertionSort (fun p q => p.1 ≤ q.1)).map Prod.snd)

/-! ## Selection -/

/-- Caps carried across rounds. -/
structure Caps where
  /-- The code clusters of the accepted records. -/
  codes : Finset String
  /-- How many records of a submitter are accepted. -/
  submitters : String → ℕ

namespace Caps

/-- Nothing is accepted yet. -/
def empty : Caps := ⟨∅, fun _ => 0⟩

/-- How many records of one submitter are accepted. -/
def submitterLimit : ℕ := 3

/-- A record of this code and this submitter is accepted. -/
def accept (caps : Caps) (code submitter : String) : Caps :=
  ⟨insert code caps.codes,
    Function.update caps.submitters submitter (caps.submitters submitter + 1)⟩

/-- The body of the loop: the caps behind a candidate, and whether it is accepted.  The program
panics at a candidate without a code cluster. -/
def consider (caps : Caps) (r : PilotRecord) : Option (Caps × Bool) :=
  match r.codeCluster with
  | none => none
  | some code =>
      if code ∈ caps.codes then some (caps, false)
      else if submitterLimit ≤ caps.submitters r.submitterCluster then some (caps, false)
      else some (caps.accept code r.submitterCluster, true)

/-- Walk candidates: the caps behind them, and those that are accepted. -/
def walk (caps : Caps) : List PilotRecord → Option (Caps × List PilotRecord)
  | [] => some (caps, [])
  | r :: rest =>
      match caps.consider r with
      | none => none
      | some (caps', accepted) =>
          match caps'.walk rest with
          | none => none
          | some (caps'', later) => some (caps'', if accepted then r :: later else later)

/-- The candidates of a round that are accepted. -/
def selection (caps : Caps) (candidates : List PilotRecord) (trial : UInt64) :
    Option (Caps × List PilotRecord) :=
  (ordered candidates trial).bind caps.walk

/-- Walk candidates in order; return how many were accepted. -/
def select (caps : Caps) (candidates : List PilotRecord) (trial : UInt64) : Option (Caps × ℕ) :=
  (caps.selection candidates trial).map (fun p => (p.1, p.2.length))

/-- Rounds with caps that are cumulative: the accepted records of each. -/
def rounds (caps : Caps) : List (List PilotRecord × UInt64) →
    Option (Caps × List (List PilotRecord))
  | [] => some (caps, [])
  | (candidates, trial) :: later =>
      match caps.selection candidates trial with
      | none => none
      | some (caps', accepted) => (caps'.rounds later).map (fun p => (p.1, accepted :: p.2))

end Caps

end Observatory
