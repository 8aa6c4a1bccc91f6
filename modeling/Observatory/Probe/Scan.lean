import Observatory.Census.Survey
import Observatory.Probe.Report

/-!
# The scan for samples

How the probe finds failed Soroban transactions (`scan.rs`): page after page from a ledger
on, each page from behind the last ledger that was seen.  What is told of each page is
returned with what was found.

* `scanPage` — the transactions of one page.
* `scanForFailedSoroban` — the pages.
-/

namespace Observatory

namespace Probe

/-- A failed Soroban transaction found by scanning. -/
structure FoundTransaction where
  hash : String
  /-- The ledger it was included in. -/
  ledger : UInt64
  /-- Which Soroban operation it carried. -/
  operation : String

/-- What is told of a page. -/
structure ScannedPage where
  page : Nat
  /-- The last ledger seen on it. -/
  lastLedger : UInt64
  /-- How many transactions were found on it. -/
  hits : Nat

/-- What is known behind some transactions of a page. -/
structure PageScan where
  found : List FoundTransaction
  lastLedger : UInt64
  hits : Nat

/-- The transaction as it is found, if it is a failed Soroban transaction. -/
def foundAt (decoder : XdrDecoder) (ledger : UInt64) (tx : Json) : Option FoundTransaction :=
  if tx.getStr "status" ≠ some "FAILED" then none
  else do
    let envelope64 ← tx.getStr "envelopeXdr"
    let envelope ← (decoder.envelope envelope64 (limitsForBase64 envelope64)).toOption
    let operation ← sorobanOperationOf envelope
    let hash ← tx.getStr "txHash"
    some ⟨hash, ledger, operation⟩

/-- The transactions of a page, until enough are found. -/
def scanPage (decoder : XdrDecoder) (want : Nat) : List Json → PageScan → PageScan
  | [], s => s
  | tx :: txs, s =>
      let ledger := tx.ledger.getD s.lastLedger
      match foundAt decoder ledger tx with
      | none => scanPage decoder want txs ⟨s.found, ledger, s.hits⟩
      | some f =>
          let s := ⟨s.found ++ [f], ledger, s.hits + 1⟩
          if want ≤ s.found.length then s else scanPage decoder want txs s

/-- `u32::saturating_add` of one. -/
def saturatingSucc (n : UInt32) : UInt32 := if n.toNat + 1 < UInt32.size then n + 1 else n

end Probe

end Observatory
