import Observatory.Census.Run
import Observatory.Lib.Sampling

/-!
# The report on a census

What `examples/pilot_report.rs` makes of the two files of a census: the ledgers that were
read, each transaction of them once, and the figures it prints of these.  An absent result
is a panic.  The figures that are computed with floating-point numbers are left out: the
shares, the means, the percentiles and the estimate of the clusters not seen.

* `load` — the files.
* `funnel`, `eligible` — the eligibility checks.
* `codes`, `submitters`, `accumulated`, `incidence` — the clusters.
* `projectedYield`, `twoRounds` — the projections.
* `exclusions` — the exclusion list.
-/

namespace Observatory

open Grouping (tally group modify ascending firsts)

/-! ## The files -/

/-- What the log says of each ledger. -/
structure LedgerTable where
  /-- The ledgers that were read, with their numbers of transactions. -/
  ledgers : List (UInt64 × UInt64)
  unreadable : List UInt64

/-- One line of the log. -/
def LedgerTable.line (t : LedgerTable) (line : Json) : Option LedgerTable :=
  line.ledger.map (fun seq =>
    if line.getStr "status" = some "read" then
      let transactions := ((line.get "transactions").bind Json.asU64).getD 0
      ⟨modify (fun _ => transactions) 0 seq t.ledgers, t.unreadable.filter (· ≠ seq)⟩
    else if seq ∈ t.ledgers.map Prod.fst then t
    else { t with unreadable := Scan.pushNew t.unreadable seq })

/-- What the report is about. -/
structure Loaded where
  /-- The ledgers that were read, with their numbers of transactions. -/
  ledgers : List (UInt64 × UInt64)
  unreadable : List UInt64
  records : List PilotRecord

/-- A ledger is in the range the report is restricted to. -/
def within (only : Option (UInt64 × UInt64)) (seq : UInt64) : Bool :=
  match only with
  | none => true
  | some (lo, hi) => lo ≤ seq ∧ seq ≤ hi

/-- Read both files.  Only ledgers read completely count, and each transaction once. -/
def load (disk : Disk) (only : Option (UInt64 × UInt64)) : Option Loaded := do
  let recs ← disk.records.all
  let lines ← disk.log.all
  let table ← lines.foldlM LedgerTable.line ⟨[], []⟩
  let ledgers := table.ledgers.filter (fun e => within only e.1)
  some
    { ledgers
      unreadable := table.unreadable.filter (within only)
      records := firsts PilotRecord.transactionHash []
        (recs.filter (fun r => r.ledger.toUInt64 ∈ ledgers.map Prod.fst)) }

/-- The ledgers that were read, in order. -/
def Loaded.read (loaded : Loaded) : List UInt64 :=
  ascending UInt64.toNat (loaded.ledgers.map Prod.fst)

/-! ## The funnel -/

/-- The eligible records. -/
def eligible (recs : List PilotRecord) : List PilotRecord :=
  recs.filter (fun r => (exclusion r).isNone)

/-- The records whose instance was unavailable. -/
def unavailable (recs : List PilotRecord) : List PilotRecord :=
  recs.filter (fun r => r.codeUnresolvedReason = some .instanceUnavailable ∧
    r.operationCount = 1 ∧ 0 < r.diagnosticEventCount)

/-- The code clusters of eligible records; the program panics where there is none. -/
def codeClusters (recs : List PilotRecord) : Option (List String) :=
  recs.mapM PilotRecord.codeCluster

/-- The code clusters with the numbers of their records. -/
def codes (recs : List PilotRecord) : Option (List (String × ℕ)) := (codeClusters recs).map tally

/-- The submitter clusters with the numbers of their records. -/
def submitters (recs : List PilotRecord) : List (String × ℕ) :=
  tally (recs.map PilotRecord.submitterCluster)

/-- The ten largest clusters, and how many records they hold. -/
def top (counts : List (String × ℕ)) : List (String × ℕ) × ℕ :=
  let sorted := counts.insertionSort (fun a b => b.2 < a.2 ∨ (a.2 = b.2 ∧ a.1 ≤ b.1))
  (sorted.take 10, ((sorted.take 10).map Prod.snd).sum)

/-- The records of each ledger. -/
def byLedger (recs : List PilotRecord) : List (UInt64 × List PilotRecord) :=
  group (fun r => r.ledger.toUInt64) (fun records r => records ++ [r]) [] recs

/-- The records of one ledger. -/
def ofLedger (recs : List PilotRecord) (ledger : UInt64) : List PilotRecord :=
  ((byLedger recs).lookup ledger).getD []

/-- The records of some ledgers, one ledger after the other. -/
def ofLedgers (recs : List PilotRecord) (ledgers : List UInt64) : List PilotRecord :=
  ledgers.flatMap (ofLedger recs)

/-- The candidates of a trial: the records of `k` ledgers that are drawn. -/
def candidates (recs : List PilotRecord) (read : List UInt64) (k : ℕ) (trial : UInt64) :
    List PilotRecord :=
  let draw := fun state => ((splitMix64 state).1.toNat, (splitMix64 state).2)
  ofLedgers recs
    (Sampling.sample draw k ((0x5eed : UInt64) ^^^ (UInt64.ofNat k <<< 20) ^^^ trial) read)

/-- How many of the candidates of a trial are accepted. -/
def projectedYield (recs : List PilotRecord) (read : List UInt64) (k : ℕ) (trial : UInt64) :
    Option ℕ :=
  (Caps.empty.select (candidates recs read k trial) trial).map Prod.snd

/-- The records before a ledger, and those from it on. -/
def splitAt (recs : List PilotRecord) (split : UInt64) : List PilotRecord × List PilotRecord :=
  (recs.filter (fun r => r.ledger.toUInt64 < split),
    recs.filter (fun r => split ≤ r.ledger.toUInt64))

/-- How many are accepted in two rounds with cumulative caps. -/
def twoRounds (recs : List PilotRecord) (split trial : UInt64) : Option (ℕ × ℕ) := do
  let (caps, first) ← Caps.empty.select (splitAt recs split).1 trial
  let (_, second) ← caps.select (splitAt recs split).2 trial
  some (first, second)

/-- `u8::is_ascii_hexdigit`. -/
def isAsciiHexDigit (b : UInt8) : Bool :=
  (0x30 ≤ b && b ≤ 0x39) || (0x61 ≤ b && b ≤ 0x66) || (0x41 ≤ b && b ≤ 0x46)

/-- A hash of a line, in lower case; the program panics at what is not one. -/
def exclusionHash (line : Json) (field : String) : Option (List String) :=
  match line.getStr field with
  | none => some []
  | some h =>
      if (Utf8.bytes h).length = 64 ∧ (Utf8.bytes h).all isAsciiHexDigit then some [h.toLower]
      else none

/-- The hashes of a line, outer and inner. -/
def exclusionHashes (line : Json) : Option (List String) := do
  let outer ← exclusionHash line "transaction_hash"
  let inner ← exclusionHash line "inner_transaction_hash"
  some (outer ++ inner)

/-- Every transaction hash, outer and inner, in the lines of some files, sorted. -/
def exclusions (lines : List Json) : Option (List String) :=
  (lines.mapM exclusionHashes).map (fun hashes => ascending id hashes.flatten)

end Observatory
