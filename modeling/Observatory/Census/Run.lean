import Observatory.Census.Count
import Observatory.Census.PilotReport
import Observatory.Document.Record
import Observatory.Lib.Journal
import Observatory.Rpc.Contract

/-!
# Runs of the census

The two modes of the census (`examples/survey_failures.rs`).  Ledger mode reads whole
ledgers, writes a record for each failed Soroban transaction, and keeps a log of the
ledgers by which a later run resumes; page mode samples pages.  What the network answers
in a run is a parameter, and so are the decoders of other crates.

* `stratifiedLedgers` — the ledgers that are chosen.
* `lookupInstance` — the instance of a root contract, answers kept by contract.
* `ledgerMode` — the counts of a run, and what it does to its files.
* `pageMode` — the counts of a run over pages.
-/

namespace Observatory

/-! ## The ledgers -/

/-- `SplitMix64::seeded`: FNV-1a over the seed text. -/
def seeded (text : String) : UInt64 :=
  (Utf8.bytes text).foldl (fun h byte => (h ^^^ byte.toUInt64) * 0x100000001b3) 0xcbf29ce484222325

/-- A 64-bit number, if it is one; the program panics where it is not. -/
def checked (n : Nat) : Option UInt64 :=
  if h : n < UInt64.size then some (UInt64.ofNatLT n h) else none

/-- The ledgers of `n` strata from the `i`-th on. -/
def strata (lo hi stratum : UInt64) : Nat → Nat → UInt64 → Option (List UInt64)
  | 0, _, _ => some []
  | n + 1, i, state => do
      let offset ← checked (i * stratum.toNat)
      let base ← checked (lo.toNat + offset.toNat)
      let (random, state) := splitMix64 state
      let ledger ← checked (base.toNat + (random % stratum).toNat)
      let later ← strata lo hi stratum n (i + 1) state
      some ((if ledger ≤ hi then ledger else hi) :: later)

/-- One ledger from each of `count` equal strata across `lo..=hi`. -/
def stratifiedLedgers (lo hi count : UInt64) (seed : String) : Option (List UInt64) :=
  let span := max (hi.toNat - lo.toNat) 1
  let stratum := max (span / max count.toNat 1) 1
  strata lo hi (UInt64.ofNat stratum) count.toNat 0 (seeded seed)

/-! ## The log -/

/-- What is logged of an attempt on a ledger. -/
inductive LogLine where
  | unreadable (ledger : UInt64)
  | read (ledger : UInt64) (transactions failedSoroban : Nat) (finalCursor : Option String)

/-- The line as JSON. -/
def LogLine.json : LogLine → Json
  | .unreadable ledger => .object [("ledger", .number (toString ledger.toNat)),
      ("status", .string "unreadable")]
  | .read ledger transactions failedSoroban finalCursor =>
      .object [("ledger", .number (toString ledger.toNat)), ("status", .string "read"),
        ("transactions", .number (toString transactions)),
        ("failed_soroban", .number (toString failedSoroban)),
        ("final_cursor", Codec.string.serializeOption finalCursor)]

/-- The ledger of a line, if it was read completely. -/
def Json.readLedger (line : Json) : Option UInt64 :=
  if line.getStr "status" = some "read" then line.ledger else none

/-- Ledgers a previous run of the same census already read completely. -/
def alreadyRead (log : Journal.File Json) : List UInt64 := log.values.filterMap Json.readLedger

/-! ## A run -/

/-- The decoders of other crates. -/
structure Decoders [Strkey] where
  xdr : XdrDecoder
  entry : EntryDecoder
  contract : ContractParser
  account : AccountParser

/-- The network as a run meets it. -/
structure Network where
  /-- The endpoints, as they answer while a ledger is read. -/
  rpc : UInt64 → Rpc
  /-- What was read of each ledger. -/
  wholeLedger : UInt64 → Option LedgerRead
  /-- It is what the loop over the pages returns. -/
  wholeLedger_eq : ∀ ledger, ∃ n,
    Observatory.wholeLedger (rpc ledger) ledger n = some (wholeLedger ledger)
  /-- The answer to the `n`-th `getLedgerEntries` of the run, with this key alone. -/
  getLedgerEntries : Nat → LedgerKey → Option Json

/-- The files of a census. -/
abbrev Disk : Type := Journal.Disk PilotRecord Json

/-- The files as a run opens them: without a ledger that is already read it starts clean. -/
def opened (disk : Disk) : Disk :=
  if (alreadyRead disk.log).isEmpty then ⟨.empty, disk.log⟩ else disk

/-- Which files a run was given. -/
structure Files where
  jsonl : Bool
  ledgerLog : Bool

/-- What a run holds. -/
structure RunState where
  counts : Counts
  /-- The lookups that were answered, by contract. -/
  instances : String → Option InstanceLookup
  /-- How many lookups were sent. -/
  sent : Nat

/-- A run before it starts. -/
def RunState.empty : RunState := ⟨⟨.empty, []⟩, fun _ => none, 0⟩

/-- What a run does to its files. -/
abbrev Effect : Type := Journal.Effect PilotRecord Json

section Run

variable [Strkey] (decoders : Decoders) (net : Network)

/-- Ask the network for an instance, behind `sent` lookups. -/
def askInstance (contract : String) (sent : Nat) : InstanceLookup × Nat :=
  match decoders.contract.parse contract with
  | none => (.failed, sent)
  | some id =>
      match net.getLedgerEntries sent (Rpc.instanceKey id) with
      | none => (.failed, sent + 1)
      | some entry =>
          match decodeInstance decoders.entry entry with
          | .ok executable => (.found executable, sent + 1)
          | .error (.notFound _) => (.notFound, sent + 1)
          | .error _ => (.failed, sent + 1)

/-- Look up the root contract's instance, keeping answers by contract. -/
def lookupInstance (contract : String) (s : RunState) : InstanceLookup × RunState :=
  match s.instances contract with
  | some kept => (kept, s)
  | none =>
      let (lookup, sent) := askInstance decoders net contract s.sent
      let census := s.counts.census
      match lookup with
      | .failed =>
          (lookup, { s with
            counts := ⟨{ census with instanceLookupFailures := census.instanceLookupFailures + 1 },
              s.counts.buckets⟩
            sent })
      | .notFound =>
          (lookup, { s with
            counts := ⟨{ census with instancesNotFound := census.instancesNotFound + 1 },
              s.counts.buckets⟩
            instances := Function.update s.instances contract (some lookup)
            sent })
      | .found _ =>
          (lookup, { s with
            instances := Function.update s.instances contract (some lookup)
            sent })

/-- The lookup of a failure, if it has a root contract. -/
def lookupRoot (model : TransactionModel) (s : RunState) : Option InstanceLookup × RunState :=
  match rootContractId model with
  | some root =>
      let (lookup, s) := lookupInstance decoders net root s
      (some lookup, s)
  | none =>
      let census := s.counts.census
      (none, { s with
        counts := ⟨{ census with noRootContractInvocation := census.noRootContractInvocation + 1 },
          s.counts.buckets⟩ })

/-- The transactions of a ledger: the records of those that are failed Soroban transactions. -/
def ledgerRecords (ledger : UInt64) : RunState → List Json → List PilotRecord × RunState
  | s, [] => ([], s)
  | s, tx :: txs =>
      match failedSoroban decoders.xdr tx s.counts with
      | (none, counts) => ledgerRecords ledger { s with counts } txs
      | (some (hash, model), counts) =>
          let (lookup, s) := lookupRoot decoders net model { s with counts }
          let record := PilotRecord.new decoders.account hash ledger.toUInt32 model lookup
          let (records, s) := ledgerRecords ledger s txs
          (record :: records, s)

/-- The state behind the counting of a transaction. -/
def RunState.counted (s : RunState) (tx : Json) : RunState :=
  { s with counts := (failedSoroban decoders.xdr tx s.counts).2 }

theorem ledgerRecords_of_none {tx : Json} (h : (tx.tallied decoders.xdr).model = none)
    (ledger : UInt64) (s : RunState) (txs : List Json) :
    ledgerRecords decoders net ledger s (tx :: txs)
      = ledgerRecords decoders net ledger (s.counted decoders tx) txs := by
  rw [ledgerRecords, RunState.counted, failedSoroban_eq, h]
  rfl

/-- A failure: its record, with the lookup of its root contract, comes first. -/
theorem ledgerRecords_of_some {tx : Json} {model : TransactionModel}
    (h : (tx.tallied decoders.xdr).model = some model) (ledger : UInt64) (s : RunState)
    (txs : List Json) :
    ledgerRecords decoders net ledger s (tx :: txs)
      = (PilotRecord.new decoders.account tx.txHash ledger.toUInt32 model
            (lookupRoot decoders net model (s.counted decoders tx)).1
          :: (ledgerRecords decoders net ledger
              (lookupRoot decoders net model (s.counted decoders tx)).2 txs).1,
        (ledgerRecords decoders net ledger
          (lookupRoot decoders net model (s.counted decoders tx)).2 txs).2) := by
  rw [ledgerRecords, RunState.counted, failedSoroban_eq, h]
  rfl

/-- A ledger that could not be read is counted. -/
def RunState.unreadable (s : RunState) (ledger : UInt64) : RunState :=
  let census := s.counts.census
  { s with counts :=
      ⟨{ census with ledgersUnreadable := census.ledgersUnreadable ++ [ledger] },
        s.counts.buckets⟩ }

/-- A ledger that was read is counted, with its transactions. -/
def RunState.sampled (s : RunState) (transactions : Nat) : RunState :=
  let census := s.counts.census
  { s with counts :=
      ⟨{ census with
          ledgersSampled := census.ledgersSampled + 1
          transactionsRead := census.transactionsRead + transactions }, s.counts.buckets⟩ }

/-- One ledger: what is done to the files, and the state behind it. -/
def censusLedger (files : Files) (s : RunState) (ledger : UInt64) : List Effect × RunState :=
  match net.wholeLedger ledger with
  | none =>
      (if files.ledgerLog then [.log (LogLine.unreadable ledger).json] else [],
        s.unreadable ledger)
  | some read =>
      let (records, s) :=
        ledgerRecords decoders net ledger (s.sampled read.transactions.length) read.transactions
      -- the records are flushed before the ledger is logged as read
      let written := if files.jsonl then records.map .record ++ [.flush] else []
      let line := LogLine.read ledger read.transactions.length records.length read.finalCursor
      (written ++ if files.ledgerLog then [.log line.json] else [], s)

/-- The ledgers of a run that are not done yet, one after the other. -/
def ledgerMode (files : Files) (done : List UInt64) :
    RunState → List UInt64 → List Effect × RunState
  | s, [] => (if files.jsonl then [.flush] else [], s)
  | s, ledger :: ledgers =>
      if ledger ∈ done then ledgerMode files done s ledgers
      else
        let (effects, s) := censusLedger decoders net files s ledger
        let (later, s) := ledgerMode files done s ledgers
        (effects ++ later, s)

/-- A run in ledger mode against a log. -/
def censusRun (files : Files) (lo hi count : UInt64) (seed : String) (log : Journal.File Json) :
    Option (List Effect × RunState) :=
  (stratifiedLedgers lo hi count seed).map (fun chosen =>
    ledgerMode decoders net files (alreadyRead log) .empty
      (Grouping.ascending UInt64.toNat chosen))

/-! ## Page mode -/

/-- The ledger at which the `p`-th of some pages starts. -/
def pageStart (lo hi pages p : UInt64) : Option UInt64 := do
  let span ← if lo ≤ hi then some (hi - lo) else none
  let product ← checked (span.toNat * p.toNat)
  checked (lo.toNat + product.toNat / max pages.toNat 1)

/-- The parameters of the request for a page. -/
def pageParams (start pageSize : UInt64) : Json :=
  .object [("startLedger", .number (toString start.toNat)),
    ("pagination", .object [("limit", .number (toString pageSize.toNat))])]

/-- The transactions of a page. -/
def countAll (txs : List Json) (s : Counts) : Counts :=
  txs.foldl (fun s tx => (failedSoroban decoders.xdr tx s).2) s

/-- The last `n` pages, the first of them the `p`-th, behind `t` attempts. -/
def pageMode (rpc : Rpc) (lo hi pages pageSize : UInt64) :
    Nat → UInt64 → Nat → Counts → Option Counts
  | 0, _, _, s => some s
  | n + 1, p, t, s => do
      let start ← pageStart lo hi pages p
      match rpc.call "getTransactions" (pageParams start pageSize) t with
      | (none, t) => pageMode rpc lo hi pages pageSize n (p + 1) t s
      | (some result, t) =>
          let census := s.census
          let s :=
            ⟨{ census with transactionsRead := census.transactionsRead + result.page.length },
              s.buckets⟩
          pageMode rpc lo hi pages pageSize n (p + 1) t (countAll decoders result.page s)

end Run

end Observatory
