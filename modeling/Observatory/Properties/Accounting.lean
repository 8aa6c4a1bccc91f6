import Observatory.Census.Run
import Observatory.Contract.Hex32
import Observatory.Properties.Decoding
import Observatory.Properties.LedgerReads

/-!
# The census accounts for every transaction

What the census counts over a whole run, in either mode, from what it read: no
transaction that failed is dropped silently, and the buckets hold each failed Soroban
transaction once.

* `Json.decodedModel` — what a transaction decodes to.
* `Balanced` — the counts are those of the transactions read so far.
* `Balanced.failedSoroban`, `Balanced.lookupRoot` — the steps that keep it.
* `Balanced.accounts` — what the printed counts then say of each other.
* `ledgerMode_accounts`, `pageMode_accounts` — the runs.
-/

namespace Observatory

section Accounting

variable [Strkey] (decoder : XdrDecoder)

/-- The failed Soroban transactions among some transactions. -/
def failuresOf (txs : List Json) : List Failure :=
  txs.filterMap (fun tx => (tx.tallied decoder).model.map (fun model => (tx, model)))

/-- The endpoint reports that the transaction failed. -/
def Json.reportsFailure (tx : Json) : Bool := tx.getStr "status" = some "FAILED"

/-- The model of a transaction, if it can be decoded. -/
def Json.decodedModel (tx : Json) : Option TransactionModel :=
  (decodeGetTransaction decoder tx.txHash tx).toOption.map
    (fun decoded => .fromInput decoded.input)

/-- The counts and the buckets are those of these transactions. -/
structure Balanced (txs : List Json) (s : Counts) : Prop where
  failed : s.census.failed = txs.countP Json.reportsFailure
  undecodable : s.census.undecodable
    = txs.countP (fun tx => tx.reportsFailure && (tx.decodedModel decoder).isNone)
  notSoroban : s.census.notSoroban = txs.countP (fun tx =>
    tx.reportsFailure && (tx.decodedModel decoder).any (fun model => !model.isSoroban))
  sorobanFailed : s.census.sorobanFailed = (failuresOf decoder txs).length
  unexpectedOperationCount : s.census.unexpectedOperationCount
    = (failuresOf decoder txs).countP (fun f => f.2.operations.length ≠ 1)
  noDiagnosticEvents : s.census.noDiagnosticEvents
    = (failuresOf decoder txs).countP (fun f => f.2.diagnostics.events = [])
  buckets : s.buckets = Grouping.group Failure.key Failure.addTo .empty (failuresOf decoder txs)

variable {decoder} {txs : List Json} {s : Counts}

theorem failuresOf_concat (tx : Json) : failuresOf decoder (txs ++ [tx])
    = failuresOf decoder txs
      ++ ((tx.tallied decoder).model.map (fun model => (tx, model))).toList := by
  rw [failuresOf, List.filterMap_append]
  cases h : (tx.tallied decoder).model <;> simp [h, failuresOf]

/-- What a transaction is, by its status and its model. -/
theorem tallied_eq (decoder : XdrDecoder) (tx : Json) : tx.tallied decoder
    = if tx.reportsFailure then
        match tx.decodedModel decoder with
        | none => .undecodable
        | some model => if model.isSoroban then .soroban model else .notSoroban
      else .notFailed := by
  unfold Json.tallied Json.decodedModel Json.reportsFailure
  by_cases hstatus : tx.getStr "status" = some "FAILED"
  · rw [if_neg (not_not.mpr hstatus), if_pos (decide_eq_true hstatus)]
    cases decodeGetTransaction decoder tx.txHash tx <;> rfl
  · rw [if_pos hstatus, decide_eq_false hstatus, if_neg Bool.false_ne_true]

/-- The model of a failed Soroban transaction. -/
theorem model_tallied (decoder : XdrDecoder) (tx : Json) : (tx.tallied decoder).model
    = if tx.reportsFailure then (tx.decodedModel decoder).filter TransactionModel.isSoroban
      else none := by
  rw [tallied_eq]
  cases tx.reportsFailure with
  | false => rfl
  | true =>
      cases tx.decodedModel decoder with
      | none => rfl
      | some model =>
          cases hsoroban : model.isSoroban <;> simp [Tallied.model, Option.filter, hsoroban]

/-- What a transaction adds to the counts of those that failed. -/
theorem count_tallied (decoder : XdrDecoder) (tx : Json) (c : Census) :
    let c' := c.count (tx.tallied decoder)
    c'.failed = c.failed + (if tx.reportsFailure then 1 else 0) ∧
      c'.undecodable = c.undecodable
        + (if tx.reportsFailure && (tx.decodedModel decoder).isNone then 1 else 0) ∧
      c'.notSoroban = c.notSoroban + (if tx.reportsFailure
        && (tx.decodedModel decoder).any (fun model => !model.isSoroban) then 1 else 0) := by
  intro c'
  simp only [c', tallied_eq]
  cases tx.reportsFailure with
  | false => exact ⟨rfl, rfl, rfl⟩
  | true =>
      cases tx.decodedModel decoder with
      | none => exact ⟨rfl, rfl, rfl⟩
      | some model => cases hsoroban : model.isSoroban <;> simp [Census.count, hsoroban]

/-- A failure is a transaction that is reported failed and decodes to a Soroban transaction. -/
theorem mem_failuresOf {f : Failure} : f ∈ failuresOf decoder txs ↔
    f.1 ∈ txs ∧ f.1.reportsFailure ∧ f.1.decodedModel decoder = some f.2 ∧ f.2.isSoroban := by
  obtain ⟨tx, model⟩ := f
  simp only [failuresOf, List.mem_filterMap, model_tallied, Option.map_eq_some_iff,
    Prod.mk.injEq]
  constructor
  · rintro ⟨tx', htx, model', hmodel, rfl, rfl⟩
    split at hmodel
    · next hfailed =>
      obtain ⟨hdecoded, hsoroban⟩ := Option.filter_eq_some_iff.mp hmodel
      exact ⟨htx, hfailed, hdecoded, hsoroban⟩
    · cases hmodel
  · rintro ⟨htx, hfailed, hdecoded, hsoroban⟩
    refine ⟨tx, htx, model, ?_, rfl, rfl⟩
    rw [if_pos hfailed]
    exact Option.filter_eq_some_iff.mpr ⟨hdecoded, hsoroban⟩

/-- **A transaction.**  It is counted once, by what it is. -/
theorem Balanced.failedSoroban (h : Balanced decoder txs s) (tx : Json) :
    Balanced decoder (txs ++ [tx]) (failedSoroban decoder tx s).2 := by
  obtain ⟨hfailed, hundecodable, hnotSoroban⟩ := count_tallied decoder tx s.census
  rw [failedSoroban_eq]
  refine ⟨?_, ?_, ?_, ?_, ?_, ?_, ?_⟩
  · rw [List.countP_append, ← h.failed, List.countP_singleton]
    exact hfailed
  · rw [List.countP_append, ← h.undecodable, List.countP_singleton]
    exact hundecodable
  · rw [List.countP_append, ← h.notSoroban, List.countP_singleton]
    exact hnotSoroban
  · rw [failuresOf_concat, List.length_append, ← h.sorobanFailed]
    cases tx.tallied decoder <;> rfl
  · rw [failuresOf_concat, List.countP_append, ← h.unexpectedOperationCount]
    cases tx.tallied decoder with
    | soroban model => simp [Census.count, Tallied.model, unit, List.countP_singleton]
    | _ => rfl
  · rw [failuresOf_concat, List.countP_append, ← h.noDiagnosticEvents]
    cases tx.tallied decoder with
    | soroban model => simp [Census.count, Tallied.model, unit, List.countP_singleton]
    | _ => rfl
  · rw [failuresOf_concat]
    cases htallied : (tx.tallied decoder).model with
    | none => simpa [Buckets.add] using h.buckets
    | some model =>
        show s.buckets.add tx (some model)
          = Grouping.group Failure.key Failure.addTo .empty
            (failuresOf decoder txs ++ [(tx, model)])
        rw [Grouping.group_concat, ← h.buckets]
        rfl

/-- What the census counts of the transactions, and not of the lookups or the ledgers. -/
def Census.tallies (c : Census) : Nat × Nat × Nat × Nat × Nat × Nat :=
  (c.failed, c.undecodable, c.notSoroban, c.sorobanFailed, c.unexpectedOperationCount,
    c.noDiagnosticEvents)

/-- Counts with the same tallies and buckets are those of the same transactions. -/
theorem Balanced.congr {s' : Counts} (h : Balanced decoder txs s)
    (htallies : s'.census.tallies = s.census.tallies) (hbuckets : s'.buckets = s.buckets) :
    Balanced decoder txs s' := by
  simp only [Census.tallies, Prod.mk.injEq] at htallies
  obtain ⟨hfailed, hundecodable, hnot, hsoroban, hunexpected, hnone⟩ := htallies
  exact ⟨hfailed.trans h.failed, hundecodable.trans h.undecodable, hnot.trans h.notSoroban,
    hsoroban.trans h.sorobanFailed, hunexpected.trans h.unexpectedOperationCount,
    hnone.trans h.noDiagnosticEvents, hbuckets.trans h.buckets⟩

/-! ## Runs -/

theorem balanced_empty (decoder : XdrDecoder) : Balanced decoder [] ⟨.empty, []⟩ :=
  ⟨rfl, rfl, rfl, rfl, rfl, rfl, rfl⟩

/-- The transactions of a page, or of a ledger, without lookups. -/
theorem Balanced.countAll {decoders : Decoders} (h : Balanced decoders.xdr txs s)
    (page : List Json) : Balanced decoders.xdr (txs ++ page) (countAll decoders page s) := by
  induction page generalizing txs s with
  | nil => rwa [List.append_nil]
  | cons tx page ih =>
      rw [← List.singleton_append, ← List.append_assoc]
      exact ih (h.failedSoroban tx)

variable {decoders : Decoders} {net : Network} {r : RunState}

/-- **A lookup.**  It counts itself and leaves the transactions as they are. -/
theorem Balanced.lookupInstance (h : Balanced decoder txs r.counts) (contract : String) :
    Balanced decoder txs (lookupInstance decoders net contract r).2.counts := by
  unfold Observatory.lookupInstance
  cases r.instances contract with
  | some kept => exact h
  | none =>
      cases askInstance decoders net contract r.sent with
      | mk lookup sent =>
          cases lookup <;> exact h.congr rfl rfl

theorem Balanced.lookupRoot (h : Balanced decoder txs r.counts) (model : TransactionModel) :
    Balanced decoder txs (lookupRoot decoders net model r).2.counts := by
  unfold Observatory.lookupRoot
  cases rootContractId model with
  | some root => exact h.lookupInstance root
  | none => exact h.congr rfl rfl

/-- The transactions of a ledger: they are counted, and each failure has a record. -/
theorem Balanced.ledgerRecords (h : Balanced decoders.xdr txs r.counts) (net : Network)
    (ledger : UInt64) (transactions : List Json) :
    Balanced decoders.xdr (txs ++ transactions)
        (ledgerRecords decoders net ledger r transactions).2.counts ∧
      (ledgerRecords decoders net ledger r transactions).1.map (fun record =>
          record.transactionHash)
        = (failuresOf decoders.xdr transactions).map (fun f => f.1.txHash) := by
  induction transactions generalizing txs r with
  | nil => exact ⟨by rwa [List.append_nil], rfl⟩
  | cons tx transactions ih =>
      have hcounted : Balanced decoders.xdr (txs ++ [tx]) (r.counted decoders tx).counts :=
        h.failedSoroban tx
      rw [← List.singleton_append, ← List.append_assoc, List.singleton_append]
      cases htallied : (tx.tallied decoders.xdr).model with
      | none =>
          have hnone : failuresOf decoders.xdr (tx :: transactions)
              = failuresOf decoders.xdr transactions := by simp [failuresOf, htallied]
          rw [ledgerRecords_of_none decoders net htallied, hnone]
          exact ih hcounted
      | some model =>
          have hsome : failuresOf decoders.xdr (tx :: transactions)
              = (tx, model) :: failuresOf decoders.xdr transactions := by
            simp [failuresOf, htallied]
          have hlooked : Balanced decoders.xdr (txs ++ [tx])
              (Observatory.lookupRoot decoders net model (r.counted decoders tx)).2.counts :=
            hcounted.lookupRoot model
          have hrest := ih hlooked
          rw [ledgerRecords_of_some decoders net htallied, hsome, List.map_cons, List.map_cons,
            hrest.2]
          exact ⟨hrest.1, rfl⟩

end Accounting

/-! ## The buckets -/

/-- What a bucket holds of its failures: how many there are, the first three, and the first
message. -/
def Bucket.of (fs : List Failure) : Bucket where
  count := fs.length
  examples := (fs.take 3).map (fun f => (f.1.txHash, f.1.ledger.getD 0))
  message := fs.findSome? (fun f => terminalMessage f.2.diagnostics)

theorem addTo_of (fs : List Failure) (f : Failure) :
    Failure.addTo (Bucket.of fs) f = Bucket.of (fs ++ [f]) := by
  unfold Failure.addTo Bucket.add Bucket.of
  rw [List.findSome?_append, List.length_append, List.length_map, List.length_take]
  congr 1
  · by_cases hfull : fs.length < 3
    · have htake : (fs ++ [f]).take 3 = fs ++ [f] := List.take_of_length_le (by simp; omega)
      have hbefore : fs.take 3 = fs := List.take_of_length_le (by omega)
      rw [htake, hbefore, if_pos (by omega), List.map_append]
      rfl
    · have htake : (fs ++ [f]).take 3 = fs.take 3 :=
        List.take_append_of_le_length (Nat.le_of_not_lt hfull)
      rw [htake, if_neg (by omega)]
  · cases fs.findSome? (fun f => terminalMessage f.2.diagnostics) <;> simp

/-- **A bucket** that the loop fills with some failures is theirs. -/
theorem foldl_addTo (fs : List Failure) : fs.foldl Failure.addTo .empty = .of fs := by
  induction fs using List.reverseRecOn with
  | nil => rfl
  | append_singleton fs f ih =>
      rw [List.foldl_append, ih]
      exact addTo_of fs f

/-- A host error is printed behind `Error(`. -/
theorem kindOf_host {e : ScError} {c : ScErrorCode} (h : e.code = some c) :
    kindOf e = "Error(" ++ e.name ++ ", " ++ c.name ++ ")" := by
  cases e with
  | contract n => cases h
  | _ c' =>
      obtain rfl : c' = c := Option.some.inj h
      rfl

theorem kindOf_ne_noEventsKey (e : ScError) : kindOf e ≠ noEventsKey := by
  cases hcode : e.code with
  | none =>
      cases e with
      | contract n => exact (by decide : "Contract" ≠ noEventsKey)
      | _ c => cases hcode
  | some c =>
      intro h
      rw [kindOf_host hcode] at h
      have htext := congrArg String.toList h
      rw [String.toList_append, String.toList_append, String.toList_append,
        String.toList_append] at htext
      exact absurd (List.cons.inj htext).1 (by decide)

/-- The key of a transaction without events is that of no other. -/
theorem errorKey_eq_noEventsKey {d : Diagnostics} : errorKey d = noEventsKey ↔ d.events = [] := by
  unfold errorKey
  by_cases hevents : d.events = []
  · simp [hevents]
  · rw [if_neg (by simpa using hevents)]
    cases d.terminalError with
    | none => simp [hevents, noEventsKey]
    | some t => simp [hevents, kindOf_ne_noEventsKey]

/-! ## What the counts say of each other -/

section Accounts

variable [Strkey]

/-- The counts and the buckets of some transactions. -/
structure Accounts (decoder : XdrDecoder) (txs : List Json) (s : Counts) : Prop where
  transactionsRead : s.census.transactionsRead = txs.length
  failed : s.census.failed = txs.countP Json.reportsFailure
  undecodable : s.census.undecodable
    = txs.countP (fun tx => tx.reportsFailure && (tx.decodedModel decoder).isNone)
  notSoroban : s.census.notSoroban = txs.countP (fun tx =>
    tx.reportsFailure && (tx.decodedModel decoder).any (fun model => !model.isSoroban))
  sorobanFailed : s.census.sorobanFailed = txs.countP (fun tx =>
    tx.reportsFailure && (tx.decodedModel decoder).any TransactionModel.isSoroban)
  unexpectedOperationCount : s.census.unexpectedOperationCount
    = (failuresOf decoder txs).countP (fun f => f.2.operations.length ≠ 1)
  noDiagnosticEvents : s.census.noDiagnosticEvents
    = (failuresOf decoder txs).countP (fun f => f.2.diagnostics.events = [])
  /-- The failures are the failed transactions that decode to Soroban ones. -/
  failures : ∀ f, f ∈ failuresOf decoder txs ↔ f.1 ∈ txs ∧ f.1.reportsFailure ∧
    f.1.decodedModel decoder = some f.2 ∧ f.2.isSoroban
  split : s.census.failed
    = s.census.undecodable + s.census.notSoroban + s.census.sorobanFailed
  /-- Every failed Soroban transaction is in one bucket. -/
  bucketed : (s.buckets.map (fun e => e.2.count)).sum = s.census.sorobanFailed
  /-- Those without diagnostic events are in buckets of their own. -/
  withoutEvents : ((s.buckets.filter (fun e => e.1.2 = noEventsKey)).map (fun e => e.2.count)).sum
    = s.census.noDiagnosticEvents
  keys_nodup : (s.buckets.map Prod.fst).Nodup
  /-- Every failure has the bucket of its key. -/
  inBucket : ∀ f ∈ failuresOf decoder txs, ∃ e ∈ s.buckets, e.1 = f.key
  /-- A bucket is that of the failures of its key. -/
  bucket : ∀ e ∈ s.buckets, ∃ fs, fs ≠ [] ∧
    fs = (failuresOf decoder txs).filter (fun f => f.key = e.1) ∧ e.2 = Bucket.of fs

omit [Strkey] in
theorem count_addTo (b : Bucket) (f : Failure) : (Failure.addTo b f).count = b.count + 1 := rfl

/-- There are as many failures as failed transactions that decode to Soroban ones. -/
theorem length_failuresOf (decoder : XdrDecoder) (txs : List Json) :
    (failuresOf decoder txs).length = txs.countP (fun tx =>
      tx.reportsFailure && (tx.decodedModel decoder).any TransactionModel.isSoroban) := by
  induction txs with
  | nil => rfl
  | cons tx txs ih =>
      rw [List.countP_cons, ← ih, failuresOf, List.filterMap_cons, model_tallied]
      cases tx.reportsFailure with
      | false => rfl
      | true =>
          cases tx.decodedModel decoder with
          | none => rfl
          | some model =>
              cases hsoroban : model.isSoroban <;> simp [failuresOf, Option.filter, hsoroban]

/-- A failed transaction is undecodable, or not Soroban, or Soroban. -/
theorem countP_reportsFailure (decoder : XdrDecoder) (txs : List Json) :
    txs.countP Json.reportsFailure
      = txs.countP (fun tx => tx.reportsFailure && (tx.decodedModel decoder).isNone)
        + txs.countP (fun tx => tx.reportsFailure
            && (tx.decodedModel decoder).any (fun model => !model.isSoroban))
        + txs.countP (fun tx => tx.reportsFailure
            && (tx.decodedModel decoder).any TransactionModel.isSoroban) := by
  induction txs with
  | nil => rfl
  | cons tx txs ih =>
      simp only [List.countP_cons, ih]
      cases tx.reportsFailure with
      | false => simp
      | true =>
          cases tx.decodedModel decoder with
          | none => simp; omega
          | some model => cases hsoroban : model.isSoroban <;> simp [hsoroban] <;> omega

/-- Counts that are balanced account for the transactions. -/
theorem Balanced.accounts {decoder : XdrDecoder} {txs : List Json} {s : Counts}
    (h : Balanced decoder txs s) (hread : s.census.transactionsRead = txs.length) :
    Accounts decoder txs s := by
  have hcount := fun p => Grouping.sum_filter_group Failure.key Bucket.count p
    (rfl : Bucket.empty.count = 0) count_addTo (failuresOf decoder txs)
  have hsoroban := h.sorobanFailed
  rw [length_failuresOf] at hsoroban
  refine ⟨hread, h.failed, h.undecodable, h.notSoroban, hsoroban, h.unexpectedOperationCount,
    h.noDiagnosticEvents, fun f => mem_failuresOf, ?_, ?_, ?_, ?_, ?_, ?_⟩
  · rw [h.failed, h.undecodable, h.notSoroban, hsoroban]
    exact countP_reportsFailure decoder txs
  · have hall := hcount (fun _ => true)
    rw [List.filter_true, ← h.buckets, List.countP_true] at hall
    rw [hall, h.sorobanFailed]
  · rw [h.buckets, hcount (fun k => k.2 = noEventsKey), h.noDiagnosticEvents]
    refine List.countP_congr fun f _ => ?_
    rw [decide_eq_true_eq, decide_eq_true_eq]
    exact errorKey_eq_noEventsKey
  · rw [h.buckets, Grouping.map_fst_group]
    exact Scan.nodup_distinct _
  · intro f hf
    rw [h.buckets]
    exact ⟨_, Grouping.mem_group.mpr ⟨⟨f, hf, rfl⟩, rfl⟩, rfl⟩
  · rintro ⟨k, b⟩ he
    rw [h.buckets, Grouping.mem_group] at he
    obtain ⟨⟨f, hf, hkey⟩, rfl⟩ := he
    refine ⟨_, List.ne_nil_of_mem (List.mem_filter.mpr ⟨hf, decide_eq_true hkey⟩), rfl, ?_⟩
    exact foldl_addTo _

/-! ## Ledger mode -/

variable {decoders : Decoders} {net : Network}

/-- What the census says of the ledgers. -/
def Census.reading (c : Census) : Nat × List UInt64 × Nat :=
  (c.ledgersSampled, c.ledgersUnreadable, c.transactionsRead)

/-- Counting a transaction says nothing of the ledgers. -/
theorem reading_failedSoroban (decoder : XdrDecoder) (tx : Json) (s : Counts) :
    (failedSoroban decoder tx s).2.census.reading = s.census.reading := by
  rw [failedSoroban_eq]
  cases tx.tallied decoder <;> rfl

theorem reading_lookupRoot (model : TransactionModel) (r : RunState) :
    (lookupRoot decoders net model r).2.counts.census.reading = r.counts.census.reading := by
  unfold lookupRoot
  cases rootContractId model with
  | none => rfl
  | some root =>
      dsimp only
      unfold lookupInstance
      cases r.instances root with
      | some kept => rfl
      | none => cases askInstance decoders net root r.sent with
        | mk lookup sent => cases lookup <;> rfl

theorem reading_ledgerRecords (decoders : Decoders) (net : Network) (ledger : UInt64)
    (r : RunState) (txs : List Json) :
    (ledgerRecords decoders net ledger r txs).2.counts.census.reading
      = r.counts.census.reading := by
  induction txs generalizing r with
  | nil => rfl
  | cons tx txs ih =>
      cases htallied : (tx.tallied decoders.xdr).model with
      | none =>
          rw [ledgerRecords_of_none decoders net htallied, ih]
          exact reading_failedSoroban _ _ _
      | some model =>
          rw [ledgerRecords_of_some decoders net htallied]
          show (ledgerRecords decoders net ledger _ txs).2.counts.census.reading = _
          rw [ih, reading_lookupRoot]
          exact reading_failedSoroban _ _ _

/-- The transactions that were read of some ledgers. -/
def Network.transactions (net : Network) (ledgers : List UInt64) : List Json :=
  ledgers.flatMap (fun ledger => ((net.wholeLedger ledger).map LedgerRead.transactions).getD [])

/-- The counts of the ledgers that were attempted so far, and the hashes of the records. -/
structure Attempted (decoders : Decoders) (net : Network) (files : Files)
    (ledgers : List UInt64) (effects : List Effect) (s : RunState) : Prop where
  balanced : Balanced decoders.xdr (net.transactions ledgers) s.counts
  sampled : s.counts.census.ledgersSampled = ledgers.countP (fun l => (net.wholeLedger l).isSome)
  unreadable : s.counts.census.ledgersUnreadable
    = ledgers.filter (fun l => (net.wholeLedger l).isNone)
  transactionsRead : s.counts.census.transactionsRead = (net.transactions ledgers).length
  recorded : files.jsonl = true → (Journal.recordsOf effects).map PilotRecord.transactionHash
    = (failuresOf decoders.xdr (net.transactions ledgers)).map (fun f => f.1.txHash)

variable {files : Files} {ledgers : List UInt64} {effects : List Effect} {s : RunState}

omit [Strkey] in
theorem transactions_concat (net : Network) (ledgers : List UInt64) (ledger : UInt64) :
    net.transactions (ledgers ++ [ledger]) = net.transactions ledgers
      ++ ((net.wholeLedger ledger).map LedgerRead.transactions).getD [] := by
  rw [Network.transactions, List.flatMap_append, List.flatMap_singleton]
  rfl

theorem failuresOf_append (decoder : XdrDecoder) (txs txs' : List Json) :
    failuresOf decoder (txs ++ txs') = failuresOf decoder txs ++ failuresOf decoder txs' :=
  List.filterMap_append

/-- **A ledger.**  It is read and counted, or it is unreadable and said to be. -/
theorem Attempted.censusLedger (h : Attempted decoders net files ledgers effects s)
    (ledger : UInt64) : Attempted decoders net files (ledgers ++ [ledger])
      (effects ++ (censusLedger decoders net files s ledger).1)
      (censusLedger decoders net files s ledger).2 := by
  unfold Observatory.censusLedger
  cases hread : net.wholeLedger ledger with
  | none =>
      have htxs : net.transactions (ledgers ++ [ledger]) = net.transactions ledgers := by
        rw [transactions_concat, hread]
        exact List.append_nil _
      refine ⟨?_, ?_, ?_, ?_, fun hjsonl => ?_⟩
      · rw [htxs]
        exact h.balanced.congr rfl rfl
      · rw [List.countP_append, List.countP_singleton, hread, ← h.sampled]
        rfl
      · rw [List.filter_append, ← h.unreadable, List.filter_singleton, hread]
        rfl
      · rw [htxs]
        exact h.transactionsRead
      · rw [htxs, ← h.recorded hjsonl]
        cases files.ledgerLog <;> simp
  | some read =>
      have htxs : net.transactions (ledgers ++ [ledger])
          = net.transactions ledgers ++ read.transactions := by
        rw [transactions_concat, hread]
        rfl
      have hstart : Balanced decoders.xdr (net.transactions ledgers)
          (s.sampled read.transactions.length).counts := h.balanced.congr rfl rfl
      obtain ⟨hbalanced, hhashes⟩ := hstart.ledgerRecords net ledger read.transactions
      have hreading := reading_ledgerRecords decoders net ledger
        (s.sampled read.transactions.length) read.transactions
      obtain ⟨hsampled, hreading⟩ := Prod.mk.inj hreading
      obtain ⟨hunreadable, htransactions⟩ := Prod.mk.inj hreading
      refine ⟨?_, ?_, ?_, ?_, fun hjsonl => ?_⟩
      · rw [htxs]
        exact hbalanced
      · rw [List.countP_append, List.countP_singleton, hread, ← h.sampled]
        exact hsampled
      · rw [List.filter_append, ← h.unreadable]
        rw [List.filter_singleton, hread, Option.isNone_some, cond_false, List.append_nil]
        exact hunreadable
      · rw [htxs, List.length_append, ← h.transactionsRead]
        exact htransactions
      · rw [htxs, failuresOf_append, List.map_append, ← h.recorded hjsonl, ← hhashes]
        cases files.ledgerLog <;> simp [hjsonl]

/-- A run behind some attempted ledgers attempts its own that are not done. -/
theorem Attempted.ledgerMode (done : List UInt64) (rest : List UInt64) :
    ∀ {ledgers : List UInt64} {effects : List Effect} {s : RunState},
      Attempted decoders net files ledgers effects s →
      Attempted decoders net files (ledgers ++ rest.filter (· ∉ done))
        (effects ++ (ledgerMode decoders net files done s rest).1)
        (ledgerMode decoders net files done s rest).2 := by
  induction rest with
  | nil =>
      intro ledgers effects s h
      rw [List.filter_nil, List.append_nil]
      refine ⟨h.balanced, h.sampled, h.unreadable, h.transactionsRead, fun hjsonl => ?_⟩
      rw [← h.recorded hjsonl]
      simp [Observatory.ledgerMode, hjsonl]
  | cons ledger rest ih =>
      intro ledgers effects s h
      by_cases hdone : ledger ∈ done
      · rw [Observatory.ledgerMode, if_pos hdone, List.filter_cons_of_neg (by simpa using hdone)]
        exact ih h
      · rw [Observatory.ledgerMode, if_neg hdone, List.filter_cons_of_pos (by simpa using hdone),
          ← List.singleton_append, ← List.append_assoc]
        show Attempted decoders net files _ (effects ++ (_ ++ _)) _
        rw [← List.append_assoc]
        exact ih (h.censusLedger ledger)

theorem attempted_empty : Attempted decoders net files [] [] .empty :=
  ⟨balanced_empty _, rfl, rfl, rfl, fun _ => rfl⟩

/-- **Ledger mode.**  A run accounts for every ledger it was to read and every transaction of
those it read, and has a record for each failed Soroban transaction. -/
theorem ledgerMode_accounts (decoders : Decoders) (net : Network) (files : Files)
    (done ledgers : List UInt64) :
    let run := ledgerMode decoders net files done .empty ledgers
    let due := ledgers.filter (· ∉ done)
    Accounts decoders.xdr (net.transactions due) run.2.counts ∧
      run.2.counts.census.ledgersUnreadable = due.filter (fun l => (net.wholeLedger l).isNone) ∧
      run.2.counts.census.ledgersSampled + run.2.counts.census.ledgersUnreadable.length
        = due.length ∧
      (files.jsonl = true → (Journal.recordsOf run.1).map PilotRecord.transactionHash
        = (failuresOf decoders.xdr (net.transactions due)).map (fun f => f.1.txHash)) := by
  intro run due
  have h : Attempted decoders net files due run.1 run.2 :=
    attempted_empty.ledgerMode done ledgers
  refine ⟨h.balanced.accounts h.transactionsRead, h.unreadable, ?_, h.recorded⟩
  rw [h.sampled, h.unreadable, ← List.countP_eq_length_filter]
  rw [List.length_eq_countP_add_countP (l := due) (fun l => (net.wholeLedger l).isSome)]
  congr 1
  exact List.countP_congr fun l _ => by cases net.wholeLedger l <;> simp

/-! ## Page mode -/

/-- The transactions of the pages that are answered. -/
def pageTransactions (rpc : Rpc) (lo hi pages pageSize : UInt64) : Nat → UInt64 → Nat → List Json
  | 0, _, _ => []
  | n + 1, p, t =>
      match pageStart lo hi pages p with
      | none => []
      | some start =>
          match rpc.call "getTransactions" (pageParams start pageSize) t with
          | (none, t) => pageTransactions rpc lo hi pages pageSize n (p + 1) t
          | (some result, t) =>
              result.page ++ pageTransactions rpc lo hi pages pageSize n (p + 1) t

theorem transactionsRead_countAll (txs : List Json) (s : Counts) :
    (countAll decoders txs s).census.transactionsRead = s.census.transactionsRead := by
  induction txs generalizing s with
  | nil => rfl
  | cons tx txs ih =>
      have hreading := reading_failedSoroban decoders.xdr tx s
      rw [countAll, List.foldl_cons]
      exact (ih _).trans (congrArg (fun r => r.2.2) hreading)

/-- The last pages of a run, behind transactions that were read before. -/
theorem Balanced.pageMode (rpc : Rpc) (lo hi pages pageSize : UInt64)
    (n : Nat) : ∀ {p : UInt64} {t : Nat} {txs : List Json} {s s' : Counts},
      Balanced decoders.xdr txs s → s.census.transactionsRead = txs.length →
      pageMode decoders rpc lo hi pages pageSize n p t s = some s' →
      Balanced decoders.xdr (txs ++ pageTransactions rpc lo hi pages pageSize n p t) s' ∧
        s'.census.transactionsRead
          = (txs ++ pageTransactions rpc lo hi pages pageSize n p t).length := by
  induction n with
  | zero =>
      intro p t txs s s' h hread hrun
      obtain rfl := Option.some.inj hrun
      rw [pageTransactions, List.append_nil]
      exact ⟨h, hread⟩
  | succ n ih =>
      intro p t txs s s' h hread hrun
      rw [Observatory.pageMode] at hrun
      obtain ⟨start, hstart, hrun⟩ := Option.bind_eq_some_iff.mp hrun
      rw [pageTransactions, hstart]
      dsimp only at hrun ⊢
      cases hcall : rpc.call "getTransactions" (pageParams start pageSize) t with
      | mk answer t' =>
          rw [hcall] at hrun
          cases answer with
          | none => exact ih h hread hrun
          | some result =>
              dsimp only
              rw [← List.append_assoc]
              refine ih (Balanced.countAll ?_ result.page) ?_ hrun
              · exact h.congr rfl rfl
              · rw [transactionsRead_countAll, List.length_append, ← hread]

/-- **Page mode.**  A run accounts for every transaction of the pages that were answered. -/
theorem pageMode_accounts {rpc : Rpc} {lo hi pages pageSize : UInt64} {s : Counts}
    (h : pageMode decoders rpc lo hi pages pageSize pages.toNat 0 0 ⟨.empty, []⟩ = some s) :
    Accounts decoders.xdr (pageTransactions rpc lo hi pages pageSize pages.toNat 0 0) s := by
  obtain ⟨hbalanced, hread⟩ :=
    (balanced_empty decoders.xdr).pageMode rpc lo hi pages pageSize pages.toNat rfl h
  exact hbalanced.accounts hread

end Accounts

/-! ## A ledger with one failure -/

/-- The hash of the transaction of `oneLedger`. -/
def fiveHash : String := Hex32.serialize (Hash.fill 5)

/-- A failed Soroban transaction of ledger 5, with one event. -/
def failedFive : Json :=
  .object
    [("status", .string "FAILED"), ("txHash", .string fiveHash), ("ledger", .number "5"),
      ("envelopeXdr", .string envelope64), ("resultXdr", .string result64),
      ("diagnosticEventsXdr", .array [.string event64])]

/-- A server that holds `failedFive` alone. -/
def oneLedger : Server where
  held := [failedFive]
  ledger_isSome := by
    intro tx htx
    rw [List.mem_singleton.mp htx]
    rfl
  sorted := List.pairwise_singleton _ _
  resume _ := 1

/-- What `oneLedger` answers: the transaction from the start of its ledger, then an empty page. -/
def oneLedgerAnswer (params : Json) : Json :=
  let fromFive := match (params.get "startLedger").bind Json.asU64 with
    | some ledger => decide (ledger ≤ 5)
    | none => false
  .object [("transactions", .array (if fromFive then [failedFive] else [])),
    ("cursor", .string "end")]

theorem serves_oneLedgerAnswer (request : PageRequest) :
    oneLedger.Serves (oneLedger.position request) (oneLedgerAnswer request.params) := by
  cases request with
  | cursor c => exact ⟨⟨1, Nat.one_pos, rfl⟩, fun c hc => rfl⟩
  | startLedger ledger =>
      have hstart : (((PageRequest.startLedger ledger).params).get "startLedger").bind Json.asU64
          = some ledger := by
        show (Json.number (toString ledger.toNat)).asU64 = some ledger
        rw [asU64_toString ledger.toNat_lt, UInt64.ofNatLT_toNat]
      have hanswer : oneLedgerAnswer (PageRequest.startLedger ledger).params
          = .object [("transactions", .array (if ledger ≤ 5 then [failedFive] else [])),
              ("cursor", .string "end")] := by
        simp [oneLedgerAnswer, hstart]
      have hfive : failedFive.ledger = some 5 := rfl
      have hposition : oneLedger.position (.startLedger ledger) = if ledger ≤ 5 then 0 else 1 := by
        by_cases hle : ledger ≤ 5
        · rw [if_pos hle]
          simp [Server.position, oneLedger, hfive, hle]
        · rw [if_neg hle]
          simp [Server.position, oneLedger, hfive, UInt64.not_le.mp hle]
      rw [hanswer, hposition]
      by_cases hle : ledger ≤ 5
      · rw [if_pos hle, if_pos hle]
        exact ⟨⟨1, Nat.one_pos, rfl⟩, fun c hc => rfl⟩
      · rw [if_neg hle, if_neg hle]
        exact ⟨⟨1, Nat.one_pos, rfl⟩, fun c hc => rfl⟩

/-- The clients of `oneLedger`, which never fail. -/
def oneLedgerProvider : Provider where
  toServer := oneLedger
  rpc := ⟨fun _ _ params => .ok (oneLedgerAnswer params), none⟩
  primary_answers _ request := .served (serves_oneLedgerAnswer request)
  fallback_answers _ h := by cases h

/-- The instance entry of `cid 5`, a Stellar asset. -/
def asset64 : String :=
  "AAAABgAAAAAAAAABBQUFBQUFBQUFBQUFBQUFBQUFBQUFBQUFBQUFBQUFBQUAAAAUAAAAAQAAABMAAAABAAAAAA=="

section OneLedger

variable [Strkey] (contract : ContractParser) (account : AccountParser)

/-- The decoders of the texts of this transaction and this entry. -/
def oneLedgerDecoders : Decoders where
  xdr := tableDecoder
  entry s _ :=
    if s = asset64 then .ok (.contractData ⟨.contract (cid 5), .ledgerKeyContractInstance,
      .persistent, .contractInstance .stellarAsset⟩)
    else .error "invalid"
  contract := contract
  account := account

/-- The model of the transaction of `oneLedger`. -/
def failedFiveModel : TransactionModel :=
  TransactionModel.fromInput (buildInput fiveHash (sorobanFailure .trapped [] none).envelope
    (sorobanFailure .trapped [] none).result none
    (some (.topLevel, [hostFnFailed (.contract 9)])))

theorem tallied_failedFive : failedFive.tallied tableDecoder = .soroban failedFiveModel := by
  have hstatus : failedFive.getStr "status" = some "FAILED" := rfl
  have htxHash : failedFive.txHash = fiveHash := rfl
  have hlocated : locateDiagnostics tableDecoder failedFive none
      = some (.topLevel, [hostFnFailed (.contract 9)]) := by
    have htop : base64Array (failedFive.get "diagnosticEventsXdr") = [event64] := rfl
    rw [locateDiagnostics, htop]
    simp [decodeEvents, tableDecoder, Except.toOption]
  have hdecoded : decodeGetTransaction tableDecoder fiveHash failedFive = .ok
      { status := .failed
        input := buildInput fiveHash (sorobanFailure .trapped [] none).envelope
          (sorobanFailure .trapped [] none).result none
          (some (.topLevel, [hostFnFailed (.contract 9)]))
        diagnosticSource := some .topLevel } := by
    have henvelope : HoldsField tableDecoder.envelope failedFive "envelopeXdr"
        (sorobanFailure .trapped [] none).envelope := ⟨envelope64, rfl, by simp [tableDecoder]⟩
    have hresult : HoldsField tableDecoder.result failedFive "resultXdr"
        (sorobanFailure .trapped [] none).result := ⟨result64, rfl, by simp [tableDecoder]⟩
    refine decodeGetTransaction_eq_ok.mpr ⟨.failed, _, _, none, decodeStatus_eq_failed.mpr hstatus,
      henvelope, hresult, rfl, ?_⟩
    rw [hlocated]
    rfl
  rw [Json.tallied, if_neg (not_not.mpr hstatus), htxHash, hdecoded]
  rfl

/-- A run over one page of this server counts the failed transaction. -/
theorem pageMode_oneLedger : pageMode (oneLedgerDecoders contract account) oneLedgerProvider.rpc
    5 6 1 200 1 0 0 ⟨.empty, []⟩ = some (countAll (oneLedgerDecoders contract account) [failedFive]
      ⟨{ Census.empty with transactionsRead := 1 }, []⟩) := by
  have hstart : pageStart 5 6 1 0 = some 5 := rfl
  have hcall : oneLedgerProvider.rpc.call "getTransactions" (pageParams 5 200) 0
      = (some (oneLedgerAnswer (pageParams 5 200)), 1) := rfl
  have hpage : (oneLedgerAnswer (pageParams 5 200)).page = [failedFive] := rfl
  rw [pageMode, hstart]
  refine Option.bind_eq_some_iff.mpr ⟨5, rfl, ?_⟩
  rw [hcall]
  dsimp only
  rw [hpage, pageMode]
  rfl

theorem sorobanFailed_oneLedger : (countAll (oneLedgerDecoders contract account) [failedFive]
    ⟨{ Census.empty with transactionsRead := 1 }, []⟩).census.sorobanFailed = 1 := by
  have htallied : failedFive.tallied (oneLedgerDecoders contract account).xdr
      = .soroban failedFiveModel := tallied_failedFive
  rw [countAll, List.foldl_cons, List.foldl_nil, failedSoroban_eq, htallied]
  rfl

end OneLedger

/-- The transaction of the page is counted once and is in one bucket. -/
theorem pageMode_accounts_oneLedger : ∃ s, @pageMode Strkey.standard
    (@oneLedgerDecoders Strkey.standard Strkey.contractParser Strkey.parseAccount)
      oneLedgerProvider.rpc 5 6 1 200 1 0 0 ⟨.empty, []⟩ = some s ∧
    s.census.sorobanFailed = 1 ∧ (s.buckets.map (fun e => e.2.count)).sum = 1 := by
  have hrun := @pageMode_oneLedger Strkey.standard Strkey.contractParser Strkey.parseAccount
  have haccounts := @pageMode_accounts Strkey.standard _ _ 5 6 1 200 _ hrun
  have hfailed := @sorobanFailed_oneLedger Strkey.standard Strkey.contractParser Strkey.parseAccount
  exact ⟨_, hrun, hfailed, Eq.trans (@Accounts.bucketed Strkey.standard _ _ _ haccounts) hfailed⟩

end Observatory
