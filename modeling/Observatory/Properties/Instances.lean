import Mathlib.Data.List.ReduceOption
import Observatory.Census.Run
import Observatory.Lib.Memo
import Observatory.Properties.Accounting

/-!
# Instance lookups

A run of the census keeps the instance of a root contract once the network has answered
for it, found or not, and asks again after a failed lookup.  So each record of a run is
made with what the network answered for its root contract, the records agree on each
contract, and the counts say how often the network was asked.

* `Network.Answers` — what an answer of the network says of a contract.
* `Looked` — what is kept and counted, by the lookups so far.
* `Looked.lookupInstance` — a lookup.
* `Recorded` — the failures of a run, their records and their lookups.
* `ledgerMode_instances` — the run.
-/

namespace Observatory

/-- An answer of the network about an instance, which holds for the run. -/
def InstanceLookup.definite (lookup : InstanceLookup) : Bool := lookup ≠ .failed

/-- A lookup of a root contract. -/
abbrev RootLookup : Type := Memo.Lookup String InstanceLookup

section Instances

variable [Strkey]

/-- What the answer to the `n`-th request of a run says of the instance of a contract. -/
inductive Network.Answers (decoders : Decoders) (net : Network) (n : ℕ) (contract : String) :
    InstanceLookup → Prop
  | found {id : ContractId} {entry : Json} {executable : ContractExecutable}
      (hid : decoders.contract.parse contract = some id)
      (hentry : net.getLedgerEntries n (Rpc.instanceKey id) = some entry)
      (hdecoded : decodeInstance decoders.entry entry = .ok executable) :
      Answers decoders net n contract (.found executable)
  | notFound {id : ContractId} {entry : Json} {text : String}
      (hid : decoders.contract.parse contract = some id)
      (hentry : net.getLedgerEntries n (Rpc.instanceKey id) = some entry)
      (hdecoded : decodeInstance decoders.entry entry = .error (.notFound text)) :
      Answers decoders net n contract .notFound
  /-- The request itself failed. -/
  | unanswered {id : ContractId} (hid : decoders.contract.parse contract = some id)
      (hentry : net.getLedgerEntries n (Rpc.instanceKey id) = none) :
      Answers decoders net n contract .failed
  | undecodable {id : ContractId} {entry : Json} {e : SourceError}
      (hid : decoders.contract.parse contract = some id)
      (hentry : net.getLedgerEntries n (Rpc.instanceKey id) = some entry)
      (hdecoded : decodeInstance decoders.entry entry = .error e)
      (hother : ∀ text, e ≠ .notFound text) :
      Answers decoders net n contract .failed

/-- What is kept and counted of some lookups. -/
structure Looked (decoders : Decoders) (net : Network) (log : List RootLookup) (s : RunState) :
    Prop where
  memo : Memo.Lookups InstanceLookup.definite (net.Answers decoders) log
  keeps : Memo.Keeps InstanceLookup.definite s.instances log
  notFound : s.counts.census.instancesNotFound
    = log.countP (fun l => l.asked && decide (l.answer = .notFound))
  failed : s.counts.census.instanceLookupFailures = log.countP (fun l => l.answer = .failed)
  sent : s.sent = log.countP Memo.Lookup.asked

/-- The failures of some ledgers, each with its ledger. -/
def Network.failures (decoders : Decoders) (net : Network) (ledgers : List UInt64) :
    List (UInt64 × Failure) :=
  ledgers.flatMap (fun ledger =>
    (failuresOf decoders.xdr (net.transactions [ledger])).map (fun f => (ledger, f)))

/-- The record of a failure, by the lookup of its root contract. -/
def Failure.record (decoders : Decoders) (f : UInt64 × Failure) (lookup : Option RootLookup) :
    PilotRecord :=
  .new decoders.account f.2.1.txHash f.1.toUInt32 f.2.2 (lookup.map Memo.Lookup.answer)

/-- The records of some failures, and the lookups of their root contracts. -/
structure Recorded (decoders : Decoders) (net : Network) (failures : List (UInt64 × Failure))
    (records : List PilotRecord) (lookups : List (Option RootLookup)) (s : RunState) : Prop
    extends Looked decoders net lookups.reduceOption s where
  roots : lookups.map (Option.map Memo.Lookup.key) = failures.map (fun f => rootContractId f.2.2)
  records_eq : records = List.zipWith (Failure.record decoders) failures lookups
  rootless : s.counts.census.noRootContractInvocation = lookups.countP Option.isNone

variable {decoders : Decoders} {net : Network} {s s' : RunState} {log : List RootLookup}
  {failures : List (UInt64 × Failure)} {records : List PilotRecord}
  {lookups : List (Option RootLookup)}

/-- A root contract is the strkey of a contract. -/
theorem parse_rootContractId (decoders : Decoders) {model : TransactionModel} {root : String}
    (h : rootContractId model = some root) : ∃ id, decoders.contract.parse root = some id := by
  unfold rootContractId at h
  split at h
  · split at h
    · next id _ =>
      obtain rfl := Option.some.inj h
      exact ⟨id, decoders.contract.parse_toString id⟩
    · cases h
  · cases h

/-- A contract is asked for once, and the answer is the network's. -/
theorem askInstance_answers (net : Network) {contract : String} {id : ContractId}
    (hid : decoders.contract.parse contract = some id) (sent : ℕ) :
    net.Answers decoders sent contract (askInstance decoders net contract sent).1 ∧
      (askInstance decoders net contract sent).2 = sent + 1 := by
  unfold askInstance
  rw [hid]
  dsimp only
  cases hentry : net.getLedgerEntries sent (Rpc.instanceKey id) with
  | none => exact ⟨.unanswered hid hentry, rfl⟩
  | some entry =>
      dsimp only
      split
      · next executable hdecoded => exact ⟨.found hid hentry hdecoded, rfl⟩
      · next text hdecoded => exact ⟨.notFound hid hentry hdecoded, rfl⟩
      · next e hother hdecoded => exact ⟨.undecodable hid hentry hdecoded hother, rfl⟩

/-- What is kept and counted of lookups is all that counts of a state. -/
theorem Looked.congr (h : Looked decoders net log s) (hinstances : s'.instances = s.instances)
    (hnotFound : s'.counts.census.instancesNotFound = s.counts.census.instancesNotFound)
    (hfailures : s'.counts.census.instanceLookupFailures
      = s.counts.census.instanceLookupFailures)
    (hsent : s'.sent = s.sent) : Looked decoders net log s' :=
  ⟨h.memo, hinstances ▸ h.keeps, hnotFound.trans h.notFound, hfailures.trans h.failed,
    hsent.trans h.sent⟩

/-- **A lookup** of a contract: it is kept when it is definite, and counted when it is new. -/
theorem Looked.lookupInstance (h : Looked decoders net log s) {contract : String}
    {id : ContractId} (hid : decoders.contract.parse contract = some id) :
    ∃ asked, Looked decoders net
      (log ++ [⟨contract, (lookupInstance decoders net contract s).1, asked⟩])
      (lookupInstance decoders net contract s).2 := by
  unfold Observatory.lookupInstance
  cases hkept : s.instances contract with
  | some kept =>
      obtain ⟨⟨l, hl, rfl, rfl⟩, hdefinite⟩ := (h.keeps contract kept).mp hkept
      have hanswered : l.answer ≠ .failed := of_decide_eq_true hdefinite
      refine ⟨false, h.memo.again hl hdefinite, h.keeps.again hkept, ?_, ?_, ?_⟩
      · simp [h.notFound]
      · simp [h.failed, hanswered]
      · simp [h.sent]
  | none =>
      obtain ⟨hanswers, hsent⟩ := askInstance_answers net hid s.sent
      have hgives : net.Answers decoders (log.countP Memo.Lookup.asked) contract
          (askInstance decoders net contract s.sent).1 := by
        rw [← h.sent]
        exact hanswers
      have hlookups := h.memo.ask (h.keeps.not_kept hkept) hgives
      cases hask : askInstance decoders net contract s.sent with
      | mk lookup sent =>
          rw [hask] at hlookups hsent
          obtain rfl : sent = s.sent + 1 := hsent
          cases lookup with
          | failed =>
              refine ⟨true, hlookups, h.keeps.pass rfl contract, ?_, ?_, ?_⟩
              · simp [h.notFound]
              · simp [h.failed]
              · simp [h.sent]
          | notFound =>
              refine ⟨true, hlookups, h.keeps.store hkept rfl, ?_, ?_, ?_⟩
              · simp [h.notFound]
              · simp [h.failed]
              · simp [h.sent]
          | found executable =>
              refine ⟨true, hlookups, h.keeps.store hkept rfl, ?_, ?_, ?_⟩
              · simp [h.notFound]
              · simp [h.failed]
              · simp [h.sent]

/-- A lookup does not count transactions without a root contract. -/
theorem rootless_lookupInstance (contract : String) :
    (lookupInstance decoders net contract s).2.counts.census.noRootContractInvocation
      = s.counts.census.noRootContractInvocation := by
  unfold lookupInstance
  cases s.instances contract with
  | some kept => rfl
  | none =>
      cases askInstance decoders net contract s.sent with
      | mk lookup sent => cases lookup <;> rfl

/-- Counting a transaction looks nothing up. -/
theorem Recorded.counted (h : Recorded decoders net failures records lookups s) (tx : Json) :
    Recorded decoders net failures records lookups (s.counted decoders tx) := by
  unfold RunState.counted
  rw [failedSoroban_eq]
  cases tx.tallied decoders.xdr <;>
    exact ⟨h.toLooked.congr rfl rfl rfl rfl, h.roots, h.records_eq, h.rootless⟩

/-- The records of some failures, and one more with its lookup. -/
theorem Recorded.zipWith_concat (h : Recorded decoders net failures records lookups s)
    (f : UInt64 × Failure) (lookup : Option RootLookup) :
    records ++ [Failure.record decoders f lookup]
      = List.zipWith (Failure.record decoders) (failures ++ [f]) (lookups ++ [lookup]) := by
  have hlength : failures.length = lookups.length := by
    have hroots := congrArg List.length h.roots
    rwa [List.length_map, List.length_map, eq_comm] at hroots
  rw [List.zipWith_append hlength, ← h.records_eq]
  rfl

/-- **A failure.**  Its record is made with the lookup of its root contract, if it has one. -/
theorem Recorded.lookupRoot (h : Recorded decoders net failures records lookups s)
    (f : UInt64 × Failure) :
    ∃ lookup : Option RootLookup,
      lookup.map Memo.Lookup.answer = (lookupRoot decoders net f.2.2 s).1 ∧
      Recorded decoders net (failures ++ [f]) (records ++ [Failure.record decoders f lookup])
        (lookups ++ [lookup]) (lookupRoot decoders net f.2.2 s).2 := by
  unfold Observatory.lookupRoot
  cases hroot : rootContractId f.2.2 with
  | none =>
      refine ⟨none, rfl, ⟨?_, ?_, h.zipWith_concat f none, ?_⟩⟩
      · have hlog : (lookups ++ [none]).reduceOption = lookups.reduceOption := by
          simp [List.reduceOption_append]
        rw [hlog]
        exact h.toLooked.congr rfl rfl rfl rfl
      · simp [h.roots, hroot]
      · simp [h.rootless]
  | some root =>
      obtain ⟨id, hid⟩ := parse_rootContractId decoders hroot
      obtain ⟨asked, hlooked⟩ := h.toLooked.lookupInstance hid
      refine ⟨some ⟨root, _, asked⟩, rfl, ⟨?_, ?_, h.zipWith_concat f _, ?_⟩⟩
      · rw [List.reduceOption_append]
        exact hlooked
      · simp [h.roots, hroot]
      · rw [rootless_lookupInstance, h.rootless]
        simp

/-- The failures among the transactions of a ledger are recorded in order. -/
theorem Recorded.ledgerRecords (ledger : UInt64) (txs : List Json) :
    ∀ {failures : List (UInt64 × Failure)} {records : List PilotRecord}
      {lookups : List (Option RootLookup)} {s : RunState},
      Recorded decoders net failures records lookups s → ∃ more,
        Recorded decoders net
          (failures ++ (failuresOf decoders.xdr txs).map (fun f => (ledger, f)))
          (records ++ (ledgerRecords decoders net ledger s txs).1) (lookups ++ more)
          (ledgerRecords decoders net ledger s txs).2 := by
  induction txs with
  | nil =>
      intro failures records lookups s h
      refine ⟨[], ?_⟩
      simpa [Observatory.ledgerRecords, failuresOf] using h
  | cons tx txs ih =>
      intro failures records lookups s h
      have hcounted := h.counted tx
      cases htallied : (tx.tallied decoders.xdr).model with
      | none =>
          have hnone : failuresOf decoders.xdr (tx :: txs) = failuresOf decoders.xdr txs := by
            simp [failuresOf, htallied]
          rw [ledgerRecords_of_none decoders net htallied, hnone]
          exact ih hcounted
      | some model =>
          have hsome : failuresOf decoders.xdr (tx :: txs)
              = (tx, model) :: failuresOf decoders.xdr txs := by
            simp [failuresOf, htallied]
          obtain ⟨lookup, hlookup, hfirst⟩ := hcounted.lookupRoot (ledger, (tx, model))
          obtain ⟨later, hlater⟩ := ih hfirst
          refine ⟨lookup :: later, ?_⟩
          rw [ledgerRecords_of_some decoders net htallied, hsome, List.map_cons,
            List.append_cons failures, List.append_cons records, List.append_cons lookups]
          rw [Failure.record, hlookup] at hlater
          exact hlater

/-- A run from some ledgers on records their failures behind those before. -/
theorem Recorded.ledgerMode (ledgerLog : Bool) (done ledgers : List UInt64) :
    ∀ {failures : List (UInt64 × Failure)} {records : List PilotRecord}
      {lookups : List (Option RootLookup)} {s : RunState},
      Recorded decoders net failures records lookups s → ∃ more,
        Recorded decoders net (failures ++ net.failures decoders (ledgers.filter (· ∉ done)))
          (records ++ Journal.recordsOf
            (ledgerMode decoders net ⟨true, ledgerLog⟩ done s ledgers).1)
          (lookups ++ more) (ledgerMode decoders net ⟨true, ledgerLog⟩ done s ledgers).2 := by
  induction ledgers with
  | nil =>
      intro failures records lookups s h
      refine ⟨[], ?_⟩
      simpa [Observatory.ledgerMode, Network.failures] using h
  | cons ledger ledgers ih =>
      intro failures records lookups s h
      by_cases hdone : ledger ∈ done
      · rw [Observatory.ledgerMode, if_pos hdone, List.filter_cons_of_neg (by simpa using hdone)]
        exact ih h
      · have hfailures : ∀ later, net.failures decoders (ledger :: later)
            = (failuresOf decoders.xdr (net.transactions [ledger])).map (fun f => (ledger, f))
              ++ net.failures decoders later := fun later => List.flatMap_cons
        rw [Observatory.ledgerMode, if_neg hdone, List.filter_cons_of_pos (by simpa using hdone),
          hfailures, ← List.append_assoc]
        dsimp only
        rw [Journal.recordsOf_append]
        unfold censusLedger Network.transactions
        rw [List.flatMap_singleton]
        cases net.wholeLedger ledger with
        | none =>
            have hskipped : Recorded decoders net failures records lookups (s.unreadable ledger) :=
              ⟨h.toLooked.congr rfl rfl rfl rfl, h.roots, h.records_eq, h.rootless⟩
            obtain ⟨later, hlater⟩ := ih hskipped
            refine ⟨later, ?_⟩
            cases ledgerLog <;> simpa [failuresOf] using hlater
        | some read =>
            have hsampled : Recorded decoders net failures records lookups
                (s.sampled read.transactions.length) :=
              ⟨h.toLooked.congr rfl rfl rfl rfl, h.roots, h.records_eq, h.rootless⟩
            obtain ⟨first, hfirst⟩ := Recorded.ledgerRecords ledger read.transactions hsampled
            obtain ⟨later, hlater⟩ := ih hfirst
            refine ⟨first ++ later, ?_⟩
            rw [← List.append_assoc]
            cases ledgerLog <;> simpa using hlater

/-- **Instances.**  Each record of a run is made with the lookup of the failure's root contract, if
it has one.  The lookups are those the network gives when it is asked for a contract until it has
answered definitely: found or not found.  From then on the run has this answer.  What is counted as
not found and as failed are answers of the network, and the network is asked as often as it says. -/
theorem ledgerMode_instances (decoders : Decoders) (net : Network) (ledgerLog : Bool)
    (done ledgers : List UInt64) :
    let run := ledgerMode decoders net ⟨true, ledgerLog⟩ done .empty ledgers
    let failures := net.failures decoders (ledgers.filter (· ∉ done))
    ∃ lookups : List (Option RootLookup),
      let log := lookups.reduceOption
      lookups.map (Option.map Memo.Lookup.key) = failures.map (fun f => rootContractId f.2.2) ∧
      Journal.recordsOf run.1 = List.zipWith (Failure.record decoders) failures lookups ∧
      Memo.Lookups InstanceLookup.definite (net.Answers decoders) log ∧
      log.Pairwise (fun a b => a.key = b.key → a.answer ≠ .failed → b.answer = a.answer) ∧
      ((log.filter (fun l => l.asked && l.answer.definite)).map Memo.Lookup.key).Nodup ∧
      run.2.counts.census.noRootContractInvocation = lookups.countP Option.isNone ∧
      run.2.counts.census.instancesNotFound
        = log.countP (fun l => l.asked && decide (l.answer = .notFound)) ∧
      run.2.counts.census.instanceLookupFailures = log.countP (fun l => l.answer = .failed) ∧
      run.2.sent = log.countP Memo.Lookup.asked := by
  intro run failures
  have hempty : Recorded decoders net [] [] [] .empty :=
    ⟨⟨.nil, Memo.keeps_none, rfl, rfl, rfl⟩, rfl, rfl, rfl⟩
  obtain ⟨lookups, h⟩ := hempty.ledgerMode ledgerLog done ledgers
  have hrecorded : Recorded decoders net failures (Journal.recordsOf run.1) lookups run.2 := h
  exact ⟨lookups, hrecorded.roots, hrecorded.records_eq, hrecorded.memo,
    hrecorded.memo.settled.imp fun hab hkey hanswer => hab hkey (decide_eq_true hanswer),
    hrecorded.memo.nodup, hrecorded.rootless, hrecorded.notFound, hrecorded.failed,
    hrecorded.sent⟩

end Instances

end Observatory
