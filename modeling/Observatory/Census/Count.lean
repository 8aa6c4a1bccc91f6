import Observatory.Census.Survey
import Observatory.Lib.Grouping
import Observatory.Rpc.Cluster
import Observatory.Rpc.Decode

/-!
# What the census counts

Each transaction the census reads is decoded, counted, and put into a bucket if it is a
failed Soroban transaction (`failed_soroban` in `examples/survey_failures.rs`).

* `failedSoroban` — a transaction, with the counts before and after.
* `Tallied` — what a transaction is to the census, without the counts.
* `failedSoroban_eq` — the counts after a transaction, by what it is.
-/

namespace Observatory

/-- Failures of one kind. -/
structure Bucket where
  count : Nat
  /-- Up to three of them, by hash and ledger. -/
  examples : List (String × UInt64)
  message : Option String
  deriving DecidableEq

/-- Everything the census counts, so nothing is dropped silently. -/
structure Census where
  ledgersSampled : Nat
  ledgersUnreadable : List UInt64
  transactionsRead : Nat
  failed : Nat
  undecodable : Nat
  notSoroban : Nat
  sorobanFailed : Nat
  unexpectedOperationCount : Nat
  noDiagnosticEvents : Nat
  noRootContractInvocation : Nat
  instancesNotFound : Nat
  instanceLookupFailures : Nat
  deriving DecidableEq

/-- The census before it starts. -/
def Census.empty : Census := ⟨0, [], 0, 0, 0, 0, 0, 0, 0, 0, 0, 0⟩

/-- Buckets by result and terminal error. -/
abbrev Buckets : Type := List ((String × String) × Bucket)

/-- The kind of an error: a contract's own code is left out. -/
def kindOf : ScError → String
  | .contract _ => "Contract"
  | other => errorLabel other

/-- The result code, and the code of the operation that failed. -/
def resultKey (outcome : Outcome) : String :=
  match outcome.failedOperation with
  | some op => outcome.resultCode ++ " / " ++ op.code
  | none => outcome.resultCode

/-- The bucket key of a transaction without diagnostic events. -/
def noEventsKey : String := "(no diagnostic events)"

/-- The terminal error, or why there is none. -/
def errorKey (diagnostics : Diagnostics) : String :=
  if diagnostics.events.isEmpty then noEventsKey
  else
    match diagnostics.terminalError with
    | some t => kindOf t.error
    | none => "(no host_fn_failed event)"

/-- The message of the first event that raised the terminal error, and has one. -/
def terminalMessage (diagnostics : Diagnostics) : Option String :=
  diagnostics.terminalError.bind (fun t => diagnostics.events.findSome? (fun e =>
    match e.kind with
    | .error error message => if error = t.error then message else none
    | _ => none))

/-- One more failure in a bucket. -/
def Bucket.add (b : Bucket) (message : Option String) (hash : String) (ledger : UInt64) :
    Bucket where
  count := b.count + 1
  examples := if b.examples.length < 3 then b.examples ++ [(hash, ledger)] else b.examples
  message := if b.message.isNone then message else b.message

/-- An empty bucket. -/
def Bucket.empty : Bucket := ⟨0, [], none⟩

/-- The counts and the buckets. -/
structure Counts where
  census : Census
  buckets : Buckets

section Count

variable [Strkey] (decoder : XdrDecoder)

/-- The hash under which a transaction is reported. -/
def Json.txHash (tx : Json) : String := (tx.getStr "txHash").getD ""

/-- Decode a transaction, count it, and bucket it if it is a Soroban failure. -/
def failedSoroban (tx : Json) (s : Counts) : Option (String × TransactionModel) × Counts :=
  if tx.getStr "status" ≠ some "FAILED" then (none, s)
  else
    let census := { s.census with failed := s.census.failed + 1 }
    let hash := tx.txHash
    match decodeGetTransaction decoder hash tx with
    | .error _ => (none, ⟨{ census with undecodable := census.undecodable + 1 }, s.buckets⟩)
    | .ok decoded =>
        let model := TransactionModel.fromInput decoded.input
        if !model.isSoroban then
          (none, ⟨{ census with notSoroban := census.notSoroban + 1 }, s.buckets⟩)
        else
          let census := { census with sorobanFailed := census.sorobanFailed + 1 }
          let census :=
            if model.operations.length ≠ 1 then
              { census with unexpectedOperationCount := census.unexpectedOperationCount + 1 }
            else census
          let census :=
            if model.diagnostics.events.isEmpty then
              { census with noDiagnosticEvents := census.noDiagnosticEvents + 1 }
            else census
          let buckets := Grouping.modify
            (fun b => b.add (terminalMessage model.diagnostics) hash (tx.ledger.getD 0)) .empty
            (resultKey model.outcome, errorKey model.diagnostics) s.buckets
          (some (hash, model), ⟨census, buckets⟩)

/-! ## Without the counts -/

/-- What a transaction is to the census. -/
inductive Tallied where
  | notFailed
  | undecodable
  | notSoroban
  | soroban (model : TransactionModel)

/-- What a transaction is. -/
def Json.tallied (tx : Json) : Tallied :=
  if tx.getStr "status" ≠ some "FAILED" then .notFailed
  else
    match decodeGetTransaction decoder tx.txHash tx with
    | .error _ => .undecodable
    | .ok decoded =>
        if (TransactionModel.fromInput decoded.input).isSoroban then
          .soroban (TransactionModel.fromInput decoded.input)
        else .notSoroban

/-- The model, if the transaction is a failed Soroban transaction. -/
def Tallied.model : Tallied → Option TransactionModel
  | .soroban model => some model
  | _ => none

/-- One if the condition holds. -/
def unit (p : Prop) [Decidable p] : Nat := if p then 1 else 0

/-- The counts behind a transaction. -/
def Census.count (c : Census) : Tallied → Census
  | .notFailed => c
  | .undecodable => { c with failed := c.failed + 1, undecodable := c.undecodable + 1 }
  | .notSoroban => { c with failed := c.failed + 1, notSoroban := c.notSoroban + 1 }
  | .soroban model =>
      { c with
        failed := c.failed + 1
        sorobanFailed := c.sorobanFailed + 1
        unexpectedOperationCount := c.unexpectedOperationCount + unit (model.operations.length ≠ 1)
        noDiagnosticEvents := c.noDiagnosticEvents + unit (model.diagnostics.events = []) }

/-- A failed Soroban transaction with its model. -/
abbrev Failure : Type := Json × TransactionModel

/-- The key of a failure's bucket. -/
def Failure.key (f : Failure) : String × String := (resultKey f.2.outcome, errorKey f.2.diagnostics)

/-- One more failure in its bucket. -/
def Failure.addTo (b : Bucket) (f : Failure) : Bucket :=
  b.add (terminalMessage f.2.diagnostics) f.1.txHash (f.1.ledger.getD 0)

/-- The bucket of a failure, if there is one. -/
def Buckets.add (buckets : Buckets) (tx : Json) : Option TransactionModel → Buckets
  | none => buckets
  | some model =>
      Grouping.modify (fun b => Failure.addTo b (tx, model)) .empty (Failure.key (tx, model))
        buckets

/-- **A transaction.**  What is returned and counted is determined by what it is. -/
theorem failedSoroban_eq (tx : Json) (s : Counts) : failedSoroban decoder tx s
    = ((tx.tallied decoder).model.map (fun model => (tx.txHash, model)),
        ⟨s.census.count (tx.tallied decoder), s.buckets.add tx (tx.tallied decoder).model⟩) := by
  unfold failedSoroban Json.tallied
  by_cases hstatus : tx.getStr "status" ≠ some "FAILED"
  · rw [if_pos hstatus, if_pos hstatus]
    rfl
  · rw [if_neg hstatus, if_neg hstatus]
    dsimp only
    cases decodeGetTransaction decoder tx.txHash tx with
    | error e => rfl
    | ok decoded =>
        dsimp only
        cases hsoroban : (TransactionModel.fromInput decoded.input).isSoroban with
        | false => rfl
        | true =>
            rw [if_pos rfl, Bool.not_true, if_neg Bool.false_ne_true]
            simp only [Tallied.model, Option.map_some, Census.count, Buckets.add, Failure.addTo,
              Failure.key, unit, List.isEmpty_iff]
            congr 2
            by_cases hops : (TransactionModel.fromInput decoded.input).operations.length ≠ 1 <;>
              by_cases hevents :
                (TransactionModel.fromInput decoded.input).diagnostics.events = [] <;>
              simp [hops, hevents]

end Count

end Observatory
