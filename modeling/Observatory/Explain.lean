import Observatory.Analyze
import Observatory.Document.Diagnosis
import Observatory.Render
import Observatory.Rpc.Client
import Observatory.Rpc.Fixture

/-!
# The command

`sdo explain` (`main.rs`): a transaction is fetched, or loaded from a fixture, the specs its
contract errors need are obtained, it is analysed, and the report or the document is printed.

* `explain` — what is reported of a transaction.
* `run` — what is printed of it.
-/

namespace Observatory

/-- Why there is no explanation. -/
inductive ExplainError where
  | fixture (error : FixtureError)
  | rpc (error : RpcError)
  | noTransaction

/-- The text of an error. -/
def ExplainError.text : ExplainError → String
  | .fixture e => e.text
  | .rpc e => e.text
  | .noTransaction => "provide a transaction hash, or --fixture <dir>"

/-- What the command prints. -/
inductive Printed where
  | document (document : Json)
  /-- The text, absent where the program panics. -/
  | report (text : Option String)

/-- What the command is given. -/
structure ExplainArgs where
  tx : Option String
  fixture : Option Fixture
  contracts : Option FixtureContracts

section Explain

variable [Strkey] (xdr : XdrDecoder) (entry : EntryDecoder) (specs : SpecDecoder)
  (encode : KeyEncoder) (endpoint : Endpoint)

/-- The decoded transaction, and whether the endpoint is in use. -/
def ExplainArgs.decoded (args : ExplainArgs) : Except ExplainError (DecodedTransaction × Bool) :=
  match args.fixture, args.tx with
  | some fixture, _ => ((fixture.load xdr).mapError .fixture).map (fun d => (d, false))
  | none, some hash => ((endpoint.fetchTransaction xdr hash).mapError .rpc).map (fun d => (d, true))
  | none, none => .error .noTransaction

omit [Strkey] in
theorem ExplainArgs.decoded_fixture {args : ExplainArgs} {fixture : Fixture}
    (h : args.fixture = some fixture) :
    args.decoded xdr endpoint
      = ((fixture.load xdr).mapError ExplainError.fixture).map (fun d => (d, false)) := by
  rw [decoded, h]

omit [Strkey] in
theorem ExplainArgs.decoded_tx {args : ExplainArgs} {hash : String} (hfixture : args.fixture = none)
    (h : args.tx = some hash) :
    args.decoded xdr endpoint
      = ((endpoint.fetchTransaction xdr hash).mapError ExplainError.rpc).map
        (fun d => (d, true)) := by
  rw [decoded, hfixture, h]

/-- The specs that are obtained: from the endpoint, from recordings, or none. -/
def ExplainArgs.fetched (args : ExplainArgs) (live : Bool) (needed : List ContractId) :
    ContractId → Option SpecAvailability :=
  if live then fetchSpecs specs ((endpoint.client encode).source entry) needed
  else
    match args.contracts with
    | some dir => fetchSpecs specs (dir.source entry encode) needed
    | none => fun _ => none

/-- The model and the diagnosis that are reported. -/
def explain (args : ExplainArgs) : Except ExplainError (TransactionModel × Diagnosis) := do
  let (decoded, live) ← args.decoded xdr endpoint
  let model := TransactionModel.fromInput decoded.input
  let found := args.fetched entry specs encode endpoint live (contractsNeedingSpecs model)
  .ok (model, analyze (decoded.input.withContractSpecs found))

theorem explain_of_error {args : ExplainArgs} {e : ExplainError}
    (h : args.decoded xdr endpoint = .error e) :
    explain xdr entry specs encode endpoint args = .error e := by
  rw [explain, h]
  rfl

theorem explain_of_ok {args : ExplainArgs} {d : DecodedTransaction} {live : Bool}
    (h : args.decoded xdr endpoint = .ok (d, live)) :
    explain xdr entry specs encode endpoint args
      = .ok (.fromInput d.input, analyze (d.input.withContractSpecs
        (args.fetched entry specs encode endpoint live
          (contractsNeedingSpecs (.fromInput d.input))))) := by
  rw [explain, h]
  rfl

/-- The command: with `--json` it prints the document, else the report. -/
def run (contracts : ContractParser) (args : ExplainArgs) (json : Bool) :
    Except ExplainError Printed := do
  let (model, diagnosis) ← explain xdr entry specs encode endpoint args
  .ok (if json then .document (ExplainOutput.serialize contracts diagnosis)
    else .report (Render.report model diagnosis))

/-- What is printed, or the text of the error, is made of what is reported. -/
theorem run_mapError (contracts : ContractParser) (args : ExplainArgs) (json : Bool) :
    (run xdr entry specs encode endpoint contracts args json).mapError ExplainError.text
      = ((explain xdr entry specs encode endpoint args).mapError ExplainError.text).map
        (fun p => if json then .document (ExplainOutput.serialize contracts p.2)
          else .report (Render.report p.1 p.2)) := by
  unfold run
  cases explain xdr entry specs encode endpoint args <;> rfl

end Explain

end Observatory
