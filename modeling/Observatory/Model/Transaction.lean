import Observatory.Input
import Observatory.Model.Diagnostics
import Observatory.Model.Outcome
import Observatory.Model.Soroban

/-!
# The transaction model

The one representation of a transaction the rules work against
(`model/mod.rs`).  Building it is total: what is surprising about the input goes
into `notes`.
-/

namespace Observatory

/-- A decoded transaction, reduced to what diagnosis needs. -/
structure TransactionModel where
  /-- Hex transaction hash, if supplied. -/
  hash : Option String
  /-- The fee-bump wrapper, if the envelope was fee-bumped. -/
  feeBump : Option FeeBump
  /-- Source account of the inner transaction, as a strkey. -/
  sourceAccount : String
  /-- Fee offered by the inner transaction, in stroops. -/
  fee : UInt32
  /-- Operations of the inner transaction. -/
  operations : List Operation
  /-- Soroban data; absent for classic transactions. -/
  soroban : Option SorobanData
  /-- What the result says happened. -/
  outcome : Outcome
  /-- Diagnostic events, classified. -/
  diagnostics : Diagnostics
  /-- Consumption reported by the host and fees charged. -/
  observed : ObservedResources
  /-- Anything inconsistent or surprising found while building the model. -/
  notes : List String

namespace TransactionModel

/-- The note on an envelope and a result that disagree about fee bumping. -/
def feeBumpNote (envelope result : Bool) : List String :=
  if envelope != result then
    let env := if envelope then "fee-bumped" else "not fee-bumped"
    let res := if result then "fee-bump wrapper" else "plain"
    [s!"Envelope and result disagree about fee bumping (envelope: {env}, result: {res})."]
  else []

/-- The note on Soroban data without a Soroban operation. -/
def sorobanNote (soroban : Option SorobanData) (operations : List Operation) : List String :=
  if soroban.isSome && !operations.any (fun op => op.kind.isSoroban) then
    ["Soroban transaction data is present but no Soroban operation is."]
  else []

section FromInput

variable [Strkey]

/-- Build the model from decoded input. -/
def fromInput (input : AnalysisInput) : TransactionModel :=
  let env := unwrap input.envelope
  let ops := Observatory.operations env.operations.items
  let soroban := match env.ext with
    | some (.v1 data) => some (SorobanData.fromXdr data ops env.operations.items)
    | _ => none
  let outcome := Outcome.classify input.result
  let diagnostics := Diagnostics.fromEvents input.diagnosticEvents input.diagnosticsEnabled
  { hash := input.transactionHash
    feeBump := env.feeBump
    sourceAccount := env.sourceAccount
    fee := env.fee
    operations := ops
    soroban
    outcome
    diagnostics
    observed := ⟨diagnostics.coreMetrics, feesCharged input.txMeta⟩
    notes := feeBumpNote env.feeBump.isSome outcome.feeBump.isSome ++ sorobanNote soroban ops }

/-- **Soroban data.**  A model has Soroban data exactly when its envelope does, and it is
that of the envelope. -/
theorem soroban_fromInput (input : AnalysisInput) :
    (fromInput input).soroban = (sorobanTransactionData input.envelope).map (fun data =>
      SorobanData.fromXdr data (Observatory.operations (envelopeOperations input.envelope))
        (envelopeOperations input.envelope)) := by
  unfold fromInput
  cases input.envelope with
  | tx tx =>
      cases hext : tx.ext <;>
        simp [unwrap, unwrap.fromTx, sorobanTransactionData, envelopeOperations, hext]
  | txFeeBump tx =>
      cases hext : tx.innerTx.ext <;>
        simp [unwrap, unwrap.fromTx, sorobanTransactionData, envelopeOperations, hext]
  | txV0 tx => rfl

/-- The footprint and the authorization entries of a model are those of the envelope, in
order. -/
theorem fromInput_soroban {input : AnalysisInput} {soroban : SorobanData}
    (h : (fromInput input).soroban = some soroban) :
    ∃ data, sorobanTransactionData input.envelope = some data ∧
      soroban.footprint = ⟨data.footprint.readOnly, data.footprint.readWrite⟩ ∧
      soroban.auth = (envelopeAuth input.envelope).mapIdx
        (fun i e => AuthEntry.fromXdr (u32OrMax i) e) := by
  rw [soroban_fromInput] at h
  obtain ⟨data, hdata, rfl⟩ := Option.map_eq_some_iff.mp h
  have hlen : (envelopeOperations input.envelope).length ≤ 100 :=
    envelopeOperations_length_le input.envelope
  exact ⟨data, hdata, rfl, fromXdr_auth hlen data⟩

end FromInput

/-- Where the transaction failed; absent when it succeeded. -/
def stage (model : TransactionModel) : Option FailureStage := model.outcome.stage

/-- Whether the envelope was fee-bumped. -/
def isFeeBumped (model : TransactionModel) : Bool := model.feeBump.isSome

/-- The contract invocation, if the transaction calls a contract. -/
def invocation (model : TransactionModel) : Option Invocation :=
  model.operations.findSome? (fun op => match op.kind with
    | .invokeHostFunction _ invocation => invocation
    | _ => none)

/-- Whether the transaction contains any Soroban operation. -/
def isSoroban (model : TransactionModel) : Bool :=
  model.operations.any (fun op => op.kind.isSoroban)

end TransactionModel

end Observatory
