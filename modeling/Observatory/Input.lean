import Observatory.Contract.Spec
import Observatory.Xdr.Result
import Observatory.Xdr.Transaction

/-!
# Analysis input

Everything the analyser is told (`input.rs`).  It fetches nothing itself, so an
analysis is a function of this record.
-/

namespace Observatory

/-- Decoded artifacts of a single transaction. -/
structure AnalysisInput where
  /-- Hex-encoded transaction hash, if known. -/
  transactionHash : Option String
  /-- The submitted envelope. -/
  envelope : TransactionEnvelope
  /-- The transaction result. -/
  result : TransactionResult
  /-- Transaction metadata, when the caller had it. -/
  txMeta : Option TransactionMeta
  /-- Diagnostic events, in the order returned. -/
  diagnosticEvents : List DiagnosticEvent
  /-- Whether the source node was known to emit diagnostic events at all. -/
  diagnosticsEnabled : Bool
  /-- Contract specs, keyed by contract. -/
  contractSpecs : ContractId → Option SpecAvailability

namespace AnalysisInput

/-- Start from the two artifacts that are always required. -/
def builder (envelope : TransactionEnvelope) (result : TransactionResult) : AnalysisInput :=
  { transactionHash := none
    envelope
    result
    txMeta := none
    diagnosticEvents := []
    diagnosticsEnabled := false
    contractSpecs := fun _ => none }

/-- `AnalysisInputBuilder::transaction_hash`. -/
def withTransactionHash (hash : String) (input : AnalysisInput) : AnalysisInput :=
  { input with transactionHash := some hash }

/-- `AnalysisInputBuilder::meta`. -/
def withMeta (txMeta : TransactionMeta) (input : AnalysisInput) : AnalysisInput :=
  { input with txMeta := some txMeta }

/-- `AnalysisInputBuilder::diagnostic_events`: attach events, and record that the
node emits them. -/
def withDiagnosticEvents (events : List DiagnosticEvent) (input : AnalysisInput) :
    AnalysisInput :=
  { input with diagnosticEvents := events, diagnosticsEnabled := true }

/-- Whether diagnostic-event evidence is usable for this input. -/
def hasDiagnosticEvidence (input : AnalysisInput) : Bool :=
  input.diagnosticsEnabled && !input.diagnosticEvents.isEmpty

/-- Attach contract specs obtained after decoding; they replace those already there. -/
def withContractSpecs (specs : ContractId → Option SpecAvailability) (input : AnalysisInput) :
    AnalysisInput :=
  { input with contractSpecs := fun c => (specs c).or (input.contractSpecs c) }

end AnalysisInput

end Observatory
