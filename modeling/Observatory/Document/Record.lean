import Observatory.Document.Codec
import Observatory.Rpc.Cluster

/-!
# Records as documents

One line of the pilot's file: how a `PilotRecord` is written as JSON and read back
(`cluster.rs`).

* `PilotRecord.serialize`, `PilotRecord.deserialize` — a record.
* `PilotRecord.deserialize_serialize` — what is written is read back.
-/

namespace Observatory

/-- `UnresolvedCode`: each variant is written as its reason. -/
def UnresolvedCode.codec : Codec UnresolvedCode :=
  .variants UnresolvedCode.reason [.instanceUnavailable, .notInFootprint, .unsupportedExecutable]
    (by intro a; cases a <;> rfl)

namespace PilotRecord

/-- A record as JSON. -/
def serialize (r : PilotRecord) : Json :=
  .object [("transaction_hash", Codec.string.serialize r.transactionHash),
    ("inner_transaction_hash", Codec.string.serializeOption r.innerTransactionHash),
    ("ledger", Codec.u32.serialize r.ledger),
    ("fee_bumped", Codec.bool.serialize r.feeBumped),
    ("operation_count", .number (toString r.operationCount)),
    ("diagnostic_event_count", .number (toString r.diagnosticEventCount)),
    ("submitter_cluster", Codec.string.serialize r.submitterCluster),
    ("root_contract_id", Codec.string.serializeOption r.rootContractId),
    ("instance_lookup", Codec.string.serializeOption r.instanceLookup),
    ("code_cluster", Codec.string.serializeOption r.codeCluster),
    ("code_unresolved_reason", UnresolvedCode.codec.serializeOption r.codeUnresolvedReason),
    ("terminal_error", Codec.string.serializeOption r.terminalError)]

/-- A record from JSON. -/
def deserialize (j : Json) : Option PilotRecord := return {
  transactionHash := ← Codec.string.field j "transaction_hash"
  innerTransactionHash := ← Codec.string.optionalField j "inner_transaction_hash"
  ledger := ← Codec.u32.field j "ledger"
  feeBumped := ← Codec.bool.field j "fee_bumped"
  operationCount := ← Codec.readField UInt64.size j "operation_count"
  diagnosticEventCount := ← Codec.readField UInt64.size j "diagnostic_event_count"
  submitterCluster := ← Codec.string.field j "submitter_cluster"
  rootContractId := ← Codec.string.optionalField j "root_contract_id"
  instanceLookup := ← Codec.string.optionalField j "instance_lookup"
  codeCluster := ← Codec.string.optionalField j "code_cluster"
  codeUnresolvedReason := ← UnresolvedCode.codec.optionalField j "code_unresolved_reason"
  terminalError := ← Codec.string.optionalField j "terminal_error" }

/-- The counts of a record are those of a machine. -/
structure Fits (r : PilotRecord) : Prop where
  operationCount_lt : r.operationCount < UInt64.size
  diagnosticEventCount_lt : r.diagnosticEventCount < UInt64.size

instance (r : PilotRecord) : Decidable r.Fits :=
  decidable_of_iff (r.operationCount < UInt64.size ∧ r.diagnosticEventCount < UInt64.size)
    ⟨fun h => ⟨h.1, h.2⟩, fun h => ⟨h.1, h.2⟩⟩

/-- What is written is read back. -/
theorem deserialize_serialize (r : PilotRecord) (h : r.Fits) :
    deserialize r.serialize = some r := by
  have hoperations : r.serialize.values "operation_count"
      = [.number (toString r.operationCount)] := rfl
  have hevents : r.serialize.values "diagnostic_event_count"
      = [.number (toString r.diagnosticEventCount)] := rfl
  unfold deserialize
  rw [Codec.field_eq Codec.string (a := r.transactionHash) rfl,
    Codec.optionalField_eq Codec.string (a := r.innerTransactionHash) rfl,
    Codec.field_eq Codec.u32 (a := r.ledger) rfl, Codec.field_eq Codec.bool (a := r.feeBumped) rfl,
    Codec.readField_eq hoperations h.operationCount_lt (Nat.le_refl _),
    Codec.readField_eq hevents h.diagnosticEventCount_lt (Nat.le_refl _),
    Codec.field_eq Codec.string (a := r.submitterCluster) rfl,
    Codec.optionalField_eq Codec.string (a := r.rootContractId) rfl,
    Codec.optionalField_eq Codec.string (a := r.instanceLookup) rfl,
    Codec.optionalField_eq Codec.string (a := r.codeCluster) rfl,
    Codec.optionalField_eq UnresolvedCode.codec (a := r.codeUnresolvedReason) rfl,
    Codec.optionalField_eq Codec.string (a := r.terminalError) rfl]
  rfl

/-! ## Read loosely

What a reader of the JSON value finds under a key. -/

theorem getStr_transactionHash (r : PilotRecord) :
    r.serialize.getStr "transaction_hash" = some r.transactionHash := rfl

theorem getStr_innerTransactionHash (r : PilotRecord) :
    r.serialize.getStr "inner_transaction_hash" = r.innerTransactionHash := by
  have hvalue : r.serialize.getStr "inner_transaction_hash"
      = (Codec.string.serializeOption r.innerTransactionHash).asStr := rfl
  rw [hvalue, Codec.asStr_serializeOption]

theorem getStr_codeCluster (r : PilotRecord) :
    r.serialize.getStr "code_cluster" = r.codeCluster := by
  have hvalue : r.serialize.getStr "code_cluster"
      = (Codec.string.serializeOption r.codeCluster).asStr := rfl
  rw [hvalue, Codec.asStr_serializeOption]

end PilotRecord

end Observatory
