/-!
# Failure taxonomy

Where a transaction died (`FailureStage`, an observation derived from the result
code) and what class of cause explains it (`CauseClass`, a rule's claim).
-/

namespace Observatory

/-- Where in the transaction pipeline execution stopped. -/
inductive FailureStage where
  /-- Rejected before any operation ran. -/
  | validation
  /-- The sequence number did not match. -/
  | sequence
  /-- The inclusion fee was insufficient. -/
  | fee
  /-- A classic operation returned a failure code. -/
  | operation
  /-- The host function was malformed. -/
  | hostFunction
  /-- Contract code ran and trapped. -/
  | contractExecution
  /-- A required authorization was missing or invalid. -/
  | auth
  /-- An entry outside the declared footprint was touched. -/
  | footprint
  /-- A required ledger entry was archived. -/
  | stateArchival
  /-- A metered resource limit was exceeded. -/
  | resourceLimit
  /-- The refundable resource fee was insufficient. -/
  | resourceFee
  /-- The available data does not identify a stage. -/
  | unknown
  deriving DecidableEq

/-- The stable identifier of a stage, which is also how it is printed. -/
def FailureStage.id : FailureStage → String
  | .validation => "validation"
  | .sequence => "sequence"
  | .fee => "fee"
  | .operation => "operation"
  | .hostFunction => "host_function"
  | .contractExecution => "contract_execution"
  | .auth => "auth"
  | .footprint => "footprint"
  | .stateArchival => "state_archival"
  | .resourceLimit => "resource_limit"
  | .resourceFee => "resource_fee"
  | .unknown => "unknown"

instance : ToString FailureStage := ⟨FailureStage.id⟩

/-- A description of a stage, in one line. -/
def FailureStage.description : FailureStage → String
  | .validation => "rejected before any operation ran"
  | .sequence => "sequence number mismatch"
  | .fee => "inclusion fee could not be paid"
  | .operation => "a classic (non-Soroban) operation failed"
  | .hostFunction => "Soroban host function was malformed"
  | .contractExecution => "Soroban contract execution trapped"
  | .auth => "Soroban authorization failed"
  | .footprint => "Soroban footprint did not cover an accessed entry"
  | .stateArchival => "a required ledger entry was archived"
  | .resourceLimit => "a Soroban resource limit was exceeded"
  | .resourceFee => "the refundable resource fee was insufficient"
  | .unknown => "not determinable from the available data"

/-- The class of root cause a rule concluded. -/
inductive CauseClass where
  | missingAuthorizationEntry
  | invalidAuthorizationEntry
  | footprintEntryMissing
  | archivedEntryRequiresRestore
  | resourceLimitExceeded
  | insufficientResourceFee
  | contractDefinedError
  | contractTrap
  | malformedHostFunction
  | undetermined
  deriving DecidableEq

/-- The stable identifier of a class, which is also how it is printed. -/
def CauseClass.id : CauseClass → String
  | .missingAuthorizationEntry => "missing_authorization_entry"
  | .invalidAuthorizationEntry => "invalid_authorization_entry"
  | .footprintEntryMissing => "footprint_entry_missing"
  | .archivedEntryRequiresRestore => "archived_entry_requires_restore"
  | .resourceLimitExceeded => "resource_limit_exceeded"
  | .insufficientResourceFee => "insufficient_resource_fee"
  | .contractDefinedError => "contract_defined_error"
  | .contractTrap => "contract_trap"
  | .malformedHostFunction => "malformed_host_function"
  | .undetermined => "undetermined"

instance : ToString CauseClass := ⟨CauseClass.id⟩

end Observatory
