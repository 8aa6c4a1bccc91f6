import Observatory.Xdr.Result

/-!
# Result codes as names

Stable names for the arms of a result (`result_codes.rs` of the probe): naming,
not diagnosis.  A fee bump is unwrapped, because its failure is in the inner
result.
-/

namespace Observatory

namespace Probe

/-- Result-code names for one transaction. -/
structure FailureSignal where
  /-- Name of the outer arm. -/
  transactionResult : String
  /-- Whether the transaction was fee-bumped. -/
  feeBumped : Bool
  /-- Name of the inner arm, when fee-bumped. -/
  innerTransactionResult : Option String
  /-- Names of the operation arms, in order, from the level that carried operations. -/
  operationResults : List String
  /-- Whether an `InvokeHostFunction` operation reported a non-success arm. -/
  failedInContractExecution : Bool
  deriving DecidableEq

def invokeHostFunctionArm : InvokeHostFunctionResult → String
  | .success _ => "invoke_host_function_success"
  | .malformed => "invoke_host_function_malformed"
  | .trapped => "invoke_host_function_trapped"
  | .resourceLimitExceeded => "invoke_host_function_resource_limit_exceeded"
  | .entryArchived => "invoke_host_function_entry_archived"
  | .insufficientRefundableFee => "invoke_host_function_insufficient_refundable_fee"

/-- The name of an operation's arm, and whether contract execution failed there. -/
def operationResultName : OperationResult → String × Bool
  | .opInner (.invokeHostFunction r) =>
      (invokeHostFunctionArm r, match r with
        | .success _ => false
        | _ => true)
  | .opInner (.extendFootprintTtl _) => ("extend_footprint_ttl", false)
  | .opInner (.restoreFootprint _) => ("restore_footprint", false)
  | .opInner (.classic _ _) => ("op_inner_classic", false)
  | .opBadAuth => ("op_bad_auth", false)
  | .opNoAccount => ("op_no_account", false)
  | .opNotSupported => ("op_not_supported", false)
  | .opTooManySubentries => ("op_too_many_subentries", false)
  | .opExceededWorkLimit => ("op_exceeded_work_limit", false)
  | .opTooManySponsoring => ("op_too_many_sponsoring", false)

/-- The names of the operations, and whether contract execution failed in any. -/
def collectOps (ops : List OperationResult) : List String × Bool :=
  let named := ops.map operationResultName
  (named.map Prod.fst, named.any Prod.snd)

/-- The name of an outer arm. -/
def bareOuterArm : TransactionResultResult → String
  | .txTooEarly => "tx_too_early"
  | .txTooLate => "tx_too_late"
  | .txMissingOperation => "tx_missing_operation"
  | .txBadSeq => "tx_bad_seq"
  | .txBadAuth => "tx_bad_auth"
  | .txInsufficientBalance => "tx_insufficient_balance"
  | .txNoAccount => "tx_no_account"
  | .txInsufficientFee => "tx_insufficient_fee"
  | .txBadAuthExtra => "tx_bad_auth_extra"
  | .txInternalError => "tx_internal_error"
  | .txNotSupported => "tx_not_supported"
  | .txBadSponsorship => "tx_bad_sponsorship"
  | .txBadMinSeqAgeOrGap => "tx_bad_min_seq_age_or_gap"
  | .txMalformed => "tx_malformed"
  | .txSorobanInvalid => "tx_soroban_invalid"
  | .txFrozenKeyAccessed => "tx_frozen_key_accessed"
  | .txSuccess _ => "tx_success"
  | .txFailed _ => "tx_failed"
  | .txFeeBumpInnerSuccess _ => "tx_fee_bump_inner_success"
  | .txFeeBumpInnerFailed _ => "tx_fee_bump_inner_failed"

/-- The name of an inner arm. -/
def innerArm : InnerTransactionResultResult → String
  | .txSuccess _ => "tx_success"
  | .txFailed _ => "tx_failed"
  | .txTooEarly => "tx_too_early"
  | .txTooLate => "tx_too_late"
  | .txMissingOperation => "tx_missing_operation"
  | .txBadSeq => "tx_bad_seq"
  | .txBadAuth => "tx_bad_auth"
  | .txInsufficientBalance => "tx_insufficient_balance"
  | .txNoAccount => "tx_no_account"
  | .txInsufficientFee => "tx_insufficient_fee"
  | .txBadAuthExtra => "tx_bad_auth_extra"
  | .txInternalError => "tx_internal_error"
  | .txNotSupported => "tx_not_supported"
  | .txBadSponsorship => "tx_bad_sponsorship"
  | .txBadMinSeqAgeOrGap => "tx_bad_min_seq_age_or_gap"
  | .txMalformed => "tx_malformed"
  | .txSorobanInvalid => "tx_soroban_invalid"
  | .txFrozenKeyAccessed => "tx_frozen_key_accessed"

/-- Extract result-code names, unwrapping fee bumps. -/
def failureSignal (result : TransactionResult) : FailureSignal :=
  let outer := bareOuterArm result.result
  match result.result with
  | .txFailed ops | .txSuccess ops => ⟨outer, false, none, (collectOps ops).1, (collectOps ops).2⟩
  | .txFeeBumpInnerFailed pair | .txFeeBumpInnerSuccess pair =>
      let ops := match pair.result with
        | .txFailed ops | .txSuccess ops => collectOps ops
        | _ => ([], false)
      ⟨outer, true, some (innerArm pair.result), ops.1, ops.2⟩
  | _ => ⟨outer, false, none, [], false⟩

/-- The arm that describes the failure. -/
def FailureSignal.effectiveResult (signal : FailureSignal) : String :=
  signal.innerTransactionResult.getD signal.transactionResult

end Probe

end Observatory
