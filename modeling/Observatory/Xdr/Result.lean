import Observatory.Xdr.Transaction

/-!
# XDR results

Transaction and operation results.  The result of a classic operation is
reduced to what the classifier reads of it, the name and the discriminant of its
arm; the three Soroban results are spelled out.

The effective result of a fee-bumped transaction has a type of its own
(`InnerTransactionResultResult`), without the two fee-bump arms.
-/

namespace Observatory

/-! ## Operation results -/

/-- The result union of a classic operation: the XDR name of its arm, and the
discriminant, which is zero for success and negative otherwise. -/
structure ClassicResult where
  /-- The XDR name of the arm, e.g. `"Underfunded"`. -/
  name : String
  /-- The arm's discriminant. -/
  discriminant : Int32
  deriving DecidableEq

/-- The result of `InvokeHostFunction`. -/
inductive InvokeHostFunctionResult where
  | success (hash : Hash)
  | malformed | trapped | resourceLimitExceeded | entryArchived | insufficientRefundableFee
  deriving DecidableEq

/-- The XDR name of the arm. -/
def InvokeHostFunctionResult.name : InvokeHostFunctionResult → String
  | .success _ => "Success"
  | .malformed => "Malformed"
  | .trapped => "Trapped"
  | .resourceLimitExceeded => "ResourceLimitExceeded"
  | .entryArchived => "EntryArchived"
  | .insufficientRefundableFee => "InsufficientRefundableFee"

/-- The discriminant of the arm. -/
def InvokeHostFunctionResult.discriminant : InvokeHostFunctionResult → Int32
  | .success _ => 0
  | .malformed => -1
  | .trapped => -2
  | .resourceLimitExceeded => -3
  | .entryArchived => -4
  | .insufficientRefundableFee => -5

/-- The result of `ExtendFootprintTtl`. -/
inductive ExtendFootprintTtlResult where
  | success | malformed | resourceLimitExceeded | insufficientRefundableFee
  deriving DecidableEq

/-- The XDR name of the arm. -/
def ExtendFootprintTtlResult.name : ExtendFootprintTtlResult → String
  | .success => "Success"
  | .malformed => "Malformed"
  | .resourceLimitExceeded => "ResourceLimitExceeded"
  | .insufficientRefundableFee => "InsufficientRefundableFee"

/-- The discriminant of the arm. -/
def ExtendFootprintTtlResult.discriminant : ExtendFootprintTtlResult → Int32
  | .success => 0
  | .malformed => -1
  | .resourceLimitExceeded => -2
  | .insufficientRefundableFee => -3

/-- The result of `RestoreFootprint`. -/
inductive RestoreFootprintResult where
  | success | malformed | resourceLimitExceeded | insufficientRefundableFee
  deriving DecidableEq

/-- The XDR name of the arm. -/
def RestoreFootprintResult.name : RestoreFootprintResult → String
  | .success => "Success"
  | .malformed => "Malformed"
  | .resourceLimitExceeded => "ResourceLimitExceeded"
  | .insufficientRefundableFee => "InsufficientRefundableFee"

/-- The discriminant of the arm. -/
def RestoreFootprintResult.discriminant : RestoreFootprintResult → Int32
  | .success => 0
  | .malformed => -1
  | .resourceLimitExceeded => -2
  | .insufficientRefundableFee => -3

/-- The result of an operation that ran. -/
inductive OperationResultTr where
  | classic (type : ClassicOperation) (result : ClassicResult)
  | invokeHostFunction (result : InvokeHostFunctionResult)
  | extendFootprintTtl (result : ExtendFootprintTtlResult)
  | restoreFootprint (result : RestoreFootprintResult)
  deriving DecidableEq

/-- The XDR name of the operation type. -/
def OperationResultTr.name : OperationResultTr → String
  | .classic type _ => type.name
  | .invokeHostFunction _ => "InvokeHostFunction"
  | .extendFootprintTtl _ => "ExtendFootprintTtl"
  | .restoreFootprint _ => "RestoreFootprint"

/-- The result of an operation. -/
inductive OperationResult where
  | opInner (tr : OperationResultTr)
  | opBadAuth | opNoAccount | opNotSupported | opTooManySubentries | opExceededWorkLimit
  | opTooManySponsoring
  deriving DecidableEq

/-- The XDR name of the arm. -/
def OperationResult.name : OperationResult → String
  | .opInner _ => "OpInner"
  | .opBadAuth => "OpBadAuth"
  | .opNoAccount => "OpNoAccount"
  | .opNotSupported => "OpNotSupported"
  | .opTooManySubentries => "OpTooManySubentries"
  | .opExceededWorkLimit => "OpExceededWorkLimit"
  | .opTooManySponsoring => "OpTooManySponsoring"

/-! ## Transaction results -/

/-- The result inside a fee-bump wrapper. -/
inductive InnerTransactionResultResult where
  | txSuccess (results : List OperationResult)
  | txFailed (results : List OperationResult)
  | txTooEarly | txTooLate | txMissingOperation | txBadSeq | txBadAuth | txInsufficientBalance
  | txNoAccount | txInsufficientFee | txBadAuthExtra | txInternalError | txNotSupported
  | txBadSponsorship | txBadMinSeqAgeOrGap | txMalformed | txSorobanInvalid | txFrozenKeyAccessed

/-- The XDR name of the arm. -/
def InnerTransactionResultResult.name : InnerTransactionResultResult → String
  | .txSuccess _ => "TxSuccess"
  | .txFailed _ => "TxFailed"
  | .txTooEarly => "TxTooEarly"
  | .txTooLate => "TxTooLate"
  | .txMissingOperation => "TxMissingOperation"
  | .txBadSeq => "TxBadSeq"
  | .txBadAuth => "TxBadAuth"
  | .txInsufficientBalance => "TxInsufficientBalance"
  | .txNoAccount => "TxNoAccount"
  | .txInsufficientFee => "TxInsufficientFee"
  | .txBadAuthExtra => "TxBadAuthExtra"
  | .txInternalError => "TxInternalError"
  | .txNotSupported => "TxNotSupported"
  | .txBadSponsorship => "TxBadSponsorship"
  | .txBadMinSeqAgeOrGap => "TxBadMinSeqAgeOrGap"
  | .txMalformed => "TxMalformed"
  | .txSorobanInvalid => "TxSorobanInvalid"
  | .txFrozenKeyAccessed => "TxFrozenKeyAccessed"

/-- The result of the wrapped transaction, with the hash that identifies it. -/
structure InnerTransactionResultPair where
  /-- Hash of the inner transaction. -/
  transactionHash : Hash
  /-- Fee charged against the inner transaction. -/
  feeCharged : Int64
  /-- Its result. -/
  result : InnerTransactionResultResult

/-- The outermost result. -/
inductive TransactionResultResult where
  | txFeeBumpInnerSuccess (pair : InnerTransactionResultPair)
  | txSuccess (results : List OperationResult)
  | txFailed (results : List OperationResult)
  | txTooEarly | txTooLate | txMissingOperation | txBadSeq | txBadAuth | txInsufficientBalance
  | txNoAccount | txInsufficientFee | txBadAuthExtra | txInternalError | txNotSupported
  | txFeeBumpInnerFailed (pair : InnerTransactionResultPair)
  | txBadSponsorship | txBadMinSeqAgeOrGap | txMalformed | txSorobanInvalid | txFrozenKeyAccessed

/-- The XDR name of the arm. -/
def TransactionResultResult.name : TransactionResultResult → String
  | .txFeeBumpInnerSuccess _ => "TxFeeBumpInnerSuccess"
  | .txSuccess _ => "TxSuccess"
  | .txFailed _ => "TxFailed"
  | .txTooEarly => "TxTooEarly"
  | .txTooLate => "TxTooLate"
  | .txMissingOperation => "TxMissingOperation"
  | .txBadSeq => "TxBadSeq"
  | .txBadAuth => "TxBadAuth"
  | .txInsufficientBalance => "TxInsufficientBalance"
  | .txNoAccount => "TxNoAccount"
  | .txInsufficientFee => "TxInsufficientFee"
  | .txBadAuthExtra => "TxBadAuthExtra"
  | .txInternalError => "TxInternalError"
  | .txNotSupported => "TxNotSupported"
  | .txFeeBumpInnerFailed _ => "TxFeeBumpInnerFailed"
  | .txBadSponsorship => "TxBadSponsorship"
  | .txBadMinSeqAgeOrGap => "TxBadMinSeqAgeOrGap"
  | .txMalformed => "TxMalformed"
  | .txSorobanInvalid => "TxSorobanInvalid"
  | .txFrozenKeyAccessed => "TxFrozenKeyAccessed"

/-- A transaction result. -/
structure TransactionResult where
  /-- Fee charged, in stroops. -/
  feeCharged : Int64
  /-- The outermost result. -/
  result : TransactionResultResult

end Observatory
