import Observatory.Xdr.Result
import Observatory.Taxonomy

/-!
# Result classification

`TransactionResult` to `Outcome` and `FailureStage`
(`model/outcome.rs`).  A fee-bumped transaction's result is a wrapper whose
outer arm says nothing about the cause; `classify` unwraps it and records the
wrapper in `FeeBumpResult`.

The plain and the wrapped result have types of their own and classifiers of
their own, `outerLevel` and `innerLevel`.  `effectiveResults` and
`FirstFailure` say what both of them look for, and `Outcome.classify_eq` and
`firstFailedOperation_eq_some` that they find it.
-/

namespace Observatory

/-- The wrapper recorded when a transaction was fee-bumped. -/
structure FeeBumpResult where
  /-- The outer result arm. -/
  outerCode : String
  /-- Hash of the inner transaction. -/
  innerTransactionHash : Hash
  /-- Fee charged against the inner transaction. -/
  innerFeeCharged : Int64

/-- The operation whose result code made the transaction fail. -/
structure FailedOperation where
  /-- Zero-based index of the operation. -/
  index : UInt32
  /-- Operation type; absent for a generic wrapper code. -/
  operation : Option String
  /-- Result code. -/
  code : String
  deriving DecidableEq

/-- What the transaction result says happened, with fee bumps unwrapped. -/
structure Outcome where
  /-- Fee charged, from the outermost result. -/
  feeCharged : Int64
  /-- Present when the result was a fee-bump wrapper. -/
  feeBump : Option FeeBumpResult
  /-- The effective result code. -/
  resultCode : String
  /-- The first operation whose result was not a success. -/
  failedOperation : Option FailedOperation
  /-- Where the transaction failed; absent when it succeeded. -/
  stage : Option FailureStage

/-- A transaction-level result, after fee-bump unwrapping. -/
inductive Level where
  | success (code : String)
  | failed (code : String) (ops : List OperationResult)
  /-- Rejected before or instead of running operations. -/
  | rejected (code : String) (stage : FailureStage)

/-- `outer_level`. -/
def outerLevel (r : TransactionResultResult) : Level :=
  let code := r.name
  match r with
  | .txSuccess _ => .success code
  | .txFailed ops => .failed code ops
  -- never reached through `classify`, which unwraps these two first
  | .txFeeBumpInnerSuccess _ | .txFeeBumpInnerFailed _ => .rejected code .unknown
  | .txTooEarly | .txTooLate | .txMissingOperation | .txBadAuth | .txBadAuthExtra | .txNoAccount
  | .txNotSupported | .txBadSponsorship | .txMalformed | .txSorobanInvalid =>
      .rejected code .validation
  | .txBadSeq | .txBadMinSeqAgeOrGap => .rejected code .sequence
  | .txInsufficientFee | .txInsufficientBalance => .rejected code .fee
  | .txInternalError => .rejected code .unknown
  | .txFrozenKeyAccessed => .rejected code .unknown

/-- `inner_level`. -/
def innerLevel (r : InnerTransactionResultResult) : Level :=
  let code := r.name
  match r with
  | .txSuccess _ => .success code
  | .txFailed ops => .failed code ops
  | .txTooEarly | .txTooLate | .txMissingOperation | .txBadAuth | .txBadAuthExtra | .txNoAccount
  | .txNotSupported | .txBadSponsorship | .txMalformed | .txSorobanInvalid =>
      .rejected code .validation
  | .txBadSeq | .txBadMinSeqAgeOrGap => .rejected code .sequence
  | .txInsufficientFee | .txInsufficientBalance => .rejected code .fee
  | .txInternalError => .rejected code .unknown
  | .txFrozenKeyAccessed => .rejected code .unknown

/-- The stage implied by a failed Soroban operation; absent for a success and
for classic operations. -/
def sorobanStage : OperationResultTr → Option FailureStage
  | .invokeHostFunction r =>
      match r with
      | .success _ => none
      | .malformed => some .hostFunction
      | .trapped => some .contractExecution
      | .resourceLimitExceeded => some .resourceLimit
      | .entryArchived => some .stateArchival
      | .insufficientRefundableFee => some .resourceFee
  | .extendFootprintTtl r =>
      match r with
      | .success => none
      | .resourceLimitExceeded => some .resourceLimit
      | .insufficientRefundableFee => some .resourceFee
      | .malformed => some .unknown
  | .restoreFootprint r =>
      match r with
      | .success => none
      | .resourceLimitExceeded => some .resourceLimit
      | .insufficientRefundableFee => some .resourceFee
      | .malformed => some .unknown
  | .classic _ _ => none

/-- The name of an operation's inner result code, and whether it succeeded. -/
def innerCode (tr : OperationResultTr) : String × Bool :=
  let (name, code) := match tr with
    | .classic _ r => (r.name, r.discriminant)
    | .invokeHostFunction r => (r.name, r.discriminant)
    | .extendFootprintTtl r => (r.name, r.discriminant)
    | .restoreFootprint r => (r.name, r.discriminant)
  (name, code == 0)

/-- The body of the search of `first_failed_operation`: what the operation at
position `i` contributes, if it did not succeed. -/
def failedOperationAt (op : OperationResult) (i : Nat) : Option (FailedOperation × FailureStage) :=
  let index := u32OrMax i
  match op with
  | .opInner tr =>
      let (code, success) := innerCode tr
      if success then none
      else some (⟨index, some tr.name, code⟩, (sorobanStage tr).getD .operation)
  | .opBadAuth | .opNoAccount => some (⟨index, none, op.name⟩, .validation)
  | .opNotSupported | .opTooManySubentries | .opExceededWorkLimit | .opTooManySponsoring =>
      some (⟨index, none, op.name⟩, .unknown)

/-- Find the first operation that did not succeed, and the stage it implies. -/
def firstFailedOperation (ops : List OperationResult) : Option (FailedOperation × FailureStage) :=
  ops.zipIdx.findSome? (fun p => failedOperationAt p.1 p.2)

/-- Classify a transaction result. -/
def Outcome.classify (result : TransactionResult) : Outcome :=
  let (feeBump, level) := match result.result with
    | .txFeeBumpInnerSuccess pair | .txFeeBumpInnerFailed pair =>
        (some (FeeBumpResult.mk result.result.name pair.transactionHash pair.feeCharged),
          innerLevel pair.result)
    | other => (none, outerLevel other)
  let (resultCode, failedOperation, stage) := match level with
    | .success code => (code, none, none)
    | .failed code ops =>
        let failed := firstFailedOperation ops
        (code, failed.map Prod.fst, some ((failed.map Prod.snd).getD .unknown))
    | .rejected code stage => (code, none, some stage)
  { feeCharged := result.feeCharged, feeBump, resultCode, failedOperation, stage }

/-! ## The effective result -/

/-- The plain result saying the same as an inner one. -/
def InnerTransactionResultResult.toOuter : InnerTransactionResultResult → TransactionResultResult
  | .txSuccess results => .txSuccess results
  | .txFailed results => .txFailed results
  | .txTooEarly => .txTooEarly
  | .txTooLate => .txTooLate
  | .txMissingOperation => .txMissingOperation
  | .txBadSeq => .txBadSeq
  | .txBadAuth => .txBadAuth
  | .txInsufficientBalance => .txInsufficientBalance
  | .txNoAccount => .txNoAccount
  | .txInsufficientFee => .txInsufficientFee
  | .txBadAuthExtra => .txBadAuthExtra
  | .txInternalError => .txInternalError
  | .txNotSupported => .txNotSupported
  | .txBadSponsorship => .txBadSponsorship
  | .txBadMinSeqAgeOrGap => .txBadMinSeqAgeOrGap
  | .txMalformed => .txMalformed
  | .txSorobanInvalid => .txSorobanInvalid
  | .txFrozenKeyAccessed => .txFrozenKeyAccessed

/-- The result that counts: the inner one of a fee bump, the outer one otherwise. -/
def effectiveResult (result : TransactionResult) : TransactionResultResult :=
  match result.result with
  | .txFeeBumpInnerSuccess pair | .txFeeBumpInnerFailed pair => pair.result.toOuter
  | other => other

/-- The operation results of a transaction that failed at the operation level. -/
def effectiveResults (result : TransactionResult) : List OperationResult :=
  match effectiveResult result with
  | .txFailed ops | .txSuccess ops => ops
  | _ => []

/-- The two classifiers agree. -/
theorem outerLevel_toOuter (r : InnerTransactionResultResult) :
    outerLevel r.toOuter = innerLevel r := by
  cases r <;> rfl

/-- The part of `classify` that does not depend on the wrapper. -/
def levelOutcome : Level → String × Option FailedOperation × Option FailureStage
  | .success code => (code, none, none)
  | .failed code ops =>
      (code, (firstFailedOperation ops).map Prod.fst,
        some (((firstFailedOperation ops).map Prod.snd).getD .unknown))
  | .rejected code stage => (code, none, some stage)

/-- What `classify` reports beyond the wrapper is read off the effective result. -/
theorem Outcome.classify_eq (result : TransactionResult) :
    ((classify result).resultCode, (classify result).failedOperation, (classify result).stage)
      = levelOutcome (outerLevel (effectiveResult result)) := by
  obtain ⟨fee, r⟩ := result
  cases r with
  | txFeeBumpInnerSuccess pair =>
      rw [effectiveResult, outerLevel_toOuter]
      cases hp : innerLevel pair.result <;> simp [classify, levelOutcome, hp]
  | txFeeBumpInnerFailed pair =>
      rw [effectiveResult, outerLevel_toOuter]
      cases hp : innerLevel pair.result <;> simp [classify, levelOutcome, hp]
  | _ => rfl

/-! ## The first failure -/

/-- The result of an operation is a success. -/
def OperationResult.IsSuccess : OperationResult → Prop
  | .opInner tr => (innerCode tr).2 = true
  | _ => False

/-- The code an operation's result carries. -/
def OperationResult.code : OperationResult → String
  | .opInner tr => (innerCode tr).1
  | op => op.name

/-- The stage a failed operation stands for. -/
def OperationResult.stage : OperationResult → FailureStage
  | .opInner tr => (sorobanStage tr).getD .operation
  | .opBadAuth | .opNoAccount => .validation
  | _ => .unknown

/-- `op` is the first result in `ops` that is not a success, at position `i`. -/
def FirstFailure (ops : List OperationResult) (i : Nat) (op : OperationResult) : Prop :=
  ops[i]? = some op ∧ ¬ op.IsSuccess ∧ ∀ j < i, ∀ o, ops[j]? = some o → o.IsSuccess

/-- The operation type a result names. -/
def OperationResult.operation : OperationResult → Option String
  | .opInner tr => some tr.name
  | _ => none

/-- The search passes over successes and stops at anything else, reporting the
operation's own position, type and code. -/
theorem failedOperationAt_eq_none {op : OperationResult} {i : Nat} :
    failedOperationAt op i = none ↔ op.IsSuccess := by
  cases op with
  | opInner tr =>
      by_cases h : (innerCode tr).2 = true <;>
        simp [failedOperationAt, OperationResult.IsSuccess, h]
  | _ => simp [failedOperationAt, OperationResult.IsSuccess]

theorem failedOperationAt_of_not_isSuccess {op : OperationResult} {i : Nat} (h : ¬ op.IsSuccess) :
    failedOperationAt op i = some (⟨u32OrMax i, op.operation, op.code⟩, op.stage) := by
  cases op with
  | opInner tr =>
      simp only [OperationResult.IsSuccess, Bool.not_eq_true] at h
      simp [failedOperationAt, OperationResult.operation, OperationResult.code,
        OperationResult.stage, h]
  | _ => rfl

/-- What `first_failed_operation` finds is the first failure. -/
theorem firstFailedOperation_eq_some {ops : List OperationResult}
    {p : FailedOperation × FailureStage} (h : firstFailedOperation ops = some p) :
    ∃ i op, FirstFailure ops i op ∧
      p = (⟨u32OrMax i, op.operation, op.code⟩, op.stage) := by
  obtain ⟨pre, ⟨op, i⟩, post, hsplit, hat, hpre⟩ := List.findSome?_eq_some_iff.mp h
  have hmem : (op, i) ∈ ops.zipIdx := by simp [hsplit]
  have hget : ops[i]? = some op := List.mem_zipIdx_iff_getElem?.mp hmem
  have hfail : ¬ op.IsSuccess := by
    rw [← failedOperationAt_eq_none (i := i), hat]
    simp
  refine ⟨i, op, ⟨hget, hfail, ?_⟩, ?_⟩
  · intro j hj o ho
    have hlen : pre.length = i := by
      have hi : ops.zipIdx[pre.length]? = some (op, i) := by simp [hsplit]
      rw [List.getElem?_zipIdx, Option.map_eq_some_iff] at hi
      obtain ⟨_, _, hpair⟩ := hi
      simpa using congrArg Prod.snd hpair
    have hj' : ops.zipIdx[j]? = some (o, j) := by simp [List.getElem?_zipIdx, ho]
    rw [hsplit, List.getElem?_append_left (by omega)] at hj'
    have hnone := hpre (o, j) (List.mem_of_getElem? hj')
    exact failedOperationAt_eq_none.mp hnone
  · rw [failedOperationAt_of_not_isSuccess hfail] at hat
    exact (Option.some.inj hat).symm

/-- **Where a failure comes from.**  Either the transaction was turned down as a
whole, at one of four stages and without a failing operation, or an operation
failed and the first one that did gives the stage. -/
theorem Outcome.classify_failed {result : TransactionResult} {s : FailureStage}
    (h : (classify result).stage = some s) :
    ((classify result).failedOperation = none ∧
        s ∈ [FailureStage.validation, .sequence, .fee, .unknown]) ∨
      ∃ i op, FirstFailure (effectiveResults result) i op ∧
        (classify result).failedOperation = some ⟨u32OrMax i, op.operation, op.code⟩ ∧
        s = op.stage := by
  have heq := classify_eq result
  rw [h] at heq
  generalize (classify result).failedOperation = failed at heq ⊢
  unfold effectiveResults
  cases hr : effectiveResult result with
  | txFailed ops =>
      rw [hr] at heq
      simp only [outerLevel, levelOutcome, Prod.mk.injEq, Option.some.injEq] at heq
      obtain ⟨-, rfl, rfl⟩ := heq
      cases hfirst : firstFailedOperation ops with
      | none => exact Or.inl ⟨rfl, by simp⟩
      | some p =>
          obtain ⟨i, op, hop, rfl⟩ := firstFailedOperation_eq_some hfirst
          exact Or.inr ⟨i, op, hop, rfl, rfl⟩
  | _ =>
      rw [hr] at heq
      simp only [outerLevel, levelOutcome, Prod.mk.injEq, Option.some.injEq, reduceCtorEq,
        and_false] at heq
      all_goals
        obtain ⟨-, rfl, rfl⟩ := heq
        exact Or.inl ⟨rfl, by simp⟩

/-- A classified result has no stage exactly when the effective result is a success. -/
theorem Outcome.stage_eq_none {result : TransactionResult} :
    (classify result).stage = none ↔ ∃ ops, effectiveResult result = .txSuccess ops := by
  have heq := congrArg (fun p => p.2.2) (classify_eq result)
  simp only at heq
  rw [heq]
  cases effectiveResult result <;> simp [outerLevel, levelOutcome]

/-- The three stages that one result code stands for, with that code. -/
def codedStages : List (FailureStage × String) :=
  [(.stateArchival, "EntryArchived"), (.resourceLimit, "ResourceLimitExceeded"),
    (.resourceFee, "InsufficientRefundableFee")]

/-- An operation that failed at such a stage carries its code. -/
theorem OperationResult.code_of_stage {op : OperationResult} {stage : FailureStage}
    {code : String} (hmem : (stage, code) ∈ codedStages) (h : op.stage = stage) :
    op.code = code := by
  cases op with
  | opInner tr =>
      simp only [codedStages, List.mem_cons, Prod.mk.injEq, List.not_mem_nil, or_false] at hmem
      have hcode : ∀ s, sorobanStage tr = some s → s = stage → (innerCode tr).1 = code := by
        intro s hs heq
        subst heq
        unfold sorobanStage at hs
        rcases hmem with ⟨rfl, rfl⟩ | ⟨rfl, rfl⟩ | ⟨rfl, rfl⟩ <;> split at hs <;>
          first | (split at hs <;> first | rfl | cases hs) | cases hs
      cases hs : sorobanStage tr with
      | some s =>
          apply hcode s hs
          simpa [OperationResult.stage, hs] using h
      | none =>
          simp only [OperationResult.stage, hs, Option.getD_none] at h
          subst h
          simp at hmem
  | _ =>
      simp only [OperationResult.stage] at h
      subst h
      simp [codedStages] at hmem

end Observatory
