import Observatory.Properties.Stages

/-!
# Fee bumps are transparent

A fee-bumped transaction is diagnosed as the transaction it wraps.  The two
envelopes and the two results are read by separate code (`unwrap`,
`outerLevel`, `innerLevel`); what differs between the two models is the wrapper
alone (`fromInput_wrapped`), and no rule looks at it (`evaluate_rewrap`).
-/

namespace Observatory

/-- The part of a model that describes the wrapper, replaced. -/
def TransactionModel.rewrap (model : TransactionModel) (feeBump : Option FeeBump)
    (feeCharged : Int64) (resultFeeBump : Option FeeBumpResult) : TransactionModel :=
  { model with
    feeBump
    outcome := { model.outcome with feeCharged, feeBump := resultFeeBump } }

/-- The classifiers agree: wrapping a result changes what is recorded about the
wrapper and nothing else. -/
theorem classify_wrapped (plainFee outerFee : Int64) (pair : InnerTransactionResultPair)
    (wrapped : TransactionResultResult)
    (hwrapped : wrapped = .txFeeBumpInnerFailed pair ∨ wrapped = .txFeeBumpInnerSuccess pair) :
    Outcome.classify ⟨outerFee, wrapped⟩
      = { Outcome.classify ⟨plainFee, pair.result.toOuter⟩ with
          feeCharged := outerFee
          feeBump := some ⟨wrapped.name, pair.transactionHash, pair.feeCharged⟩ } := by
  obtain ⟨hash, fee, r⟩ := pair
  rcases hwrapped with rfl | rfl <;> cases r <;> rfl

section FeeBump

variable [Strkey]

/-- No rule looks at the wrapper, or past the model at the raw input. -/
theorem evaluate_rewrap (ctx : FailureContext) (input : AnalysisInput) (feeBump : Option FeeBump)
    (feeCharged : Int64) (resultFeeBump : Option FeeBumpResult) :
    ∀ rule ∈ builtin,
      rule.evaluate { ctx with
        input, model := ctx.model.rewrap feeBump feeCharged resultFeeBump }
      = rule.evaluate ctx := by
  simp only [builtin, List.forall_mem_cons]
  exact ⟨rfl, rfl, rfl, rfl, rfl, rfl, rfl, rfl, by simp⟩

/-- An input whose transaction is wrapped in a fee bump. -/
def AnalysisInput.wrapped (input : AnalysisInput) (tx : Transaction) (feeSource : MuxedAccount)
    (fee outerFee : Int64) (result : TransactionResultResult) : AnalysisInput :=
  { input with
    envelope := .txFeeBump ⟨feeSource, fee, tx⟩
    result := ⟨outerFee, result⟩ }

/-- An input with a plain V1 transaction. -/
def AnalysisInput.plain (input : AnalysisInput) (tx : Transaction) (feeCharged : Int64)
    (result : InnerTransactionResultResult) : AnalysisInput :=
  { input with envelope := .tx tx, result := ⟨feeCharged, result.toOuter⟩ }

/-- The model of a wrapped transaction is that of the plain one, but for the wrapper. -/
theorem fromInput_wrapped (input : AnalysisInput) (tx : Transaction) (feeSource : MuxedAccount)
    (fee plainFee outerFee : Int64) (pair : InnerTransactionResultPair)
    (wrapped : TransactionResultResult)
    (hwrapped : wrapped = .txFeeBumpInnerFailed pair ∨ wrapped = .txFeeBumpInnerSuccess pair) :
    TransactionModel.fromInput (input.wrapped tx feeSource fee outerFee wrapped)
      = (TransactionModel.fromInput (input.plain tx plainFee pair.result)).rewrap
          (some ⟨feeSource.display, fee⟩) outerFee
          (some ⟨wrapped.name, pair.transactionHash, pair.feeCharged⟩) := by
  have hclass := classify_wrapped plainFee outerFee pair wrapped hwrapped
  have hplain : (Outcome.classify ⟨plainFee, pair.result.toOuter⟩).feeBump = none := by
    cases pair.result <;> rfl
  unfold TransactionModel.fromInput TransactionModel.rewrap AnalysisInput.wrapped
    AnalysisInput.plain
  simp only [hclass, hplain]
  rfl

/-- **Fee bumps are transparent.**  Wrapping a transaction in a fee bump, with any fee
source, fees and inner hash, does not change its diagnosis. -/
theorem analyze_wrapped (input : AnalysisInput) (tx : Transaction) (feeSource : MuxedAccount)
    (fee plainFee outerFee innerFee : Int64) (innerHash : Hash)
    (r : InnerTransactionResultResult) :
    analyze (input.wrapped tx feeSource fee outerFee
        (.txFeeBumpInnerFailed ⟨innerHash, innerFee, r⟩)) = analyze (input.plain tx plainFee r) ∧
      analyze (input.wrapped tx feeSource fee outerFee
        (.txFeeBumpInnerSuccess ⟨innerHash, innerFee, r⟩))
        = analyze (input.plain tx plainFee r) := by
  have hboth : ∀ wrapped : TransactionResultResult,
      wrapped = .txFeeBumpInnerFailed ⟨innerHash, innerFee, r⟩ ∨
        wrapped = .txFeeBumpInnerSuccess ⟨innerHash, innerFee, r⟩ →
      analyze (input.wrapped tx feeSource fee outerFee wrapped)
        = analyze (input.plain tx plainFee r) := by
    intro wrapped hwrapped
    have hmodel := fromInput_wrapped input tx feeSource fee plainFee outerFee
      ⟨innerHash, innerFee, r⟩ wrapped hwrapped
    have hctx : failureContext (input.wrapped tx feeSource fee outerFee wrapped)
        = { failureContext (input.plain tx plainFee r) with
            input := input.wrapped tx feeSource fee outerFee wrapped
            model := (failureContext (input.plain tx plainFee r)).model.rewrap
              (some ⟨feeSource.display, fee⟩) outerFee
              (some ⟨wrapped.name, innerHash, innerFee⟩) } := by
      unfold failureContext
      rw [hmodel]
      rfl
    refine analyzeWith_congr ?_ rfl ?_ ?_ rfl
    · intro rule hrule
      rw [hctx]
      exact evaluate_rewrap _ _ _ _ _ rule hrule
    · rw [hctx]
      rfl
    · rw [hctx]
  exact ⟨hboth _ (Or.inl rfl), hboth _ (Or.inr rfl)⟩

end FeeBump

end Observatory
