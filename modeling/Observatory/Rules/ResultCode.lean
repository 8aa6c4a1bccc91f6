import Observatory.Rules.Gate

/-!
# Rules confirmed by a result code

`archived_entry`, `resource_limit_exceeded` and `insufficient_resource_fee`
(`rules/archived.rs`, `rules/resource_limit.rs`, `rules/resource_fee.rs`).  Each
passes `resultCodeGate` for its own stage and code, points at the failing
operation, and adds what the transaction declared and the host reported.

`codeRule` is what they share; `codeRule_matched` says what a match of any of
them rests on.
-/

namespace Observatory

/-- A rule that fires on one result code: the failing operation is the first
evidence, `more` what the rule adds. -/
def codeRule (wanted : FailureStage) (resultCode : String) (causeClass : CauseClass)
    (summary remediation ruleId : String) (more : TransactionModel → List Evidence)
    (ctx : FailureContext) : RuleOutcome :=
  behindGate (resultCodeGate ctx.model wanted resultCode) fun op =>
    .matched
      { causeClass
        confidence := .confirmed
        summary
        evidence := op :: more ctx.model
        remediation := some remediation
        ruleId }

/-! ## The three rules -/

/-- The archived entries the transaction marked for restoration. -/
def archivedEvidence (model : TransactionModel) : List Evidence :=
  match model.soroban with
  | none => []
  | some soroban =>
      let marked := soroban.declared.archivedEntryIndexes
      [⟨.sorobanResources,
        if marked.isEmpty then
          "the transaction did not mark any footprint entry for automatic restoration"
        else
          s!"the transaction marked read-write footprint entries {marked} for automatic " ++
            "restoration"⟩]

/-- `ArchivedEntry`. -/
def archivedEntry : Rule where
  id := "archived_entry"
  description := "A required ledger entry was archived and not restored (result code EntryArchived)"
  evaluate := codeRule .stateArchival "EntryArchived" .archivedEntryRequiresRestore
    ("A ledger entry the transaction needed was archived and had not been restored. The " ++
      "result code does not identify which entry.")
    ("Re-simulate the transaction. Simulation reports archived entries and can list them in " ++
      "the transaction's resource extension for automatic restoration (protocol 23+); " ++
      "alternatively restore them first with a RestoreFootprint operation.")
    "archived_entry" archivedEvidence

/-- The declared limits, next to what the host reported. -/
def resourceLimitEvidence (model : TransactionModel) : List Evidence :=
  let declared := match model.soroban with
    | none => []
    | some soroban =>
        let d := soroban.declared
        let limits : Evidence := ⟨.sorobanResources,
          s!"declared limits: {d.instructions} CPU instructions, {d.diskReadBytes} disk read " ++
            s!"bytes, {d.writeBytes} write bytes"⟩
        match model.observed.cpuInstructions with
        | none => [limits]
        | some cpu =>
            let above := if cpu.toNat > d.instructions.toNat then ", above the limit" else ""
            [limits, ⟨.observedResources,
              s!"the host reported {cpu} CPU instructions (`cpu_insn`) against a declared " ++
                s!"limit of {d.instructions}{above}"⟩]
  let memory := match model.observed.memoryBytes with
    | none => []
    | some mem =>
        [⟨.observedResources,
          s!"the host reported {mem} memory bytes (`mem_byte`); memory is limited by the " ++
            "network, not declared on the transaction"⟩]
  declared ++ memory

/-- `ResourceLimitExceeded`. -/
def resourceLimitExceeded : Rule where
  id := "resource_limit_exceeded"
  description := "A Soroban resource limit was exceeded (result code ResourceLimitExceeded)"
  evaluate := codeRule .resourceLimit "ResourceLimitExceeded" .resourceLimitExceeded
    ("The transaction exceeded a Soroban resource limit. The result code does not say which " ++
      "one.")
    ("Re-simulate to get current resource estimates and declare them with headroom. Compare " ++
      "the declared limits with any observed values above; if a network-wide limit (such as " ++
      "memory) was hit, the invocation itself must do less work.")
    "resource_limit_exceeded" resourceLimitEvidence

/-- The declared resource fee, next to the fees charged. -/
def resourceFeeEvidence (model : TransactionModel) : List Evidence :=
  let declared := match model.soroban with
    | none => []
    | some soroban =>
        [⟨.sorobanResources,
          s!"declared maximum resource fee: {soroban.declared.resourceFee} stroops"⟩]
  let charged := match model.observed.feesCharged with
    | none => []
    | some f =>
        [⟨.observedResources,
          s!"charged: {f.nonRefundable} non-refundable, {f.refundable} refundable, {f.rent} " ++
            "rent (stroops)"⟩]
  declared ++ charged

/-- `InsufficientResourceFee`.  A rejected inclusion fee is turned down first, with
a reason of its own. -/
def insufficientResourceFee : Rule where
  id := "insufficient_resource_fee"
  description :=
    "The declared resource fee did not cover refundable charges (InsufficientRefundableFee)"
  evaluate ctx :=
    if ctx.model.stage = some .fee then
      .notApplicable
        ("the transaction was rejected for its inclusion fee — a transaction-level fee " ++
          "failure, not a Soroban resource fee failure")
    else
      codeRule .resourceFee "InsufficientRefundableFee" .insufficientResourceFee
        ("The declared resource fee did not cover the transaction's refundable resource " ++
          "charges.")
        ("Re-simulate to get a current resource fee and raise the declared resource fee. " ++
          "Refundable charges such as rent and event bytes can grow between simulation and " ++
          "execution, so leave headroom.")
        "insufficient_resource_fee" resourceFeeEvidence ctx

/-! ## What a match rests on -/

section CodeRule

variable {wanted : FailureStage} {resultCode : String} {causeClass : CauseClass}
  {summary remediation ruleId : String} {more : TransactionModel → List Evidence}
  {ctx : FailureContext}

/-- A match of a result-code rule: stage and code are the wanted ones, and the
evidence starts with the failing operation. -/
theorem codeRule_matched {c : CandidateCause}
    (h : codeRule wanted resultCode causeClass summary remediation ruleId more ctx = .matched c) :
    ctx.model.stage = some wanted ∧ ∃ op, ctx.model.outcome.failedOperation = some op ∧
      op.code = resultCode ∧ ∃ e : Evidence, e.source = .operationResult op.index ∧
        c = ⟨causeClass, .confirmed, summary, e :: more ctx.model, some remediation, ruleId⟩ := by
  obtain ⟨e, hgate, hc⟩ := behindGate_matched (fun _ => resultCodeGate_error) h
  obtain ⟨hstage, op, hop, hcode, hsource⟩ := resultCodeGate_ok hgate
  exact ⟨hstage, op, hop, hcode, e, hsource, (RuleOutcome.matched.inj hc).symm⟩

/-- A match of the fee rule is a match of the result-code rule inside it. -/
theorem insufficientResourceFee_matched {c : CandidateCause}
    (h : insufficientResourceFee.evaluate ctx = .matched c) :
    ∃ summary remediation, codeRule .resourceFee "InsufficientRefundableFee"
      .insufficientResourceFee summary remediation "insufficient_resource_fee"
      resourceFeeEvidence ctx = .matched c := by
  unfold insufficientResourceFee at h
  by_cases hfee : ctx.model.stage = some .fee
  · simp only [hfee, if_true] at h
    cases h
  · simp only [hfee, if_false] at h
    exact ⟨_, _, h⟩

/-- At any other stage a result-code rule does not apply. -/
theorem codeRule_stage (h : ctx.model.stage ≠ some wanted) :
    (codeRule wanted resultCode causeClass summary remediation ruleId more ctx).status
      = .notApplicable := by
  unfold codeRule behindGate resultCodeGate
  cases hstage : ctx.model.stage with
  | none => rfl
  | some stage =>
      have hs : stage ≠ wanted := by
        rintro rfl
        exact h hstage
      simp only [hs, ne_eq, not_false_eq_true, if_true]
      rfl

/-- The sources of the evidence a result-code rule adds. -/
theorem source_archivedEvidence {model : TransactionModel} :
    ∀ e ∈ archivedEvidence model, e.source = .sorobanResources := by
  unfold archivedEvidence
  cases model.soroban with
  | none => simp
  | some soroban => simp

theorem source_resourceLimitEvidence {model : TransactionModel} :
    ∀ e ∈ resourceLimitEvidence model,
      e.source = .sorobanResources ∨ e.source = .observedResources := by
  unfold resourceLimitEvidence
  cases model.soroban <;> cases model.observed.cpuInstructions <;>
    cases model.observed.memoryBytes <;> simp

theorem source_resourceFeeEvidence {model : TransactionModel} :
    ∀ e ∈ resourceFeeEvidence model,
      e.source = .sorobanResources ∨ e.source = .observedResources := by
  unfold resourceFeeEvidence
  cases model.soroban <;> cases model.observed.feesCharged <;> simp

end CodeRule

end Observatory
