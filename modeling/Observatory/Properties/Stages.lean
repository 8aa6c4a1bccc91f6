import Observatory.Analyze

/-!
# The stage decides which rules may speak

Every rule first asks where the transaction failed.  This module follows that
question through all eight of them.

* `trapRules_notApplicable`, `builtin_notApplicable` — away from its stage a rule does
  not apply.
* `resultCodeGate_fromInput` — at its stage, the result-code gate is open: the
  stage comes from the same operation result as the code.
* `stage_decides` — the whole picture.
-/

namespace Observatory

/-- The stages of the rules confirmed by a result code, with the ids of these rules. -/
def codedRules : List (FailureStage × String) :=
  [(.stateArchival, "archived_entry"), (.resourceLimit, "resource_limit_exceeded"),
    (.resourceFee, "insufficient_resource_fee")]

/-- The stages some rule is about. -/
def ruledStages : List FailureStage :=
  [.stateArchival, .resourceLimit, .resourceFee, .contractExecution]

/-! ## Rules away from their stage -/

theorem archivedEntry_notApplicable {ctx : FailureContext}
    (h : ctx.model.stage ≠ some .stateArchival) :
    (archivedEntry.evaluate ctx).status = .notApplicable := codeRule_stage h

theorem resourceLimitExceeded_notApplicable {ctx : FailureContext}
    (h : ctx.model.stage ≠ some .resourceLimit) :
    (resourceLimitExceeded.evaluate ctx).status = .notApplicable := codeRule_stage h

/-- The fee rule turns a rejected inclusion fee down by itself, every other stage at
the gate. -/
theorem insufficientResourceFee_notApplicable {ctx : FailureContext}
    (h : ctx.model.stage ≠ some .resourceFee) :
    (insufficientResourceFee.evaluate ctx).status = .notApplicable := by
  unfold insufficientResourceFee
  by_cases hfee : ctx.model.stage = some .fee
  · simp only [hfee, if_true]
    rfl
  · simp only [hfee, if_false]
    exact codeRule_stage h

/-- Without a candidate, the verdict depends on whether some rule lacked evidence. -/
theorem verdict_of_nil {d : Diagnosis} {stage : FailureStage} (hstage : d.stage = some stage)
    (hnil : d.candidateCauses = []) :
    d.verdict = if d.ruleReports.any (fun r => decide (r.status = .noEvidence))
      then .insufficientEvidence else .unsupported := by
  unfold Diagnosis.verdict Diagnosis.topCause
  rw [hstage, hnil]
  rfl

/-! ## Result codes -/

section Stages

variable [Strkey]

/-- **The gate is open at its stage.**  A model's stage comes from the first failed
operation, so its code is the one the stage stands for. -/
theorem resultCodeGate_fromInput {input : AnalysisInput} {wanted : FailureStage} {code : String}
    (hmem : (wanted, code) ∈ codedStages)
    (h : (TransactionModel.fromInput input).stage = some wanted) :
    ∃ e, resultCodeGate (TransactionModel.fromInput input) wanted code = .ok e := by
  have hclass : (Outcome.classify input.result).stage = some wanted := h
  rcases Outcome.classify_failed hclass with ⟨-, hrejected⟩ | ⟨i, op, -, hfailed, hstage⟩
  · -- a transaction turned down as a whole has none of these stages
    simp only [codedStages, List.mem_cons, Prod.mk.injEq, List.not_mem_nil, or_false] at hmem
    rcases hmem with ⟨rfl, -⟩ | ⟨rfl, -⟩ | ⟨rfl, -⟩ <;> simp at hrejected
  · have hcode : op.code = code := OperationResult.code_of_stage hmem hstage.symm
    have hop : (TransactionModel.fromInput input).outcome.failedOperation
        = some ⟨u32OrMax i, op.operation, op.code⟩ := hfailed
    have hopen := resultCodeGate_open h hop
    simp only [hcode] at hopen
    exact hopen

/-- The two branches on which stage and operation disagree are never taken. -/
theorem resultCodeGate_ne_noEvidence (input : AnalysisInput) {wanted : FailureStage}
    {code : String} (hmem : (wanted, code) ∈ codedStages) (reason : String) :
    resultCodeGate (TransactionModel.fromInput input) wanted code
      ≠ .error (.noEvidence reason) := by
  by_cases h : (TransactionModel.fromInput input).stage = some wanted
  · obtain ⟨e, he⟩ := resultCodeGate_fromInput hmem h
    rw [he]
    intro hne
    cases hne
  · unfold resultCodeGate
    cases hstage : (TransactionModel.fromInput input).stage with
    | none =>
        intro hne
        cases hne
    | some stage =>
        have hs : stage ≠ wanted := by
          rintro rfl
          exact h hstage
        simp only [hs, ne_eq, not_false_eq_true, if_true]
        intro hne
        cases hne

/-- A result-code rule matches at its stage. -/
theorem codeRule_status {input : AnalysisInput} {wanted : FailureStage} {code : String}
    (hmem : (wanted, code) ∈ codedStages)
    (h : (failureContext input).model.stage = some wanted) (causeClass : CauseClass)
    (summary remediation ruleId : String) (more : TransactionModel → List Evidence) :
    (codeRule wanted code causeClass summary remediation ruleId more
      (failureContext input)).status = .matched := by
  obtain ⟨e, he⟩ := resultCodeGate_fromInput hmem h
  have hgate : resultCodeGate (failureContext input).model wanted code = .ok e := he
  unfold codeRule
  rw [hgate]
  rfl

/-- The result-code rules match at their own stage and do not apply anywhere else. -/
theorem archivedEntry_status (input : AnalysisInput) :
    (archivedEntry.evaluate (failureContext input)).status
      = if (failureContext input).model.stage = some .stateArchival then .matched
        else .notApplicable := by
  by_cases h : (failureContext input).model.stage = some .stateArchival
  · rw [if_pos h]
    exact codeRule_status (by simp [codedStages]) h ..
  · rw [if_neg h]
    exact archivedEntry_notApplicable h

theorem resourceLimitExceeded_status (input : AnalysisInput) :
    (resourceLimitExceeded.evaluate (failureContext input)).status
      = if (failureContext input).model.stage = some .resourceLimit then .matched
        else .notApplicable := by
  by_cases h : (failureContext input).model.stage = some .resourceLimit
  · rw [if_pos h]
    exact codeRule_status (by simp [codedStages]) h ..
  · rw [if_neg h]
    exact resourceLimitExceeded_notApplicable h

theorem insufficientResourceFee_status (input : AnalysisInput) :
    (insufficientResourceFee.evaluate (failureContext input)).status
      = if (failureContext input).model.stage = some .resourceFee then .matched
        else .notApplicable := by
  by_cases h : (failureContext input).model.stage = some .resourceFee
  · rw [if_pos h]
    have hfee : (failureContext input).model.stage ≠ some .fee := by
      rw [h]
      simp
    unfold insufficientResourceFee
    simp only [hfee, if_false]
    exact codeRule_status (by simp [codedStages]) h ..
  · rw [if_neg h]
    exact insufficientResourceFee_notApplicable h

/-! ## Silence -/

/-- The rules that read the events of a trap. -/
def trapRules : List Rule :=
  [contractDefinedError, invalidAuthorizationEntry, footprintEntryMissing, contractTrap,
    missingAuthorizationEntry]

/-- The rules that read events apply to a trap only. -/
theorem trapRules_notApplicable {ctx : FailureContext}
    (h : ctx.model.stage ≠ some .contractExecution) :
    ∀ rule ∈ trapRules, (rule.evaluate ctx).status = .notApplicable := by
  simp only [trapRules, List.forall_mem_cons]
  refine ⟨?_, ?_, ?_, ?_, ?_, by simp⟩
  · exact behindGate_closed _ (executionGate_stage _ _ h)
  · exact behindGate_closed _ (sorobanGate_stage _ _ _ h)
  · exact behindGate_closed _ (sorobanGate_stage _ _ _ h)
  · exact behindGate_closed _ (executionGate_stage _ _ h)
  · exact behindGate_closed _ (sorobanGate_stage _ _ _ h)

/-- What a trap without usable events leaves to read. -/
def Silent (model : TransactionModel) : Prop :=
  model.diagnostics.availability = .notEmitted ∨
    model.diagnostics.errors = [] ∧ model.diagnostics.terminalError = none

omit [Strkey] in
/-- Where events are emitted, a terminal error breaks the silence. -/
theorem not_silent_of_terminal {model : TransactionModel} {t : TerminalError}
    (havail : model.diagnostics.availability = .emitted)
    (hterminal : model.diagnostics.terminalError = some t) : ¬ Silent model := by
  rintro (h | ⟨-, h⟩)
  · rw [h] at havail
    cases havail
  · rw [h] at hterminal
    cases hterminal

omit [Strkey] in
/-- An error event breaks the silence as well. -/
theorem not_silent_of_error {model : TransactionModel} {x : ErrorEvent}
    (havail : model.diagnostics.availability = .emitted)
    (hx : x ∈ model.diagnostics.errors) : ¬ Silent model := by
  rintro (h | ⟨h, -⟩)
  · rw [h] at havail
    cases havail
  · rw [h] at hx
    cases hx

/-- Without events no rule that reads them matches. -/
theorem trapRules_silent {ctx : FailureContext} (h : Silent ctx.model) :
    ∀ rule ∈ trapRules, (rule.evaluate ctx).status ≠ .matched := by
  have hmatch : ∀ rule : Rule, (∀ c, rule.evaluate ctx ≠ .matched c) →
      (rule.evaluate ctx).status ≠ .matched := by
    intro rule hne hstatus
    obtain ⟨c, hc⟩ := RuleOutcome.status_eq_matched.mp hstatus
    exact hne c hc
  simp only [trapRules, List.forall_mem_cons]
  refine ⟨hmatch _ ?_, hmatch _ ?_, hmatch _ ?_, hmatch _ ?_, hmatch _ ?_, by simp⟩
  · intro c hc
    obtain ⟨-, havail, terminal, code, report, hterminal, -⟩ := contractDefinedError_matched hc
    exact not_silent_of_terminal havail hterminal h
  · intro c hc
    obtain ⟨-, havail, soroban, x, message, failure, -, hfind, -⟩ :=
      invalidAuthorizationEntry_matched hc
    obtain ⟨y, hy, -⟩ := List.exists_of_findSome?_eq_some hfind
    exact not_silent_of_error havail (List.mem_filter.mp hy).1 h
  · intro c hc
    obtain ⟨-, havail, soroban, x, -, hfind, -⟩ := footprintEntryMissing_matched hc
    exact not_silent_of_error havail (List.mem_of_find?_eq_some hfind) h
  · intro c hc
    obtain ⟨-, havail, terminal, code, x, hterminal, -⟩ := contractTrap_matched hc
    exact not_silent_of_terminal havail hterminal h
  · intro c hc
    obtain ⟨-, havail, soroban, x, -, hfind, -⟩ := missingAuthorizationEntry_matched hc
    exact not_silent_of_error havail (List.mem_of_find?_eq_some hfind) h

/-- On a silent trap the contract-error rule says that its evidence is missing. -/
theorem contractDefinedError_silent {ctx : FailureContext}
    (hstage : ctx.model.stage = some .contractExecution) (h : Silent ctx.model) :
    (contractDefinedError.evaluate ctx).status = .noEvidence := by
  show (contractDefinedErrorEvaluate ctx).status = .noEvidence
  unfold contractDefinedErrorEvaluate
  cases havail : ctx.model.diagnostics.availability with
  | notEmitted =>
      unfold executionGate
      rw [hstage, havail]
      rfl
  | emitted =>
      rw [executionGate_ok.mpr ⟨hstage, havail⟩]
      rcases h with h | ⟨-, h⟩
      · rw [h] at havail
        cases havail
      · simp only [behindGate, h]
        rfl

/-- An input without events, or not known to emit them, is silent. -/
theorem silent_fromInput {input : AnalysisInput}
    (h : input.diagnosticsEnabled = false ∨ input.diagnosticEvents = []) :
    Silent (TransactionModel.fromInput input) := by
  rcases h with h | h
  · left
    show (if input.diagnosticsEnabled then DiagnosticAvailability.emitted else .notEmitted) = _
    rw [h]
    rfl
  · right
    have hd : (TransactionModel.fromInput input).diagnostics
        = Diagnostics.fromEvents input.diagnosticEvents input.diagnosticsEnabled := rfl
    rw [hd, h]
    exact ⟨rfl, rfl⟩

/-! ## The whole picture -/

theorem mem_ruleReports {input : AnalysisInput} {r : RuleReport} :
    r ∈ (analyze input).ruleReports ↔
      ∃ rule ∈ builtin, rule.report (failureContext input) = r := by
  show r ∈ (analyzeWith input builtin).ruleReports ↔ _
  rw [ruleReports_analyzeWith, List.mem_map]

theorem forall_builtin {p : Rule → Prop} :
    (∀ rule ∈ builtin, p rule) ↔
      p archivedEntry ∧ p resourceLimitExceeded ∧ p insufficientResourceFee ∧
        ∀ rule ∈ trapRules, p rule := by
  simp [builtin, trapRules]

/-- At a stage no rule is about, no built-in rule applies. -/
theorem builtin_notApplicable {ctx : FailureContext}
    (h : ∀ stage ∈ ruledStages, ctx.model.stage ≠ some stage) :
    ∀ rule ∈ builtin, (rule.evaluate ctx).status = .notApplicable := by
  simp only [ruledStages, List.forall_mem_cons, List.not_mem_nil, false_implies,
    implies_true, and_true] at h
  obtain ⟨harchival, hlimit, hfee, htrap⟩ := h
  rw [forall_builtin]
  exact ⟨archivedEntry_notApplicable harchival, resourceLimitExceeded_notApplicable hlimit,
    insufficientResourceFee_notApplicable hfee, trapRules_notApplicable htrap⟩

/-- No rule that reads events goes by the id of a result-code rule. -/
theorem trapRules_id : ∀ rule ∈ trapRules, rule.id ∉ codedRules.map Prod.snd := by
  intro rule hrule hid
  have hmem : rule.id ∈ trapRules.map Rule.id := List.mem_map_of_mem hrule
  have hids : trapRules.map Rule.id = ["contract_defined_error", "invalid_authorization_entry",
      "footprint_entry_missing", "contract_trap", "missing_authorization_entry"] := rfl
  rw [hids] at hmem
  have hdisjoint : ∀ id ∈ ["contract_defined_error", "invalid_authorization_entry",
      "footprint_entry_missing", "contract_trap", "missing_authorization_entry"],
      id ∉ codedRules.map Prod.snd := by decide
  exact hdisjoint rule.id hmem hid

/-- At the stage of a result-code rule, that rule matches and the others do not apply. -/
theorem statuses_of_coded {input : AnalysisInput} {stage : FailureStage} {id : String}
    (hmem : (stage, id) ∈ codedRules)
    (hmodel : (failureContext input).model.stage = some stage) :
    (analyze input).ruleReports.map (fun r => (r.ruleId, r.status))
      = builtin.map (fun rule =>
        (rule.id, if rule.id = id then .matched else .notApplicable)) := by
  have hreports : (analyze input).ruleReports
      = builtin.map (fun rule => rule.report (failureContext input)) :=
    ruleReports_analyzeWith input builtin
  rw [hreports, List.map_map]
  apply List.map_congr_left
  have htrap : ∀ rule ∈ trapRules, rule.report (failureContext input)
      = ⟨rule.id, .notApplicable, (rule.evaluate (failureContext input)).reason⟩ := by
    intro rule hrule
    have hstage : (failureContext input).model.stage ≠ some .contractExecution := by
      rw [hmodel]
      rintro heq
      obtain rfl := Option.some.inj heq
      simp [codedRules] at hmem
    rw [Rule.report, trapRules_notApplicable hstage rule hrule]
  have htrapIds : ∀ rule ∈ trapRules, rule.id ≠ id := by
    rintro rule hrule rfl
    exact trapRules_id rule hrule (List.mem_map_of_mem hmem)
  simp only [codedRules, List.mem_cons, Prod.mk.injEq, List.not_mem_nil, or_false] at hmem
  refine forall_builtin.mpr ⟨?_, ?_, ?_, ?_⟩
  · rw [Function.comp_apply, Rule.report, archivedEntry_status, hmodel]
    rcases hmem with ⟨rfl, rfl⟩ | ⟨rfl, rfl⟩ | ⟨rfl, rfl⟩ <;> simp [archivedEntry]
  · rw [Function.comp_apply, Rule.report, resourceLimitExceeded_status, hmodel]
    rcases hmem with ⟨rfl, rfl⟩ | ⟨rfl, rfl⟩ | ⟨rfl, rfl⟩ <;> simp [resourceLimitExceeded]
  · have hid : insufficientResourceFee.id = "insufficient_resource_fee" := rfl
    rw [Function.comp_apply, Rule.report, insufficientResourceFee_status, hmodel, hid]
    rcases hmem with ⟨rfl, rfl⟩ | ⟨rfl, rfl⟩ | ⟨rfl, rfl⟩ <;> simp
  · intro rule hrule
    simp only [Function.comp_apply, htrap rule hrule, htrapIds rule hrule, if_false]

/-- A property of every rule's status is one of every report's status. -/
theorem forall_ruleReports {input : AnalysisInput} {p : RuleStatus → Prop}
    (h : ∀ rule ∈ builtin, p (rule.evaluate (failureContext input)).status) :
    ∀ r ∈ (analyze input).ruleReports, p r.status := by
  intro r hr
  obtain ⟨rule, hrule, rfl⟩ := mem_ruleReports.mp hr
  exact h rule hrule

/-- When no rule applies there is no candidate. -/
theorem candidateCauses_of_notApplicable {input : AnalysisInput}
    (h : ∀ rule ∈ builtin, (rule.evaluate (failureContext input)).status = .notApplicable) :
    (analyze input).candidateCauses = [] := by
  apply candidateCauses_eq_nil.mpr
  intro rule hrule
  rw [h rule hrule]
  decide

/-- At a trap the result-code rules do not apply. -/
theorem codedRules_at_trap {ctx : FailureContext}
    (h : ctx.model.stage = some .contractExecution) :
    ∀ rule ∈ builtin, rule.id ∈ codedRules.map Prod.snd →
      (rule.evaluate ctx).status = .notApplicable := by
  refine forall_builtin.mpr ⟨?_, ?_, ?_, ?_⟩
  · exact fun _ => archivedEntry_notApplicable (by simp [h])
  · exact fun _ => resourceLimitExceeded_notApplicable (by simp [h])
  · exact fun _ => insufficientResourceFee_notApplicable (by simp [h])
  · exact fun rule hrule hid => absurd hid (trapRules_id rule hrule)

/-- On a silent trap no rule matches. -/
theorem builtin_silent {ctx : FailureContext} (hstage : ctx.model.stage = some .contractExecution)
    (hsilent : Silent ctx.model) : ∀ rule ∈ builtin, (rule.evaluate ctx).status ≠ .matched := by
  refine forall_builtin.mpr ⟨?_, ?_, ?_, trapRules_silent hsilent⟩
  · rw [archivedEntry_notApplicable (by simp [hstage])]
    decide
  · rw [resourceLimitExceeded_notApplicable (by simp [hstage])]
    decide
  · rw [insufficientResourceFee_notApplicable (by simp [hstage])]
    decide

/-- A success: no rule applies, and there is no failure to explain. -/
theorem analyze_success {input : AnalysisInput}
    (hsuccess : ∃ ops, effectiveResult input.result = .txSuccess ops) :
    (∀ r ∈ (analyze input).ruleReports, r.status = .notApplicable) ∧
      (analyze input).candidateCauses = [] ∧ (analyze input).verdict = .notAFailure := by
  have hstage : (failureContext input).model.stage = none := Outcome.stage_eq_none.mpr hsuccess
  have hall := @builtin_notApplicable _ (failureContext input) (by simp [hstage])
  have hnone : (analyze input).stage.isNone = true := by
    show (failureContext input).model.stage.isNone = true
    rw [hstage]
    rfl
  refine ⟨@forall_ruleReports _ input (· = .notApplicable) hall,
    candidateCauses_of_notApplicable hall, ?_⟩
  rw [Diagnosis.verdict, if_pos hnone]

/-- A stage no rule is about: no rule applies, and the failure is unsupported. -/
theorem analyze_unruled {input : AnalysisInput} {stage : FailureStage}
    (hstage : (analyze input).stage = some stage) (hruled : stage ∉ ruledStages) :
    (∀ r ∈ (analyze input).ruleReports, r.status = .notApplicable) ∧
      (analyze input).verdict = .unsupported := by
  have hmodel : (failureContext input).model.stage = some stage := hstage
  have hother : ∀ s ∈ ruledStages, (failureContext input).model.stage ≠ some s := by
    intro s hs heq
    rw [hmodel] at heq
    obtain rfl := Option.some.inj heq
    exact hruled hs
  have hall := builtin_notApplicable hother
  have hna := @forall_ruleReports _ input (· = .notApplicable) hall
  refine ⟨hna, ?_⟩
  rw [verdict_of_nil hstage (candidateCauses_of_notApplicable hall), if_neg]
  rw [List.any_eq_true]
  rintro ⟨r, hr, hstatus⟩
  rw [hna r hr] at hstatus
  cases hstatus

/-- A trap: the result-code rules do not apply. -/
theorem analyze_trapped {input : AnalysisInput}
    (hstage : (analyze input).stage = some .contractExecution) :
    ∀ r ∈ (analyze input).ruleReports, r.ruleId ∈ codedRules.map Prod.snd →
      r.status = .notApplicable := by
  intro r hr hid
  obtain ⟨rule, hrule, rfl⟩ := mem_ruleReports.mp hr
  exact codedRules_at_trap hstage rule hrule hid

/-- A trap without events: no rule matches, and the evidence does not suffice. -/
theorem analyze_silent {input : AnalysisInput}
    (hstage : (analyze input).stage = some .contractExecution)
    (hquiet : input.diagnosticsEnabled = false ∨ input.diagnosticEvents = []) :
    (∀ r ∈ (analyze input).ruleReports, r.status ≠ .matched) ∧
      (analyze input).verdict = .insufficientEvidence := by
  have hmodel : (failureContext input).model.stage = some .contractExecution := hstage
  have hsilent : Silent (failureContext input).model := silent_fromInput hquiet
  have hall := builtin_silent hmodel hsilent
  have hmem : contractDefinedError.report (failureContext input) ∈ (analyze input).ruleReports :=
    mem_ruleReports.mpr ⟨contractDefinedError, by simp [builtin], rfl⟩
  have hstatus := contractDefinedError_silent hmodel hsilent
  refine ⟨@forall_ruleReports _ input (· ≠ .matched) hall, ?_⟩
  rw [verdict_of_nil hstage (candidateCauses_eq_nil.mpr hall), if_pos]
  rw [List.any_eq_true]
  exact ⟨_, hmem, decide_eq_true hstatus⟩

/-- **The stage decides which rules may speak, and silence is never a cause.** -/
theorem stage_decides (input : AnalysisInput) :
    ((∃ ops, effectiveResult input.result = .txSuccess ops) →
      (∀ r ∈ (analyze input).ruleReports, r.status = .notApplicable) ∧
        (analyze input).candidateCauses = [] ∧ (analyze input).verdict = .notAFailure) ∧
    (∀ stage, (analyze input).stage = some stage → stage ∉ ruledStages →
      (∀ r ∈ (analyze input).ruleReports, r.status = .notApplicable) ∧
        (analyze input).verdict = .unsupported) ∧
    (∀ stage id, (stage, id) ∈ codedRules → (analyze input).stage = some stage →
      (analyze input).ruleReports.map (fun r => (r.ruleId, r.status))
        = builtin.map (fun rule =>
          (rule.id, if rule.id = id then .matched else .notApplicable))) ∧
    (∀ wanted code reason, (wanted, code) ∈ codedStages →
      resultCodeGate (TransactionModel.fromInput input) wanted code
        ≠ .error (.noEvidence reason)) ∧
    ((analyze input).stage = some .contractExecution →
      (∀ r ∈ (analyze input).ruleReports, r.ruleId ∈ codedRules.map Prod.snd →
        r.status = .notApplicable) ∧
      (input.diagnosticsEnabled = false ∨ input.diagnosticEvents = [] →
        (∀ r ∈ (analyze input).ruleReports, r.status ≠ .matched) ∧
          (analyze input).verdict = .insufficientEvidence)) := by
  refine ⟨analyze_success, fun stage => analyze_unruled, ?_, ?_, ?_⟩
  · intro stage id hmem hstage
    exact statuses_of_coded hmem hstage
  · intro wanted code reason hmem
    exact resultCodeGate_ne_noEvidence input hmem reason
  · intro hstage
    exact ⟨analyze_trapped hstage, analyze_silent hstage⟩

end Stages

end Observatory
