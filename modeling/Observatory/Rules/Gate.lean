import Observatory.Diagnosis
import Observatory.Model.Label

/-!
# Gates

What the rules check before they look for their own evidence
(`result_code_gate` in `rules/mod.rs`, and the first checks of the rules that
read diagnostic events).  A gate answers with the outcome to return when the
rule does not apply.

* `resultCodeGate` — for the rules confirmed by one result code.
* `executionGate` — for the rules that read diagnostic events of a trap.
* `sorobanGate` — the same for rules that also need the Soroban data; it asks for
  these before it asks for the stage.
-/

namespace Observatory

/-- The gate of the rules that fire on one specific result code: both the stage
and the failing operation's code have to be the wanted ones. -/
def resultCodeGate (model : TransactionModel) (wanted : FailureStage) (resultCode : String) :
    Except RuleOutcome Evidence :=
  match model.stage with
  | none => .error (.notApplicable "the transaction succeeded")
  | some stage =>
      if stage ≠ wanted then
        .error (.notApplicable
          (s!"the transaction failed at stage `{stage}`; this rule only applies to " ++
            s!"`{wanted}`, which only the `{resultCode}` result code produces"))
      else match model.outcome.failedOperation with
        | none =>
            .error (.noEvidence
              ("the stage implies a failed operation, but no failing operation result was " ++
                "found"))
        | some op =>
            if op.code ≠ resultCode then
              .error (.noEvidence
                (s!"the stage is `{wanted}`, but the failing operation returned `{op.code}`, " ++
                  s!"not `{resultCode}`"))
            else
              let operation := op.operation.getD "unknown type"
              .ok ⟨.operationResult op.index,
                s!"operation {op.index} ({operation}) returned `{op.code}`"⟩

/-- The first checks of a rule that reads the diagnostic events of a trap.
`trapped` says what the rule takes the stage for, `silent` what it cannot do
without events. -/
def executionGate (model : TransactionModel) (trapped silent : String) :
    Except RuleOutcome Unit :=
  match model.stage with
  | none => .error (.notApplicable "the transaction succeeded")
  | some stage =>
      if stage ≠ .contractExecution then
        .error (.notApplicable s!"the transaction failed at stage `{stage}`; {trapped}")
      else if model.diagnostics.availability = .notEmitted then .error (.noEvidence silent)
      else .ok ()

/-- The first checks of a rule that also reads the Soroban data. -/
def sorobanGate (model : TransactionModel) (classic trapped silent : String) :
    Except RuleOutcome SorobanData :=
  match model.stage with
  | none => .error (.notApplicable "the transaction succeeded")
  | some stage =>
      match model.soroban with
      | none => .error (.notApplicable classic)
      | some soroban =>
          if stage ≠ .contractExecution then
            .error (.notApplicable s!"the transaction failed at stage `{stage}`; {trapped}")
          else if model.diagnostics.availability = .notEmitted then .error (.noEvidence silent)
          else .ok soroban

/-- The remaining outcome of a rule behind a gate. -/
def behindGate {α : Type} (gate : Except RuleOutcome α) (rest : α → RuleOutcome) : RuleOutcome :=
  match gate with
  | .error outcome => outcome
  | .ok a => rest a

/-- A rule behind a gate matches only when the gate is open. -/
theorem behindGate_matched {α : Type} {gate : Except RuleOutcome α} {rest : α → RuleOutcome}
    {c : CandidateCause} (hgate : ∀ o, gate = .error o → o.candidate = none)
    (h : behindGate gate rest = .matched c) : ∃ a, gate = .ok a ∧ rest a = .matched c := by
  cases gate with
  | error o =>
      have hnone := hgate o rfl
      have ho : o = .matched c := h
      rw [ho] at hnone
      cases hnone
  | ok a => exact ⟨a, rfl, h⟩

/-- A rule behind a gate that does not concern it does not apply. -/
theorem behindGate_closed {α : Type} {gate : Except RuleOutcome α} (rest : α → RuleOutcome)
    (h : ∃ reason, gate = .error (.notApplicable reason)) :
    (behindGate gate rest).status = .notApplicable := by
  obtain ⟨reason, rfl⟩ := h
  rfl

/-! ## What a gate lets through -/

/-- The result-code gate opens on the wanted stage and code only, and then points
at the failing operation. -/
theorem resultCodeGate_ok {model : TransactionModel} {wanted : FailureStage} {code : String}
    {e : Evidence} (h : resultCodeGate model wanted code = .ok e) :
    model.stage = some wanted ∧
      ∃ op, model.outcome.failedOperation = some op ∧ op.code = code ∧
        e.source = .operationResult op.index := by
  unfold resultCodeGate at h
  split at h
  · cases h
  · next stage hstage =>
    split at h
    · cases h
    · next hwanted =>
      split at h
      · cases h
      · next op hop =>
        split at h
        · cases h
        · next hcode =>
          obtain rfl := Except.ok.inj h
          rw [not_not] at hwanted hcode
          exact ⟨by rw [hstage, hwanted], op, hop, hcode, rfl⟩

theorem resultCodeGate_open {model : TransactionModel} {wanted : FailureStage}
    {op : FailedOperation} (hstage : model.stage = some wanted)
    (hop : model.outcome.failedOperation = some op) :
    ∃ e, resultCodeGate model wanted op.code = .ok e := by
  unfold resultCodeGate
  rw [hstage, hop]
  simp only [ne_eq, not_true_eq_false, if_false]
  exact ⟨_, rfl⟩

/-- The execution gate opens on a trap with diagnostics only. -/
theorem executionGate_ok {model : TransactionModel} {trapped silent : String} :
    executionGate model trapped silent = .ok () ↔
      model.stage = some .contractExecution ∧ model.diagnostics.availability = .emitted := by
  unfold executionGate
  cases hstage : model.stage with
  | none => simp
  | some stage =>
      cases havail : model.diagnostics.availability <;>
        by_cases hs : stage = .contractExecution <;> simp [hs]

theorem sorobanGate_ok {model : TransactionModel} {classic trapped silent : String}
    {soroban : SorobanData} :
    sorobanGate model classic trapped silent = .ok soroban ↔
      model.stage = some .contractExecution ∧ model.diagnostics.availability = .emitted ∧
        model.soroban = some soroban := by
  unfold sorobanGate
  cases hstage : model.stage with
  | none => simp
  | some stage =>
      cases hsoroban : model.soroban with
      | none => simp
      | some s =>
          cases havail : model.diagnostics.availability <;>
            by_cases hs : stage = .contractExecution <;> simp [hs]

/-- A gate that does not open never answers with a match. -/
theorem resultCodeGate_error {model : TransactionModel} {wanted : FailureStage} {code : String}
    {o : RuleOutcome} (h : resultCodeGate model wanted code = .error o) : o.candidate = none := by
  unfold resultCodeGate at h
  split at h
  · obtain rfl := Except.error.inj h
    rfl
  · split at h
    · obtain rfl := Except.error.inj h
      rfl
    · split at h
      · obtain rfl := Except.error.inj h
        rfl
      · split at h
        · obtain rfl := Except.error.inj h
          rfl
        · cases h

/-- Away from a trap, the execution gate answers that the rule does not apply. -/
theorem executionGate_stage {model : TransactionModel} (trapped silent : String)
    (h : model.stage ≠ some .contractExecution) :
    ∃ reason, executionGate model trapped silent = .error (.notApplicable reason) := by
  unfold executionGate
  cases hstage : model.stage with
  | none => exact ⟨_, rfl⟩
  | some stage =>
      have hs : stage ≠ .contractExecution := by
        rintro rfl
        exact h hstage
      simp only [hs, ne_eq, not_false_eq_true, if_true]
      exact ⟨_, rfl⟩

/-- On a trap, it closes for want of events, and says so. -/
theorem executionGate_silent {model : TransactionModel} (trapped silent : String)
    (h : model.stage = some .contractExecution)
    (havail : model.diagnostics.availability = .notEmitted) :
    executionGate model trapped silent = .error (.noEvidence silent) := by
  unfold executionGate
  simp [h, havail]

/-- What the execution gate can find missing is the events. -/
theorem executionGate_noEvidence {model : TransactionModel} {trapped silent reason : String}
    (h : executionGate model trapped silent = .error (.noEvidence reason)) : reason = silent := by
  by_cases hstage : model.stage = some .contractExecution
  · cases havail : model.diagnostics.availability with
    | emitted =>
        rw [executionGate_ok.mpr ⟨hstage, havail⟩] at h
        cases h
    | notEmitted =>
        rw [executionGate_silent trapped silent hstage havail] at h
        cases h
        rfl
  · obtain ⟨reason', hreason⟩ := executionGate_stage trapped silent hstage
    rw [hreason] at h
    cases h

theorem sorobanGate_stage {model : TransactionModel} (classic trapped silent : String)
    (h : model.stage ≠ some .contractExecution) :
    ∃ reason, sorobanGate model classic trapped silent = .error (.notApplicable reason) := by
  unfold sorobanGate
  cases hstage : model.stage with
  | none => exact ⟨_, rfl⟩
  | some stage =>
      have hs : stage ≠ .contractExecution := by
        rintro rfl
        exact h hstage
      cases model.soroban with
      | none => exact ⟨_, rfl⟩
      | some soroban =>
          simp only [hs, ne_eq, not_false_eq_true, if_true]
          exact ⟨_, rfl⟩

/-- A gate that is closed on a trap is closed for want of events or Soroban data. -/
theorem executionGate_candidate {model : TransactionModel} {trapped silent : String}
    {o : RuleOutcome} (h : executionGate model trapped silent = .error o) : o.candidate = none := by
  unfold executionGate at h
  split at h
  · obtain rfl := Except.error.inj h
    rfl
  · split at h
    · obtain rfl := Except.error.inj h
      rfl
    · split at h
      · obtain rfl := Except.error.inj h
        rfl
      · cases h

theorem sorobanGate_candidate {model : TransactionModel} {classic trapped silent : String}
    {o : RuleOutcome} (h : sorobanGate model classic trapped silent = .error o) :
    o.candidate = none := by
  unfold sorobanGate at h
  split at h
  · obtain rfl := Except.error.inj h
    rfl
  · split at h
    · obtain rfl := Except.error.inj h
      rfl
    · split at h
      · obtain rfl := Except.error.inj h
        rfl
      · split at h
        · obtain rfl := Except.error.inj h
          rfl
        · cases h

end Observatory
