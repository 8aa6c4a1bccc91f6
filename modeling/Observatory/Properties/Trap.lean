import Observatory.Properties.Confirmed

/-!
# When the trap rule fires

`contract_trap` is documented for an invocation that ended with
`Error(WasmVm, InvalidAction)` and an error event with that error and the host's
message for an `unreachable` instruction.  The code does not look at the code of the
`WasmVm` error.

* `contractTrap_matches_iff` — when the rule matches.
* `firesOnTrigger_iff` — that is its documented trigger exactly when the invocation did
  not end with another `WasmVm` error that an event reports with that message.
-/

namespace Observatory

/-- An error event with this error reports an `unreachable` instruction. -/
def UnreachableRaised (raw : List DiagnosticEvent) (error : ScError) : Prop :=
  ∃ i message r, RaisesAt raw i error (some message) r ∧
    containsText message unreachableMarker = true

/-- The search of the rule succeeds when there is such an event. -/
theorem find?_isTrap_isSome {raw : List DiagnosticEvent} {enabled : Bool} {error : ScError} :
    ((Diagnostics.fromEvents raw enabled).errors.find? (ErrorEvent.isTrap error)).isSome = true ↔
      UnreachableRaised raw error := by
  rw [List.find?_isSome]
  constructor
  · rintro ⟨x, hx, htrap⟩
    obtain ⟨i, r, hraises, -⟩ := mem_errors_fromEvents.mp hx
    unfold ErrorEvent.isTrap at htrap
    rw [Bool.and_eq_true, beq_iff_eq, Option.any_eq_true] at htrap
    obtain ⟨rfl, message, hmessage, hmarker⟩ := htrap
    rw [hmessage] at hraises
    exact ⟨i, message, r, hraises, hmarker⟩
  · rintro ⟨i, message, r, hraises, hmarker⟩
    refine ⟨⟨DiagEvent.classify (u32OrMax i) r, error, some message⟩,
      mem_errors_fromEvents.mpr ⟨i, r, hraises, rfl⟩, ?_⟩
    simp [ErrorEvent.isTrap, hmarker]

section Trap

variable [Strkey]

/-- What the rule is documented to fire on. -/
def TrapTrigger (input : AnalysisInput) : Prop :=
  TrappedWith input (.wasmVm .invalidAction) ∧
    UnreachableRaised input.diagnosticEvents (.wasmVm .invalidAction)

/-- The rule matches exactly on its trigger, and then as likely; on every other `WasmVm`
termination it finds no evidence. -/
structure FiresOnTrigger (input : AnalysisInput) : Prop where
  matched_iff : (∃ c, contractTrap.evaluate (failureContext input) = .matched c) ↔
    TrapTrigger input
  likely : ∀ c, contractTrap.evaluate (failureContext input) = .matched c →
    c.confidence = .likely
  otherwise : ∀ code, (TransactionModel.fromInput input).stage = some .contractExecution →
    rawTerminal input.diagnosticEvents = some (.wasmVm code) → ¬ TrapTrigger input →
    ∃ reason, contractTrap.evaluate (failureContext input) = .noEvidence reason

/-- The invocation ended with another `WasmVm` error, which an error event reports with the
message for an `unreachable` instruction. -/
def OtherUnreachable (input : AnalysisInput) : Prop :=
  ∃ code, code ≠ .invalidAction ∧ TrappedWith input (.wasmVm code) ∧
    UnreachableRaised input.diagnosticEvents (.wasmVm code)

/-- Behind the gate, the rule answers by the search for the event. -/
theorem contractTrap_of_trapped {input : AnalysisInput} {code : ScErrorCode}
    (h : TrappedWith input (.wasmVm code)) :
    (UnreachableRaised input.diagnosticEvents (.wasmVm code) ∧
        ∃ c, contractTrap.evaluate (failureContext input) = .matched c) ∨
      (¬ UnreachableRaised input.diagnosticEvents (.wasmVm code) ∧
        ∃ reason, contractTrap.evaluate (failureContext input) = .noEvidence reason) := by
  obtain ⟨hstage, havail, hraw⟩ := h
  rw [← map_terminalError, Option.map_eq_some_iff] at hraw
  obtain ⟨t, hterminal, herror⟩ := hraw
  have hmodel : (failureContext input).model = TransactionModel.fromInput input := rfl
  have hsearch : ((TransactionModel.fromInput input).diagnostics.errors.find?
      (ErrorEvent.isTrap (.wasmVm code))).isSome = true ↔
        UnreachableRaised input.diagnosticEvents (.wasmVm code) := find?_isTrap_isSome
  have heval : contractTrap.evaluate (failureContext input)
      = contractTrapEvaluate (failureContext input) := rfl
  rw [heval]
  unfold contractTrapEvaluate
  rw [hmodel, executionGate_ok.mpr ⟨hstage, havail⟩]
  simp only [behindGate, hterminal, herror]
  cases hfind : (TransactionModel.fromInput input).diagnostics.errors.find?
      (ErrorEvent.isTrap (.wasmVm code)) with
  | none =>
      rw [hfind] at hsearch
      exact Or.inr ⟨by simpa using hsearch, _, rfl⟩
  | some x =>
      rw [hfind] at hsearch
      exact Or.inl ⟨hsearch.mp rfl, _, rfl⟩

/-- **When the rule matches**: on any `WasmVm` error that an event reports with the message
for an `unreachable` instruction. -/
theorem contractTrap_matches_iff {input : AnalysisInput} :
    (∃ c, contractTrap.evaluate (failureContext input) = .matched c) ↔
      ∃ code, TrappedWith input (.wasmVm code) ∧
        UnreachableRaised input.diagnosticEvents (.wasmVm code) := by
  constructor
  · rintro ⟨c, hc⟩
    obtain ⟨hstage, havail, t, code, x, hterminal, herror, -⟩ := contractTrap_matched hc
    have htrapped : TrappedWith input (.wasmVm code) :=
      ⟨hstage, havail, by rw [rawTerminal_of_model hterminal, herror]⟩
    refine ⟨code, htrapped, ?_⟩
    rcases contractTrap_of_trapped htrapped with ⟨hraised, -⟩ | ⟨-, reason, hreason⟩
    · exact hraised
    · rw [hc] at hreason
      cases hreason
  · rintro ⟨code, htrapped, hraised⟩
    rcases contractTrap_of_trapped htrapped with ⟨-, hmatched⟩ | ⟨hnone, -⟩
    · exact hmatched
    · exact absurd hraised hnone

/-- A `WasmVm` termination on which the rule does not match gives no evidence. -/
theorem contractTrap_noEvidence {input : AnalysisInput} {code : ScErrorCode}
    (hstage : (TransactionModel.fromInput input).stage = some .contractExecution)
    (hraw : rawTerminal input.diagnosticEvents = some (.wasmVm code))
    (h : ¬ ∃ c, contractTrap.evaluate (failureContext input) = .matched c) :
    ∃ reason, contractTrap.evaluate (failureContext input) = .noEvidence reason := by
  cases havail : (TransactionModel.fromInput input).diagnostics.availability with
  | notEmitted =>
      have hgate := executionGate_silent "a panic ends contract execution with a trap"
        "diagnostic events were not available, and the trap reason is only visible in them"
        hstage havail
      refine ⟨"diagnostic events were not available, and the trap reason is only visible in them",
        ?_⟩
      have hmodel : (failureContext input).model = TransactionModel.fromInput input := rfl
      show contractTrapEvaluate (failureContext input) = _
      unfold contractTrapEvaluate
      rw [hmodel, hgate]
      rfl
  | emitted =>
      rcases contractTrap_of_trapped ⟨hstage, havail, hraw⟩ with ⟨-, hmatched⟩ | ⟨-, hnone⟩
      · exact absurd hmatched h
      · exact hnone

/-- Every match of the trap rule is likely. -/
theorem contractTrap_likely {ctx : FailureContext} {c : CandidateCause}
    (h : contractTrap.evaluate ctx = .matched c) : c.confidence = .likely := by
  obtain ⟨-, -, t, code, x, -, -, -, rfl⟩ := contractTrap_matched h
  rfl

/-- **The trigger.**  The rule fires on its documented trigger exactly when the invocation
did not end with another `WasmVm` error reported as an `unreachable` instruction. -/
theorem firesOnTrigger_iff (input : AnalysisInput) :
    FiresOnTrigger input ↔ ¬ OtherUnreachable input := by
  constructor
  · rintro hfires ⟨code, hne, htrapped, hraised⟩
    obtain ⟨⟨-, -, hraw⟩, -⟩ :=
      hfires.matched_iff.mp (contractTrap_matches_iff.mpr ⟨code, htrapped, hraised⟩)
    rw [htrapped.2.2] at hraw
    cases hraw
    exact hne rfl
  · intro hother
    have hmatched : (∃ c, contractTrap.evaluate (failureContext input) = .matched c) ↔
        TrapTrigger input := by
      rw [contractTrap_matches_iff]
      constructor
      · rintro ⟨code, htrapped, hraised⟩
        by_cases hcode : code = .invalidAction
        · subst hcode
          exact ⟨htrapped, hraised⟩
        · exact absurd ⟨code, hcode, htrapped, hraised⟩ hother
      · rintro ⟨htrapped, hraised⟩
        exact ⟨.invalidAction, htrapped, hraised⟩
    refine ⟨hmatched, fun c => contractTrap_likely, ?_⟩
    intro code hstage hraw htrigger
    exact contractTrap_noEvidence hstage hraw (fun h => htrigger (hmatched.mp h))

end Trap

/-! ## Another trap -/

/-- The invocation ended with `Error(WasmVm, ExceededLimit)`, which an error event of the
contract reports with the message for an `unreachable` instruction. -/
def otherTrapInput : AnalysisInput :=
  sorobanFailure .trapped []
    (some [call none (cid 5) "f",
      err (cid 5) (.wasmVm .exceededLimit) "VM call trapped: UnreachableCodeReached",
      hostFnFailed (.wasmVm .exceededLimit)])

/-- The rule matches although the invocation did not end with `InvalidAction`. -/
theorem firesOnTrigger_fails : ¬ @FiresOnTrigger Strkey.standard otherTrapInput := by
  let _ : Strkey := Strkey.standard
  intro hfires
  have hmatches : ∃ c, contractTrap.evaluate (failureContext otherTrapInput) = .matched c :=
    RuleOutcome.status_eq_matched.mp (by decide)
  obtain ⟨⟨-, -, hraw⟩, -⟩ := hfires.matched_iff.mp hmatches
  revert hraw
  decide

end Observatory
