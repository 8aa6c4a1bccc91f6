import Observatory.Rules.Footprint

/-!
# The contract trapped

`contract_trap` (`rules/contract_trap.rs`).  The invocation ended with a
`WasmVm` error, and an error event with that same error carries the host's
message for an `unreachable` instruction.  Confirmed is deliberately out of
reach.
-/

namespace Observatory

/-- The host message for a WebAssembly `unreachable` instruction. -/
def unreachableMarker : String := "UnreachableCodeReached"

/-- The function whose frame trapped. -/
def trapFrame (data : ScVal) : Option String :=
  match data with
  | .vec items =>
      let second : Option ScVal := items.toList[1]?
      match second with
      | some (.symbol name) => some name.toUtf8StringLossy
      | _ => none
  | _ => none

/-- An error event reporting an `unreachable` trap with this error. -/
def ErrorEvent.isTrap (error : ScError) (x : ErrorEvent) : Bool :=
  x.error == error && x.message.any (fun m => containsText m unreachableMarker)

section Trap

variable [Strkey]

/-- The candidate for a trap. -/
def trapCandidate (terminal : TerminalError) (x : ErrorEvent) : CandidateCause :=
  let label := errorLabel terminal.error
  let message := x.message.getD ""
  let place := match x.event.contract, trapFrame x.event.data with
    | some c, some f => s!" in contract {c}, function `{f}`"
    | some c, none => s!" in contract {c}"
    | none, _ => ""
  { causeClass := .contractTrap
    confidence := .likely
    summary :=
      s!"The contract trapped{place} by executing a WebAssembly `unreachable` instruction, as " ++
        "a panic does. The trap is not a contract-declared error, and the diagnostics do not " ++
        "identify the panic site."
    evidence :=
      [⟨.diagnosticEvent terminal.eventIndex,
          s!"`host_fn_failed` reports the invocation ended with {label}"⟩,
        ⟨.diagnosticEvent x.event.index,
          s!"host message \"{message}\": a WebAssembly `unreachable` instruction executed"⟩]
    remediation := some
      ("Find the panic sites in the contract that this invocation can reach: `unwrap()` or " ++
        "`expect()` on an `Option` or `Result`, `panic!`, a failed `assert!`, or an " ++
        "out-of-range index. Reproduce the call against a local or testnet build, with the " ++
        "same arguments and ledger state, to see which one fires.")
    ruleId := "contract_trap" }

/-- `ContractTrap::evaluate`. -/
def contractTrapEvaluate (ctx : FailureContext) : RuleOutcome :=
  behindGate
    (executionGate ctx.model "a panic ends contract execution with a trap"
      "diagnostic events were not available, and the trap reason is only visible in them")
    fun _ =>
      match ctx.model.diagnostics.terminalError with
      | none => .noEvidence "no `host_fn_failed` event states which error ended the invocation"
      | some terminal =>
          let label := errorLabel terminal.error
          match terminal.error with
          | .wasmVm _ =>
              match ctx.model.diagnostics.errors.find? (ErrorEvent.isTrap terminal.error) with
              | none =>
                  .noEvidence
                    (s!"the invocation ended with {label}, but no event identifies it as an " ++
                      "`unreachable` trap, so the trap is not attributed to a panic")
              | some x => .matched (trapCandidate terminal x)
          | .contract code =>
              .notApplicable
                s!"the invocation ended with the contract-defined error #{code}, not a trap"
          | _ =>
              .notApplicable
                (s!"the invocation ended with {label}, a host error rather than a contract " ++
                  "trap")

/-- `ContractTrap`. -/
def contractTrap : Rule where
  id := "contract_trap"
  description := "The contract trapped on a WebAssembly `unreachable` instruction, as a panic does"
  evaluate := contractTrapEvaluate

/-- A match of the trap rule: a trap with events, ended by a `WasmVm` error, and
the first error event that reports it as an `unreachable` trap. -/
theorem contractTrap_matched {ctx : FailureContext} {c : CandidateCause}
    (h : contractTrap.evaluate ctx = .matched c) :
    ctx.model.stage = some .contractExecution ∧
      ctx.model.diagnostics.availability = .emitted ∧
      ∃ terminal code x, ctx.model.diagnostics.terminalError = some terminal ∧
        terminal.error = .wasmVm code ∧
        ctx.model.diagnostics.errors.find? (ErrorEvent.isTrap terminal.error) = some x ∧
        c = trapCandidate terminal x := by
  obtain ⟨⟨⟩, hgate, hc⟩ := behindGate_matched (fun _ => executionGate_candidate) h
  obtain ⟨hstage, havail⟩ := executionGate_ok.mp hgate
  refine ⟨hstage, havail, ?_⟩
  dsimp only at hc
  split at hc
  · cases hc
  · next terminal hterminal =>
    split at hc
    · next code herror =>
      split at hc
      · cases hc
      · next x hfind =>
        exact ⟨terminal, code, x, hterminal, herror, hfind, (RuleOutcome.matched.inj hc).symm⟩
    · cases hc
    · cases hc

end Trap

end Observatory
