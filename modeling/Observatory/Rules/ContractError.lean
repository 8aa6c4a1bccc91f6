import Observatory.Rules.Gate

/-!
# The invocation ended with the contract's own error

`contract_defined_error` (`rules/contract_error.rs`).  It fires on a terminal
`Error(Contract, #n)`, takes the report on `n` from the resolver, and is
confirmed when that names `n` from a spec the footprint bears out.
-/

namespace Observatory

section ContractError

variable [Strkey]

/-- `items.join(", ")`. -/
def commaSeparated (items : List String) : String := String.intercalate ", " items

/-- Where the code was raised: the first event carrying it that is not the terminal one. -/
def raisedAt (report : ContractErrorReport) (terminal : TerminalError) : UInt32 :=
  (report.eventIndexes.find? (fun i => i != terminal.eventIndex)).getD terminal.eventIndex

/-- Which contract raised the code. -/
def identificationText (identification : ContractIdentification) : String :=
  match identification with
  | .unique contract basis =>
      let how := match basis with
        | .soleEmitter => "the only contract whose error events carry this code"
        | .originMarker =>
            "the frame that emitted the host's origin message; other frames only re-emitted " ++
              "the code"
      s!"raised by contract {contract}: {how}"
  | .ambiguous candidates =>
      let listed := commaSeparated (candidates.map toString)
      s!"{candidates.length} contracts emitted error events carrying this code and none is " ++
        s!"marked as its origin: {listed}"
  | .unidentified => "no error event attributes the code to any contract"

/-- What the spec says about the code. -/
def resolutionEvidence (code : UInt32) (resolution : ErrorResolution) : List Evidence :=
  match resolution with
  | .resolved contract enumName caseName doc provenance =>
      let checked := match provenance with
        | .matchesFootprint wasmHash =>
            let hash := hex wasmHash.bytes
            s!"; the spec's WASM {hash} is loaded in this transaction's footprint"
        | .unverified => "; the spec could not be checked against the code that ran"
      ⟨.contractSpec,
        s!"the spec of {contract} declares #{code} as {enumName}::{caseName}{checked}"⟩ ::
        (if doc.isEmpty then [] else [⟨.contractSpec, s!"documented as: \"{doc}\""⟩])
  | .codeNotInSpec _ _ => [⟨.contractSpec, s!"the contract's spec declares no name for #{code}"⟩]
  | .ambiguousInSpec _ candidates =>
      let listed := commaSeparated (candidates.map (fun p => s!"{p.1}::{p.2}"))
      [⟨.contractSpec,
        s!"the contract's spec declares #{code} under different names: {listed}"⟩]
  | .specUnavailable _ reason =>
      [⟨.contractSpec, s!"the contract's spec was unavailable: {reason}"⟩]
  | .specVersionMismatch _ specWasmHash =>
      let hash := hex specWasmHash.bytes
      [⟨.contractSpec,
        s!"the available spec is for WASM {hash}, which this transaction did not load, so its " ++
          "names are not used"⟩]
  | .contractNotIdentified | .notApplicable => []

/-- Calls of the tree into `contract` that failed with this contract error. -/
def failedCalls (calls : List CallFrame) (code : UInt32) (contract : Option ContractId) : Nat :=
  (calls.filter (fun f => match f.outcome with
    | .failed error _ => error == .contract code && contract == some f.contract
    | _ => false)).length

/-- What is said about a code that did not end the invocation. -/
def otherEvidence (calls : List CallFrame) (other : ContractErrorReport) : List Evidence :=
  let who := ((other.identification.contract).map (fun c => s!" by {c}")).getD ""
  let name := ((other.resolution.name).map (fun n => s!" ({n})")).getD ""
  let failed := failedCalls calls other.code other.identification.contract
  match other.eventIndexes.head? with
  | none => []
  | some first =>
      [⟨.diagnosticEvent first,
        if failed > 0 then
          s!"earlier, {failed} call(s){who} failed with Error(Contract, #{other.code}){name} " ++
            "without ending the invocation"
        else
          s!"earlier, Error(Contract, #{other.code}){name} was raised{who} without ending the " ++
            s!"invocation ({other.eventIndexes.length} diagnostic events carry it)"⟩]

/-- Confidence, summary and remediation. -/
def contractErrorConclusion (code : UInt32) (report : ContractErrorReport) :
    Confidence × String × String :=
  match report.identification.contract, report.resolution with
  | some c, .resolved _ enumName caseName doc provenance =>
      let (confidence, caveat) := match provenance with
        | .matchesFootprint _ => (Confidence.confirmed, "")
        | .unverified =>
            (Confidence.likely, " The spec was not verified against the code that ran.")
      (confidence,
        s!"Contract {c} ended the invocation with its declared error {enumName}::{caseName} " ++
          s!"(Error(Contract, #{code})).{caveat}",
        if doc.isEmpty then
          s!"Find where contract {c} raises {enumName}::{caseName} in its source, and check " ++
            "that condition against this invocation's arguments and the contract's state at " ++
            "the time."
        else
          s!"The contract documents {caseName} as \"{doc}\". Check whether that condition " ++
            "held for this invocation's arguments and the contract's state at the time.")
  | some c, _ =>
      (.likely,
        s!"Contract {c} ended the invocation with contract-defined error #{code}, whose name " ++
          "could not be established.",
        s!"Name error #{code} from contract {c}'s spec (online analysis fetches it) or its " ++
          "source, then check the condition that raises it.")
  | none, _ =>
      (.likely,
        s!"The invocation ended with contract-defined error #{code}, but the contract that " ++
          "raised it could not be identified uniquely.",
        "Inspect the call trace to see which contract raised the error, then look the code up " ++
          "in that contract's spec or source.")

/-- The candidate for a terminal contract error with its report. -/
def contractErrorCandidate (ctx : FailureContext) (terminal : TerminalError) (code : UInt32)
    (report : ContractErrorReport) : CandidateCause :=
  let conclusion := contractErrorConclusion code report
  { causeClass := .contractDefinedError
    confidence := conclusion.1
    summary := conclusion.2.1
    evidence :=
      [⟨.diagnosticEvent terminal.eventIndex,
          s!"`host_fn_failed` reports the invocation ended with Error(Contract, #{code})"⟩,
        ⟨.diagnosticEvent (raisedAt report terminal), identificationText report.identification⟩]
        ++ resolutionEvidence code report.resolution
        ++ (ctx.contractErrors.filter (fun r => !r.terminal)).flatMap
          (otherEvidence ctx.model.diagnostics.calls)
    remediation := some conclusion.2.2
    ruleId := "contract_defined_error" }

/-- `ContractDefinedError::evaluate`. -/
def contractDefinedErrorEvaluate (ctx : FailureContext) : RuleOutcome :=
  behindGate
    (executionGate ctx.model "a contract-defined error ends contract execution with a trap"
      ("diagnostic events were not available, and a contract-defined error is only visible in " ++
        "them"))
    fun _ =>
      match ctx.model.diagnostics.terminalError with
      | none => .noEvidence "no `host_fn_failed` event states which error ended the invocation"
      | some terminal =>
          match terminal.error with
          | .contract code =>
              match ctx.contractErrors.find? (fun r => r.terminal && r.code == code) with
              | none =>
                  .noEvidence s!"no resolution report exists for the terminal error #{code}"
              | some report => .matched (contractErrorCandidate ctx terminal code report)
          | error =>
              let label := errorLabel error
              .notApplicable
                (s!"the invocation ended with {label}, a host error rather than a " ++
                  "contract-defined one")

/-- `ContractDefinedError`. -/
def contractDefinedError : Rule where
  id := "contract_defined_error"
  description := "The invocation ended with the contract's own error, Error(Contract, #N)"
  evaluate := contractDefinedErrorEvaluate

/-! ## What a match rests on -/

/-- A match of the rule: a trap with events, ended by a contract error, with its
report. -/
theorem contractDefinedError_matched {ctx : FailureContext} {c : CandidateCause}
    (h : contractDefinedError.evaluate ctx = .matched c) :
    ctx.model.stage = some .contractExecution ∧
      ctx.model.diagnostics.availability = .emitted ∧
      ∃ terminal code report, ctx.model.diagnostics.terminalError = some terminal ∧
        terminal.error = .contract code ∧ report ∈ ctx.contractErrors ∧
        report.terminal = true ∧ report.code = code ∧
        c = contractErrorCandidate ctx terminal code report := by
  obtain ⟨⟨⟩, hgate, hc⟩ := behindGate_matched (fun _ => executionGate_candidate) h
  obtain ⟨hstage, havail⟩ := executionGate_ok.mp hgate
  refine ⟨hstage, havail, ?_⟩
  dsimp only at hc
  split at hc
  · cases hc
  · next terminal hterminal =>
    split at hc
    · next code herror =>
      split at hc
      · cases hc
      · next report hfind =>
        obtain ⟨hreport, -⟩ := List.find?_eq_some_iff_append.mp hfind
        rw [Bool.and_eq_true, beq_iff_eq] at hreport
        exact ⟨terminal, code, report, hterminal, herror, List.mem_of_find?_eq_some hfind,
          hreport.1, hreport.2, (RuleOutcome.matched.inj hc).symm⟩
    · cases hc

/-- Confirmed means: a contract was identified, and a spec the footprint bears out
names the code. -/
theorem contractErrorConclusion_confirmed {code : UInt32} {report : ContractErrorReport}
    (h : (contractErrorConclusion code report).1 = .confirmed) :
    ∃ c c' enumName caseName doc hash, report.identification.contract = some c ∧
      report.resolution = .resolved c' enumName caseName doc (.matchesFootprint hash) := by
  unfold contractErrorConclusion at h
  split at h
  · next c c' enumName caseName doc provenance hid hres =>
    cases provenance with
    | matchesFootprint hash => exact ⟨c, c', enumName, caseName, doc, hash, hid, hres⟩
    | unverified => cases h
  · cases h
  · cases h

end ContractError

end Observatory
