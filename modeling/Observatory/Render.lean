import Observatory.Analyze
import Observatory.Lib.Utf8

/-!
# The report

The text that `sdo explain` prints (`render.rs`).  Every line is read from the model or from the
diagnosis.

* `Render.summary` — the lines at its head, with the failure stage and the likely cause.
* `Render.report` — the whole text; absent where the program panics.
-/

namespace Observatory

namespace Render

/-- `writeln!`, line by line. -/
def writelns (lines : List String) : String := (lines.map (· ++ "\n")).foldr (· ++ ·) ""

/-- `{:<n}`: the text with blanks behind it. -/
def padded (n : Nat) (text : String) : String :=
  text ++ String.ofList (List.replicate (n - text.toList.length) ' ')

/-- The texts with a separator between any two. -/
def join (separator : String) (texts : List String) : String := separator.intercalate texts

/-- The start of a hash. -/
def hex8 (bytes : Hash) : String := hex (bytes.bytes.take 4) ++ "…"

/-- A number with its digits in groups of three. -/
def thousands (n : UInt64) : String :=
  let s := (toString n).toList
  String.ofList (s.zipIdx.flatMap fun (c, i) =>
    if 0 < i ∧ (s.length - i) % 3 = 0 then [',', c] else [c])

/-- A signed number; zero for a negative one. -/
def unsigned (n : Int64) : UInt64 := if 0 ≤ n then n.toUInt64 else 0

/-- `i64::saturating_add` -/
def saturatingAdd (a b : Int64) : Int64 :=
  if a.toInt + b.toInt < Int64.minValue.toInt then Int64.minValue
  else if Int64.maxValue.toInt < a.toInt + b.toInt then Int64.maxValue
  else a + b

section Render

variable [Strkey]

/-- The ends of a contract's strkey. -/
def short (id : ContractId) : Option String := do
  let s := toString id
  let length := (Utf8.bytes s).length
  let head ← Utf8.splitAt s.toList 6
  if length < 4 then none
  let tail ← Utf8.splitAt s.toList (length - 4)
  some (String.ofList head.1 ++ "…" ++ String.ofList tail.2)

/-! ## The head -/

/-- Whether the transaction is fee-bumped. -/
def feeBumpLine (m : TransactionModel) : String :=
  match m.feeBump, m.outcome.feeBump with
  | some env, some res =>
      "Fee-bumped      yes — fee source " ++ env.feeSource ++ ", outer result " ++ res.outerCode
  | some env, none => "Fee-bumped      yes — fee source " ++ env.feeSource
  | none, _ => "Fee-bumped      no"

/-- The result, with the operation that failed. -/
def resultLine (outcome : Outcome) : String :=
  "Result          " ++ outcome.resultCode ++ match outcome.failedOperation with
    | some op => " — operation " ++ toString op.index ++ ": "
        ++ op.operation.getD "(generic)" ++ " " ++ op.code
    | none => ""

/-- The failure stage. -/
def stageLine : Option FailureStage → String
  | some stage => "Failure stage   " ++ toString stage ++ " — " ++ stage.description
  | none => "Failure stage   none — the transaction succeeded"

/-- The likely cause: the class of the top cause, with the confidence in it. -/
def causeLine (verdict : Verdict) (top : Option CauseClass) : String :=
  "Likely cause    " ++ match verdict, top with
    | .explained confidence, some top => toString top ++ " (" ++ confidence.id ++ ")"
    | .insufficientEvidence, _ => "unknown — not enough evidence to name one"
    | .unsupported, _ => "unsupported — no rule covers this kind of failure"
    | _, _ => "none"

/-- How many diagnostic events there are. -/
def diagnosticLine (diagnostics : Diagnostics) : String :=
  let events := diagnostics.events.length
  let metrics := events - diagnostics.executionEventCount
  "Diagnostic      " ++
    if diagnostics.events.isEmpty then "none returned"
    else toString events ++ " events (" ++ toString (events - metrics) ++ " execution, "
      ++ toString metrics ++ " core_metrics)"

/-- The lines at the head. -/
def summary (m : TransactionModel) (d : Diagnosis) : List String :=
  ["Transaction     " ++ m.hash.getD "<unknown>",
    feeBumpLine m,
    "Source account  " ++ m.sourceAccount,
    resultLine m.outcome,
    stageLine d.stage,
    causeLine d.verdict (d.topCause.map CandidateCause.causeClass),
    diagnosticLine m.diagnostics] ++ m.notes.map ("Note            " ++ ·)

/-! ## What was called -/

/-- The invocations. -/
def invocation (m : TransactionModel) : List String :=
  m.operations.flatMap fun op => match op.kind with
    | .invokeHostFunction hostFunction invocation =>
        ["\nInvocation",
          match invocation with
          | some inv => "  " ++ toString inv.contract ++ "::" ++ inv.function ++ "("
              ++ toString inv.args.length ++ " args)"
          | none => "  " ++ hostFunction] ++
        match m.soroban with
        | some soroban => ["  auth entries: " ++ toString soroban.auth.length ++ "   footprint: "
            ++ toString soroban.footprint.readOnly.length ++ " read-only, "
            ++ toString soroban.footprint.readWrite.length ++ " read-write"]
        | none => []
    | _ => []

/-- One call. -/
def frameLine (frame : CallFrame) : Option String := do
  let outcome := match frame.outcome with
    | .returned => "returned"
    | .failed error _ => "failed " ++ errorLabel error
    | .unknown => "outcome not shown"
  let contract ← short frame.contract
  let call := String.ofList (List.replicate (2 * frame.depth.toNat) ' ') ++ contract ++ "::"
    ++ frame.function
  some ("  " ++ padded 40 call ++ " " ++ outcome)

/-- The call trace. -/
def trace (m : TransactionModel) : Option (List String) :=
  if m.diagnostics.calls.isEmpty then some []
  else (m.diagnostics.calls.mapM frameLine).map ("\nCall trace (from diagnostic events)" :: ·)

/-- The terminal error, with what the host says of it. -/
def terminal (m : TransactionModel) : List String :=
  match m.diagnostics.terminalError with
  | none => []
  | some t =>
      let message := (m.diagnostics.errors.find?
        (fun e => e.error = t.error && e.message.isSome)).bind ErrorEvent.message
      ["\nTerminal error", "  " ++ errorLabel t.error] ++
      (match message with
        | some msg => ["  host message: \"" ++ msg ++ "\""]
        | none => []) ++
      match t.error with
      | .contract _ => []
      | _ => ["  a host error, not a contract-defined one: contract error resolution does not "
          ++ "apply"]

/-! ## Contract errors -/

/-- Which contract raised an error. -/
def identificationLine : ContractIdentification → Option String
  | .unique contract basis =>
      let how := match basis with
        | .soleEmitter => "only contract to raise it"
        | .originMarker => "origin frame of a re-emitted error"
      some ("      contract    " ++ toString contract ++ " (" ++ how ++ ")")
  | .ambiguous candidates =>
      (candidates.mapM short).map fun list =>
        "      contract    ambiguous: " ++ join ", " list
  | .unidentified => some "      contract    not identified by any error event"

/-- What is known of the error's name. -/
def resolutionText : ErrorResolution → String
  | .resolved _ enumName _ doc provenance =>
      "from the contract spec (enum " ++ enumName ++ ")"
        ++ (match provenance with
          | .matchesFootprint wasmHash =>
              "; WASM " ++ hex8 wasmHash ++ " matches the transaction footprint"
          | .unverified => "; spec version not verified")
        ++ if doc = "" then "" else "\n      doc         " ++ doc
  | .codeNotInSpec _ _ => "unavailable — the contract spec declares no name for this code"
  | .ambiguousInSpec _ candidates =>
      "ambiguous — the spec declares "
        ++ join " and " (candidates.map (fun (e, c) => e ++ "::" ++ c))
  | .specUnavailable _ reason => "unavailable — " ++ reason
  | .specVersionMismatch _ specWasmHash =>
      "unavailable — spec WASM " ++ hex8 specWasmHash
        ++ " is not the code the transaction loaded (contract upgraded since?)"
  | .contractNotIdentified => "unavailable — no single contract could be identified"
  | .notApplicable => "not applicable"

/-- One contract error. -/
def contractError (r : ContractErrorReport) : Option (List String) := do
  let role := if r.terminal then "terminal" else "raised, then caught or superseded"
  let name := r.resolution.name.getD "unknown"
  let identification ← identificationLine r.identification
  some ["  Error(Contract, #" ++ toString r.code ++ ")  →  " ++ name ++ "   [" ++ role ++ "]",
    identification, "      resolution  " ++ resolutionText r.resolution]

/-- The contract errors. -/
def contractErrors (reports : List ContractErrorReport) : Option (List String) :=
  if reports.isEmpty then some []
  else (reports.mapM contractError).map (fun errors => "\nContract errors" :: errors.flatten)

/-! ## Resources -/

/-- The declared resources and the observed ones. -/
def resources (m : TransactionModel) : List String :=
  match m.soroban with
  | none => []
  | some soroban =>
      let d := soroban.declared
      let o := m.observed
      let observed := fun v : Option UInt64 => (v.map thousands).getD "not reported"
      let charged := match o.feesCharged with
        | some f => thousands (unsigned (saturatingAdd (saturatingAdd f.nonRefundable f.refundable)
              f.rent))
            ++ " charged (non-refundable " ++ toString f.nonRefundable ++ ", refundable "
            ++ toString f.refundable ++ ", rent " ++ toString f.rent ++ ")"
        | none => "not reported"
      ["\nResources               declared        observed",
        "  CPU instructions      " ++ padded 15 (thousands d.instructions.toUInt64) ++ " "
          ++ observed o.cpuInstructions,
        "  memory bytes          " ++ padded 15 "—" ++ " " ++ observed o.memoryBytes,
        "  disk read bytes       " ++ padded 15 (thousands d.diskReadBytes.toUInt64) ++ " —",
        "  write bytes           " ++ padded 15 (thousands d.writeBytes.toUInt64) ++ " —",
        "  resource fee          " ++ padded 15 (thousands (unsigned d.resourceFee)) ++ " "
          ++ charged,
        "  (observed values are the reporting node's diagnostic measurements)"]

/-! ## The diagnosis -/

/-- Where evidence was found. -/
def sourceLabel : EvidenceSource → String
  | .transactionResult => "transaction result"
  | .operationResult index => "operation result " ++ toString index
  | .diagnosticEvent index => "event " ++ toString index
  | .authorizationEntry index => "auth entry " ++ toString index
  | .footprintEntry readWrite index =>
      "footprint " ++ (if readWrite then "read-write" else "read-only") ++ " " ++ toString index
  | .sorobanResources => "declared resources"
  | .contractSpec => "contract spec"
  | .footprint => "footprint"
  | .observedResources => "observed resources"

/-- The verdict. -/
def verdictText : Verdict → String
  | .notAFailure => "not a failure — the transaction succeeded"
  | .explained c => "explained — the top cause is " ++ c.id
  | .insufficientEvidence => "unknown — no rule found enough evidence to name a cause"
  | .unsupported => "unsupported — no implemented rule covers this kind of failure"

/-- The candidate at position `i`. -/
def cause (i : Nat) (c : CandidateCause) : List String :=
  ["\n  " ++ toString (i + 1) ++ ". " ++ toString c.causeClass ++ " [" ++ c.confidence.id ++ "]",
    "     " ++ c.summary,
    "     evidence:"] ++
  c.evidence.map (fun e => "       - " ++ e.observation ++ " (" ++ sourceLabel e.source ++ ")") ++
  (match c.remediation with
    | some r => ["     next step: " ++ r]
    | none => []) ++
  ["     rule: " ++ c.ruleId]

/-- The verdict, the candidates, the rules without evidence, and what could not be established. -/
def causes (d : Diagnosis) : List String :=
  let unproven := d.ruleReports.filter (fun r => decide (r.status = .noEvidence))
  ["\nDiagnosis", "  verdict: " ++ verdictText d.verdict] ++
  (d.candidateCauses.mapIdx cause).flatten ++
  (if unproven.isEmpty then []
    else "\n  Rules that could apply but found no evidence" ::
      unproven.map (fun r => "  - " ++ r.ruleId ++ ": " ++ r.reason.getD "no reason given")) ++
  if d.limitations.isEmpty then [] else "\nLimitations" :: d.limitations.map ("  - " ++ ·)

/-- The full report. -/
def report (m : TransactionModel) (d : Diagnosis) : Option String := do
  let calls ← trace m
  let errors ← contractErrors d.contractErrors
  some (writelns (summary m d ++ invocation m ++ calls ++ terminal m ++ errors ++ resources m
    ++ causes d))

end Render

end Render

end Observatory
