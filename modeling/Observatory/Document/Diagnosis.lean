import Observatory.Contract.Hex32
import Observatory.Diagnosis
import Observatory.Document.Codec

/-!
# Diagnoses as documents

How a diagnosis is written as JSON, by the attributes of its types (`diagnosis.rs`,
`taxonomy.rs`, `contract/resolve.rs`), and the document of `sdo explain --json`
(`json.rs`): the verdict, and the fields of the diagnosis in the same object.
Contracts are written as strkeys; the parser of these belongs to another crate and is
a parameter.

* `ContractParser` — a parser that undoes the printer.
* `Diagnosis.serialize`, `Diagnosis.deserialize` — a diagnosis.
* `ExplainOutput.serialize` — the document.
-/

namespace Observatory

/-- An object with a tag in front of its fields. -/
def tagged (tag name : String) (fields : List (String × Json)) : Json :=
  .object ((tag, .string name) :: fields)

/-! ## Names -/

/-- `Confidence`, by the names of its variants. -/
def Confidence.codec : Codec Confidence :=
  .variants
    (fun
      | .possible => "POSSIBLE"
      | .likely => "LIKELY"
      | .confirmed => "CONFIRMED")
    [.possible, .likely, .confirmed] (by intro a; cases a <;> rfl)

/-- `FailureStage`, by the names of its variants. -/
def FailureStage.codec : Codec FailureStage :=
  .variants
    (fun
      | .validation => "VALIDATION"
      | .sequence => "SEQUENCE"
      | .fee => "FEE"
      | .operation => "OPERATION"
      | .hostFunction => "HOST_FUNCTION"
      | .contractExecution => "CONTRACT_EXECUTION"
      | .auth => "AUTH"
      | .footprint => "FOOTPRINT"
      | .stateArchival => "STATE_ARCHIVAL"
      | .resourceLimit => "RESOURCE_LIMIT"
      | .resourceFee => "RESOURCE_FEE"
      | .unknown => "UNKNOWN")
    [.validation, .sequence, .fee, .operation, .hostFunction, .contractExecution, .auth,
      .footprint, .stateArchival, .resourceLimit, .resourceFee, .unknown]
    (by intro a; cases a <;> rfl)

/-- `CauseClass`, by the names of its variants. -/
def CauseClass.codec : Codec CauseClass :=
  .variants
    (fun
      | .missingAuthorizationEntry => "MISSING_AUTHORIZATION_ENTRY"
      | .invalidAuthorizationEntry => "INVALID_AUTHORIZATION_ENTRY"
      | .footprintEntryMissing => "FOOTPRINT_ENTRY_MISSING"
      | .archivedEntryRequiresRestore => "ARCHIVED_ENTRY_REQUIRES_RESTORE"
      | .resourceLimitExceeded => "RESOURCE_LIMIT_EXCEEDED"
      | .insufficientResourceFee => "INSUFFICIENT_RESOURCE_FEE"
      | .contractDefinedError => "CONTRACT_DEFINED_ERROR"
      | .contractTrap => "CONTRACT_TRAP"
      | .malformedHostFunction => "MALFORMED_HOST_FUNCTION"
      | .undetermined => "UNDETERMINED")
    [.missingAuthorizationEntry, .invalidAuthorizationEntry, .footprintEntryMissing,
      .archivedEntryRequiresRestore, .resourceLimitExceeded, .insufficientResourceFee,
      .contractDefinedError, .contractTrap, .malformedHostFunction, .undetermined]
    (by intro a; cases a <;> rfl)

/-- `RuleStatus`, by the names of its variants. -/
def RuleStatus.codec : Codec RuleStatus :=
  .variants
    (fun
      | .matched => "MATCHED"
      | .noEvidence => "NO_EVIDENCE"
      | .notApplicable => "NOT_APPLICABLE")
    [.matched, .noEvidence, .notApplicable] (by intro a; cases a <;> rfl)

/-- `IdentificationBasis`, by the names of its variants. -/
def IdentificationBasis.codec : Codec IdentificationBasis :=
  .variants
    (fun
      | .soleEmitter => "sole_emitter"
      | .originMarker => "origin_marker")
    [.soleEmitter, .originMarker] (by intro a; cases a <;> rfl)

/-- A hash, through `hex32`. -/
def Hash.codec : Codec Hash :=
  .text Hex32.serialize (fun s => (Hex32.deserialize s).toOption)
    (fun h => by rw [Hex32.deserialize_serialize]; rfl)

/-! ## Causes -/

/-- `EvidenceSource`, tagged with `source`. -/
def EvidenceSource.codec : Codec EvidenceSource where
  serialize
    | .transactionResult => tagged "source" "transaction_result" []
    | .operationResult index =>
        tagged "source" "operation_result" [("index", Codec.u32.serialize index)]
    | .diagnosticEvent index =>
        tagged "source" "diagnostic_event" [("index", Codec.u32.serialize index)]
    | .authorizationEntry index =>
        tagged "source" "authorization_entry" [("index", Codec.u32.serialize index)]
    | .footprintEntry readWrite index => tagged "source" "footprint_entry"
        [("read_write", Codec.bool.serialize readWrite), ("index", Codec.u32.serialize index)]
    | .sorobanResources => tagged "source" "soroban_resources" []
    | .contractSpec => tagged "source" "contract_spec" []
    | .footprint => tagged "source" "footprint" []
    | .observedResources => tagged "source" "observed_resources" []
  deserialize j := do
    match ← Codec.string.field j "source" with
    | "transaction_result" => some .transactionResult
    | "operation_result" => return .operationResult (← Codec.u32.field j "index")
    | "diagnostic_event" => return .diagnosticEvent (← Codec.u32.field j "index")
    | "authorization_entry" => return .authorizationEntry (← Codec.u32.field j "index")
    | "footprint_entry" =>
        return .footprintEntry (← Codec.bool.field j "read_write") (← Codec.u32.field j "index")
    | "soroban_resources" => some .sorobanResources
    | "contract_spec" => some .contractSpec
    | "footprint" => some .footprint
    | "observed_resources" => some .observedResources
    | _ => none
  deserialize_serialize a := by
    cases a <;> simp [tagged, Codec.field, Json.values, Codec.string, Json.asStr,
      Codec.deserialize_serialize]
  serialize_ne_null a h := by cases a <;> cases h

/-- `Evidence` -/
def Evidence.codec : Codec Evidence where
  serialize e := .object [("source", EvidenceSource.codec.serialize e.source),
    ("observation", Codec.string.serialize e.observation)]
  deserialize j := return {
    source := ← EvidenceSource.codec.field j "source"
    observation := ← Codec.string.field j "observation" }
  deserialize_serialize e := by simp [Codec.field, Json.values, Codec.deserialize_serialize]
  serialize_ne_null _ h := by cases h

/-- `CandidateCause` -/
def CandidateCause.codec : Codec CandidateCause where
  serialize c := .object [("class", CauseClass.codec.serialize c.causeClass),
    ("confidence", Confidence.codec.serialize c.confidence),
    ("summary", Codec.string.serialize c.summary),
    ("evidence", Evidence.codec.list.serialize c.evidence),
    ("remediation", Codec.string.serializeOption c.remediation),
    ("rule_id", Codec.string.serialize c.ruleId)]
  deserialize j := return {
    causeClass := ← CauseClass.codec.field j "class"
    confidence := ← Confidence.codec.field j "confidence"
    summary := ← Codec.string.field j "summary"
    evidence := ← Evidence.codec.list.field j "evidence"
    remediation := ← Codec.string.optionalField j "remediation"
    ruleId := ← Codec.string.field j "rule_id" }
  deserialize_serialize c := by
    rw [Codec.optionalField_eq Codec.string (a := c.remediation) rfl]
    simp [Codec.field, Json.values, Codec.deserialize_serialize]
  serialize_ne_null _ h := by cases h

/-! ## Contract errors -/

section Contracts

variable [Strkey] (contracts : ContractParser)

/-- A contract, as its strkey. -/
def ContractId.codec : Codec ContractId :=
  .text toString contracts.parse contracts.parse_toString

/-- `ContractIdentification`, tagged with `kind`. -/
def ContractIdentification.codec : Codec ContractIdentification where
  serialize
    | .unique contract basis => tagged "kind" "unique"
        [("contract", (ContractId.codec contracts).serialize contract),
          ("basis", IdentificationBasis.codec.serialize basis)]
    | .ambiguous candidates => tagged "kind" "ambiguous"
        [("candidates", (ContractId.codec contracts).list.serialize candidates)]
    | .unidentified => tagged "kind" "unidentified" []
  deserialize j := do
    match ← Codec.string.field j "kind" with
    | "unique" =>
        let contract ← (ContractId.codec contracts).field j "contract"
        return .unique contract (← IdentificationBasis.codec.field j "basis")
    | "ambiguous" => return .ambiguous (← (ContractId.codec contracts).list.field j "candidates")
    | "unidentified" => some .unidentified
    | _ => none
  deserialize_serialize a := by
    cases a <;> simp [tagged, Codec.field, Json.values, Codec.string, Json.asStr,
      Codec.deserialize_serialize]
  serialize_ne_null a h := by cases a <;> cases h

/-- `SpecProvenance`, tagged with `kind`. -/
def SpecProvenance.codec : Codec SpecProvenance where
  serialize
    | .matchesFootprint wasmHash =>
        tagged "kind" "matches_footprint" [("wasm_hash", Hash.codec.serialize wasmHash)]
    | .unverified => tagged "kind" "unverified" []
  deserialize j := do
    match ← Codec.string.field j "kind" with
    | "matches_footprint" => return .matchesFootprint (← Hash.codec.field j "wasm_hash")
    | "unverified" => some .unverified
    | _ => none
  deserialize_serialize a := by
    cases a <;> simp [tagged, Codec.field, Json.values, Codec.string, Json.asStr,
      Codec.deserialize_serialize]
  serialize_ne_null a h := by cases a <;> cases h

/-- `ErrorResolution`, tagged with `kind`. -/
def ErrorResolution.codec : Codec ErrorResolution where
  serialize
    | .resolved contract enumName caseName doc provenance => tagged "kind" "resolved"
        [("contract", (ContractId.codec contracts).serialize contract),
          ("enum_name", Codec.string.serialize enumName),
          ("case_name", Codec.string.serialize caseName), ("doc", Codec.string.serialize doc),
          ("provenance", SpecProvenance.codec.serialize provenance)]
    | .codeNotInSpec contract provenance => tagged "kind" "code_not_in_spec"
        [("contract", (ContractId.codec contracts).serialize contract),
          ("provenance", SpecProvenance.codec.serialize provenance)]
    | .ambiguousInSpec contract candidates => tagged "kind" "ambiguous_in_spec"
        [("contract", (ContractId.codec contracts).serialize contract),
          ("candidates", (Codec.string.pair .string).list.serialize candidates)]
    | .specUnavailable contract reason => tagged "kind" "spec_unavailable"
        [("contract", (ContractId.codec contracts).serialize contract),
          ("reason", Codec.string.serialize reason)]
    | .specVersionMismatch contract specWasmHash => tagged "kind" "spec_version_mismatch"
        [("contract", (ContractId.codec contracts).serialize contract),
          ("spec_wasm_hash", Hash.codec.serialize specWasmHash)]
    | .contractNotIdentified => tagged "kind" "contract_not_identified" []
    | .notApplicable => tagged "kind" "not_applicable" []
  deserialize j := do
    match ← Codec.string.field j "kind" with
    | "resolved" =>
        let contract ← (ContractId.codec contracts).field j "contract"
        let enumName ← Codec.string.field j "enum_name"
        let caseName ← Codec.string.field j "case_name"
        let doc ← Codec.string.field j "doc"
        return .resolved contract enumName caseName doc
          (← SpecProvenance.codec.field j "provenance")
    | "code_not_in_spec" =>
        let contract ← (ContractId.codec contracts).field j "contract"
        return .codeNotInSpec contract (← SpecProvenance.codec.field j "provenance")
    | "ambiguous_in_spec" =>
        let contract ← (ContractId.codec contracts).field j "contract"
        return .ambiguousInSpec contract (← (Codec.string.pair .string).list.field j "candidates")
    | "spec_unavailable" =>
        let contract ← (ContractId.codec contracts).field j "contract"
        return .specUnavailable contract (← Codec.string.field j "reason")
    | "spec_version_mismatch" =>
        let contract ← (ContractId.codec contracts).field j "contract"
        return .specVersionMismatch contract (← Hash.codec.field j "spec_wasm_hash")
    | "contract_not_identified" => some .contractNotIdentified
    | "not_applicable" => some .notApplicable
    | _ => none
  deserialize_serialize a := by
    cases a <;> simp [tagged, Codec.field, Json.values, Codec.string, Json.asStr,
      Codec.deserialize_serialize]
  serialize_ne_null a h := by cases a <;> cases h

/-- `ContractErrorReport` -/
def ContractErrorReport.codec : Codec ContractErrorReport where
  serialize r := .object [("code", Codec.u32.serialize r.code),
    ("terminal", Codec.bool.serialize r.terminal),
    ("event_indexes", Codec.u32.list.serialize r.eventIndexes),
    ("identification", (ContractIdentification.codec contracts).serialize r.identification),
    ("resolution", (ErrorResolution.codec contracts).serialize r.resolution)]
  deserialize j := return {
    code := ← Codec.u32.field j "code"
    terminal := ← Codec.bool.field j "terminal"
    eventIndexes := ← Codec.u32.list.field j "event_indexes"
    identification := ← (ContractIdentification.codec contracts).field j "identification"
    resolution := ← (ErrorResolution.codec contracts).field j "resolution" }
  deserialize_serialize r := by simp [Codec.field, Json.values, Codec.deserialize_serialize]
  serialize_ne_null _ h := by cases h

end Contracts

/-! ## The diagnosis -/

/-- `RuleReport` -/
def RuleReport.codec : Codec RuleReport where
  serialize r := .object [("rule_id", Codec.string.serialize r.ruleId),
    ("status", RuleStatus.codec.serialize r.status),
    ("reason", Codec.string.serializeOption r.reason)]
  deserialize j := return {
    ruleId := ← Codec.string.field j "rule_id"
    status := ← RuleStatus.codec.field j "status"
    reason := ← Codec.string.optionalField j "reason" }
  deserialize_serialize r := by
    rw [Codec.optionalField_eq Codec.string (a := r.reason) rfl]
    simp [Codec.field, Json.values, Codec.deserialize_serialize]
  serialize_ne_null _ h := by cases h

/-- `Verdict`, tagged with `kind`, its confidence under `confidence`. -/
def Verdict.codec : Codec Verdict where
  serialize
    | .notAFailure => tagged "kind" "NOT_A_FAILURE" []
    | .explained confidence =>
        tagged "kind" "EXPLAINED" [("confidence", Confidence.codec.serialize confidence)]
    | .insufficientEvidence => tagged "kind" "INSUFFICIENT_EVIDENCE" []
    | .unsupported => tagged "kind" "UNSUPPORTED" []
  deserialize j := do
    match ← Codec.string.field j "kind" with
    | "NOT_A_FAILURE" => some .notAFailure
    | "EXPLAINED" => return .explained (← Confidence.codec.field j "confidence")
    | "INSUFFICIENT_EVIDENCE" => some .insufficientEvidence
    | "UNSUPPORTED" => some .unsupported
    | _ => none
  deserialize_serialize a := by
    cases a <;> simp [tagged, Codec.field, Json.values, Codec.string, Json.asStr,
      Codec.deserialize_serialize]
  serialize_ne_null a h := by cases a <;> cases h

section Documents

variable [Strkey] (contracts : ContractParser)

/-- The fields of a diagnosis. -/
def Diagnosis.fields (d : Diagnosis) : List (String × Json) :=
  [("transaction_hash", Codec.string.serializeOption d.transactionHash),
    ("stage", FailureStage.codec.serializeOption d.stage),
    ("candidate_causes", CandidateCause.codec.list.serialize d.candidateCauses),
    ("contract_errors", (ContractErrorReport.codec contracts).list.serialize d.contractErrors),
    ("rule_reports", RuleReport.codec.list.serialize d.ruleReports),
    ("limitations", Codec.string.list.serialize d.limitations),
    ("rules_evaluated", .number (toString d.rulesEvaluated))]

/-- A diagnosis as JSON. -/
def Diagnosis.serialize (d : Diagnosis) : Json := .object (d.fields contracts)

/-- A diagnosis from JSON.  Fields that are not its own are passed over. -/
def Diagnosis.deserialize (j : Json) : Option Diagnosis := return {
  transactionHash := ← Codec.string.optionalField j "transaction_hash"
  stage := ← FailureStage.codec.optionalField j "stage"
  candidateCauses := ← CandidateCause.codec.list.field j "candidate_causes"
  contractErrors := ← (ContractErrorReport.codec contracts).list.field j "contract_errors"
  ruleReports := ← RuleReport.codec.list.field j "rule_reports"
  limitations := ← Codec.string.list.field j "limitations"
  rulesEvaluated := ← Codec.readField UInt64.size j "rules_evaluated" }

/-- The document of `sdo explain --json`: the verdict, and the fields of the diagnosis. -/
def ExplainOutput.serialize (d : Diagnosis) : Json :=
  .object (("verdict", Verdict.codec.serialize d.verdict) :: d.fields contracts)

end Documents

end Observatory
