import Observatory.Probe.ResultCodes
import Observatory.Rpc.Decode

/-!
# The probe of an endpoint

What an analyser would have to work with, told from a `getTransaction` response
(`probe.rs`).  The probe reads the response on its own, apart from
`decodeGetTransaction`; decoding the XDR is the same parameter, and encoding an
event is another.

* `locateDiagnosticEvents` — the texts of the events, and where they were.
* `probeTransaction` — the report.
-/

namespace Observatory

namespace Probe

/-- Whether an artifact was present, and whether it was decoded. -/
inductive ArtifactState where
  | decoded
  /-- Present, but not decodable: the decoder's error. -/
  | decodeFailed (error : String)
  | absent
  deriving DecidableEq

/-- Decode an artifact, recording the outcome. -/
def ArtifactState.decode {α : Type} (fromXdrBase64 : String → Limits → Except String α)
    (field : Option String) : ArtifactState × Option α :=
  match field with
  | none => (.absent, none)
  | some b64 =>
      match fromXdrBase64 b64 (limitsForBase64 b64) with
      | .ok v => (.decoded, some v)
      | .error e => (.decodeFailed e, none)

/-- Whether the artifact is usable by an analyser. -/
def ArtifactState.isUsable : ArtifactState → Bool
  | .decoded => true
  | _ => false

/-- Where in the response the diagnostic events were found. -/
inductive DiagnosticLocation where
  /-- Top-level `diagnosticEventsXdr`. -/
  | topLevel
  /-- Nested `events.diagnosticEventsXdr`. -/
  | eventsObject
  /-- Recovered from the metadata. -/
  | resultMeta
  deriving DecidableEq

/-- What the probe found out about diagnostic events. -/
structure DiagnosticEventsReport where
  /-- Whether any were returned. -/
  available : Bool
  /-- Where they were found, if they were. -/
  location : Option DiagnosticLocation
  /-- How many were returned. -/
  count : Nat
  /-- How many decoded. -/
  decodedCount : Nat
  /-- Whether every returned event decoded. -/
  decoded : Bool
  /-- Decoder errors. -/
  decodeErrors : List String

/-- The verdict for a transaction on an endpoint. -/
inductive Verdict where
  /-- Envelope, result, meta and decodable diagnostic events are all present. -/
  | sufficientForAnalysis
  /-- Envelope, result and meta are present, but diagnostic events are not. -/
  | insufficientForFullAnalysis
  /-- Core artifacts are missing or undecodable. -/
  | unusable
  /-- The endpoint did not have this transaction. -/
  | transactionNotFound
  /-- The transaction succeeded. -/
  | notAFailedTransaction
  deriving DecidableEq

/-- The full probe result for a transaction on an endpoint. -/
structure ProbeReport where
  /-- Schema version. -/
  schema : String
  /-- The endpoint probed. -/
  rpcUrl : String
  /-- Network passphrase, if the endpoint gave it. -/
  networkPassphrase : Option String
  /-- The transaction hash probed. -/
  transaction : String
  /-- Transaction status as reported. -/
  status : String
  /-- The ledger the transaction was included in. -/
  ledger : Option UInt64
  /-- Whether the envelope contains a Soroban operation. -/
  isSoroban : Bool
  /-- Which Soroban operation kind was found. -/
  sorobanOperation : Option String
  /-- State of `envelopeXdr`. -/
  envelopeXdr : ArtifactState
  /-- State of `resultXdr`. -/
  resultXdr : ArtifactState
  /-- State of `resultMetaXdr`. -/
  resultMetaXdr : ArtifactState
  /-- Which arm of the metadata was returned. -/
  metaVersion : Option UInt32
  /-- Whether the metadata had a Soroban part. -/
  sorobanMetaPresent : Bool
  /-- Result-code names, when the result decoded. -/
  failureSignal : Option FailureSignal
  /-- Diagnostic event findings. -/
  diagnosticEvents : DiagnosticEventsReport
  /-- The overall verdict. -/
  verdict : Verdict
  /-- Anything the probe could not determine. -/
  notes : List String

/-! ## Diagnostic events -/

/-- The strings of an array; nothing when there is no array. -/
def stringArray (v : Option Json) : Option (List String) :=
  (v.bind Json.asArray).map (fun items => items.filterMap Json.asStr)

/-- `to_xdr_base64` for an event, without limits; an error comes with its text. -/
abbrev EventEncoder : Type := DiagnosticEvent → Except String String

/-- Locate diagnostic events: in either array, or else in the metadata, from where they are
encoded again. -/
def locateDiagnosticEvents (encoder : EventEncoder) (result : Json)
    (txMeta : Option TransactionMeta) : Option DiagnosticLocation × List String :=
  match (stringArray (result.get "diagnosticEventsXdr")).filter (fun v => !v.isEmpty) with
  | some v => (some .topLevel, v)
  | none =>
      match (stringArray (nestedEvents result)).filter (fun v => !v.isEmpty) with
      | some v => (some .eventsObject, v)
      | none =>
          let embedded := embeddedEvents txMeta
          if embedded.isEmpty then (none, [])
          else
            let encoded := embedded.filterMap (fun e => (encoder e).toOption)
            if encoded.isEmpty then (none, []) else (some .resultMeta, encoded)

/-- One iteration of the loop over the texts of events: how many decoded so far, and the errors
of those that did not. -/
def decodeStep (decoder : XdrDecoder) (tally : Nat × List String) (item : String × Nat) :
    Nat × List String :=
  match decoder.event item.1 (limitsForBase64 item.1) with
  | .ok _ => (tally.1 + 1, tally.2)
  | .error e => (tally.1, tally.2 ++ ["event " ++ toString item.2 ++ ": " ++ e])

/-- What the probe finds out about the texts of events. -/
def reportEvents (decoder : XdrDecoder) (location : Option DiagnosticLocation)
    (rawEvents : List String) : DiagnosticEventsReport :=
  let (decodedCount, decodeErrors) := rawEvents.zipIdx.foldl (decodeStep decoder) (0, [])
  { available := !rawEvents.isEmpty
    location
    count := rawEvents.length
    decodedCount
    decoded := !rawEvents.isEmpty && decodeErrors.isEmpty
    decodeErrors }

/-! ## Artifacts -/

/-- The arm of the metadata. -/
def metaVersion : TransactionMeta → UInt32
  | .v0 => 0
  | .v1 => 1
  | .v2 => 2
  | .v3 _ => 3
  | .v4 _ _ => 4

/-- The Soroban operation in an envelope, if there is one. -/
def sorobanOperationOf (envelope : TransactionEnvelope) : Option String :=
  let operations := match envelope with
    | .tx e => e.operations
    | .txV0 e => e.operations
    | .txFeeBump e => e.innerTx.operations
  operations.items.findSome? fun op =>
    match op.body with
    | .invokeHostFunction _ _ => some "invoke_host_function"
    | .extendFootprintTtl _ => some "extend_footprint_ttl"
    | .restoreFootprint => some "restore_footprint"
    | _ => none

/-- Whether metadata carries a Soroban part. -/
def hasSorobanMeta : TransactionMeta → Bool
  | .v3 sorobanMeta => sorobanMeta.isSome
  | .v4 sorobanMeta _ => sorobanMeta.isSome
  | _ => false

/-! ## The report -/

/-- The verdict on a response with this status and these findings. -/
def verdictOn (status : String) (envelopeXdr resultXdr : ArtifactState)
    (diagnosticEvents : DiagnosticEventsReport) : Verdict :=
  if status = "NOT_FOUND" then .transactionNotFound
  else if status = "SUCCESS" then .notAFailedTransaction
  else if !envelopeXdr.isUsable || !resultXdr.isUsable then .unusable
  else if diagnosticEvents.decoded then .sufficientForAnalysis
  else .insufficientForFullAnalysis

/-- What the probe could not determine. -/
def notesOn (status : String) (resultMetaXdr : ArtifactState) (isSoroban : Bool)
    (verdict : Verdict) : List String :=
  (match resultMetaXdr with
    | .decodeFailed e =>
        ["resultMetaXdr present but failed to decode with the pinned stellar-xdr: " ++ e]
    | _ => []) ++
  (if status = "NOT_FOUND" then
    ["Transaction not found on this endpoint. It may be outside the retention " ++
      "window, or the endpoint may serve a different network."] else []) ++
  (if status = "FAILED" && !isSoroban then
    ["Transaction failed but contains no Soroban operation; diagnostic events " ++
      "are not expected for classic transactions."] else []) ++
  (if verdict = .insufficientForFullAnalysis && isSoroban then
    ["No diagnostic events returned. This is the M0 risk: the node may not run " ++
      "with --enable-soroban-diagnostic-events."] else [])

/-- Run the probe against one `getTransaction` result. -/
def probeTransaction (decoder : XdrDecoder) (encoder : EventEncoder) (rpcUrl : String)
    (networkPassphrase : Option String) (txHash : String) (result : Json) : ProbeReport :=
  let status := (result.getStr "status").getD "UNKNOWN"
  let (envelopeXdr, envelope) := ArtifactState.decode decoder.envelope (result.getStr "envelopeXdr")
  let (resultXdr, resultDecoded) := ArtifactState.decode decoder.result (result.getStr "resultXdr")
  let (resultMetaXdr, txMeta) := ArtifactState.decode decoder.txMeta (result.getStr "resultMetaXdr")
  let sorobanOperation := envelope.bind sorobanOperationOf
  let isSoroban := sorobanOperation.isSome
  let (location, rawEvents) := locateDiagnosticEvents encoder result txMeta
  let diagnosticEvents := reportEvents decoder location rawEvents
  let verdict := verdictOn status envelopeXdr resultXdr diagnosticEvents
  { schema := "sdo.probe.v1"
    rpcUrl
    networkPassphrase
    transaction := txHash
    status
    ledger := (result.get "ledger").bind Json.asU64
    isSoroban
    sorobanOperation
    envelopeXdr
    resultXdr
    resultMetaXdr
    metaVersion := txMeta.map metaVersion
    sorobanMetaPresent := (txMeta.map hasSorobanMeta).getD false
    failureSignal := resultDecoded.map failureSignal
    diagnosticEvents
    verdict
    notes := notesOn status resultMetaXdr isSoroban verdict }

/-! ## What the findings say -/

/-- A text decodes as an event. -/
def Decodes (decoder : XdrDecoder) (b64 : String) : Prop :=
  ∃ e, decoder.event b64 (limitsForBase64 b64) = .ok e

/-- The loop has met no error just when it had none before and every text decodes. -/
theorem foldl_decodeStep_errors (decoder : XdrDecoder) (items : List (String × Nat))
    (tally : Nat × List String) :
    (items.foldl (decodeStep decoder) tally).2 = [] ↔
      tally.2 = [] ∧ ∀ item ∈ items, Decodes decoder item.1 := by
  induction items generalizing tally with
  | nil => simp
  | cons item items ih =>
      rw [List.foldl_cons, ih]
      cases h : decoder.event item.1 (limitsForBase64 item.1) with
      | ok e => simp [decodeStep, Decodes, h]
      | error e => simp [decodeStep, Decodes, h]

/-- The events are reported as decoded just when there are some, and all of them decode. -/
theorem decoded_reportEvents {decoder : XdrDecoder} {location : Option DiagnosticLocation}
    {rawEvents : List String} :
    (reportEvents decoder location rawEvents).decoded = true ↔
      rawEvents ≠ [] ∧ ∀ b64 ∈ rawEvents, Decodes decoder b64 := by
  have hloop := foldl_decodeStep_errors decoder rawEvents.zipIdx (0, [])
  have hall : (∀ item ∈ rawEvents.zipIdx, Decodes decoder item.1) ↔
      ∀ b64 ∈ rawEvents, Decodes decoder b64 := by
    rw [← List.forall_mem_map, List.zipIdx_map_fst]
  rw [hall] at hloop
  simp only [reportEvents, Bool.and_eq_true, Bool.not_eq_true', List.isEmpty_eq_false_iff,
    List.isEmpty_iff, hloop, true_and, ne_eq]

theorem ArtifactState.isUsable_decode {α : Type} {fromXdrBase64 : String → Limits → Except String α}
    {field : Option String} : (decode fromXdrBase64 field).1.isUsable = true ↔
      ∃ b64 v, field = some b64 ∧ fromXdrBase64 b64 (limitsForBase64 b64) = .ok v := by
  cases field with
  | none => simp [decode, isUsable]
  | some b64 =>
      cases h : fromXdrBase64 b64 (limitsForBase64 b64) with
      | ok v => simp [decode, isUsable, h]
      | error e => simp [decode, isUsable, h]

theorem ArtifactState.decode_ok {α : Type} {fromXdrBase64 : String → Limits → Except String α}
    {b64 : String} {v : α} (h : fromXdrBase64 b64 (limitsForBase64 b64) = .ok v) :
    decode fromXdrBase64 (some b64) = (.decoded, some v) := by
  simp [decode, h]

/-- The status is neither of those the probe sets aside, both artifacts are usable, and the
events decoded. -/
theorem verdictOn_eq_sufficient {status : String} {envelopeXdr resultXdr : ArtifactState}
    {diagnosticEvents : DiagnosticEventsReport} :
    verdictOn status envelopeXdr resultXdr diagnosticEvents = .sufficientForAnalysis ↔
      (status ≠ "NOT_FOUND" ∧ status ≠ "SUCCESS") ∧
      (envelopeXdr.isUsable = true ∧ resultXdr.isUsable = true) ∧
      diagnosticEvents.decoded = true := by
  unfold verdictOn
  by_cases hfound : status = "NOT_FOUND"
  · simp [hfound]
  · by_cases hsuccess : status = "SUCCESS"
    · simp [hsuccess]
    · cases envelopeXdr.isUsable <;> cases resultXdr.isUsable <;>
        cases diagnosticEvents.decoded <;> simp [hfound, hsuccess]

end Probe

end Observatory
