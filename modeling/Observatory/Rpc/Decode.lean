import Observatory.Input
import Observatory.Lib.Reading
import Observatory.Lib.Scan
import Observatory.Rpc.Json
import Observatory.Xdr.Ledger

/-!
# Decoding a `getTransaction` response

From the JSON of an RPC response to an analysis input (`decode.rs`, with the
limits of `xdr.rs` and the errors of `error.rs`).  XDR decoding itself is a
parameter: a partial function of the text and the limits.

* `locateDiagnostics` — the first of three places that holds raw events.
* `decodeGetTransaction` — the whole decoding.
* `decodeGetTransaction_eq_ok` — what it asks of a response, and makes of it.
-/

namespace Observatory

open Reading

/-! ## XDR -/

/-- Maximum nesting depth accepted for data from an endpoint. -/
def xdrDecodeDepth : UInt32 := 500

/-- Decode limits for a base64 string: its own length bounds what it holds. -/
def limitsForBase64 (encoded : String) : Limits := ⟨xdrDecodeDepth, encoded.utf8ByteSize⟩

/-- `from_xdr_base64` for the types of a response; an error comes with its text. -/
structure XdrDecoder where
  /-- `TransactionEnvelope`. -/
  envelope : String → Limits → Except String TransactionEnvelope
  /-- `TransactionResult`. -/
  result : String → Limits → Except String TransactionResult
  /-- `TransactionMeta`. -/
  txMeta : String → Limits → Except String TransactionMeta
  /-- `DiagnosticEvent`. -/
  event : String → Limits → Except String DiagnosticEvent

/-- Something went wrong turning a response into analysis input. -/
inductive DecodeError where
  /-- A required field was absent. -/
  | missingField (field : String)
  /-- The endpoint reported a status this crate does not understand. -/
  | unknownStatus (status : String)
  /-- The endpoint does not have this transaction. -/
  | transactionNotFound (hash : String)
  /-- A field was present but would not decode. -/
  | xdr (field error : String)
  deriving DecidableEq

/-- The text of an error. -/
def DecodeError.text : DecodeError → String
  | .missingField field => "RPC result is missing required field `" ++ field ++ "`"
  | .unknownStatus status => "unrecognised transaction status `" ++ status ++ "`"
  | .transactionNotFound hash => "transaction `" ++ hash ++ "` not found on this endpoint"
  | .xdr field error => "failed to decode `" ++ field ++ "` as XDR: " ++ error

/-! ## Diagnostic events -/

/-- Where the diagnostic events of a transaction were found. -/
inductive DiagnosticSource where
  /-- Top-level `diagnosticEventsXdr`. -/
  | topLevel
  /-- Nested `events.diagnosticEventsXdr`. -/
  | eventsObject
  /-- Embedded in `resultMetaXdr`. -/
  | resultMeta
  deriving DecidableEq

/-- The strings of an array; none when there is no array. -/
def base64Array (v : Option Json) : List String :=
  ((v.bind Json.asArray).map (fun items => items.filterMap Json.asStr)).getD []

/-- Decode what can be decoded, discarding individually malformed events. -/
def decodeEvents (decoder : XdrDecoder) (raw : List String) : List DiagnosticEvent :=
  raw.filterMap (fun b => (decoder.event b (limitsForBase64 b)).toOption)

/-- The array of events nested under `events`. -/
def nestedEvents (result : Json) : Option Json :=
  (result.get "events").bind (fun e => e.get "diagnosticEventsXdr")

/-- The events embedded in the metadata: V3 keeps them inside its Soroban part, V4 at its
top level. -/
def embeddedEvents (txMeta : Option TransactionMeta) : List DiagnosticEvent :=
  match txMeta with
  | some (.v3 sorobanMeta) => (sorobanMeta.map (fun s => s.diagnosticEvents)).getD []
  | some (.v4 _ diagnosticEvents) => diagnosticEvents
  | _ => []

/-- Locate diagnostic events, checking every place an endpoint is known to put them. -/
def locateDiagnostics (decoder : XdrDecoder) (result : Json) (txMeta : Option TransactionMeta) :
    Option (DiagnosticSource × List DiagnosticEvent) :=
  let top := base64Array (result.get "diagnosticEventsXdr")
  if !top.isEmpty then some (.topLevel, decodeEvents decoder top)
  else
    let nested := base64Array (nestedEvents result)
    if !nested.isEmpty then some (.eventsObject, decodeEvents decoder nested)
    else
      let embedded := embeddedEvents txMeta
      if !embedded.isEmpty then some (.resultMeta, embedded)
      else none

/-! ## The response -/

/-- The transaction status an endpoint reports. -/
inductive TransactionStatus where
  | success
  | failed
  | notFound
  deriving DecidableEq

/-- A decoded `getTransaction` response. -/
structure DecodedTransaction where
  /-- The status reported. -/
  status : TransactionStatus
  /-- Typed input for the analysis. -/
  input : AnalysisInput
  /-- Where diagnostic events came from, if any were present. -/
  diagnosticSource : Option DiagnosticSource

/-- The status of a response; a transaction the endpoint does not have is an error. -/
def decodeStatus (txHash : String) (result : Json) : Except DecodeError TransactionStatus :=
  match result.getStr "status" with
  | some "SUCCESS" => .ok .success
  | some "FAILED" => .ok .failed
  | some "NOT_FOUND" => .error (.transactionNotFound txHash)
  | some other => .error (.unknownStatus other)
  | none => .error (.missingField "status")

/-- A required string. -/
def requiredStr (result : Json) (field : String) : Except DecodeError String :=
  match result.getStr field with
  | some s => .ok s
  | none => .error (.missingField field)

/-- Decode one field. -/
def decodeField {α : Type} (field : String) (decode : String → Limits → Except String α)
    (encoded : String) : Except DecodeError α :=
  match decode encoded (limitsForBase64 encoded) with
  | .ok a => .ok a
  | .error e => .error (.xdr field e)

/-- The metadata: it may be absent, but not undecodable. -/
def decodeMeta (decoder : XdrDecoder) (result : Json) :
    Except DecodeError (Option TransactionMeta) :=
  match result.getStr "resultMetaXdr" with
  | some encoded => (decodeField "resultMetaXdr" decoder.txMeta encoded).map some
  | none => .ok none

/-- The input built from the parts of a response. -/
def buildInput (txHash : String) (envelope : TransactionEnvelope) (result : TransactionResult)
    (txMeta : Option TransactionMeta)
    (located : Option (DiagnosticSource × List DiagnosticEvent)) : AnalysisInput :=
  let input := (AnalysisInput.builder envelope result).withTransactionHash txHash
  let input := match txMeta with
    | some m => input.withMeta m
    | none => input
  match located with
  | some (_, events) => input.withDiagnosticEvents events
  | none => input

/-- `decode_get_transaction`. -/
def decodeGetTransaction (decoder : XdrDecoder) (txHash : String) (result : Json) :
    Except DecodeError DecodedTransaction := do
  let status ← decodeStatus txHash result
  let envelope64 ← requiredStr result "envelopeXdr"
  let result64 ← requiredStr result "resultXdr"
  let envelope ← decodeField "envelopeXdr" decoder.envelope envelope64
  let txResult ← decodeField "resultXdr" decoder.result result64
  let txMeta ← decodeMeta decoder result
  let located := locateDiagnostics decoder result txMeta
  .ok
    { status
      input := buildInput txHash envelope txResult txMeta located
      diagnosticSource := located.map Prod.fst }

/-! ## What the decoder asks of a response -/

/-- A field is present and decodes to this value. -/
def HoldsField {α : Type} (fromXdrBase64 : String → Limits → Except String α) (result : Json)
    (field : String) (v : α) : Prop :=
  ∃ b64, result.getStr field = some b64 ∧ fromXdrBase64 b64 (limitsForBase64 b64) = .ok v

theorem decodeField_eq_ok {α : Type} {field b64 : String}
    {fromXdrBase64 : String → Limits → Except String α} {v : α} :
    decodeField field fromXdrBase64 b64 = .ok v ↔
      fromXdrBase64 b64 (limitsForBase64 b64) = .ok v := by
  unfold decodeField
  cases fromXdrBase64 b64 (limitsForBase64 b64) <;> simp

theorem requiredStr_eq_ok {result : Json} {field b64 : String} :
    requiredStr result field = .ok b64 ↔ result.getStr field = some b64 := by
  unfold requiredStr
  cases result.getStr field <;> simp

theorem decodeStatus_eq_failed {txHash : String} {result : Json} :
    decodeStatus txHash result = .ok .failed ↔ result.getStr "status" = some "FAILED" := by
  refine ⟨fun h => ?_, fun h => ?_⟩
  · unfold decodeStatus at h
    split at h
    · cases h
    · assumption
    all_goals cases h
  · simp [decodeStatus, h]

/-- The metadata is absent, or decodes. -/
theorem decodeMeta_eq_some {decoder : XdrDecoder} {result : Json} {m : TransactionMeta} :
    decodeMeta decoder result = .ok (some m) ↔
      HoldsField decoder.txMeta result "resultMetaXdr" m := by
  unfold decodeMeta HoldsField
  cases result.getStr "resultMetaXdr" with
  | none => simp
  | some b64 =>
      have hmap : (decodeField "resultMetaXdr" decoder.txMeta b64).map some = .ok (some m) ↔
          decodeField "resultMetaXdr" decoder.txMeta b64 = .ok m := by
        cases decodeField "resultMetaXdr" decoder.txMeta b64 <;> simp [Except.map]
      simp only [hmap, decodeField_eq_ok, Option.some.injEq, exists_eq_left']

/-- The decoder accepts a response whose status it knows, whose envelope and result decode,
and whose metadata does if it is there. -/
theorem decodeGetTransaction_eq_ok {decoder : XdrDecoder} {txHash : String} {result : Json}
    {d : DecodedTransaction} :
    decodeGetTransaction decoder txHash result = .ok d ↔
      ∃ status envelope txResult txMeta, decodeStatus txHash result = .ok status ∧
        HoldsField decoder.envelope result "envelopeXdr" envelope ∧
        HoldsField decoder.result result "resultXdr" txResult ∧
        decodeMeta decoder result = .ok txMeta ∧
        d =
          { status
            input := buildInput txHash envelope txResult txMeta
              (locateDiagnostics decoder result txMeta)
            diagnosticSource := (locateDiagnostics decoder result txMeta).map Prod.fst } := by
  refine ⟨fun h => ?_, ?_⟩
  · obtain ⟨status, hstatus, h⟩ := bind_eq_ok.mp h
    obtain ⟨envelope64, henvelope64, h⟩ := bind_eq_ok.mp h
    obtain ⟨result64, hresult64, h⟩ := bind_eq_ok.mp h
    obtain ⟨envelope, henvelope, h⟩ := bind_eq_ok.mp h
    obtain ⟨txResult, hresult, h⟩ := bind_eq_ok.mp h
    obtain ⟨txMeta, hmeta, h⟩ := bind_eq_ok.mp h
    exact ⟨status, envelope, txResult, txMeta, hstatus,
      ⟨envelope64, requiredStr_eq_ok.mp henvelope64, decodeField_eq_ok.mp henvelope⟩,
      ⟨result64, requiredStr_eq_ok.mp hresult64, decodeField_eq_ok.mp hresult⟩,
      hmeta, (Except.ok.inj h).symm⟩
  · rintro ⟨status, envelope, txResult, txMeta, hstatus, ⟨envelope64, henvelope64, henvelope⟩,
      ⟨result64, hresult64, hresult⟩, hmeta, rfl⟩
    exact bind_eq_ok.mpr ⟨status, hstatus,
      bind_eq_ok.mpr ⟨envelope64, requiredStr_eq_ok.mpr henvelope64,
      bind_eq_ok.mpr ⟨result64, requiredStr_eq_ok.mpr hresult64,
      bind_eq_ok.mpr ⟨envelope, decodeField_eq_ok.mpr henvelope,
      bind_eq_ok.mpr ⟨txResult, decodeField_eq_ok.mpr hresult,
      bind_eq_ok.mpr ⟨txMeta, hmeta, rfl⟩⟩⟩⟩⟩⟩

/-! ## What a decoded response holds -/

/-- **Accepted responses.**  The metadata of an accepted response was decoded or absent,
and its input is built from what was located. -/
theorem decodeGetTransaction_ok {decoder : XdrDecoder} {txHash : String} {result : Json}
    {d : DecodedTransaction} (h : decodeGetTransaction decoder txHash result = .ok d) :
    ∃ envelope txResult txMeta, decodeMeta decoder result = .ok txMeta ∧
      d.input = buildInput txHash envelope txResult txMeta
        (locateDiagnostics decoder result txMeta) ∧
      d.diagnosticSource = (locateDiagnostics decoder result txMeta).map Prod.fst := by
  obtain ⟨status, envelope, txResult, txMeta, -, -, -, hmeta, rfl⟩ :=
    decodeGetTransaction_eq_ok.mp h
  exact ⟨envelope, txResult, txMeta, hmeta, rfl, rfl⟩

@[simp] theorem txMeta_buildInput (txHash : String) (envelope : TransactionEnvelope)
    (result : TransactionResult) (txMeta : Option TransactionMeta)
    (located : Option (DiagnosticSource × List DiagnosticEvent)) :
    (buildInput txHash envelope result txMeta located).txMeta = txMeta := by
  unfold buildInput
  cases txMeta <;> cases located <;> rfl

@[simp] theorem diagnosticEvents_buildInput (txHash : String) (envelope : TransactionEnvelope)
    (result : TransactionResult) (txMeta : Option TransactionMeta)
    (located : Option (DiagnosticSource × List DiagnosticEvent)) :
    (buildInput txHash envelope result txMeta located).diagnosticEvents
      = (located.map Prod.snd).getD [] := by
  unfold buildInput
  cases txMeta <;> cases located <;> rfl

@[simp] theorem diagnosticsEnabled_buildInput (txHash : String) (envelope : TransactionEnvelope)
    (result : TransactionResult) (txMeta : Option TransactionMeta)
    (located : Option (DiagnosticSource × List DiagnosticEvent)) :
    (buildInput txHash envelope result txMeta located).diagnosticsEnabled = located.isSome := by
  unfold buildInput
  cases txMeta <;> cases located <;> rfl

/-- The decoding of one element of an array of events; only strings are decoded. -/
def decodeElement (decoder : XdrDecoder) (element : Json) : Option DiagnosticEvent :=
  element.asStr.bind (fun b => (decoder.event b (limitsForBase64 b)).toOption)

/-- The elements of an array of events; none when there is no array. -/
def elements (v : Option Json) : List Json := (v.bind Json.asArray).getD []

/-- Filtering the strings and then the readable ones is decoding the elements. -/
theorem decodeEvents_base64Array (decoder : XdrDecoder) (v : Option Json) :
    decodeEvents decoder (base64Array v) = (elements v).filterMap (decodeElement decoder) := by
  unfold decodeEvents base64Array elements
  cases v.bind Json.asArray with
  | none => rfl
  | some items =>
      show (items.filterMap Json.asStr).filterMap _ = items.filterMap _
      rw [List.filterMap_filterMap]
      rfl

end Observatory
