import Observatory.Probe.Report
import Observatory.Properties.Decoding

/-!
# The probe and the decoder

Two readers of one response: the probe, which says whether an endpoint's answer
is sufficient for an analysis, and the decoder, which the analysis starts from.
They find the same events.  But the probe calls an answer sufficient without a
look at its metadata, and takes any status other than two for a failure.

* `locate_aligned` — both find the events in one place, and as many of them.
* `probe_agrees_iff` — when the decoder bears the probe's verdict out.
-/

namespace Observatory

/-! ## Where events are found -/

/-- The decoder's word for a place. -/
def Probe.DiagnosticLocation.source : Probe.DiagnosticLocation → DiagnosticSource
  | .topLevel => .topLevel
  | .eventsObject => .eventsObject
  | .resultMeta => .resultMeta

/-- An array is chosen by the probe when it has strings. -/
theorem filter_stringArray (v : Option Json) :
    (Probe.stringArray v).filter (fun a => !a.isEmpty)
      = if base64Array v = [] then none else some (base64Array v) := by
  unfold Probe.stringArray base64Array
  cases v.bind Json.asArray with
  | none => rfl
  | some items =>
      simp only [Option.map_some, Option.getD_some]
      cases items.filterMap Json.asStr <;> rfl

/-- Texts that all decode are as many events. -/
theorem length_decodeEvents {decoder : XdrDecoder} {raw : List String}
    (h : ∀ b64 ∈ raw, Probe.Decodes decoder b64) :
    (decodeEvents decoder raw).length = raw.length := by
  refine List.filterMap_length_eq_length.mpr fun b64 hb64 => ?_
  obtain ⟨e, he⟩ := h b64 hb64
  rw [he]
  rfl

section Aligned

variable {decoder : XdrDecoder} {encoder : Probe.EventEncoder}
-- Writing an event without limits does not fail.
variable (hwrites : ∀ e, ∃ b64, encoder e = .ok b64)
include hwrites

/-- The events of the metadata are as many texts. -/
theorem length_encoded (events : List DiagnosticEvent) :
    (events.filterMap (fun e => (encoder e).toOption)).length = events.length := by
  refine List.filterMap_length_eq_length.mpr fun e _ => ?_
  obtain ⟨b64, hb64⟩ := hwrites e
  rw [hb64]
  rfl

/-- Both readers find the events in one place, and as many of them if they all decode. -/
theorem locate_aligned {result : Json} {txMeta : Option TransactionMeta}
    (hdecode : ∀ b64 ∈ (Probe.locateDiagnosticEvents encoder result txMeta).2,
      Probe.Decodes decoder b64) :
    (locateDiagnostics decoder result txMeta).map Prod.fst
        = (Probe.locateDiagnosticEvents encoder result txMeta).1.map
          Probe.DiagnosticLocation.source ∧
      (((locateDiagnostics decoder result txMeta).map Prod.snd).getD []).length
        = (Probe.locateDiagnosticEvents encoder result txMeta).2.length := by
  unfold Probe.locateDiagnosticEvents at hdecode ⊢
  unfold locateDiagnostics
  simp only [filter_stringArray] at hdecode ⊢
  by_cases htop : base64Array (result.get "diagnosticEventsXdr") = []
  · by_cases hnested : base64Array (nestedEvents result) = []
    · -- neither array has strings: the metadata is left
      simp only [htop, hnested, if_true, List.isEmpty_nil, Bool.not_true, Bool.false_eq_true,
        if_false]
      have hlength := length_encoded hwrites (embeddedEvents txMeta)
      cases hembedded : embeddedEvents txMeta with
      | nil => simp
      | cons e rest =>
          rw [hembedded] at hlength
          have hsome : ((e :: rest).filterMap (fun e => (encoder e).toOption)).isEmpty = false := by
            rw [List.isEmpty_eq_false_iff, ← List.length_pos_iff, hlength]
            simp
          simp [hsome, hlength, Probe.DiagnosticLocation.source]
    · simp only [htop, hnested, if_true, if_false] at hdecode ⊢
      simp [hnested, length_decodeEvents hdecode, Probe.DiagnosticLocation.source]
  · simp only [htop, if_false] at hdecode ⊢
    simp [htop, length_decodeEvents hdecode, Probe.DiagnosticLocation.source]

end Aligned

/-! ## The verdict and the decoder -/

/-- The metadata as the probe has it. -/
def probedMeta (decoder : XdrDecoder) (result : Json) : Option TransactionMeta :=
  (Probe.ArtifactState.decode decoder.txMeta (result.getStr "resultMetaXdr")).2

/-- What the probe asks of a response it calls sufficient. -/
structure LooksSufficient (decoder : XdrDecoder) (encoder : Probe.EventEncoder) (result : Json) :
    Prop where
  /-- The status is neither of the two it sets aside. -/
  status : result.getStr "status" ≠ some "NOT_FOUND" ∧ result.getStr "status" ≠ some "SUCCESS"
  /-- The envelope decodes. -/
  envelope : ∃ v, HoldsField decoder.envelope result "envelopeXdr" v
  /-- The result decodes. -/
  txResult : ∃ v, HoldsField decoder.result result "resultXdr" v
  /-- There are events. -/
  events : (Probe.locateDiagnosticEvents encoder result (probedMeta decoder result)).2 ≠ []
  /-- They decode. -/
  decodes : ∀ b64 ∈ (Probe.locateDiagnosticEvents encoder result (probedMeta decoder result)).2,
    Probe.Decodes decoder b64

/-- The response is of a failed transaction, with its metadata. -/
structure FailedWithMeta (decoder : XdrDecoder) (result : Json) : Prop where
  /-- The status. -/
  status : result.getStr "status" = some "FAILED"
  /-- The metadata decodes. -/
  txMeta : ∃ m, HoldsField decoder.txMeta result "resultMetaXdr" m

/-- If the probe calls a response sufficient, the decoder accepts it as that of a failed
transaction with its metadata, and finds the events where the probe did, as many of them. -/
def ProbeBorneOut (decoder : XdrDecoder) (encoder : Probe.EventEncoder) (rpcUrl : String)
    (networkPassphrase : Option String) (txHash : String) (result : Json) : Prop :=
  (Probe.probeTransaction decoder encoder rpcUrl networkPassphrase txHash result).verdict
      = .sufficientForAnalysis →
    ∃ d, decodeGetTransaction decoder txHash result = .ok d ∧ d.status = .failed ∧
      d.input.txMeta.isSome = true ∧
      d.diagnosticSource = (Probe.probeTransaction decoder encoder rpcUrl networkPassphrase txHash
        result).diagnosticEvents.location.map Probe.DiagnosticLocation.source ∧
      d.input.diagnosticEvents.length = (Probe.probeTransaction decoder encoder rpcUrl
        networkPassphrase txHash result).diagnosticEvents.count

section Verdict

variable {decoder : XdrDecoder} {encoder : Probe.EventEncoder} {rpcUrl : String}
  {networkPassphrase : Option String} {txHash : String} {result : Json}

theorem verdict_eq_sufficient :
    (Probe.probeTransaction decoder encoder rpcUrl networkPassphrase txHash result).verdict
      = .sufficientForAnalysis ↔ LooksSufficient decoder encoder result := by
  have hstatus : ∀ word, word ≠ "UNKNOWN" →
      ((result.getStr "status").getD "UNKNOWN" ≠ word ↔ result.getStr "status" ≠ some word) := by
    intro word hword
    cases result.getStr "status" with
    | none => simpa using hword.symm
    | some s => simp
  show Probe.verdictOn ((result.getStr "status").getD "UNKNOWN")
    (Probe.ArtifactState.decode decoder.envelope (result.getStr "envelopeXdr")).1
    (Probe.ArtifactState.decode decoder.result (result.getStr "resultXdr")).1
    (Probe.reportEvents decoder
      (Probe.locateDiagnosticEvents encoder result (probedMeta decoder result)).1
      (Probe.locateDiagnosticEvents encoder result (probedMeta decoder result)).2) = _ ↔ _
  rw [Probe.verdictOn_eq_sufficient, hstatus _ (by decide), hstatus _ (by decide),
    Probe.ArtifactState.isUsable_decode, Probe.ArtifactState.isUsable_decode,
    Probe.decoded_reportEvents]
  refine ⟨?_, fun h => ?_⟩
  · rintro ⟨hword, ⟨⟨b64, v, henvelope⟩, b64', v', hresult⟩, hevents, hdecodes⟩
    exact ⟨hword, ⟨v, b64, henvelope⟩, ⟨v', b64', hresult⟩, hevents, hdecodes⟩
  · obtain ⟨v, b64, henvelope⟩ := h.envelope
    obtain ⟨v', b64', hresult⟩ := h.txResult
    exact ⟨h.status, ⟨⟨b64, v, henvelope⟩, b64', v', hresult⟩, h.events, h.decodes⟩

theorem probedMeta_of_holds {m : TransactionMeta}
    (h : HoldsField decoder.txMeta result "resultMetaXdr" m) :
    probedMeta decoder result = some m := by
  obtain ⟨b64, hfield, hdecode⟩ := h
  rw [probedMeta, hfield, Probe.ArtifactState.decode_ok hdecode]

/-- What the decoder makes of a failed transaction with its metadata. -/
theorem decode_failedWithMeta (txHash : String) (h : FailedWithMeta decoder result)
    (henvelope : ∃ v, HoldsField decoder.envelope result "envelopeXdr" v)
    (hresult : ∃ v, HoldsField decoder.result result "resultXdr" v) :
    ∃ d, decodeGetTransaction decoder txHash result = .ok d ∧ d.status = .failed ∧
      d.input.txMeta.isSome = true ∧
      d.diagnosticSource = (locateDiagnostics decoder result (probedMeta decoder result)).map
        Prod.fst ∧
      d.input.diagnosticEvents = ((locateDiagnostics decoder result
        (probedMeta decoder result)).map Prod.snd).getD [] := by
  obtain ⟨envelope, henvelope⟩ := henvelope
  obtain ⟨txResult, hresult⟩ := hresult
  obtain ⟨m, hm⟩ := h.txMeta
  refine ⟨_, decodeGetTransaction_eq_ok.mpr ⟨.failed, envelope, txResult, some m,
    decodeStatus_eq_failed.mpr h.status, henvelope, hresult, decodeMeta_eq_some.mpr hm, rfl⟩,
    rfl, ?_, ?_, ?_⟩
  · simp
  · rw [probedMeta_of_holds hm]
  · rw [probedMeta_of_holds hm, diagnosticEvents_buildInput]

/-- **When the verdict holds good.**  The decoder bears out that a response is sufficient just
when a response that looks so is of a failed transaction, with metadata that decodes. -/
theorem probe_borneOut_iff (hwrites : ∀ e, ∃ b64, encoder e = .ok b64) :
    ProbeBorneOut decoder encoder rpcUrl networkPassphrase txHash result ↔
      (LooksSufficient decoder encoder result → FailedWithMeta decoder result) := by
  refine ⟨fun hborne hlooks => ?_, fun hcond hverdict => ?_⟩
  · obtain ⟨d, hd, hfailed, hmeta, -⟩ := hborne (verdict_eq_sufficient.mpr hlooks)
    obtain ⟨status, envelope, txResult, txMeta, hstatus, -, -, htxMeta, rfl⟩ :=
      decodeGetTransaction_eq_ok.mp hd
    obtain rfl : status = .failed := hfailed
    rw [txMeta_buildInput] at hmeta
    obtain ⟨m, rfl⟩ := Option.isSome_iff_exists.mp hmeta
    exact ⟨decodeStatus_eq_failed.mp hstatus, m, decodeMeta_eq_some.mp htxMeta⟩
  · have hlooks := verdict_eq_sufficient.mp hverdict
    obtain ⟨d, hd, hfailed, hmeta, hsource, hevents⟩ :=
      decode_failedWithMeta txHash (hcond hlooks) hlooks.envelope hlooks.txResult
    obtain ⟨hplace, hcount⟩ := locate_aligned hwrites hlooks.decodes
    refine ⟨d, hd, hfailed, hmeta, hsource.trans hplace, ?_⟩
    rw [hevents]
    exact hcount

end Verdict

/-- Without metadata, and with a readable event, the response looks sufficient; but the decoder
has no metadata either. -/
theorem probe_borneOut_fails :
    ¬ ProbeBorneOut tableDecoder (fun _ => .ok event64) "https://rpc.example" none "ab"
      (responseWith [.string event64] []) := by
  intro hborne
  have hlooks : LooksSufficient tableDecoder (fun _ => .ok event64)
      (responseWith [.string event64] []) :=
    { status := ⟨by decide, by decide⟩
      envelope := ⟨_, envelope_responseWith _ _⟩
      txResult := ⟨_, result_responseWith _ _⟩
      events := by decide
      decodes := by
        intro b64 hb64
        obtain rfl : b64 = event64 := List.mem_singleton.mp hb64
        exact ⟨hostFnFailed (.contract 9), by simp [tableDecoder]⟩ }
  obtain ⟨d, hd, -, hmeta, -⟩ := hborne (verdict_eq_sufficient.mpr hlooks)
  obtain ⟨_, _, _, txMeta, -, -, -, htxMeta, rfl⟩ := decodeGetTransaction_eq_ok.mp hd
  -- the response has no metadata
  have hnone : decodeMeta tableDecoder (responseWith [.string event64] []) = .ok none := rfl
  rw [hnone] at htxMeta
  obtain rfl := Except.ok.inj htxMeta
  rw [txMeta_buildInput] at hmeta
  cases hmeta

/-- Metadata with the event of `event64`. -/
def meta64 : String :=
  "AAAAAwAAAAAAAAAAAAAAAAAAAAAAAAABAAAAAAAAAAAAAAABAAAAAQAAAAAAAAAAAAAAAAAAAAIAAAAAAAAAAgAAAA8A" ++
    "AAAOaG9zdF9mbl9mYWlsZWQAAAAAAAIAAAAAAAAACQAAAAE="

/-- A decoder of the texts that decodes this metadata as well. -/
def metaDecoder : XdrDecoder :=
  { tableDecoder with
    txMeta := fun s _ =>
      if s = meta64 then .ok (.v3 (some ⟨.v0, [hostFnFailed (.contract 9)]⟩))
      else .error "invalid" }

/-- A response with its events in the metadata. -/
def embeddedResponse : Json :=
  .object
    [("status", .string "FAILED"), ("envelopeXdr", .string envelope64),
      ("resultXdr", .string result64), ("resultMetaXdr", .string meta64)]

theorem probe_borneOut_embedded :
    ProbeBorneOut metaDecoder (fun _ => .ok event64) "https://rpc.example" none "ab"
      embeddedResponse := by
  refine (probe_borneOut_iff fun _ => ⟨event64, rfl⟩).mpr fun _ => ⟨rfl, ?_⟩
  exact ⟨.v3 (some ⟨.v0, [hostFnFailed (.contract 9)]⟩), meta64, rfl, rfl⟩

end Observatory
