import Observatory.Rpc.Decode
import Observatory.Testutil

/-!
# What decoding does to the evidence

Two properties of a decoded response, and exactly when they hold.

* `decode_followsBack` — the event at a position of the input is the element at that
  position of the response: when nothing unreadable precedes something readable.
  The elements that cannot be read are dropped before the positions are given out.
* `decode_neverSilent` — unreadable events are not taken for silence: when the array that
  was chosen has a readable element.  The choice looks at the strings of an array,
  not at what they decode to.
-/

namespace Observatory

/-! ## The places of a response -/

/-- The array of events a source stands for. -/
def elementsAt (result : Json) : DiagnosticSource → List Json
  | .topLevel => elements (result.get "diagnosticEventsXdr")
  | .eventsObject => elements (nestedEvents result)
  | .resultMeta => []

/-- The strings of the first array that has any. -/
def firstStrings (result : Json) : List String :=
  if (base64Array (result.get "diagnosticEventsXdr")).isEmpty then
    base64Array (nestedEvents result)
  else base64Array (result.get "diagnosticEventsXdr")

/-- The metadata of a response, if it carries any that decodes. -/
def resultMetaOf (decoder : XdrDecoder) (result : Json) : Option TransactionMeta :=
  (decodeMeta decoder result).toOption.join

/-- The events come from an array when one has strings, and from the metadata
otherwise. -/
theorem locateDiagnostics_eq (decoder : XdrDecoder) (result : Json)
    (txMeta : Option TransactionMeta) :
    (firstStrings result ≠ [] → ∃ source, source ≠ .resultMeta ∧
      decodeEvents decoder (firstStrings result)
        = (elementsAt result source).filterMap (decodeElement decoder) ∧
      locateDiagnostics decoder result txMeta
        = some (source, decodeEvents decoder (firstStrings result))) ∧
    (firstStrings result = [] → base64Array (result.get "diagnosticEventsXdr") = [] ∧
      base64Array (nestedEvents result) = [] ∧
      locateDiagnostics decoder result txMeta
        = if (embeddedEvents txMeta).isEmpty then none
          else some (.resultMeta, embeddedEvents txMeta)) := by
  unfold firstStrings locateDiagnostics
  cases htop : base64Array (result.get "diagnosticEventsXdr") with
  | cons b rest =>
      refine ⟨fun _ => ⟨.topLevel, by simp, ?_, rfl⟩, fun h => by simp at h⟩
      simp only [List.isEmpty_cons, Bool.false_eq_true, if_false]
      rw [← htop, decodeEvents_base64Array]
      rfl
  | nil =>
      cases hnested : base64Array (nestedEvents result) with
      | cons b rest =>
          refine ⟨fun _ => ⟨.eventsObject, by simp, ?_, rfl⟩, fun h => by simp at h⟩
          simp only [List.isEmpty_nil, if_true]
          rw [← hnested, decodeEvents_base64Array]
          rfl
      | nil =>
          refine ⟨fun h => by simp at h, fun _ => ⟨rfl, rfl, ?_⟩⟩
          cases embeddedEvents txMeta <;> rfl

/-! ## Sample responses -/

/-- The envelope of `sorobanFailure`. -/
def envelope64 : String :=
  "AAAAAgAAAAABAQEBAQEBAQEBAQEBAQEBAQEBAQEBAQEBAQEBAQEBAQAAAZAAAAAAAAAAAQAAAAAAAAAAAAAAAQAAAAAA" ++
    "AAAYAAAAAAAAAAEFBQUFBQUFBQUFBQUFBQUFBQUFBQUFBQUFBQUFBQUFBQAAAAFmAAAAAAAAAAAAAAAAAAAB" ++
    "AAAAAAAAAAAAAAAAAAAD6AAAAAoAAAAUAAAAAAAAASwAAAAA"

/-- The result of `sorobanFailure` with a trap. -/
def result64 : String := "AAAAAAAAAV7/////AAAAAQAAAAAAAAAY/////gAAAAA="

/-- `hostFnFailed (.contract 9)`. -/
def event64 : String :=
  "AAAAAAAAAAAAAAAAAAAAAgAAAAAAAAACAAAADwAAAA5ob3N0X2ZuX2ZhaWxlZAAAAAAAAgAAAAAAAAAJAAAAAQ=="

/-- The decoding of these texts; no other text is decoded. -/
def tableDecoder : XdrDecoder where
  envelope s _ :=
    if s = envelope64 then .ok (sorobanFailure .trapped [] none).envelope else .error "invalid"
  result s _ :=
    if s = result64 then .ok (sorobanFailure .trapped [] none).result else .error "invalid"
  txMeta _ _ := .error "invalid"
  event s _ := if s = event64 then .ok (hostFnFailed (.contract 9)) else .error "invalid"

/-- A response with these top-level and nested events. -/
def responseWith (top nested : List Json) : Json :=
  .object
    [("status", .string "FAILED"), ("envelopeXdr", .string envelope64),
      ("resultXdr", .string result64), ("diagnosticEventsXdr", .array top),
      ("events", .object [("diagnosticEventsXdr", .array nested)])]

theorem envelope_responseWith (top nested : List Json) :
    HoldsField tableDecoder.envelope (responseWith top nested) "envelopeXdr"
      (sorobanFailure .trapped [] none).envelope :=
  ⟨envelope64, by simp [Json.getStr, Json.get, Json.asStr, responseWith], by simp [tableDecoder]⟩

theorem result_responseWith (top nested : List Json) :
    HoldsField tableDecoder.result (responseWith top nested) "resultXdr"
      (sorobanFailure .trapped [] none).result :=
  ⟨result64, by simp [Json.getStr, Json.get, Json.asStr, responseWith], by simp [tableDecoder]⟩

/-- What a response of this kind decodes to. -/
theorem decode_responseWith (top nested : List Json) :
    ∃ d, decodeGetTransaction tableDecoder "ab" (responseWith top nested) = .ok d ∧
      d.diagnosticSource = (locateDiagnostics tableDecoder (responseWith top nested) none).map
        Prod.fst ∧
      d.input.diagnosticEvents = ((locateDiagnostics tableDecoder (responseWith top nested)
        none).map Prod.snd).getD [] ∧
      d.input.diagnosticsEnabled
        = (locateDiagnostics tableDecoder (responseWith top nested) none).isSome := by
  have hstatus : decodeStatus "ab" (responseWith top nested) = .ok .failed := by
    simp [decodeStatus, Json.getStr, Json.get, Json.asStr, responseWith]
  have hmeta : decodeMeta tableDecoder (responseWith top nested) = .ok none := by
    simp [decodeMeta, Json.getStr, Json.get, responseWith]
  exact ⟨_, decodeGetTransaction_eq_ok.mpr ⟨_, _, _, _, hstatus, envelope_responseWith top nested,
    result_responseWith top nested, hmeta, rfl⟩, rfl, by simp, by simp⟩

/-! ## Positions -/

/-- The event at a position of the input is the decoding of the element at that position
of the array. -/
def FollowsBack (decoder : XdrDecoder) (result : Json) (source : DiagnosticSource)
    (input : AnalysisInput) : Prop :=
  ∀ (i : Nat) (e : DiagnosticEvent), input.diagnosticEvents[i]? = some e →
    ∃ element, (elementsAt result source)[i]? = some element ∧
      decodeElement decoder element = some e

/-- The events taken from an array are its readable elements. -/
theorem events_of_source {decoder : XdrDecoder} {txHash : String} {result : Json}
    {d : DecodedTransaction} (h : decodeGetTransaction decoder txHash result = .ok d)
    {source : DiagnosticSource} (hsource : d.diagnosticSource = some source)
    (harray : source ≠ .resultMeta) :
    d.input.diagnosticEvents = (elementsAt result source).filterMap (decodeElement decoder) := by
  obtain ⟨envelope, txResult, txMeta, -, hinput, hd⟩ := decodeGetTransaction_ok h
  obtain ⟨hstrings, hnone⟩ := locateDiagnostics_eq decoder result txMeta
  rw [hinput, diagnosticEvents_buildInput]
  by_cases hfirst : firstStrings result = []
  · obtain ⟨-, -, hlocated⟩ := hnone hfirst
    rw [hd, hlocated] at hsource
    cases hempty : (embeddedEvents txMeta).isEmpty with
    | true => simp [hempty] at hsource
    | false =>
        simp only [hempty, Bool.false_eq_true, if_false, Option.map_some,
          Option.some.injEq] at hsource
        exact absurd hsource.symm harray
  · obtain ⟨source', -, hevents, hlocated⟩ := hstrings hfirst
    rw [hd, hlocated] at hsource
    obtain rfl := Option.some.inj hsource
    rw [hlocated]
    exact hevents

/-- **Positions are kept** exactly when no element that cannot be read precedes one that
can. -/
theorem decode_followsBack {decoder : XdrDecoder} {txHash : String} {result : Json}
    {d : DecodedTransaction} (h : decodeGetTransaction decoder txHash result = .ok d)
    {source : DiagnosticSource} (hsource : d.diagnosticSource = some source)
    (harray : source ≠ .resultMeta) :
    FollowsBack decoder result source d.input ↔
      Scan.ReadablePrefix (decodeElement decoder) (elementsAt result source) := by
  unfold FollowsBack
  rw [events_of_source h hsource harray]
  exact Scan.filterMap_aligned_iff

/-- An unreadable element before a readable one. -/
def shiftedResponse : Json := responseWith [.string "AAAA", .string event64] []

/-- The readable element stands at position 1 of the response and at position 0 of the
input. -/
theorem decode_shifted :
    ∃ d, decodeGetTransaction tableDecoder "ab" shiftedResponse = .ok d ∧
      d.diagnosticSource = some .topLevel ∧
      d.input.diagnosticEvents[0]? = some (hostFnFailed (.contract 9)) ∧
      (elementsAt shiftedResponse .topLevel)[0]? = some (.string "AAAA") ∧
      decodeElement tableDecoder (.string "AAAA") = none ∧
      ¬ FollowsBack tableDecoder shiftedResponse .topLevel d.input := by
  obtain ⟨d, hd, hsource, hevents, -⟩ := decode_responseWith [.string "AAAA", .string event64] []
  have hlocated : locateDiagnostics tableDecoder shiftedResponse none
      = some (.topLevel, [hostFnFailed (.contract 9)]) := by decide
  have hnone : decodeElement tableDecoder (.string "AAAA") = none := by decide
  have hfirst : d.input.diagnosticEvents[0]? = some (hostFnFailed (.contract 9)) := by
    rw [hevents, show responseWith _ _ = shiftedResponse from rfl, hlocated]
    rfl
  refine ⟨d, hd, ?_, hfirst, rfl, hnone, ?_⟩
  · rw [hsource, show responseWith _ _ = shiftedResponse from rfl, hlocated]
    rfl
  · intro hfollows
    obtain ⟨element, helement, hdecoded⟩ := hfollows 0 _ hfirst
    obtain rfl := Option.some.inj helement
    rw [hnone] at hdecoded
    cases hdecoded

theorem decode_followsBack_shifted :
    ∃ d, decodeGetTransaction tableDecoder "ab" shiftedResponse = .ok d ∧
      (FollowsBack tableDecoder shiftedResponse .topLevel d.input ↔
        Scan.ReadablePrefix (decodeElement tableDecoder)
          (elementsAt shiftedResponse .topLevel)) := by
  obtain ⟨d, hd, hsource, -⟩ := decode_responseWith [.string "AAAA", .string event64] []
  have hlocated : locateDiagnostics tableDecoder shiftedResponse none
      = some (.topLevel, [hostFnFailed (.contract 9)]) := by decide
  rw [show responseWith _ _ = shiftedResponse from rfl, hlocated] at hsource
  exact ⟨d, hd, decode_followsBack hd hsource (by decide)⟩

/-! ## Silence -/

/-- One of the three places holds an event that decodes. -/
def HoldsEvent (decoder : XdrDecoder) (result : Json) : Prop :=
  (∃ element ∈ elements (result.get "diagnosticEventsXdr"),
      (decodeElement decoder element).isSome = true) ∨
    (∃ element ∈ elements (nestedEvents result),
      (decodeElement decoder element).isSome = true) ∨
    embeddedEvents (resultMetaOf decoder result) ≠ []

/-- The metadata carries a list of events, and it is empty. -/
def EmptyMetaEvents (txMeta : Option TransactionMeta) : Prop :=
  (∃ sorobanMeta, txMeta = some (.v3 (some sorobanMeta)) ∧ sorobanMeta.diagnosticEvents = []) ∨
    ∃ ext, txMeta = some (.v4 ext [])

/-- One of the three places reports an empty list of events. -/
def ReportsEmpty (decoder : XdrDecoder) (result : Json) : Prop :=
  (result.get "diagnosticEventsXdr").bind Json.asArray = some [] ∨
    (nestedEvents result).bind Json.asArray = some [] ∨
    EmptyMetaEvents (resultMetaOf decoder result)

/-- An event that can be read is not lost, and without events the input does not claim
that there were none, unless the response does. -/
def NeverSilent (decoder : XdrDecoder) (result : Json) (input : AnalysisInput) : Prop :=
  (HoldsEvent decoder result → input.diagnosticEvents ≠ []) ∧
    (input.diagnosticEvents = [] → input.diagnosticsEnabled = true → ReportsEmpty decoder result)

/-- A string of the list decodes to an event. -/
def SomeReadable (decoder : XdrDecoder) (raw : List String) : Prop :=
  ∃ b ∈ raw, (decoder.event b (limitsForBase64 b)).toOption.isSome = true

theorem decodeEvents_ne_nil {decoder : XdrDecoder} {raw : List String} :
    decodeEvents decoder raw ≠ [] ↔ SomeReadable decoder raw := by
  unfold decodeEvents SomeReadable
  rw [ne_eq, List.filterMap_eq_nil_iff]
  simp only [not_forall, exists_prop, Option.isSome_iff_ne_none, ne_eq]

/-- Without strings there is nothing to decode. -/
theorem decodeElement_of_no_strings {decoder : XdrDecoder} {v : Option Json}
    (h : base64Array v = []) : ¬ ∃ element ∈ elements v,
      (decodeElement decoder element).isSome = true := by
  have hnil : (elements v).filterMap (decodeElement decoder) = [] := by
    rw [← decodeEvents_base64Array, h]
    rfl
  rintro ⟨element, hmem, hsome⟩
  have hnone := List.filterMap_eq_nil_iff.mp hnil element hmem
  rw [hnone] at hsome
  cases hsome

/-- **Unreadable events are not silence**, as far as the choice of the array allows: when the
first array with strings has a readable one, when no array has strings, and when there is
nothing readable anywhere and some place reports an empty list. -/
theorem decode_neverSilent {decoder : XdrDecoder} {txHash : String} {result : Json}
    {d : DecodedTransaction} (h : decodeGetTransaction decoder txHash result = .ok d) :
    NeverSilent decoder result d.input ↔
      firstStrings result = [] ∨ SomeReadable decoder (firstStrings result) ∨
        (¬ HoldsEvent decoder result ∧ ReportsEmpty decoder result) := by
  obtain ⟨envelope, txResult, txMeta, hmeta, hinput, -⟩ := decodeGetTransaction_ok h
  obtain ⟨hstrings, hnone⟩ := locateDiagnostics_eq decoder result txMeta
  have hmetaOf : resultMetaOf decoder result = txMeta := by
    unfold resultMetaOf
    rw [hmeta]
    rfl
  unfold NeverSilent
  rw [hinput, diagnosticEvents_buildInput, diagnosticsEnabled_buildInput]
  by_cases hfirst : firstStrings result = []
  · obtain ⟨htop, hnested, hlocated⟩ := hnone hfirst
    refine iff_of_true ?_ (Or.inl hfirst)
    rw [hlocated]
    cases hembedded : embeddedEvents txMeta with
    | cons e rest => exact ⟨fun _ => by simp, fun hempty => by simp at hempty⟩
    | nil =>
        refine ⟨?_, fun _ henabled => by simp at henabled⟩
        rintro (htopHolds | hnestedHolds | hmetaHolds)
        · exact absurd htopHolds (decodeElement_of_no_strings htop)
        · exact absurd hnestedHolds (decodeElement_of_no_strings hnested)
        · rw [hmetaOf] at hmetaHolds
          exact absurd hembedded hmetaHolds
  · obtain ⟨source, -, -, hlocated⟩ := hstrings hfirst
    rw [hlocated]
    simp only [Option.map_some, Option.getD_some, Option.isSome_some, hfirst, false_or,
      forall_const]
    by_cases hreadable : SomeReadable decoder (firstStrings result)
    · have hne := decodeEvents_ne_nil.mpr hreadable
      exact iff_of_true ⟨fun _ => hne, fun hempty => absurd hempty hne⟩ (Or.inl hreadable)
    · have hempty : decodeEvents decoder (firstStrings result) = [] := by
        by_contra hne
        exact hreadable (decodeEvents_ne_nil.mp hne)
      simp only [hempty, hreadable, ne_eq, not_true_eq_false, imp_false, false_or,
        forall_const]

/-- An unreadable event at the top level, and a readable one under `events`. -/
def hiddenResponse : Json := responseWith [.string "AAAA"] [.string event64]

theorem hiddenResponse_not_reportsEmpty : ¬ ReportsEmpty tableDecoder hiddenResponse := by
  have hmeta : resultMetaOf tableDecoder hiddenResponse = none := by rfl
  rintro (h | h | h)
  · cases h
  · cases h
  · unfold EmptyMetaEvents at h
    rw [hmeta] at h
    simp at h

/-- The readable event is lost, and the input claims that there was none. -/
theorem decode_hidden :
    ∃ d, decodeGetTransaction tableDecoder "ab" hiddenResponse = .ok d ∧
      HoldsEvent tableDecoder hiddenResponse ∧ d.input.diagnosticEvents = [] ∧
      d.input.diagnosticsEnabled = true ∧ ¬ ReportsEmpty tableDecoder hiddenResponse ∧
      ¬ NeverSilent tableDecoder hiddenResponse d.input := by
  obtain ⟨d, hd, -, hevents, henabled⟩ :=
    decode_responseWith [.string "AAAA"] [.string event64]
  have hlocated : locateDiagnostics tableDecoder hiddenResponse none = some (.topLevel, []) := by
    decide
  rw [show responseWith _ _ = hiddenResponse from rfl, hlocated] at hevents henabled
  have hholds : HoldsEvent tableDecoder hiddenResponse :=
    Or.inr (Or.inl ⟨.string event64, List.mem_singleton_self _, by decide⟩)
  refine ⟨d, hd, hholds, hevents, henabled, hiddenResponse_not_reportsEmpty, ?_⟩
  rintro ⟨hkept, -⟩
  exact hkept hholds hevents

theorem decode_neverSilent_hidden :
    ∃ d, decodeGetTransaction tableDecoder "ab" hiddenResponse = .ok d ∧
      (NeverSilent tableDecoder hiddenResponse d.input ↔
        firstStrings hiddenResponse = [] ∨
          SomeReadable tableDecoder (firstStrings hiddenResponse) ∨
          (¬ HoldsEvent tableDecoder hiddenResponse ∧
            ReportsEmpty tableDecoder hiddenResponse)) := by
  obtain ⟨d, hd, -⟩ := decode_responseWith [.string "AAAA"] [.string event64]
  exact ⟨d, hd, decode_neverSilent hd⟩

end Observatory
