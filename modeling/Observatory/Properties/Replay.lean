import Observatory.Explain
import Observatory.Properties.Decoding

/-!
# Recordings in place of the network

A transaction and the contracts its errors need are recorded, and explained again without the
network.

* `Capturable` — the endpoint answers for a contract.
* `availability_recordings` — the spec from a recording is the spec from the endpoint.
* `explain_replay` — the explanation from recordings is the explanation from the endpoint.
-/

namespace Observatory

section Replay

variable [Strkey] {entry : EntryDecoder} {encode : KeyEncoder} {client : RpcClient}

/-- The endpoint has the contract's instance, and the code it names under the key of its hash. -/
def Capturable (entry : EntryDecoder) (encode : KeyEncoder) (client : RpcClient)
    (contract : ContractId) : Prop :=
  ∃ recorded, client.contractInstanceEntry contract = .ok recorded ∧
    ∀ hash, decodeInstance entry recorded = .ok (.wasm hash) →
      ∃ code, client.contractCodeEntry hash = .ok code ∧
        recordedKey code = some (encode (Rpc.codeKey hash))

theorem name_captureContract (contract : ContractId) :
    (captureContract entry client contract).name = toString contract := by
  unfold captureContract
  split
  · rfl
  · split
    · split <;> rfl
    · rfl

theorem inst_captureContract {contract : ContractId} {recorded : Json}
    (h : client.contractInstanceEntry contract = .ok recorded) :
    (captureContract entry client contract).inst = .json recorded := by
  unfold captureContract
  rw [h]
  dsimp only
  split
  · split <;> rfl
  · rfl

/-- A code file that is written is the endpoint's answer for the hash the instance names. -/
theorem code_captureContract {contract : ContractId}
    (h : FixtureContracts.isFile (captureContract entry client contract).code = true) :
    ∃ recorded hash code, client.contractInstanceEntry contract = .ok recorded ∧
      decodeInstance entry recorded = .ok (.wasm hash) ∧
      client.contractCodeEntry hash = .ok code ∧
      (captureContract entry client contract).code = .json code := by
  unfold captureContract at h ⊢
  split at h
  · cases h
  · next recorded hrecorded =>
    split at h
    · next hash hhash =>
      split at h
      · next code hcode => exact ⟨recorded, hash, code, hrecorded, hhash, hcode, rfl⟩
      · cases h
    · cases h

/-- The directory of a recorded contract is found under its name. -/
theorem find_captureContract (parser : ContractParser) {cs : List ContractId} {c : ContractId}
    (h : c ∈ cs) : (cs.map (captureContract entry client)).find? (fun d => d.name = toString c)
      = some (captureContract entry client c) := by
  induction cs with
  | nil => exact (List.not_mem_nil h).elim
  | cons c' cs ih =>
      rw [List.map_cons]
      by_cases hname : (captureContract entry client c').name = toString c
      · rw [name_captureContract] at hname
        have hsome : some c' = some c := by
          rw [← parser.parse_toString c', hname, parser.parse_toString c]
        obtain rfl := Option.some.inj hsome
        exact List.find?_cons_of_pos (decide_eq_true (name_captureContract c'))
      · rw [List.find?_cons_of_neg (by simpa using hname)]
        rcases List.mem_cons.mp h with rfl | h
        · exact absurd (name_captureContract c) hname
        · exact ih h

/-! ## The recordings as a source -/

variable {root : String} {cs : List ContractId}

/-- What the capture tool leaves of some contracts. -/
def recordings (entry : EntryDecoder) (client : RpcClient) (root : String)
    (cs : List ContractId) : FixtureContracts :=
  ⟨root, cs.map (captureContract entry client), none⟩

/-- The executable of a recorded contract is the one the endpoint has. -/
theorem contractExecutable_recordings (parser : ContractParser) {c : ContractId} (hc : c ∈ cs)
    (h : Capturable entry encode client c) :
    ((recordings entry client root cs).source entry encode).contractExecutable c
      = (client.source entry).contractExecutable c := by
  obtain ⟨recorded, hrecorded, -⟩ := h
  have hlive : (client.source entry).contractExecutable c = decodeInstance entry recorded := by
    show (client.contractInstanceEntry c >>= _) = _
    rw [hrecorded]
    rfl
  rw [hlive]
  unfold FixtureContracts.source recordings
  dsimp only
  rw [find_captureContract parser hc]
  dsimp only
  rw [inst_captureContract hrecorded]
  rfl

omit [Strkey] in
/-- The search for a code among recordings, of which one is for it. -/
theorem findCode_eq (hencode : ∀ h h', encode (Rpc.codeKey h) = encode (Rpc.codeKey h') → h = h')
    (fixtures : FixtureContracts) {hash : Hash} {code : Json}
    (hcode : client.contractCodeEntry hash = .ok code) {dirs : List ContractFixture}
    (hdirs : ∀ d ∈ dirs, ∃ hash' code', client.contractCodeEntry hash' = .ok code' ∧
      recordedKey code' = some (encode (Rpc.codeKey hash')) ∧ d.code = .json code')
    (hfound : ∃ d ∈ dirs, d.code = .json code ∧
      recordedKey code = some (encode (Rpc.codeKey hash))) :
    fixtures.findCode entry (encode (Rpc.codeKey hash)) dirs = decodeCode entry code := by
  induction dirs with
  | nil =>
      obtain ⟨d, hd, -⟩ := hfound
      exact (List.not_mem_nil hd).elim
  | cons d dirs ih =>
      obtain ⟨hash', code', hcode', hkey', hd⟩ := hdirs d List.mem_cons_self
      rw [FixtureContracts.findCode, hd]
      show (if recordedKey code' = some (encode (Rpc.codeKey hash)) then decodeCode entry code'
        else fixtures.findCode entry (encode (Rpc.codeKey hash)) dirs) = _
      by_cases hsame : recordedKey code' = some (encode (Rpc.codeKey hash))
      · -- the key is that of one hash only
        rw [if_pos hsame]
        rw [hkey'] at hsame
        obtain rfl := hencode _ _ (Option.some.inj hsame)
        rw [hcode] at hcode'
        rw [Except.ok.inj hcode']
      · rw [if_neg hsame]
        refine ih (fun d' hd' => hdirs d' (List.mem_cons_of_mem _ hd')) ?_
        obtain ⟨d', hd', hcode'', hkey⟩ := hfound
        rcases List.mem_cons.mp hd' with rfl | hd'
        · rw [hd] at hcode''
          obtain rfl := RecordedFile.json.inj hcode''
          exact absurd hkey hsame
        · exact ⟨d', hd', hcode'', hkey⟩

/-- The WASM of the code that a recorded contract names. -/
theorem contractWasm_recordings
    (hencode : ∀ h h', encode (Rpc.codeKey h) = encode (Rpc.codeKey h') → h = h')
    (hcs : ∀ c ∈ cs, Capturable entry encode client c) {c : ContractId} (hc : c ∈ cs) {hash : Hash}
    (hexecutable : (client.source entry).contractExecutable c = .ok (.wasm hash)) :
    ((recordings entry client root cs).source entry encode).contractWasm hash
      = (client.source entry).contractWasm hash := by
  obtain ⟨recorded, hrecorded, hnamed⟩ := hcs c hc
  have hdecoded : decodeInstance entry recorded = .ok (.wasm hash) := by
    rw [← hexecutable]
    show _ = (client.contractInstanceEntry c >>= _)
    rw [hrecorded]
    rfl
  obtain ⟨code, hcode, hkey⟩ := hnamed hash hdecoded
  have hlive : (client.source entry).contractWasm hash = decodeCode entry code := by
    show (client.contractCodeEntry hash >>= _) = _
    rw [hcode]
    rfl
  have hcaptured : (captureContract entry client c).code = .json code := by
    unfold captureContract
    rw [hrecorded]
    dsimp only
    rw [hdecoded]
    dsimp only
    rw [hcode]
  rw [hlive]
  refine findCode_eq hencode _ hcode (fun d hd => ?_)
    ⟨captureContract entry client c, ?_, hcaptured, hkey⟩
  · rw [List.mem_insertionSort] at hd
    obtain ⟨hd, hfile⟩ := List.mem_filter.mp hd
    obtain ⟨c', hc', rfl⟩ := List.mem_map.mp hd
    obtain ⟨recorded', hash', code', hrecorded', hdecoded', hcode', hwritten⟩ :=
      code_captureContract hfile
    obtain ⟨recorded'', hrecorded'', hnamed'⟩ := hcs c' hc'
    obtain rfl := Except.ok.inj (hrecorded'.symm.trans hrecorded'')
    obtain ⟨code'', hcode'', hkey'⟩ := hnamed' hash' hdecoded'
    obtain rfl := Except.ok.inj (hcode'.symm.trans hcode'')
    exact ⟨hash', code', hcode', hkey', hwritten⟩
  · rw [List.mem_insertionSort]
    refine List.mem_filter.mpr ⟨List.mem_map.mpr ⟨c, hc, rfl⟩, ?_⟩
    rw [hcaptured]
    rfl

/-- **A spec from recordings** is the spec from the endpoint. -/
theorem availability_recordings (parser : ContractParser) (specs : SpecDecoder)
    (hencode : ∀ h h', encode (Rpc.codeKey h) = encode (Rpc.codeKey h') → h = h')
    (hcs : ∀ c ∈ cs, Capturable entry encode client c) {c : ContractId} (hc : c ∈ cs) :
    availability specs ((recordings entry client root cs).source entry encode) c
      = availability specs (client.source entry) c := by
  unfold availability fetchAvailability
  rw [contractExecutable_recordings parser hc (hcs c hc)]
  cases hexecutable : (client.source entry).contractExecutable c with
  | error e => rfl
  | ok executable =>
      cases executable with
      | wasm hash =>
          dsimp only
          rw [Memo.getOrInsert_fst Memo.agrees_none, Memo.getOrInsert_fst Memo.agrees_none,
            specFor, specFor, contractWasm_recordings hencode hcs hc hexecutable]
      | _ => rfl

/-- The specs fetched from recordings are those fetched from the endpoint. -/
theorem fetchSpecs_recordings (parser : ContractParser) (specs : SpecDecoder)
    (hencode : ∀ h h', encode (Rpc.codeKey h) = encode (Rpc.codeKey h') → h = h')
    (hcs : ∀ c ∈ cs, Capturable entry encode client c) {needed : List ContractId}
    (hneeded : ∀ c ∈ needed, c ∈ cs) :
    fetchSpecs specs ((recordings entry client root cs).source entry encode) needed
      = fetchSpecs specs (client.source entry) needed := by
  funext c
  rw [fetchSpecs_eq, fetchSpecs_eq]
  by_cases hc : c ∈ needed
  · rw [if_pos hc, if_pos hc, availability_recordings parser specs hencode hcs (hneeded c hc)]
  · rw [if_neg hc, if_neg hc]

/-- The explanation from the recordings is the one the endpoint leads to, or fails as it does. -/
theorem explain_recordings (parser : ContractParser) (xdr : XdrDecoder) (specs : SpecDecoder)
    (hencode : ∀ h h', encode (Rpc.codeKey h) = encode (Rpc.codeKey h') → h = h')
    {endpoint : Endpoint} {txHash : String} {result : Json}
    (hresult : endpoint.getTransaction txHash = .ok result)
    (htxHash : result.getStr "txHash" = some txHash)
    (hcs : ∀ c ∈ cs, Capturable entry encode (endpoint.client encode) c)
    (hneeded : ∀ d, decodeGetTransaction xdr txHash result = .ok d →
      ∀ c ∈ contractsNeedingSpecs (TransactionModel.fromInput d.input), c ∈ cs)
    (offline : Endpoint) (dir root : String) :
    (explain xdr entry specs encode offline ⟨none, some ⟨dir, .json result⟩,
        some (recordings entry (endpoint.client encode) root cs)⟩).mapError ExplainError.text
      = (explain xdr entry specs encode endpoint ⟨some txHash, none, none⟩).mapError
          ExplainError.text := by
  have hfetch : endpoint.fetchTransaction xdr txHash
      = (decodeGetTransaction xdr txHash result).mapError RpcError.decode := by
    rw [Endpoint.fetchTransaction, hresult]
    rfl
  have hoffline : (⟨none, some ⟨dir, .json result⟩,
        some (recordings entry (endpoint.client encode) root cs)⟩ : ExplainArgs).decoded xdr offline
      = (((decodeGetTransaction xdr txHash result).mapError FixtureError.decode).mapError
        ExplainError.fixture).map (fun d => (d, false)) := by
    rw [ExplainArgs.decoded_fixture xdr offline rfl, Fixture.load_json xdr dir htxHash]
  have honline : (⟨some txHash, none, none⟩ : ExplainArgs).decoded xdr endpoint
      = (((decodeGetTransaction xdr txHash result).mapError RpcError.decode).mapError
        ExplainError.rpc).map (fun d => (d, true)) := by
    rw [ExplainArgs.decoded_tx xdr endpoint rfl rfl, hfetch]
  cases hdecoded : decodeGetTransaction xdr txHash result with
  | error e =>
      rw [hdecoded] at hoffline honline
      rw [explain_of_error xdr entry specs encode offline hoffline,
        explain_of_error xdr entry specs encode endpoint honline]
      rfl
  | ok d =>
      rw [hdecoded] at hoffline honline
      have hfetched : ExplainArgs.fetched entry specs encode offline
            ⟨none, some ⟨dir, .json result⟩,
              some (recordings entry (endpoint.client encode) root cs)⟩ false
            (contractsNeedingSpecs (.fromInput d.input))
          = ExplainArgs.fetched entry specs encode endpoint ⟨some txHash, none, none⟩ true
            (contractsNeedingSpecs (.fromInput d.input)) :=
        fetchSpecs_recordings parser specs hencode hcs (hneeded d hdecoded)
      rw [explain_of_ok xdr entry specs encode offline hoffline,
        explain_of_ok xdr entry specs encode endpoint honline, hfetched]

/-- **Without the network.**  Where a transaction is recorded, and every contract its errors need,
the explanation from the recordings is the one the endpoint leads to, or fails as it does; and so
is what is printed, be it the report or the document. -/
theorem explain_replay (parser : ContractParser) (xdr : XdrDecoder) (specs : SpecDecoder)
    (hencode : ∀ h h', encode (Rpc.codeKey h) = encode (Rpc.codeKey h') → h = h')
    {endpoint : Endpoint} {txHash : String} {result : Json}
    (hresult : endpoint.getTransaction txHash = .ok result)
    (htxHash : result.getStr "txHash" = some txHash)
    (hcs : ∀ c ∈ cs, Capturable entry encode (endpoint.client encode) c)
    (hneeded : ∀ d, decodeGetTransaction xdr txHash result = .ok d →
      ∀ c ∈ contractsNeedingSpecs (TransactionModel.fromInput d.input), c ∈ cs)
    (offline : Endpoint) (dir root : String) :
    let recorded : ExplainArgs := ⟨none, some ⟨dir, .json result⟩,
      some (recordings entry (endpoint.client encode) root cs)⟩
    let live : ExplainArgs := ⟨some txHash, none, none⟩
    (explain xdr entry specs encode offline recorded).mapError ExplainError.text
        = (explain xdr entry specs encode endpoint live).mapError ExplainError.text ∧
      ∀ json, (run xdr entry specs encode offline parser recorded json).mapError ExplainError.text
        = (run xdr entry specs encode endpoint parser live json).mapError ExplainError.text := by
  intro recorded live
  have hexplained : (explain xdr entry specs encode offline recorded).mapError ExplainError.text
      = (explain xdr entry specs encode endpoint live).mapError ExplainError.text :=
    explain_recordings parser xdr specs hencode hresult htxHash hcs hneeded offline dir root
  refine ⟨hexplained, fun json => ?_⟩
  rw [run_mapError, run_mapError, hexplained]

end Replay

/-! ## A recorded transaction -/

/-- The start of `origin64`: the contract and the topics. -/
def originTopics64 : String :=
  "AAAAAAAAAAAAAAABBQUFBQUFBQUFBQUFBQUFBQUFBQUFBQUFBQUFBQUFBQUAAAACAAAAAAAAAAIAAAAPAAAABWVycm9yAAAA"

/-- `err (cid 5) (.contract 9) "failing with contract error"`. -/
def origin64 : String :=
  originTopics64 ++ "AAAAAgAAAAAAAAAJAAAADgAAABtmYWlsaW5nIHdpdGggY29udHJhY3QgZXJyb3IA"

theorem event64_ne_origin64 : event64 ≠ origin64 := by
  intro h
  have hchars : event64.toList.drop 15 = (originTopics64 ++ _).toList.drop 15 :=
    congrArg (fun s => s.toList.drop 15) h
  rw [String.toList_append] at hchars
  simp [event64, originTopics64] at hchars

/-- The instance key of `cid 5`. -/
def instanceKey64 : String := "AAAABgAAAAEFBQUFBQUFBQUFBQUFBQUFBQUFBQUFBQUFBQUFBQUFBQAAABQAAAAB"

/-- The code key of hash 1. -/
def codeKey64 : String := "AAAABwEBAQEBAQEBAQEBAQEBAQEBAQEBAQEBAQEBAQEBAQEB"

/-- The instance entry of `cid 5`, which runs the WASM under hash 1. -/
def instance64 : String :=
  "AAAABgAAAAAAAAABBQUFBQUFBQUFBQUFBQUFBQUFBQUFBQUFBQUFBQUFBQUAAAAUAAAAAQAAABMAAAAAAQEBAQEB" ++
    "AQEBAQEBAQEBAQEBAQEBAQEBAQEBAQEBAQEAAAAA"

/-- The code entry of hash 1: a module without sections. -/
def code64 : String := "AAAABwAAAAABAQEBAQEBAQEBAQEBAQEBAQEBAQEBAQEBAQEBAQEBAQAAAAgAYXNtAQAAAA=="

/-- A failed transaction with the event in which contract 5 raises its error. -/
def raisedTx : Json :=
  .object
    [("status", .string "FAILED"), ("txHash", .string "ab"), ("envelopeXdr", .string envelope64),
      ("resultXdr", .string result64),
      ("diagnosticEventsXdr", .array [.string origin64, .string event64])]

def raisedDecoder : XdrDecoder :=
  { tableDecoder with
    event := fun s l =>
      if s = origin64 then .ok (err (cid 5) (.contract 9) "failing with contract error")
      else tableDecoder.event s l }

/-- The decoder of the texts of the two entries. -/
def raisedEntries : EntryDecoder := fun s _ =>
  if s = instance64 then .ok (.contractData ⟨.contract (cid 5), .ledgerKeyContractInstance,
    .persistent, .contractInstance (.wasm (.fill 1))⟩)
  else if s = code64 then .ok (.contractCode ⟨.fill 1, [0, 0x61, 0x73, 0x6d, 1, 0, 0, 0]⟩)
  else .error "invalid"

/-- The texts of these keys; the keys of other code are told apart. -/
def raisedKeys : KeyEncoder
  | .contractCode hash =>
      if hash = .fill 1 then codeKey64 else "code " ++ Strkey.standard.contract ⟨hash⟩
  | _ => instanceKey64

/-- An answer with one entry, under its key. -/
def keyedEntry (key xdr : String) : Json :=
  .object [("entries", .array [.object [("key", .string key), ("xdr", .string xdr)]])]

/-- An endpoint that has this transaction, this contract and its code. -/
def raisedEndpoint : Endpoint where
  post body :=
    if body.getStr "method" = some "getTransaction" then .ok (.object [("result", raisedTx)])
    else
      match ((body.get "params").bind (fun p => p.get "keys")).bind Json.asArray with
      | some [.string k] =>
          if k = instanceKey64 then .ok (.object [("result", keyedEntry k instance64)])
          else if k = codeKey64 then .ok (.object [("result", keyedEntry k code64)])
          else .ok (.object [("result", .object [("entries", .array [])])])
      | _ => .error (.badResponse "invalid params")

theorem raisedKeys_injective (h h' : Hash)
    (heq : raisedKeys (Rpc.codeKey h) = raisedKeys (Rpc.codeKey h')) : h = h' := by
  have hother : ∀ text : String, codeKey64 ≠ "code " ++ text := by
    intro text heq
    have hfirst := congrArg (fun s : String => s.toList.head?) heq
    rw [String.toList_append] at hfirst
    exact absurd hfirst (by simp [codeKey64])
  unfold raisedKeys Rpc.codeKey at heq
  dsimp only at heq
  by_cases hone : h = .fill 1
  · by_cases hone' : h' = .fill 1
    · rw [hone, hone']
    · rw [if_pos hone, if_neg hone'] at heq
      exact absurd heq (hother _)
  · by_cases hone' : h' = .fill 1
    · rw [if_neg hone, if_pos hone'] at heq
      exact absurd heq.symm (hother _)
    · rw [if_neg hone, if_neg hone'] at heq
      have hstrkey : Strkey.standard.contract ⟨h⟩ = Strkey.standard.contract ⟨h'⟩ := by
        have htail := congrArg String.toList heq
        rw [String.toList_append, String.toList_append] at htail
        exact String.toList_inj.mp (List.append_cancel_left htail)
      have hparsed := congrArg (@ContractParser.parse Strkey.standard Strkey.contractParser) hstrkey
      have hsame : (some ⟨h⟩ : Option ContractId) = some ⟨h'⟩ :=
        (@ContractParser.parse_toString Strkey.standard Strkey.contractParser ⟨h⟩).symm.trans
          (hparsed.trans
            (@ContractParser.parse_toString Strkey.standard Strkey.contractParser ⟨h'⟩))
      exact congrArg ContractId.hash (Option.some.inj hsame)

theorem capturable_five : Capturable raisedEntries raisedKeys (raisedEndpoint.client raisedKeys)
    (cid 5) := by
  have hdecoded : decodeInstance raisedEntries (keyedEntry instanceKey64 instance64)
      = .ok (.wasm (.fill 1)) := by
    simp [decodeInstance, singleEntry, keyedEntry, raisedEntries]
    rfl
  refine ⟨keyedEntry instanceKey64 instance64, rfl, fun hash hhash => ?_⟩
  obtain rfl : .fill 1 = hash := ContractExecutable.wasm.inj
    (Except.ok.inj (hdecoded.symm.trans hhash))
  exact ⟨keyedEntry codeKey64 code64, rfl, rfl⟩

/-- What the recorded transaction is decoded to. -/
def decodedRaised [Strkey] : DecodedTransaction where
  status := .failed
  input := buildInput "ab" (sorobanFailure .trapped [] none).envelope
    (sorobanFailure .trapped [] none).result none
    (some (.topLevel, [err (cid 5) (.contract 9) "failing with contract error",
      hostFnFailed (.contract 9)]))
  diagnosticSource := some .topLevel

theorem decode_raisedTx [Strkey] :
    decodeGetTransaction raisedDecoder "ab" raisedTx = .ok decodedRaised := by
  have hlocated : locateDiagnostics raisedDecoder raisedTx none
      = some (.topLevel, [err (cid 5) (.contract 9) "failing with contract error",
          hostFnFailed (.contract 9)]) := by
    have htop : base64Array (raisedTx.get "diagnosticEventsXdr") = [origin64, event64] := rfl
    rw [locateDiagnostics, htop]
    simp [decodeEvents, raisedDecoder, tableDecoder, event64_ne_origin64, Except.toOption]
  have hstatus : raisedTx.getStr "status" = some "FAILED" := rfl
  have henvelope : HoldsField raisedDecoder.envelope raisedTx "envelopeXdr"
      (sorobanFailure .trapped [] none).envelope :=
    ⟨envelope64, rfl, by simp [raisedDecoder, tableDecoder]⟩
  have hresult : HoldsField raisedDecoder.result raisedTx "resultXdr"
      (sorobanFailure .trapped [] none).result :=
    ⟨result64, rfl, by simp [raisedDecoder, tableDecoder]⟩
  have hmeta : decodeMeta raisedDecoder raisedTx = .ok none := rfl
  refine decodeGetTransaction_eq_ok.mpr ⟨.failed, _, _, none, decodeStatus_eq_failed.mpr hstatus,
    henvelope, hresult, hmeta, ?_⟩
  rw [hlocated]
  rfl

/-- The errors of the recorded transaction need contract 5. -/
theorem needed_raisedTx [Strkey] {d : DecodedTransaction}
    (h : decodeGetTransaction raisedDecoder "ab" raisedTx = .ok d) :
    contractsNeedingSpecs (TransactionModel.fromInput d.input) = [cid 5] := by
  obtain rfl := Except.ok.inj (decode_raisedTx.symm.trans h)
  rfl

/-- The report of the transaction is printed alike from the recordings, without an endpoint that
answers. -/
theorem raisedTx_replay :
    (@run Strkey.standard raisedDecoder raisedEntries (fun _ _ => .ok []) raisedKeys
        ⟨fun _ => .error (.transport "offline")⟩ Strkey.contractParser
        ⟨none, some ⟨"fixture", .json raisedTx⟩,
          some (@recordings Strkey.standard raisedEntries (raisedEndpoint.client raisedKeys)
            "contracts" [cid 5])⟩ false).mapError ExplainError.text
      = (@run Strkey.standard raisedDecoder raisedEntries (fun _ _ => .ok []) raisedKeys
          raisedEndpoint Strkey.contractParser ⟨some "ab", none, none⟩ false).mapError
            ExplainError.text :=
  (@explain_replay Strkey.standard raisedEntries raisedKeys [cid 5] Strkey.contractParser
    raisedDecoder (fun _ _ => .ok []) raisedKeys_injective raisedEndpoint "ab" raisedTx rfl rfl
    (fun c hc => by
      obtain rfl := List.mem_singleton.mp hc
      exact capturable_five)
    (fun d hd c hc => by
      rw [@needed_raisedTx Strkey.standard d hd] at hc
      exact hc)
    ⟨fun _ => .error (.transport "offline")⟩ "fixture" "contracts").2 false

end Observatory
