import Observatory.Properties.Stages
import Observatory.Testutil

/-!
# What Confirmed stands for

`ConfirmedMeans` says, class by class and in terms of the raw input, what a
confirmed cause has to rest on; `confirmed_sound` says that every confirmed
candidate does.  A candidate of any class that is not listed there is never
confirmed.
-/

namespace Observatory

/-- The credentials of an entry that names an address. -/
def SorobanCredentials.addressCredentials :
    SorobanCredentials → Option SorobanAddressCredentials
  | .sourceAccount => none
  | .address c | .addressV2 c | .addressWithDelegates c => some c

/-- The first operation that did not succeed carries this code. -/
def FailedWith (input : AnalysisInput) (code : String) : Prop :=
  ∃ i op, FirstFailure (effectiveResults input.result) i op ∧ op.code = code

/-- The envelope declares this key. -/
def DeclaresKey (input : AnalysisInput) (key : LedgerKey) : Prop :=
  ∃ data, sorobanTransactionData input.envelope = some data ∧
    key ∈ data.footprint.readOnly ++ data.footprint.readWrite

/-- An error event whose error also ended the invocation. -/
def EndedBy (input : AnalysisInput) (error : ScError) (message : String)
    (r : DiagnosticEvent) : Prop :=
  (∃ i, RaisesAt input.diagnosticEvents i error (some message) r) ∧
    rawTerminal input.diagnosticEvents = some error

/-- An authorization entry of a model and the entry of the envelope behind it. -/
theorem isFor_fromXdr {address : ScAddress} {i : UInt32} {raw : SorobanAuthorizationEntry} :
    (AuthEntry.fromXdr i raw).isFor address = true ↔
      ∃ credentials, raw.credentials.addressCredentials = some credentials ∧
        credentials.address = address := by
  obtain ⟨credentials, invocation⟩ := raw
  cases credentials <;>
    simp [AuthEntry.fromXdr, AuthEntry.isFor, AuthCredentials.fromXdr,
      SorobanCredentials.addressCredentials]

/-- An expired-signature event that names an address and two ledgers. -/
theorem eventLedgers_eq_some {data : ScVal} {current expiry : UInt32} {address : ScAddress}
    (haddress : eventAddress data = some address)
    (hledgers : eventLedgers data = some (current, expiry)) :
    ∃ first more,
      eventItems data = first :: .address address :: .u32 current :: .u32 expiry :: more := by
  unfold eventAddress at haddress
  unfold eventLedgers at hledgers
  match hitems : eventItems data with
  | [] => simp [hitems] at haddress
  | [_] => simp [hitems] at haddress
  | [_, _] => simp [hitems] at hledgers
  | [_, _, _] => simp [hitems] at hledgers
  | first :: second :: third :: fourth :: more =>
      simp only [hitems, List.getElem?_cons_succ, List.getElem?_cons_zero] at haddress hledgers
      refine ⟨first, more, ?_⟩
      split at haddress
      · next a ha =>
        simp only [Option.some.injEq] at ha haddress
        split at hledgers
        · next cur exp hcur hexp =>
          simp only [Option.some.injEq, Prod.mk.injEq] at hcur hexp hledgers
          rw [ha, haddress, hcur, hexp, hledgers.1, hledgers.2]
        · cases hledgers
      · cases haddress

section Confirmed

variable [Strkey]

/-- The terminal code is `n`, one contract is identified for it, and that contract's
spec declares it under one name and was read from WASM the footprint lists. -/
def ContractErrorMeans (input : AnalysisInput) : Prop :=
  ∃ n c basis spec hash case,
    rawTerminal input.diagnosticEvents = some (.contract n) ∧
    identify (TransactionModel.fromInput input) n = .unique c basis ∧
    input.contractSpecs c = some (.available spec) ∧ spec.wasmHash = some hash ∧
    DeclaresKey input (.contractCode hash) ∧ spec.Declares n case

/-- The invocation ended with an expired-signature event for an address, past the
ledger up to which the envelope's own entry for that address was signed. -/
def InvalidAuthMeans (input : AnalysisInput) : Prop :=
  ∃ code message r first address current expiry more,
    EndedBy input (.auth code) message r ∧ startsWith message signatureExpiredMarker = true ∧
    eventItems r.data = first :: .address address :: .u32 current :: .u32 expiry :: more ∧
    current > expiry ∧
    ∃ entry ∈ envelopeAuth input.envelope, ∃ credentials,
      entry.credentials.addressCredentials = some credentials ∧
      credentials.address = address ∧ credentials.signatureExpirationLedger = expiry

/-- The invocation ended with a footprint violation on a key no footprint entry
declares. -/
def FootprintMeans (input : AnalysisInput) : Prop :=
  ∃ code message r address key,
    EndedBy input (.storage code) message r ∧ containsText message footprintMarker = true ∧
    accessedKey r.data = some (address, key) ∧
    (sorobanTransactionData input.envelope).isSome = true ∧
    ∀ durability, ¬ DeclaresKey input (.contractData ⟨address, key, durability⟩)

/-- The invocation ended with an unauthorized call for an address that is not the
source account and that no authorization entry is for. -/
def MissingAuthMeans (input : AnalysisInput) : Prop :=
  ∃ message r address,
    EndedBy input (.auth .invalidAction) message r ∧
    startsWith message unauthorizedMarker = true ∧ eventAddress r.data = some address ∧
    address.display ≠ (unwrap input.envelope).sourceAccount ∧
    ∀ entry ∈ envelopeAuth input.envelope, ∀ credentials,
      entry.credentials.addressCredentials = some credentials → credentials.address ≠ address

/-- What a confirmed cause of a class rests on. -/
def ConfirmedMeans (input : AnalysisInput) : CauseClass → Prop
  | .archivedEntryRequiresRestore => FailedWith input "EntryArchived"
  | .resourceLimitExceeded => FailedWith input "ResourceLimitExceeded"
  | .insufficientResourceFee => FailedWith input "InsufficientRefundableFee"
  | .contractDefinedError => ContractErrorMeans input
  | .invalidAuthorizationEntry => InvalidAuthMeans input
  | .footprintEntryMissing => FootprintMeans input
  | .missingAuthorizationEntry => MissingAuthMeans input
  | .contractTrap | .malformedHostFunction | .undetermined => False

/-! ## From the model to the raw input -/

/-- A match of a result-code rule has the code of the failed operation. -/
theorem failedWith_of_codeRule {input : AnalysisInput} {wanted : FailureStage} {code : String}
    {causeClass : CauseClass} {summary remediation ruleId : String}
    {more : TransactionModel → List Evidence} {c : CandidateCause}
    (h : codeRule wanted code causeClass summary remediation ruleId more (failureContext input)
      = .matched c) :
    FailedWith input code ∧ c.causeClass = causeClass := by
  obtain ⟨hstage, op, hop, hcode, e, -, rfl⟩ := codeRule_matched h
  refine ⟨?_, rfl⟩
  have hfailed : (Outcome.classify input.result).failedOperation = some op := hop
  rcases Outcome.classify_failed hstage with ⟨hnone, -⟩ | ⟨i, op', hfirst, hop', -⟩
  · rw [hnone] at hfailed
    cases hfailed
  · rw [hop'] at hfailed
    obtain rfl := Option.some.inj hfailed
    exact ⟨i, op', hfirst, hcode⟩

/-- The terminal error of a model is that of the raw list. -/
theorem map_terminalError (input : AnalysisInput) :
    (TransactionModel.fromInput input).diagnostics.terminalError.map TerminalError.error
      = rawTerminal input.diagnosticEvents :=
  terminalError_fromEvents input.diagnosticEvents input.diagnosticsEnabled

theorem rawTerminal_of_model {input : AnalysisInput} {t : TerminalError}
    (h : (TransactionModel.fromInput input).diagnostics.terminalError = some t) :
    rawTerminal input.diagnosticEvents = some t.error := by
  rw [← map_terminalError, h, Option.map_some]

/-- The transaction trapped, at a node that emits events, and ended with this error. -/
def TrappedWith (input : AnalysisInput) (error : ScError) : Prop :=
  (TransactionModel.fromInput input).stage = some .contractExecution ∧
    (TransactionModel.fromInput input).diagnostics.availability = .emitted ∧
    rawTerminal input.diagnosticEvents = some error

/-- The invocation ended with the error of an event. -/
theorem endedBy_iff {input : AnalysisInput} {x : ErrorEvent} :
    (endedBy (TransactionModel.fromInput input) x).isSome = true ↔
      rawTerminal input.diagnosticEvents = some x.error := by
  rw [endedBy_isSome, ← map_terminalError, Option.map_eq_some_iff]

/-- An error event of a model whose error ended the invocation. -/
theorem endedBy_of_model {input : AnalysisInput} {x : ErrorEvent} {message : String}
    (hx : x ∈ (TransactionModel.fromInput input).diagnostics.errors)
    (hmessage : x.message = some message)
    (hended : (endedBy (TransactionModel.fromInput input) x).isSome = true) :
    ∃ r, EndedBy input x.error message r ∧ x.event.data = r.data := by
  obtain ⟨i, r, hraises, hevent⟩ := mem_errors_fromEvents.mp hx
  rw [hmessage] at hraises
  refine ⟨r, ⟨⟨i, hraises⟩, endedBy_iff.mp hended⟩, ?_⟩
  rw [hevent]
  rfl

/-- No entry for an address: none of the envelope's entries is for it. -/
theorem entryFor_eq_none {input : AnalysisInput} {soroban : SorobanData} {address : ScAddress}
    (hsoroban : (TransactionModel.fromInput input).soroban = some soroban) :
    entryFor soroban.auth address = none ↔
      ∀ entry ∈ envelopeAuth input.envelope, ∀ credentials,
        entry.credentials.addressCredentials = some credentials →
        credentials.address ≠ address := by
  obtain ⟨data, -, -, hauth⟩ := TransactionModel.fromInput_soroban hsoroban
  unfold entryFor
  rw [hauth, List.find?_eq_none]
  constructor
  · intro h entry hentry credentials hcredentials haddress
    obtain ⟨i, hi⟩ := List.getElem?_of_mem hentry
    refine h _ (Scan.mem_mapIdx_iff.mpr ⟨i, entry, hi, rfl⟩) ?_
    exact isFor_fromXdr.mpr ⟨credentials, hcredentials, haddress⟩
  · intro h e he hfor
    obtain ⟨i, entry, hi, rfl⟩ := Scan.mem_mapIdx_iff.mp he
    obtain ⟨credentials, hcredentials, haddress⟩ := isFor_fromXdr.mp hfor
    exact h entry (List.mem_of_getElem? hi) credentials hcredentials haddress

/-- The entry found for an address stands for an entry of the envelope. -/
theorem entryFor_eq_some {input : AnalysisInput} {soroban : SorobanData} {address : ScAddress}
    {e : AuthEntry} (hsoroban : (TransactionModel.fromInput input).soroban = some soroban)
    (h : entryFor soroban.auth address = some e) :
    ∃ entry ∈ envelopeAuth input.envelope, ∃ credentials,
      entry.credentials.addressCredentials = some credentials ∧ credentials.address = address ∧
      e.credentials = .address address credentials.nonce credentials.signatureExpirationLedger
        entry.credentials.name := by
  obtain ⟨data, -, -, hauth⟩ := TransactionModel.fromInput_soroban hsoroban
  have hmem : e ∈ soroban.auth := List.mem_of_find?_eq_some h
  have hfor : e.isFor address = true := List.find?_some h
  rw [hauth] at hmem
  obtain ⟨i, entry, hi, rfl⟩ := Scan.mem_mapIdx_iff.mp hmem
  obtain ⟨credentials, hcredentials, rfl⟩ := isFor_fromXdr.mp hfor
  refine ⟨entry, List.mem_of_getElem? hi, credentials, hcredentials, rfl, ?_⟩
  obtain ⟨cred, invocation⟩ := entry
  cases cred with
  | sourceAccount => cases hcredentials
  | _ => obtain rfl := Option.some.inj hcredentials; rfl

/-- No footprint entry declares a key: none of the envelope's keys does. -/
theorem declared_eq_nil_iff {input : AnalysisInput} {soroban : SorobanData}
    {address : ScAddress} {key : ScVal}
    (hsoroban : (TransactionModel.fromInput input).soroban = some soroban) :
    soroban.footprint.declared address key = [] ↔
      ∀ durability, ¬ DeclaresKey input (.contractData ⟨address, key, durability⟩) := by
  obtain ⟨data, hdata, hfootprint, -⟩ := TransactionModel.fromInput_soroban hsoroban
  rw [declared_eq_nil, hfootprint]
  constructor
  · rintro h durability ⟨data', hdata', hkey⟩
    rw [hdata] at hdata'
    obtain rfl := Option.some.inj hdata'
    have hnone := h _ hkey
    simp [LedgerKey.declares] at hnone
  · intro h k hk
    cases k with
    | contractData d =>
        by_cases hd : d.contract = address ∧ d.key = key
        · obtain ⟨rfl, rfl⟩ := hd
          exact absurd ⟨data, hdata, hk⟩ (h d.durability)
        · rw [LedgerKey.declares, if_neg hd]
    | _ => rfl

/-- The code hashes of a model are those of the envelope's keys. -/
theorem declaresKey_of_codeHashes {input : AnalysisInput} {hashes : List Hash} {hash : Hash}
    (hloaded : (TransactionModel.fromInput input).codeHashes = some hashes)
    (hmem : hash ∈ hashes) : DeclaresKey input (.contractCode hash) := by
  obtain ⟨soroban, hsoroban, rfl⟩ := Option.map_eq_some_iff.mp hloaded
  obtain ⟨data, hdata, hfootprint, -⟩ := TransactionModel.fromInput_soroban hsoroban
  refine ⟨data, hdata, ?_⟩
  rw [hfootprint] at hmem
  obtain ⟨key, hkey, hcodeHash⟩ := List.mem_filterMap.mp hmem
  cases key with
  | contractCode hash' =>
      obtain rfl := Option.some.inj hcodeHash
      exact hkey
  | _ => cases hcodeHash

/-! ## The rules, one by one -/

theorem contractErrorMeans_of_confirmed {input : AnalysisInput} {c : CandidateCause}
    (h : contractDefinedError.evaluate (failureContext input) = .matched c)
    (hconfirmed : c.confidence = .confirmed) : ContractErrorMeans input := by
  obtain ⟨-, -, terminal, n, report, hterminal, herror, hreport, -, hcode, rfl⟩ :=
    contractDefinedError_matched h
  obtain ⟨c, c', enumName, caseName, doc, hash, hid, hres⟩ :=
    contractErrorConclusion_confirmed hconfirmed
  have hrep := mem_resolveContractErrors hreport
  rw [hcode] at hrep
  rw [hrep] at hid hres
  obtain ⟨hc', spec, hashes, case, hspec, hhash, hloaded, hmem, hdeclares, -⟩ :=
    resolve_matchesFootprint hres
  obtain ⟨basis, hunique⟩ := ContractIdentification.contract_eq_some.mp hc'
  have hraw : rawTerminal input.diagnosticEvents = some (.contract n) := by
    rw [rawTerminal_of_model hterminal, herror]
  have hcode : DeclaresKey input (.contractCode hash) := declaresKey_of_codeHashes hloaded hmem
  exact ⟨n, c', basis, spec, hash, case, hraw, hunique, hspec, hhash, hcode, hdeclares⟩

theorem invalidAuthMeans_of_confirmed {input : AnalysisInput} {c : CandidateCause}
    (h : invalidAuthorizationEntry.evaluate (failureContext input) = .matched c)
    (hconfirmed : c.confidence = .confirmed) : InvalidAuthMeans input := by
  obtain ⟨-, -, soroban, x, message, failure, hsoroban, hfind, rfl⟩ :=
    invalidAuthorizationEntry_matched h
  obtain ⟨y, hy, hrecognised⟩ := List.exists_of_findSome?_eq_some hfind
  obtain ⟨rfl, hmessage, hfailure⟩ := recognise_eq_some.mp hrecognised
  obtain ⟨hmem, hauth⟩ := List.mem_filter.mp hy
  cases failure with
  | nonceReused =>
      simp only [invalidAuthCandidate] at hconfirmed
      exact absurd hconfirmed (nonceConfidence_ne_confirmed _ _)
  | signatureExpired =>
      simp only [invalidAuthCandidate] at hconfirmed
      obtain ⟨hended, hcorroborated⟩ := expiredConfidence_eq_confirmed.mp hconfirmed
      obtain ⟨e, current, expiry, a, nonce, variant, hentry, hledgers, hgt, hcred⟩ :=
        corroborated_eq_true.mp hcorroborated
      obtain ⟨address, haddress, hfor⟩ := Option.bind_eq_some_iff.mp hentry
      obtain ⟨first, more, hitems⟩ := eventLedgers_eq_some haddress hledgers
      obtain ⟨r, hendedBy, hdata⟩ := endedBy_of_model hmem hmessage hended
      obtain ⟨code, hcode⟩ : ∃ code, x.error = .auth code := by
        cases herror : x.error with
        | auth code => exact ⟨code, rfl⟩
        | _ => rw [herror] at hauth; cases hauth
      rw [hcode] at hendedBy
      rw [hdata] at hitems
      have hmarker : startsWith message signatureExpiredMarker = true :=
        authFailure_eq_expired.mp hfailure
      obtain ⟨entry, hentryMem, credentials, hcredentials, hadd, hexp⟩ :=
        entryFor_eq_some hsoroban hfor
      rw [hcred] at hexp
      have hsigned : credentials.signatureExpirationLedger = expiry :=
        (AuthCredentials.address.inj hexp).2.2.1.symm
      exact ⟨code, message, r, first, address, current, expiry, more, hendedBy, hmarker, hitems,
        hgt, entry, hentryMem, credentials, hcredentials, hadd, hsigned⟩

theorem footprintMeans_of_confirmed {input : AnalysisInput} {c : CandidateCause}
    (h : footprintEntryMissing.evaluate (failureContext input) = .matched c)
    (hconfirmed : c.confidence = .confirmed) : FootprintMeans input := by
  obtain ⟨-, -, soroban, x, hsoroban, hfind, rfl⟩ := footprintEntryMissing_matched h
  have hmem : x ∈ (TransactionModel.fromInput input).diagnostics.errors :=
    List.mem_of_find?_eq_some hfind
  have hviolation : x.isViolation = true := List.find?_some hfind
  obtain ⟨data, hdata, -⟩ := TransactionModel.fromInput_soroban hsoroban
  obtain ⟨address, key, hended, hkey, hundeclared⟩ := footprintFinding_confirmed.mp hconfirmed
  obtain ⟨code, message, hcode, hmessage, hmarker⟩ := isViolation_eq_true.mp hviolation
  obtain ⟨r, hendedBy, hdataEq⟩ := endedBy_of_model hmem hmessage hended
  rw [hcode] at hendedBy
  rw [hdataEq] at hkey
  have hsome : (sorobanTransactionData input.envelope).isSome = true :=
    Option.isSome_of_eq_some hdata
  have hnone : ∀ durability, ¬ DeclaresKey input (.contractData ⟨address, key, durability⟩) :=
    (declared_eq_nil_iff hsoroban).mp hundeclared
  exact ⟨code, message, r, address, key, hendedBy, hmarker, hkey, hsome, hnone⟩

theorem missingAuthMeans_of_confirmed {input : AnalysisInput} {c : CandidateCause}
    (h : missingAuthorizationEntry.evaluate (failureContext input) = .matched c)
    (hconfirmed : c.confidence = .confirmed) : MissingAuthMeans input := by
  obtain ⟨-, -, soroban, x, hsoroban, hfind, hsource, hentry, rfl⟩ :=
    missingAuthorizationEntry_matched h
  have hmem : x ∈ (TransactionModel.fromInput input).diagnostics.errors :=
    List.mem_of_find?_eq_some hfind
  have hunauthorized : x.isUnauthorized = true := List.find?_some hfind
  obtain ⟨herror, message, hmessage, hmarker⟩ := isUnauthorized_eq_true.mp hunauthorized
  obtain ⟨hended, address, ha⟩ := missingAuthCandidate_confirmed.mp hconfirmed
  obtain ⟨r, hendedBy, hdataEq⟩ := endedBy_of_model hmem hmessage hended
  rw [herror] at hendedBy
  have haddress : eventAddress r.data = some address := by rw [← hdataEq, ha]
  have hnone : entryFor soroban.auth address = none := by rwa [ha, Option.bind_some] at hentry
  exact ⟨message, r, address, hendedBy, hmarker, haddress, hsource address ha,
    (entryFor_eq_none hsoroban).mp hnone⟩

/-- **Soundness of Confirmed.**  Every confirmed candidate satisfies the condition its
class stands for; a contract trap is never confirmed. -/
theorem confirmed_sound (input : AnalysisInput) (c : CandidateCause)
    (hc : c ∈ (analyze input).candidateCauses) (hconfirmed : c.confidence = .confirmed) :
    ConfirmedMeans input c.causeClass := by
  obtain ⟨rule, hrule, hmatch⟩ := mem_candidateCauses.mp hc
  revert hmatch
  revert rule
  simp only [builtin, List.forall_mem_cons]
  refine ⟨?_, ?_, ?_, ?_, ?_, ?_, ?_, ?_, by simp⟩
  · intro h
    obtain ⟨hfailed, hclass⟩ := failedWith_of_codeRule h
    rw [hclass]
    exact hfailed
  · intro h
    obtain ⟨hfailed, hclass⟩ := failedWith_of_codeRule h
    rw [hclass]
    exact hfailed
  · intro h
    obtain ⟨summary, remediation, h⟩ := insufficientResourceFee_matched h
    obtain ⟨hfailed, hclass⟩ := failedWith_of_codeRule h
    rw [hclass]
    exact hfailed
  · intro h
    have hmeans := contractErrorMeans_of_confirmed h hconfirmed
    obtain ⟨-, -, terminal, n, report, -, -, -, -, -, rfl⟩ := contractDefinedError_matched h
    exact hmeans
  · intro h
    have hmeans := invalidAuthMeans_of_confirmed h hconfirmed
    obtain ⟨-, -, soroban, x, message, failure, -, -, rfl⟩ := invalidAuthorizationEntry_matched h
    cases failure <;> exact hmeans
  · intro h
    have hmeans := footprintMeans_of_confirmed h hconfirmed
    obtain ⟨-, -, soroban, x, -, -, rfl⟩ := footprintEntryMissing_matched h
    exact hmeans
  · intro h
    obtain ⟨-, -, terminal, code, x, -, -, -, rfl⟩ := contractTrap_matched h
    cases hconfirmed
  · intro h
    have hmeans := missingAuthMeans_of_confirmed h hconfirmed
    obtain ⟨-, -, soroban, x, -, -, -, -, rfl⟩ := missingAuthorizationEntry_matched h
    exact hmeans

end Confirmed

/-- `cid(5)` fails with its own error 9, declared by a spec read from WASM the
footprint lists. -/
def boomInput : AnalysisInput :=
  { sorobanFailure .trapped [codeKey (.fill 9)]
      (some [call none (cid 5) "f", err (cid 5) (.contract 9) "failing with contract error",
        hostFnFailed (.contract 9)]) with
    contractSpecs := fun c =>
      if c = cid 5 then some (errorSpec (some (.fill 9)) [("Boom", 9)]) else none }

set_option maxRecDepth 20000 in
theorem confirmed_sound_boom : @ContractErrorMeans Strkey.standard boomInput := by
  let _ : Strkey := Strkey.standard
  have h : ∃ c ∈ (analyze boomInput).candidateCauses,
      c.confidence = .confirmed ∧ c.causeClass = .contractDefinedError := by decide
  obtain ⟨c, hc, hconfirmed, hclass⟩ := h
  have hmeans := confirmed_sound boomInput c hc hconfirmed
  rw [hclass] at hmeans
  exact hmeans

end Observatory
