import Observatory.Rules.Gate

/-!
# An authorization entry was not valid, or not there

`invalid_authorization_entry` and `missing_authorization_entry`
(`rules/auth.rs`, `rules/missing_auth.rs`).  Both read `Auth` error events whose
message names an address, and look for the envelope's entry for that address:
the first rule reports an entry the host turned down, the second that there is
none.
-/

namespace Observatory

/-- Host message for an authorization signature past its expiration ledger. -/
def signatureExpiredMarker : String := "signature has expired"

/-- Host message for an authorization nonce that has already been consumed. -/
def nonceReusedMarker : String := "nonce already exists for address"

/-- Host message for an authorization the transaction does not provide. -/
def unauthorizedMarker : String := "Unauthorized function call for address"

/-! ## The event and the entry -/

/-- The items of an event's data. -/
def eventItems (data : ScVal) : List ScVal :=
  match data with
  | .vec items => items.toList
  | _ => []

/-- The address an event's data names. -/
def eventAddress (data : ScVal) : Option ScAddress :=
  let second : Option ScVal := (eventItems data)[1]?
  match second with
  | some (.address a) => some a
  | _ => none

/-- Current ledger and expiration ledger from an expired-signature event. -/
def eventLedgers (data : ScVal) : Option (UInt32 × UInt32) :=
  let third : Option ScVal := (eventItems data)[2]?
  let fourth : Option ScVal := (eventItems data)[3]?
  match third, fourth with
  | some (.u32 current), some (.u32 expiry) => some (current, expiry)
  | _, _ => none

/-- The entry carries credentials for this address. -/
def AuthEntry.isFor (address : ScAddress) (e : AuthEntry) : Bool :=
  match e.credentials with
  | .address a _ _ _ => a == address
  | .sourceAccount => false

/-- The first entry that carries credentials for this address. -/
def entryFor (auth : List AuthEntry) (address : ScAddress) : Option AuthEntry :=
  auth.find? (AuthEntry.isFor address)

/-- An error of type `Auth`. -/
def ScError.isAuth : ScError → Bool
  | .auth _ => true
  | _ => false

/-- The two invalid-entry failures the host reports. -/
inductive AuthFailure where
  | signatureExpired
  | nonceReused
  deriving DecidableEq

/-- The failure a message stands for. -/
def authFailure (message : String) : Option AuthFailure :=
  if startsWith message signatureExpiredMarker then some .signatureExpired
  else if startsWith message nonceReusedMarker then some .nonceReused
  else none

/-- An error event recognised as an invalid entry: its message and the failure. -/
def ErrorEvent.recognise (x : ErrorEvent) : Option (ErrorEvent × String × AuthFailure) :=
  x.message.bind (fun message => (authFailure message).map (fun failure => (x, message, failure)))

/-- The terminal error, when it is the error of an event. -/
def endedBy (model : TransactionModel) (x : ErrorEvent) : Option TerminalError :=
  model.diagnostics.terminalError.filter (fun t => t.error == x.error)

theorem endedBy_isSome {model : TransactionModel} {x : ErrorEvent} :
    (endedBy model x).isSome = true ↔
      ∃ t, model.diagnostics.terminalError = some t ∧ t.error = x.error := by
  unfold endedBy
  cases model.diagnostics.terminalError with
  | none => simp
  | some t => by_cases h : t.error = x.error <;> simp [h, Option.filter]

theorem authFailure_eq_expired {message : String} :
    authFailure message = some .signatureExpired ↔
      startsWith message signatureExpiredMarker = true := by
  unfold authFailure
  cases startsWith message signatureExpiredMarker <;>
    cases startsWith message nonceReusedMarker <;> simp

theorem recognise_eq_some {x y : ErrorEvent} {message : String} {failure : AuthFailure} :
    x.recognise = some (y, message, failure) ↔
      y = x ∧ x.message = some message ∧ authFailure message = some failure := by
  unfold ErrorEvent.recognise
  cases x.message with
  | none => simp
  | some m =>
      simp only [Option.bind_some, Option.map_eq_some_iff, Option.some.injEq, Prod.mk.injEq]
      constructor
      · rintro ⟨f, hf, rfl, rfl, rfl⟩
        exact ⟨rfl, rfl, hf⟩
      · rintro ⟨rfl, rfl, hf⟩
        exact ⟨failure, hf, rfl, rfl, rfl⟩

section Auth

variable [Strkey]

/-- The address an event is about, in words. -/
def addressText (address : Option ScAddress) : String :=
  (address.map toString).getD "an unidentified address"

/-- Whether the invocation ended with the error of an event. -/
def endedByEvidence (ended : Option TerminalError) (x : ErrorEvent) : Evidence :=
  match ended with
  | some t =>
      let label := errorLabel x.error
      ⟨.diagnosticEvent t.eventIndex, s!"the invocation ended with the same error, {label}"⟩
  | none => ⟨.diagnosticEvent x.event.index, "the invocation did not end with this error"⟩

/-! ## Invalid entries -/

/-- The envelope's own entry carries the expiration ledger the host checked. -/
def corroborated (entry : Option AuthEntry) (ledgers : Option (UInt32 × UInt32)) : Bool :=
  match entry, ledgers with
  | some e, some (current, expiry) =>
      decide (current > expiry) && (match e.credentials with
        | .address _ _ signatureExpirationLedger _ => signatureExpirationLedger == expiry
        | .sourceAccount => false)
  | _, _ => false

/-- The entry for the address, or its absence. -/
def entryEvidence (entry : Option AuthEntry) (x : ErrorEvent) : List Evidence :=
  match entry with
  | some e =>
      match e.credentials with
      | .address _ nonce signatureExpirationLedger _ =>
          [⟨.authorizationEntry e.index,
            s!"authorization entry {e.index} carries credentials for that address (nonce " ++
              s!"{nonce}, signature valid until ledger {signatureExpirationLedger})"⟩]
      | .sourceAccount => []
  | none =>
      [⟨.diagnosticEvent x.event.index,
        "no authorization entry in the transaction carries credentials for that address"⟩]

/-- What an expired signature adds: the ledgers, and that the entry agrees. -/
def expiryEvidence (entry : Option AuthEntry) (ledgers : Option (UInt32 × UInt32))
    (x : ErrorEvent) : List Evidence :=
  (match ledgers with
    | some (current, expiry) =>
        [⟨.diagnosticEvent x.event.index,
          s!"the host checked it at ledger {current}; the signature was valid until ledger " ++
            s!"{expiry}"⟩]
    | none => [])
  ++ (match corroborated entry ledgers, entry with
    | true, some e =>
        [⟨.authorizationEntry e.index,
          "the entry's own signature expiration ledger matches the one the host checked"⟩]
    | _, _ => [])

/-- Confidence for an expired signature. -/
def expiredConfidence (ended corroborated : Bool) : Confidence :=
  match ended, corroborated with
  | false, _ => .possible
  | true, true => .confirmed
  | true, false => .likely

/-- Confidence for a reused nonce. -/
def nonceConfidence (ended hasEntry : Bool) : Confidence :=
  match ended, hasEntry with
  | true, true => .likely
  | _, _ => .possible

/-- The candidate for a recognised failure. -/
def invalidAuthCandidate (model : TransactionModel) (soroban : SorobanData) (x : ErrorEvent)
    (message : String) (failure : AuthFailure) : CandidateCause :=
  let ended := endedBy model x
  let address := eventAddress x.event.data
  let who := addressText address
  let entry := address.bind (entryFor soroban.auth)
  let ledgers := eventLedgers x.event.data
  let label := errorLabel x.error
  let common : List Evidence :=
    [⟨.diagnosticEvent x.event.index, s!"the host raised {label} for {who}: \"{message}\""⟩,
      endedByEvidence ended x] ++ entryEvidence entry x
  match failure with
  | .signatureExpired =>
      let valid := match ledgers with
        | some (current, expiry) =>
            s!" (valid until ledger {expiry}, checked at ledger {current})"
        | none => ""
      { causeClass := .invalidAuthorizationEntry
        confidence := expiredConfidence ended.isSome (corroborated entry ledgers)
        summary :=
          s!"The authorization entry for {who} carried a signature that had expired{valid}."
        evidence := common ++ expiryEvidence entry ledgers x
        remediation := some
          (s!"Sign a new authorization for {who} with a signature expiration ledger that " ++
            "leaves enough margin for the time between signing and inclusion, then resubmit.")
        ruleId := "invalid_authorization_entry" }
  | .nonceReused =>
      { causeClass := .invalidAuthorizationEntry
        confidence := nonceConfidence ended.isSome entry.isSome
        summary :=
          s!"The authorization entry for {who} used a nonce the host reports as already consumed."
        evidence := common
        remediation := some
          ("A signed authorization can be used only once. Build and sign a new authorization " ++
            "entry, for example by simulating again, instead of resubmitting one that has " ++
            "already been used.")
        ruleId := "invalid_authorization_entry" }

/-- `InvalidAuthorizationEntry::evaluate`. -/
def invalidAuthorizationEntryEvaluate (ctx : FailureContext) : RuleOutcome :=
  behindGate
    (sorobanGate ctx.model "not a Soroban transaction, so it has no authorization entries"
      "a failed authorization ends contract execution with a trap"
      ("diagnostic events were not available; without them a failed authorization is " ++
        "indistinguishable from any other trap"))
    fun soroban =>
      let authErrors := ctx.model.diagnostics.errors.filter (fun x => x.error.isAuth)
      match authErrors.head? with
      | none =>
          match ctx.model.diagnostics.terminalError with
          | some t =>
              let label := errorLabel t.error
              .notApplicable
                s!"no authorization error was raised; the invocation ended with {label}"
          | none =>
              .noEvidence
                ("no diagnostic event reports an authorization failure, and no terminal error " ++
                  "explains the trap")
      | some first =>
          match authErrors.findSome? ErrorEvent.recognise with
          | none =>
              let label := errorLabel first.error
              let text := ((first.message).map (fun m => s!" (\"{m}\")")).getD ""
              -- the words "so a so" are the source's
              .noEvidence
                (s!"authorization failed with {label}{text}, a failure this rule does not " ++
                  "recognise, so a so it is not attributed to an invalid entry")
          | some (x, message, failure) =>
              .matched (invalidAuthCandidate ctx.model soroban x message failure)

/-- `InvalidAuthorizationEntry`. -/
def invalidAuthorizationEntry : Rule where
  id := "invalid_authorization_entry"
  description :=
    "An authorization entry was present but invalid: expired signature or reused nonce"
  evaluate := invalidAuthorizationEntryEvaluate

/-! ## Missing entries -/

/-- An error event reporting an unauthorized call. -/
def ErrorEvent.isUnauthorized (x : ErrorEvent) : Bool :=
  x.error == .auth .invalidAction && x.message.any (fun m => startsWith m unauthorizedMarker)

omit [Strkey] in
theorem isUnauthorized_eq_true {x : ErrorEvent} :
    x.isUnauthorized = true ↔ x.error = .auth .invalidAction ∧
      ∃ message, x.message = some message ∧ startsWith message unauthorizedMarker = true := by
  unfold ErrorEvent.isUnauthorized
  rw [Bool.and_eq_true, beq_iff_eq]
  cases x.message <;> simp

/-- The number of authorization entries, in words. -/
def missingEntryText (auth : List AuthEntry) (who : String) : String :=
  let ending := if auth.length = 1 then "y" else "ies"
  s!"no authorization entry in the transaction carries credentials for {who}; the transaction " ++
    s!"has {auth.length} authorization entr{ending}"

/-- The candidate for an unauthorized call without an entry. -/
def missingAuthCandidate (model : TransactionModel) (soroban : SorobanData) (x : ErrorEvent) :
    CandidateCause :=
  let ended := endedBy model x
  let address := eventAddress x.event.data
  let who := addressText address
  let label := errorLabel x.error
  { causeClass := .missingAuthorizationEntry
    confidence := if ended.isSome && address.isSome then .confirmed else .likely
    summary :=
      s!"The contract required authorization from {who}, but the transaction carries no " ++
        "authorization entry for that address."
    evidence :=
      [⟨.diagnosticEvent x.event.index,
          s!"the host raised {label} for {who}: \"{unauthorizedMarker}\""⟩,
        endedByEvidence ended x]
        ++ (if address.isSome then
          [⟨.diagnosticEvent x.event.index, missingEntryText soroban.auth who⟩]
        else [])
    remediation := some
      (s!"Simulate the transaction so the authorization entry for {who} is generated, have " ++
        s!"{who} sign that entry, then submit. If the transaction is built by hand, include " ++
        "the entry before the envelope is signed.")
    ruleId := "missing_authorization_entry" }

/-- `MissingAuthorizationEntry::evaluate`. -/
def missingAuthorizationEntryEvaluate (ctx : FailureContext) : RuleOutcome :=
  behindGate
    (sorobanGate ctx.model "not a Soroban transaction, so it has no authorization entries"
      "a missing authorization ends contract execution with a trap"
      ("diagnostic events were not available, and the unauthorized address is only visible in " ++
        "them"))
    fun soroban =>
      match ctx.model.diagnostics.errors.find? ErrorEvent.isUnauthorized with
      | none => .noEvidence "no diagnostic event reports an unauthorized call for an address"
      | some x =>
          let address := eventAddress x.event.data
          let who := addressText address
          if address.any (fun a => a.display == ctx.model.sourceAccount) then
            .notApplicable
              (s!"the unauthorized address {who} is the transaction's own source account, " ++
                "which authorizes its invocations implicitly")
          else match address.bind (entryFor soroban.auth) with
            | some entry =>
                .noEvidence
                  (s!"authorization entry {entry.index} carries credentials for {who}, so the " ++
                    "entry is present but not accepted; that is an invalid entry, not a " ++
                    "missing one")
            | none => .matched (missingAuthCandidate ctx.model soroban x)

/-- `MissingAuthorizationEntry`. -/
def missingAuthorizationEntry : Rule where
  id := "missing_authorization_entry"
  description :=
    "The contract required authorization from an address the transaction did not provide"
  evaluate := missingAuthorizationEntryEvaluate

/-! ## What a match rests on -/

omit [Strkey] in
theorem expiredConfidence_eq_confirmed {ended corroborated : Bool} :
    expiredConfidence ended corroborated = .confirmed ↔ ended = true ∧ corroborated = true := by
  cases ended <;> cases corroborated <;> simp [expiredConfidence]

omit [Strkey] in
/-- A reused nonce is never confirmed. -/
theorem nonceConfidence_ne_confirmed (ended hasEntry : Bool) :
    nonceConfidence ended hasEntry ≠ .confirmed := by
  cases ended <;> cases hasEntry <;> simp [nonceConfidence]

omit [Strkey] in
/-- An entry corroborates an expired signature when it was signed up to the very
ledger the host reports, and that ledger was past. -/
theorem corroborated_eq_true {entry : Option AuthEntry} {ledgers : Option (UInt32 × UInt32)} :
    corroborated entry ledgers = true ↔
      ∃ e current expiry address nonce variant, entry = some e ∧
        ledgers = some (current, expiry) ∧ current > expiry ∧
        e.credentials = .address address nonce expiry variant := by
  unfold corroborated
  constructor
  · intro h
    split at h
    · next e current expiry =>
      rw [Bool.and_eq_true, decide_eq_true_eq] at h
      obtain ⟨hgt, hexpiry⟩ := h
      cases hcred : e.credentials with
      | sourceAccount =>
          rw [hcred] at hexpiry
          cases hexpiry
      | address address nonce expiration variant =>
          rw [hcred] at hexpiry
          simp only [beq_iff_eq] at hexpiry
          subst hexpiry
          exact ⟨e, current, expiration, address, nonce, variant, rfl, rfl, hgt, hcred⟩
    · cases h
  · rintro ⟨e, current, expiry, address, nonce, variant, rfl, rfl, hgt, hcred⟩
    simp [hgt, hcred]

/-- A missing entry is confirmed when the invocation ended with the unauthorized call of
an address that can be read. -/
theorem missingAuthCandidate_confirmed {model : TransactionModel} {soroban : SorobanData}
    {x : ErrorEvent} :
    (missingAuthCandidate model soroban x).confidence = .confirmed ↔
      (endedBy model x).isSome = true ∧ ∃ address, eventAddress x.event.data = some address := by
  show (if (endedBy model x).isSome && (eventAddress x.event.data).isSome then
    Confidence.confirmed else .likely) = .confirmed ↔ _
  rw [← Option.isSome_iff_exists, ← Bool.and_eq_true]
  by_cases h : ((endedBy model x).isSome && (eventAddress x.event.data).isSome) = true
  · simp [h]
  · simp [h]

/-- A match of the invalid-entry rule: a trap with events and Soroban data, and
the first `Auth` error event with a recognised message. -/
theorem invalidAuthorizationEntry_matched {ctx : FailureContext} {c : CandidateCause}
    (h : invalidAuthorizationEntry.evaluate ctx = .matched c) :
    ctx.model.stage = some .contractExecution ∧
      ctx.model.diagnostics.availability = .emitted ∧
      ∃ soroban x message failure, ctx.model.soroban = some soroban ∧
        (ctx.model.diagnostics.errors.filter (fun x => x.error.isAuth)).findSome?
          ErrorEvent.recognise = some (x, message, failure) ∧
        c = invalidAuthCandidate ctx.model soroban x message failure := by
  obtain ⟨soroban, hgate, hc⟩ := behindGate_matched (fun _ => sorobanGate_candidate) h
  obtain ⟨hstage, havail, hsoroban⟩ := sorobanGate_ok.mp hgate
  refine ⟨hstage, havail, ?_⟩
  dsimp only at hc
  split at hc
  · split at hc <;> cases hc
  · split at hc
    · cases hc
    · next x message failure hfind =>
      exact ⟨soroban, x, message, failure, hsoroban, hfind, (RuleOutcome.matched.inj hc).symm⟩

/-- A match of the missing-entry rule: a trap with events and Soroban data, and the
first unauthorized-call event names an address that is neither the source account
nor the address of an entry. -/
theorem missingAuthorizationEntry_matched {ctx : FailureContext} {c : CandidateCause}
    (h : missingAuthorizationEntry.evaluate ctx = .matched c) :
    ctx.model.stage = some .contractExecution ∧
      ctx.model.diagnostics.availability = .emitted ∧
      ∃ soroban x, ctx.model.soroban = some soroban ∧
        ctx.model.diagnostics.errors.find? ErrorEvent.isUnauthorized = some x ∧
        (∀ a ∈ eventAddress x.event.data, a.display ≠ ctx.model.sourceAccount) ∧
        (eventAddress x.event.data).bind (entryFor soroban.auth) = none ∧
        c = missingAuthCandidate ctx.model soroban x := by
  obtain ⟨soroban, hgate, hc⟩ := behindGate_matched (fun _ => sorobanGate_candidate) h
  obtain ⟨hstage, havail, hsoroban⟩ := sorobanGate_ok.mp hgate
  refine ⟨hstage, havail, ?_⟩
  dsimp only at hc
  split at hc
  · cases hc
  · next x hfind =>
    split at hc
    · cases hc
    · next hsource =>
      split at hc
      · cases hc
      · next hentry =>
        refine ⟨soroban, x, hsoroban, hfind, ?_, hentry, (RuleOutcome.matched.inj hc).symm⟩
        intro a ha hdisplay
        apply hsource
        rw [Option.mem_def] at ha
        rw [ha, Option.any_some, hdisplay]
        exact beq_self_eq_true _

/-- Behind the gate, the first recognised event decides. -/
theorem invalidAuthorizationEntry_first {ctx : FailureContext} {soroban : SorobanData}
    {x : ErrorEvent} {message : String} {failure : AuthFailure}
    (hstage : ctx.model.stage = some .contractExecution)
    (havail : ctx.model.diagnostics.availability = .emitted)
    (hsoroban : ctx.model.soroban = some soroban)
    (hfind : (ctx.model.diagnostics.errors.filter (fun x => x.error.isAuth)).findSome?
      ErrorEvent.recognise = some (x, message, failure)) :
    invalidAuthorizationEntry.evaluate ctx
      = .matched (invalidAuthCandidate ctx.model soroban x message failure) := by
  show invalidAuthorizationEntryEvaluate ctx = _
  unfold invalidAuthorizationEntryEvaluate
  rw [sorobanGate_ok.mpr ⟨hstage, havail, hsoroban⟩]
  simp only [behindGate]
  cases hauth : ctx.model.diagnostics.errors.filter (fun x => x.error.isAuth) with
  | nil =>
      rw [hauth] at hfind
      cases hfind
  | cons first rest =>
      rw [hauth] at hfind
      simp only [List.head?_cons, hfind]

/-- Behind the gate, the first unauthorized call decides; it is a match when its
address is neither the source account nor the address of an entry. -/
theorem missingAuthorizationEntry_first {ctx : FailureContext} {soroban : SorobanData}
    {x : ErrorEvent} (hstage : ctx.model.stage = some .contractExecution)
    (havail : ctx.model.diagnostics.availability = .emitted)
    (hsoroban : ctx.model.soroban = some soroban)
    (hfind : ctx.model.diagnostics.errors.find? ErrorEvent.isUnauthorized = some x)
    (hsource : ∀ a ∈ eventAddress x.event.data, a.display ≠ ctx.model.sourceAccount)
    (hentry : (eventAddress x.event.data).bind (entryFor soroban.auth) = none) :
    missingAuthorizationEntry.evaluate ctx
      = .matched (missingAuthCandidate ctx.model soroban x) := by
  show missingAuthorizationEntryEvaluate ctx = _
  unfold missingAuthorizationEntryEvaluate
  rw [sorobanGate_ok.mpr ⟨hstage, havail, hsoroban⟩]
  have hother : ¬ (eventAddress x.event.data).any
      (fun a => a.display == ctx.model.sourceAccount) = true := by
    cases ha : eventAddress x.event.data with
    | none => simp
    | some a =>
        have hne := hsource a ha
        simp [hne]
  simp only [behindGate, hfind, if_neg hother, hentry]

end Auth

end Observatory
