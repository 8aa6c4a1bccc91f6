import Observatory.Properties.Confirmed

/-!
# The failure that ended the invocation

The rules on authorization and on the footprint each pick the first error event
they recognise, and only then compare it with the error the invocation ended
with.  An earlier event of the same kind, caught or otherwise set aside, therefore
speaks for the one that ended the invocation.

* `ExpiredFor`, `NoEntryFor`, `UndeclaredFor` — what an error event has to carry
  for each rule to be certain.
* `Confirms` and the three `confirms_…` lemmas — a rule is certain when the first
  event it recognises passes.
* `confirms_ended` — with an event that passes alone, a rule is certain exactly when
  the first event recognised before it, if any, passes too.
-/

namespace Observatory

/-! ## What the rules recognise -/

/-- An `Auth` error with the message of an expired signature or a reused nonce. -/
def RawError.isInvalidEntry (s : RawError) : Bool :=
  s.error.isAuth && (s.message.bind authFailure).isSome

/-- An `Auth` error with the message of an unauthorized call. -/
def RawError.isUnauthorized (s : RawError) : Bool :=
  s.error == .auth .invalidAction && s.message.any (fun m => startsWith m unauthorizedMarker)

/-- A `Storage` error with the message of a footprint violation. -/
def RawError.isViolation (s : RawError) : Bool :=
  s.error.isStorage && s.message.any (fun m => containsText m footprintMarker)

/-- The expiration ledger of the first entry with credentials for an address. -/
def entryExpiry (envelope : TransactionEnvelope) (address : ScAddress) : Option UInt32 :=
  ((envelopeAuth envelope).findSome? (fun entry =>
    entry.credentials.addressCredentials.filter (fun c => c.address == address))).map
      SorobanAddressCredentials.signatureExpirationLedger

/-- The error the invocation ended with, on an expired signature: the first entry for
the address was signed up to the ledger the event reports, which had passed. -/
def ExpiredFor (input : AnalysisInput) (s : RawError) : Prop :=
  rawTerminal input.diagnosticEvents = some s.error ∧
    (∃ message, s.message = some message ∧ startsWith message signatureExpiredMarker = true) ∧
    ∃ first address current expiry more,
      eventItems s.data = first :: .address address :: .u32 current :: .u32 expiry :: more ∧
      current > expiry ∧ entryExpiry input.envelope address = some expiry

/-- The error the invocation ended with, on a key no footprint entry declares. -/
def UndeclaredFor (input : AnalysisInput) (s : RawError) : Prop :=
  rawTerminal input.diagnosticEvents = some s.error ∧
    ∃ address key, accessedKey s.data = some (address, key) ∧
      ∀ durability, ¬ DeclaresKey input (.contractData ⟨address, key, durability⟩)

/-! ## Certainty -/

section Terminal

variable [Strkey]

/-- The error the invocation ended with, for an address that is not the source account
and that no entry is for. -/
def NoEntryFor (input : AnalysisInput) (s : RawError) : Prop :=
  rawTerminal input.diagnosticEvents = some s.error ∧
    ∃ address, eventAddress s.data = some address ∧
      address.display ≠ (unwrap input.envelope).sourceAccount ∧
      ∀ entry ∈ envelopeAuth input.envelope, ∀ credentials,
        entry.credentials.addressCredentials = some credentials → credentials.address ≠ address

/-- The rule matches with certainty. -/
def Confirms (rule : Rule) (input : AnalysisInput) : Prop :=
  ∃ cause, rule.evaluate (failureContext input) = .matched cause ∧ cause.confidence = .confirmed

instance (rule : Rule) (input : AnalysisInput) : Decidable (Confirms rule input) :=
  decidable_of_iff
    ((rule.evaluate (failureContext input)).candidate.any
      (fun c => c.confidence == .confirmed) = true) (by
    unfold Confirms
    cases rule.evaluate (failureContext input) <;> simp [RuleOutcome.candidate])

/-- A Soroban transaction that trapped, from a node that emits events. -/
def Trapped (input : AnalysisInput) : Prop :=
  (TransactionModel.fromInput input).stage = some .contractExecution ∧
    (TransactionModel.fromInput input).diagnostics.availability = .emitted ∧
    (TransactionModel.fromInput input).soroban.isSome = true

/-- The first error event of a kind passes. -/
def FirstPasses (raw : List DiagnosticEvent) (recognised : RawError → Bool)
    (passes : RawError → Prop) : Prop :=
  ∃ s, (raw.filterMap DiagnosticEvent.rawError).find? recognised = some s ∧ passes s

/-- The first event of a kind is the first one of the raw list. -/
theorem find?_toRaw {input : AnalysisInput} {recognised : RawError → Bool} :
    ((TransactionModel.fromInput input).diagnostics.errors.find?
        (fun x => recognised x.toRaw)).map ErrorEvent.toRaw
      = (input.diagnosticEvents.filterMap DiagnosticEvent.rawError).find? recognised := by
  have herrors : (TransactionModel.fromInput input).diagnostics.errors
      = (Diagnostics.fromEvents input.diagnosticEvents input.diagnosticsEnabled).errors := rfl
  rw [herrors, ← map_toRaw_errors _ input.diagnosticsEnabled, List.find?_map]
  rfl

omit [Strkey] in
/-- Among raw entries, the first one for an address and its expiration ledger. -/
theorem firstEntry_expiry (address : ScAddress) (expiry : UInt32)
    (l : List SorobanAuthorizationEntry) :
    (∃ a nonce variant, (l.find? (fun entry => (AuthEntry.fromXdr 0 entry).isFor address)).map
        (fun entry => (AuthEntry.fromXdr 0 entry).credentials)
          = some (.address a nonce expiry variant)) ↔
      (l.findSome? (fun entry =>
        entry.credentials.addressCredentials.filter (fun c => c.address == address))).map
          SorobanAddressCredentials.signatureExpirationLedger = some expiry := by
  induction l with
  | nil => simp
  | cons entry l ih =>
      obtain ⟨credentials, invocation⟩ := entry
      cases credentials with
      | sourceAccount => exact ih
      | _ c =>
          by_cases hc : c.address = address
          · subst hc
            simp [AuthEntry.fromXdr, AuthEntry.isFor, AuthCredentials.fromXdr,
              SorobanCredentials.addressCredentials]
          · simpa [AuthEntry.fromXdr, AuthEntry.isFor, AuthCredentials.fromXdr,
              SorobanCredentials.addressCredentials, hc] using ih

/-- The expiration ledger found for an address is that of the raw entries. -/
theorem corroborated_iff {input : AnalysisInput} {soroban : SorobanData} {address : ScAddress}
    {current expiry : UInt32}
    (hsoroban : (TransactionModel.fromInput input).soroban = some soroban) :
    corroborated (entryFor soroban.auth address) (some (current, expiry)) = true ↔
      current > expiry ∧ entryExpiry input.envelope address = some expiry := by
  obtain ⟨data, -, -, hauth⟩ := TransactionModel.fromInput_soroban hsoroban
  -- the credentials of the entry found, whichever way they are looked up
  have hcred : (entryFor soroban.auth address).map AuthEntry.credentials
      = ((envelopeAuth input.envelope).find? (fun entry =>
          (AuthEntry.fromXdr 0 entry).isFor address)).map
            (fun entry => (AuthEntry.fromXdr 0 entry).credentials) := by
    unfold entryFor
    rw [hauth]
    exact Scan.map_find?_mapIdx (fun _ _ => rfl) (fun _ _ => rfl)
  rw [corroborated_eq_true, entryExpiry, ← firstEntry_expiry, ← hcred]
  constructor
  · rintro ⟨e, cur, exp, a, nonce, variant, he, hledgers, hgt, hcredentials⟩
    obtain ⟨rfl, rfl⟩ := Prod.mk.inj (Option.some.inj hledgers)
    have hfound : (entryFor soroban.auth address).map AuthEntry.credentials
        = some (.address a nonce expiry variant) := by rw [he, Option.map_some, hcredentials]
    exact ⟨hgt, a, nonce, variant, hfound⟩
  · rintro ⟨hgt, a, nonce, variant, hentry⟩
    obtain ⟨e, he, hcredentials⟩ := Option.map_eq_some_iff.mp hentry
    exact ⟨e, current, expiry, a, nonce, variant, he, rfl, hgt, hcredentials⟩

/-- The first error event of a kind, with and without its index. -/
theorem first_iff {input : AnalysisInput} {recognised : RawError → Bool}
    {p : ErrorEvent → Bool} (hp : ∀ x, p x = recognised x.toRaw) {s : RawError} :
    (input.diagnosticEvents.filterMap DiagnosticEvent.rawError).find? recognised = some s ↔
      ∃ x, (TransactionModel.fromInput input).diagnostics.errors.find? p = some x ∧
        x.toRaw = s := by
  have hfun : p = fun x => recognised x.toRaw := funext hp
  rw [← find?_toRaw, Option.map_eq_some_iff, hfun]

/-- The footprint rule is certain when the first violation passes. -/
theorem confirms_footprintEntryMissing {input : AnalysisInput} :
    Confirms footprintEntryMissing input ↔
      Trapped input ∧ FirstPasses input.diagnosticEvents RawError.isViolation
        (UndeclaredFor input) := by
  have hfirst := @first_iff _ input RawError.isViolation ErrorEvent.isViolation (fun _ => rfl)
  constructor
  · rintro ⟨cause, hmatch, hconfirmed⟩
    obtain ⟨hstage, havail, soroban, x, hsoroban, hfind, rfl⟩ :=
      footprintEntryMissing_matched hmatch
    obtain ⟨address, key, hended, hkey, hnone⟩ := footprintFinding_confirmed.mp hconfirmed
    have hundeclared : ∀ durability,
        ¬ DeclaresKey input (.contractData ⟨address, key, durability⟩) :=
      (declared_eq_nil_iff hsoroban).mp hnone
    have hpasses : UndeclaredFor input x.toRaw :=
      ⟨endedBy_iff.mp hended, address, key, hkey, hundeclared⟩
    exact ⟨⟨hstage, havail, Option.isSome_of_eq_some hsoroban⟩, x.toRaw,
      hfirst.mpr ⟨x, hfind, rfl⟩, hpasses⟩
  · rintro ⟨⟨hstage, havail, hsome⟩, s, hs, hended, address, key, hkey, hundeclared⟩
    obtain ⟨soroban, hsoroban⟩ := Option.isSome_iff_exists.mp hsome
    obtain ⟨x, hfind, rfl⟩ := hfirst.mp hs
    have hnone : soroban.footprint.declared address key = [] :=
      (declared_eq_nil_iff hsoroban).mpr hundeclared
    refine ⟨_, footprintEntryMissing_first hstage havail hsoroban hfind, ?_⟩
    exact footprintFinding_confirmed.mpr ⟨address, key, endedBy_iff.mpr hended, hkey, hnone⟩

/-- The missing-entry rule is certain when the first unauthorized call passes. -/
theorem confirms_missingAuthorizationEntry {input : AnalysisInput} :
    Confirms missingAuthorizationEntry input ↔
      Trapped input ∧ FirstPasses input.diagnosticEvents RawError.isUnauthorized
        (NoEntryFor input) := by
  have hfirst :=
    @first_iff _ input RawError.isUnauthorized ErrorEvent.isUnauthorized (fun _ => rfl)
  constructor
  · rintro ⟨cause, hmatch, hconfirmed⟩
    obtain ⟨hstage, havail, soroban, x, hsoroban, hfind, hsource, hentry, rfl⟩ :=
      missingAuthorizationEntry_matched hmatch
    obtain ⟨hended, address, haddress⟩ := missingAuthCandidate_confirmed.mp hconfirmed
    have hnone : entryFor soroban.auth address = none := by
      rwa [haddress, Option.bind_some] at hentry
    have hpasses : NoEntryFor input x.toRaw :=
      ⟨endedBy_iff.mp hended, address, haddress, hsource address haddress,
        (entryFor_eq_none hsoroban).mp hnone⟩
    exact ⟨⟨hstage, havail, Option.isSome_of_eq_some hsoroban⟩, x.toRaw,
      hfirst.mpr ⟨x, hfind, rfl⟩, hpasses⟩
  · rintro ⟨⟨hstage, havail, hsome⟩, s, hs, hended, address, haddress, hsource, hnone⟩
    obtain ⟨soroban, hsoroban⟩ := Option.isSome_iff_exists.mp hsome
    obtain ⟨x, hfind, rfl⟩ := hfirst.mp hs
    have haddress' : eventAddress x.event.data = some address := haddress
    have hsources : ∀ a, eventAddress x.event.data = some a →
        a.display ≠ (unwrap input.envelope).sourceAccount := by
      intro a ha
      rw [haddress'] at ha
      obtain rfl := Option.some.inj ha
      exact hsource
    have hentry : (eventAddress x.event.data).bind (entryFor soroban.auth) = none := by
      rw [haddress', Option.bind_some]
      exact (entryFor_eq_none hsoroban).mpr hnone
    refine ⟨missingAuthCandidate (TransactionModel.fromInput input) soroban x,
      missingAuthorizationEntry_first hstage havail hsoroban hfind hsources hentry, ?_⟩
    exact missingAuthCandidate_confirmed.mpr ⟨endedBy_iff.mpr hended, address, haddress⟩

/-- An expired-signature event that the entries agree with, from what the rule checked. -/
theorem expiredFor_of_confidence {input : AnalysisInput} {soroban : SorobanData}
    {x : ErrorEvent} {message : String}
    (hsoroban : (TransactionModel.fromInput input).soroban = some soroban)
    (hmessage : x.message = some message) (hfailure : authFailure message = some .signatureExpired)
    (hended : (endedBy (TransactionModel.fromInput input) x).isSome = true)
    (hcorroborated : corroborated ((eventAddress x.event.data).bind (entryFor soroban.auth))
      (eventLedgers x.event.data) = true) : ExpiredFor input x.toRaw := by
  obtain ⟨e, current, expiry, a, nonce, variant, hentry, hledgers, -, -⟩ :=
    corroborated_eq_true.mp hcorroborated
  obtain ⟨address, haddress, -⟩ := Option.bind_eq_some_iff.mp hentry
  obtain ⟨first, more, hitems⟩ := eventLedgers_eq_some haddress hledgers
  rw [haddress, hledgers, Option.bind_some] at hcorroborated
  obtain ⟨hgt, hexpiry⟩ := (corroborated_iff hsoroban).mp hcorroborated
  have hmarker : startsWith message signatureExpiredMarker = true :=
    authFailure_eq_expired.mp hfailure
  exact ⟨endedBy_iff.mp hended, ⟨message, hmessage, hmarker⟩, first, address, current, expiry,
    more, hitems, hgt, hexpiry⟩

/-- The invalid-entry rule is certain when the first invalid entry passes. -/
theorem confirms_invalidAuthorizationEntry {input : AnalysisInput} :
    Confirms invalidAuthorizationEntry input ↔
      Trapped input ∧ FirstPasses input.diagnosticEvents RawError.isInvalidEntry
        (ExpiredFor input) := by
  have hfirst := @first_iff _ input RawError.isInvalidEntry
    (fun x => x.error.isAuth && x.recognise.isSome) (by
      intro x
      unfold RawError.isInvalidEntry ErrorEvent.recognise ErrorEvent.toRaw
      cases x.message <;> simp)
  constructor
  · rintro ⟨cause, hmatch, hconfirmed⟩
    obtain ⟨hstage, havail, soroban, x, message, failure, hsoroban, hfind, rfl⟩ :=
      invalidAuthorizationEntry_matched hmatch
    obtain ⟨y, hy, hrecognised⟩ := Scan.findSome?_filter_eq_some.mp hfind
    obtain ⟨rfl, hmessage, hfailure⟩ := recognise_eq_some.mp hrecognised
    refine ⟨⟨hstage, havail, Option.isSome_of_eq_some hsoroban⟩, x.toRaw,
      hfirst.mpr ⟨x, hy, rfl⟩, ?_⟩
    cases failure with
    | nonceReused => exact absurd hconfirmed (nonceConfidence_ne_confirmed _ _)
    | signatureExpired =>
        obtain ⟨hended, hcorroborated⟩ := expiredConfidence_eq_confirmed.mp hconfirmed
        exact expiredFor_of_confidence hsoroban hmessage hfailure hended hcorroborated
  · rintro ⟨⟨hstage, havail, hsome⟩, s, hs, hended, ⟨message, hmessage, hmarker⟩, first,
      address, current, expiry, more, hitems, hgt, hexpiry⟩
    obtain ⟨soroban, hsoroban⟩ := Option.isSome_iff_exists.mp hsome
    obtain ⟨x, hfind, rfl⟩ := hfirst.mp hs
    have hrecognised : x.recognise = some (x, message, .signatureExpired) :=
      recognise_eq_some.mpr ⟨rfl, hmessage, authFailure_eq_expired.mpr hmarker⟩
    have hitems' : eventItems x.event.data
        = first :: .address address :: .u32 current :: .u32 expiry :: more := hitems
    have haddress : eventAddress x.event.data = some address := by
      simp [eventAddress, hitems']
    have hledgers : eventLedgers x.event.data = some (current, expiry) := by
      simp [eventLedgers, hitems']
    refine ⟨invalidAuthCandidate (TransactionModel.fromInput input) soroban x message
      .signatureExpired, invalidAuthorizationEntry_first hstage havail hsoroban
        (Scan.findSome?_filter_eq_some.mpr ⟨x, hfind, hrecognised⟩), ?_⟩
    refine expiredConfidence_eq_confirmed.mpr ⟨endedBy_iff.mpr hended, ?_⟩
    rw [haddress, hledgers, Option.bind_some]
    exact (corroborated_iff hsoroban).mpr ⟨hgt, hexpiry⟩

/-! ## One event among others -/

omit [Strkey] in
/-- With an event that passes alone, the first event of its kind passes exactly when
the first one before it does, if there is any. -/
theorem firstPasses_split {pre post : List DiagnosticEvent} {e : DiagnosticEvent}
    {recognised : RawError → Bool} {passes : RawError → Prop}
    (halone : FirstPasses [e] recognised passes) :
    FirstPasses (pre ++ e :: post) recognised passes ↔
      ∀ s, (pre.filterMap DiagnosticEvent.rawError).find? recognised = some s → passes s := by
  obtain ⟨s₀, hfind, hpasses⟩ := halone
  have he : e.rawError = some s₀ ∧ recognised s₀ = true := by
    cases hraw : e.rawError with
    | none => simp [hraw] at hfind
    | some s =>
        rw [List.filterMap_cons_some hraw, List.filterMap_nil] at hfind
        obtain rfl := List.mem_singleton.mp (List.mem_of_find?_eq_some hfind)
        exact ⟨rfl, List.find?_some hfind⟩
  have hrest : ((e :: post).filterMap DiagnosticEvent.rawError).find? recognised = some s₀ := by
    rw [List.filterMap_cons_some he.1, List.find?_cons_of_pos he.2]
  unfold FirstPasses
  rw [List.filterMap_append, List.find?_append, hrest]
  cases (pre.filterMap DiagnosticEvent.rawError).find? recognised with
  | none => simp [hpasses]
  | some s => simp

/-- An input with these events, and one with `e` as the only error event among them. -/
def AnalysisInput.withEvents (input : AnalysisInput) (pre : List DiagnosticEvent)
    (e : DiagnosticEvent) (post : List DiagnosticEvent) : AnalysisInput :=
  { input with diagnosticEvents := pre ++ e :: post }

/-- `withEvents` without the error events other than `e`. -/
def AnalysisInput.withOnlyError (input : AnalysisInput) (pre : List DiagnosticEvent)
    (e : DiagnosticEvent) (post : List DiagnosticEvent) : AnalysisInput :=
  input.withEvents (pre.filter (fun r => r.rawError.isNone)) e
    (post.filter (fun r => r.rawError.isNone))

omit [Strkey] in
/-- No error event is left of a list without its error events. -/
theorem rawErrors_filter (raw : List DiagnosticEvent) :
    (raw.filter (fun r => r.rawError.isNone)).filterMap DiagnosticEvent.rawError = [] := by
  rw [List.filterMap_eq_nil_iff]
  intro r hr
  have := (List.mem_filter.mp hr).2
  rwa [Option.isNone_iff_eq_none] at this

omit [Strkey] in
/-- Dropping error events does not change the error the invocation ended with. -/
theorem rawTerminal_withOnlyError (input : AnalysisInput) (pre : List DiagnosticEvent)
    (e : DiagnosticEvent) (post : List DiagnosticEvent) :
    rawTerminal (input.withOnlyError pre e post).diagnosticEvents
      = rawTerminal (input.withEvents pre e post).diagnosticEvents := by
  have hquiet : ∀ r : DiagnosticEvent, r.rawError.isNone = false → r.terminal = none := by
    intro r hr
    unfold DiagnosticEvent.rawError at hr
    unfold DiagnosticEvent.terminal
    cases hk : eventKind r.topics r.data <;> simp [hk] at hr ⊢
  show rawTerminal (_ ++ e :: _) = rawTerminal (pre ++ e :: post)
  unfold rawTerminal
  rw [List.findSome?_append, List.findSome?_append, List.findSome?_cons, List.findSome?_cons,
    Scan.findSome?_filter_of_none pre hquiet, Scan.findSome?_filter_of_none post hquiet]

/-- A rule that is certain when the first event it recognises passes, where passing
depends on the envelope and on the error the invocation ended with. -/
theorem confirms_withEvents {rule : Rule} {recognised : RawError → Bool}
    {passes : AnalysisInput → RawError → Prop}
    (hrule : ∀ input, Confirms rule input ↔
      Trapped input ∧ FirstPasses input.diagnosticEvents recognised (passes input))
    (input : AnalysisInput) (pre : List DiagnosticEvent) (e : DiagnosticEvent)
    (post : List DiagnosticEvent)
    (hpasses : passes (input.withOnlyError pre e post) = passes (input.withEvents pre e post))
    (halone : Confirms rule (input.withOnlyError pre e post)) :
    Confirms rule (input.withEvents pre e post) ↔
      ∀ s, (pre.filterMap DiagnosticEvent.rawError).find? recognised = some s →
        passes (input.withEvents pre e post) s := by
  obtain ⟨htrapped, hfirst⟩ := (hrule _).mp halone
  have he : FirstPasses [e] recognised (passes (input.withEvents pre e post)) := by
    obtain ⟨s, hs, hpass⟩ := hfirst
    rw [hpasses] at hpass
    refine ⟨s, ?_, hpass⟩
    have hkept : (input.withOnlyError pre e post).diagnosticEvents
        = pre.filter (fun r => r.rawError.isNone) ++ [e]
          ++ post.filter (fun r => r.rawError.isNone) := by
      rw [List.append_assoc]
      rfl
    rwa [hkept, List.filterMap_append, List.filterMap_append, rawErrors_filter,
      rawErrors_filter, List.nil_append, List.append_nil] at hs
  have htrapped' : Trapped (input.withEvents pre e post) := htrapped
  rw [hrule, show (input.withEvents pre e post).diagnosticEvents = pre ++ e :: post from rfl,
    firstPasses_split he]
  exact and_iff_right htrapped'

/-- **The failure that ended the invocation.**  Let a rule be certain with `e` as the
only error event.  Among all the events it is certain exactly when the first event it
recognises before `e`, if there is one, passes as well; what follows `e` does not
matter. -/
theorem confirms_ended (input : AnalysisInput) (pre : List DiagnosticEvent)
    (e : DiagnosticEvent) (post : List DiagnosticEvent) :
    (Confirms invalidAuthorizationEntry (input.withOnlyError pre e post) →
      (Confirms invalidAuthorizationEntry (input.withEvents pre e post) ↔
        ∀ s, (pre.filterMap DiagnosticEvent.rawError).find? RawError.isInvalidEntry = some s →
          ExpiredFor (input.withEvents pre e post) s)) ∧
    (Confirms missingAuthorizationEntry (input.withOnlyError pre e post) →
      (Confirms missingAuthorizationEntry (input.withEvents pre e post) ↔
        ∀ s, (pre.filterMap DiagnosticEvent.rawError).find? RawError.isUnauthorized = some s →
          NoEntryFor (input.withEvents pre e post) s)) ∧
    (Confirms footprintEntryMissing (input.withOnlyError pre e post) →
      (Confirms footprintEntryMissing (input.withEvents pre e post) ↔
        ∀ s, (pre.filterMap DiagnosticEvent.rawError).find? RawError.isViolation = some s →
          UndeclaredFor (input.withEvents pre e post) s)) := by
  have hterminal := rawTerminal_withOnlyError input pre e post
  refine ⟨?_, ?_, ?_⟩
  · apply confirms_withEvents (fun _ => confirms_invalidAuthorizationEntry) input pre e post
    funext s
    unfold ExpiredFor
    rw [hterminal]
    rfl
  · apply confirms_withEvents (fun _ => confirms_missingAuthorizationEntry) input pre e post
    funext s
    unfold NoEntryFor
    rw [hterminal]
    rfl
  · apply confirms_withEvents (fun _ => confirms_footprintEntryMissing) input pre e post
    funext s
    unfold UndeclaredFor
    rw [hterminal]
    rfl

end Terminal

/-! ## Earlier events that speak for the last one -/

/-- An expired signature, the failure the invocation ends with. -/
def expiredEvent : DiagnosticEvent :=
  authError (cid 5) .invalidInput "signature has expired"
    [.address (.contract (cid 7)), .u32 100, .u32 90]

/-- A reused nonce the contract caught before. -/
def caughtNonce : List DiagnosticEvent :=
  [call none (cid 5) "f",
    authError (cid 6) .invalidInput "nonce already exists for address"
      [.address (.contract (cid 8))]]

/-- A transaction with an entry for `cid(7)`, signed up to ledger 90. -/
def signedInput : AnalysisInput :=
  sorobanFailureWithAuth .trapped [] [addressAuth (.contract (cid 7)) 42 90] (some [])

/-- An unauthorized call. -/
def unauthorizedEvent (address : ScAddress) : DiagnosticEvent :=
  authError (cid 5) .invalidAction "Unauthorized function call for address" [.address address]

/-- An unauthorized call for the source account, caught before. -/
def caughtSource : List DiagnosticEvent :=
  [call none (cid 5) "f", unauthorizedEvent (.account (.fill 1))]

/-- A transaction that declares the data key 1 of `cid(5)`. -/
def declaringInput : AnalysisInput :=
  sorobanFailure .trapped [dataKey (cid 5) (.u32 1)] (some [])

/-- A violation on a declared key, caught before. -/
def caughtViolation : List DiagnosticEvent :=
  [call none (cid 5) "f", footprintViolation (cid 5) (.u32 1)]

set_option maxRecDepth 20000 in
/-- Each rule is certain of the last failure alone, and not when an earlier event of the
same kind precedes it. -/
theorem confirms_ended_fails :
    (@Confirms Strkey.standard (@invalidAuthorizationEntry Strkey.standard)
        (signedInput.withOnlyError caughtNonce expiredEvent
          [hostFnFailed (.auth .invalidInput)]) ∧
      ¬ @Confirms Strkey.standard (@invalidAuthorizationEntry Strkey.standard)
        (signedInput.withEvents caughtNonce expiredEvent
          [hostFnFailed (.auth .invalidInput)])) ∧
    (@Confirms Strkey.standard (@missingAuthorizationEntry Strkey.standard)
        (signedInput.withOnlyError caughtSource (unauthorizedEvent (.contract (cid 8)))
          [hostFnFailed (.auth .invalidAction)]) ∧
      ¬ @Confirms Strkey.standard (@missingAuthorizationEntry Strkey.standard)
        (signedInput.withEvents caughtSource (unauthorizedEvent (.contract (cid 8)))
          [hostFnFailed (.auth .invalidAction)])) ∧
    (@Confirms Strkey.standard (@footprintEntryMissing Strkey.standard)
        (declaringInput.withOnlyError caughtViolation (footprintViolation (cid 5) (.u32 2))
          [hostFnFailed (.storage .exceededLimit)]) ∧
      ¬ @Confirms Strkey.standard (@footprintEntryMissing Strkey.standard)
        (declaringInput.withEvents caughtViolation (footprintViolation (cid 5) (.u32 2))
          [hostFnFailed (.storage .exceededLimit)])) := by
  let _ : Strkey := Strkey.standard
  decide

set_option maxRecDepth 20000 in
/-- With the earlier events moved behind the last failure, each rule is certain of it. -/
theorem confirms_ended_first :
    @Confirms Strkey.standard (@invalidAuthorizationEntry Strkey.standard)
        (signedInput.withEvents [] expiredEvent
          (caughtNonce ++ [hostFnFailed (.auth .invalidInput)])) ∧
      @Confirms Strkey.standard (@missingAuthorizationEntry Strkey.standard)
        (signedInput.withEvents [] (unauthorizedEvent (.contract (cid 8)))
          (caughtSource ++ [hostFnFailed (.auth .invalidAction)])) ∧
      @Confirms Strkey.standard (@footprintEntryMissing Strkey.standard)
        (declaringInput.withEvents [] (footprintViolation (cid 5) (.u32 2))
          (caughtViolation ++ [hostFnFailed (.storage .exceededLimit)])) := by
  let _ : Strkey := Strkey.standard
  refine ⟨((confirms_ended signedInput [] expiredEvent _).1 (by decide)).mpr ?_,
    ((confirms_ended signedInput [] (unauthorizedEvent _) _).2.1 (by decide)).mpr ?_,
    ((confirms_ended declaringInput [] (footprintViolation _ _) _).2.2 (by decide)).mpr ?_⟩
  · rintro s ⟨⟩
  · rintro s ⟨⟩
  · rintro s ⟨⟩

end Observatory
