import Observatory.Properties.Certainty

/-!
# The order of authorization entries

An address may sign several entries, with different nonces and expiration ledgers.
The invalid-entry rule looks up the first one for the address of the event it
recognised, so that its confidence can depend on which entry comes first.

* `AnalysisInput.withAuth` — the input with its entries rearranged, each invocation
  keeping as many as it had.
* `OrderFree` — the answer is the same for every arrangement.
* `orderFree_iff` — it is, unless an expired signature ended the invocation and the
  address has signed entries both up to the ledger of the event and up to another.
-/

namespace Observatory

/-! ## Rearranging entries -/

/-- The operations with these entries in place of their own, each invocation taking as
many as it had. -/
def refill : List Xdr.Operation → List SorobanAuthorizationEntry → List Xdr.Operation
  | [], _ => []
  | op :: ops, entries =>
      match op.body with
      | .invokeHostFunction hostFunction auth =>
          { op with body := .invokeHostFunction hostFunction (entries.take auth.length) } ::
            refill ops (entries.drop auth.length)
      | _ => op :: refill ops entries

theorem length_refill (ops : List Xdr.Operation) (entries : List SorobanAuthorizationEntry) :
    (refill ops entries).length = ops.length := by
  induction ops generalizing entries with
  | nil => rfl
  | cons op ops ih =>
      unfold refill
      split <;> simp [ih]

/-- What was filled in is what is there. -/
theorem authEntries_refill {ops : List Xdr.Operation} {entries : List SorobanAuthorizationEntry}
    (h : entries.length = (ops.filterMap (fun op => op.body.authEntries)).flatten.length) :
    ((refill ops entries).filterMap (fun op => op.body.authEntries)).flatten = entries := by
  induction ops generalizing entries with
  | nil =>
      obtain rfl := List.length_eq_zero_iff.mp h
      rfl
  | cons op ops ih =>
      unfold refill
      split
      · next hostFunction auth hbody =>
        have hauth : op.body.authEntries = some auth := by
          rw [hbody]
          rfl
        simp only [List.filterMap_cons, hauth, List.flatten_cons, List.length_append] at h
        have hrest : (entries.drop auth.length).length
            = (ops.filterMap (fun op => op.body.authEntries)).flatten.length := by
          rw [List.length_drop]
          omega
        have hfilled : (OperationBody.invokeHostFunction hostFunction
            (entries.take auth.length)).authEntries = some (entries.take auth.length) := rfl
        simp only [List.filterMap_cons, hfilled, List.flatten_cons]
        rw [ih hrest, List.take_append_drop]
      · next hbody =>
        have hauth : op.body.authEntries = none := by
          cases hop : op.body with
          | invokeHostFunction hostFunction auth => exact (hbody hostFunction auth hop).elim
          | _ => rfl
        simp only [List.filterMap_cons, hauth] at h ⊢
        exact ih h

/-- Bounded operations with other entries filled in, in their places. -/
def Xdr.Operations.refill (ops : Xdr.Operations) (entries : List SorobanAuthorizationEntry) :
    Xdr.Operations :=
  ⟨Observatory.refill ops.items entries, by rw [length_refill]; exact ops.length_le⟩

/-- The envelope with its entries rearranged. -/
def TransactionEnvelope.withAuth (entries : List SorobanAuthorizationEntry) :
    TransactionEnvelope → TransactionEnvelope
  | .tx e => .tx { e with operations := e.operations.refill entries }
  | .txFeeBump e =>
      .txFeeBump { e with
        innerTx := { e.innerTx with operations := e.innerTx.operations.refill entries } }
  | .txV0 e => .txV0 { e with operations := e.operations.refill entries }

theorem envelopeAuth_withAuth {envelope : TransactionEnvelope}
    {entries : List SorobanAuthorizationEntry} (h : entries.Perm (envelopeAuth envelope)) :
    envelopeAuth (envelope.withAuth entries) = entries := by
  cases envelope with
  | tx e => exact authEntries_refill h.length_eq
  | txFeeBump e => exact authEntries_refill h.length_eq
  | txV0 e => exact authEntries_refill h.length_eq

theorem sorobanTransactionData_withAuth (envelope : TransactionEnvelope)
    (entries : List SorobanAuthorizationEntry) :
    sorobanTransactionData (envelope.withAuth entries) = sorobanTransactionData envelope := by
  cases envelope <;> rfl

/-- The input with its authorization entries rearranged. -/
def AnalysisInput.withAuth (input : AnalysisInput) (entries : List SorobanAuthorizationEntry) :
    AnalysisInput :=
  { input with envelope := input.envelope.withAuth entries }

/-- An entry for the address, signed up to this ledger. -/
def SignedUpTo (envelope : TransactionEnvelope) (address : ScAddress) (expiry : UInt32) : Prop :=
  ∃ entry ∈ envelopeAuth envelope, ∃ credentials,
    entry.credentials.addressCredentials = some credentials ∧
      credentials.address = address ∧ credentials.signatureExpirationLedger = expiry

/-- An entry for the address, signed up to another ledger. -/
def SignedOtherwise (envelope : TransactionEnvelope) (address : ScAddress) (expiry : UInt32) :
    Prop :=
  ∃ other, other ≠ expiry ∧ SignedUpTo envelope address other

/-- The ledger found for an address is that of one of its entries. -/
theorem signedUpTo_of_entryExpiry {envelope : TransactionEnvelope} {address : ScAddress}
    {expiry : UInt32} (h : entryExpiry envelope address = some expiry) :
    SignedUpTo envelope address expiry := by
  unfold entryExpiry at h
  obtain ⟨credentials, hfound, rfl⟩ := Option.map_eq_some_iff.mp h
  obtain ⟨entry, hentry, hfilter⟩ := List.exists_of_findSome?_eq_some hfound
  obtain ⟨hcredentials, haddress⟩ := Option.filter_eq_some_iff.mp hfilter
  exact ⟨entry, hentry, credentials, hcredentials, beq_iff_eq.mp haddress, rfl⟩

/-- With an entry for an address, one is found. -/
theorem entryExpiry_isSome {envelope : TransactionEnvelope} {address : ScAddress}
    {expiry : UInt32} (h : SignedUpTo envelope address expiry) :
    ∃ found, entryExpiry envelope address = some found := by
  obtain ⟨entry, hentry, credentials, hcredentials, rfl, -⟩ := h
  unfold entryExpiry
  rw [← Option.isSome_iff_exists, Option.isSome_map, List.findSome?_isSome_iff]
  refine ⟨entry, hentry, ?_⟩
  rw [hcredentials]
  simp [Option.filter_some]

/-- Where the entries of an address agree on one ledger, that is the one found. -/
theorem entryExpiry_eq_iff {envelope : TransactionEnvelope} {address : ScAddress}
    {expiry : UInt32}
    (h : ¬ (SignedUpTo envelope address expiry ∧ SignedOtherwise envelope address expiry)) :
    entryExpiry envelope address = some expiry ↔ SignedUpTo envelope address expiry := by
  refine ⟨signedUpTo_of_entryExpiry, ?_⟩
  intro hsigned
  obtain ⟨found, hfound⟩ := entryExpiry_isSome hsigned
  by_cases heq : found = expiry
  · rw [hfound, heq]
  · exact absurd ⟨hsigned, found, heq, signedUpTo_of_entryExpiry hfound⟩ h

/-- An entry for the address that stands first is the one found. -/
theorem entryExpiry_of_first {envelope : TransactionEnvelope} {address : ScAddress}
    {entry : SorobanAuthorizationEntry} {rest : List SorobanAuthorizationEntry}
    {credentials : SorobanAddressCredentials} (hauth : envelopeAuth envelope = entry :: rest)
    (hcredentials : entry.credentials.addressCredentials = some credentials)
    (haddress : credentials.address = address) :
    entryExpiry envelope address = some credentials.signatureExpirationLedger := by
  unfold entryExpiry
  rw [hauth, List.findSome?_cons, hcredentials, Option.filter_some, haddress, beq_self_eq_true]
  rfl

/-- Any entry can be brought to the front. -/
theorem exists_perm_first {envelope : TransactionEnvelope} {address : ScAddress}
    {expiry : UInt32} (h : SignedUpTo envelope address expiry) :
    ∃ entries, entries.Perm (envelopeAuth envelope) ∧
      entryExpiry (envelope.withAuth entries) address = some expiry := by
  obtain ⟨entry, hentry, credentials, hcredentials, haddress, rfl⟩ := h
  obtain ⟨pre, post, hsplit⟩ := List.append_of_mem hentry
  have hperm : (entry :: (pre ++ post)).Perm (envelopeAuth envelope) := by
    rw [hsplit]
    exact List.perm_middle.symm
  exact ⟨_, hperm, entryExpiry_of_first (envelopeAuth_withAuth hperm) hcredentials haddress⟩

section EntryOrder

variable [Strkey] {input : AnalysisInput} {entries : List SorobanAuthorizationEntry}

/-! ## The answer to a rearranged input -/

/-- Two answers of one kind, with one confidence. -/
def SameAnswer (o o' : RuleOutcome) : Prop :=
  o.status = o'.status ∧
    o.candidate.map CandidateCause.confidence = o'.candidate.map CandidateCause.confidence

/-- The answer of the invalid-entry rule. -/
def invalidEntryAnswer (input : AnalysisInput) : RuleOutcome :=
  invalidAuthorizationEntry.evaluate (failureContext input)

theorem soroban_withAuth :
    (TransactionModel.fromInput (input.withAuth entries)).soroban.isSome
      = (TransactionModel.fromInput input).soroban.isSome := by
  rw [TransactionModel.soroban_fromInput, TransactionModel.soroban_fromInput]
  show (Option.map _ (sorobanTransactionData (input.envelope.withAuth entries))).isSome = _
  rw [Option.isSome_map, Option.isSome_map, sorobanTransactionData_withAuth]

theorem trapped_withAuth : Trapped (input.withAuth entries) ↔ Trapped input := by
  unfold Trapped
  rw [soroban_withAuth]
  rfl

/-- The kind of the answer depends on the result, on the events and on whether there is
Soroban data. -/
theorem invalidAuthorizationEntry_status {ctx ctx' : FailureContext}
    (hstage : ctx.model.stage = ctx'.model.stage)
    (hdiagnostics : ctx.model.diagnostics = ctx'.model.diagnostics)
    (hsoroban : ctx.model.soroban.isSome = ctx'.model.soroban.isSome) :
    (invalidAuthorizationEntry.evaluate ctx).status
      = (invalidAuthorizationEntry.evaluate ctx').status := by
  show (invalidAuthorizationEntryEvaluate ctx).status
    = (invalidAuthorizationEntryEvaluate ctx').status
  unfold invalidAuthorizationEntryEvaluate sorobanGate
  rw [hstage, hdiagnostics]
  cases ctx'.model.stage with
  | none => rfl
  | some stage =>
      cases hs : ctx.model.soroban with
      | none =>
          rw [hs] at hsoroban
          rw [Option.isNone_iff_eq_none.mp (Option.isSome_eq_false_iff.mp hsoroban.symm)]
          rfl
      | some soroban =>
          rw [hs] at hsoroban
          obtain ⟨soroban', hs'⟩ := Option.isSome_iff_exists.mp hsoroban.symm
          rw [hs']
          dsimp only
          split
          · rfl
          · split
            · rfl
            · dsimp only [behindGate]
              split
              · rfl
              · split
                · rfl
                · rfl

/-- The first recognised event is an expired signature of this address, past the ledger it
was valid until, and it ended the invocation. -/
def ExpiredRead (input : AnalysisInput) (address : ScAddress) (current expiry : UInt32) : Prop :=
  ∃ s message first more, firstError input RawError.isInvalidEntry = some s ∧
    s.message = some message ∧ startsWith message signatureExpiredMarker = true ∧
    rawTerminal input.diagnosticEvents = some s.error ∧
    eventItems s.data = first :: .address address :: .u32 current :: .u32 expiry :: more ∧
    current > expiry

/-- The address has entries signed up to this ledger and entries signed up to another. -/
def Mixed (envelope : TransactionEnvelope) (address : ScAddress) (expiry : UInt32) : Prop :=
  SignedUpTo envelope address expiry ∧ SignedOtherwise envelope address expiry

omit [Strkey] in
/-- Rearranging keeps the entries. -/
theorem signedUpTo_withAuth {envelope : TransactionEnvelope} {address : ScAddress}
    {expiry : UInt32} (h : entries.Perm (envelopeAuth envelope)) :
    SignedUpTo (envelope.withAuth entries) address expiry ↔ SignedUpTo envelope address expiry := by
  unfold SignedUpTo
  rw [envelopeAuth_withAuth h]
  simp only [h.mem_iff]

omit [Strkey] in
theorem mixed_withAuth {envelope : TransactionEnvelope} {address : ScAddress} {expiry : UInt32}
    (h : entries.Perm (envelopeAuth envelope)) :
    Mixed (envelope.withAuth entries) address expiry ↔ Mixed envelope address expiry := by
  unfold Mixed SignedOtherwise
  simp only [signedUpTo_withAuth h]

/-- Whether there is an entry for an address does not depend on the order. -/
theorem entryFor_withAuth {soroban soroban' : SorobanData} {address : ScAddress}
    (h : entries.Perm (envelopeAuth input.envelope))
    (hsoroban : (TransactionModel.fromInput input).soroban = some soroban)
    (hsoroban' : (TransactionModel.fromInput (input.withAuth entries)).soroban = some soroban') :
    (entryFor soroban'.auth address).isSome = (entryFor soroban.auth address).isSome := by
  have hnone := @entryFor_eq_none _ input soroban address hsoroban
  have hnone' := @entryFor_eq_none _ (input.withAuth entries) soroban' address hsoroban'
  have hauth : envelopeAuth (input.withAuth entries).envelope = entries := envelopeAuth_withAuth h
  rw [hauth] at hnone'
  simp only [h.mem_iff] at hnone'
  rw [← hnone] at hnone'
  cases hentry : entryFor soroban.auth address with
  | none => rw [hnone'.mpr hentry]
  | some e =>
      cases hentry' : entryFor soroban'.auth address with
      | none => rw [hnone'.mp hentry'] at hentry; cases hentry
      | some e' => rfl

/-- Unless the address is mixed, neither does what the entry corroborates. -/
theorem corroborated_withAuth {soroban soroban' : SorobanData} {address : ScAddress}
    {current expiry : UInt32} (h : entries.Perm (envelopeAuth input.envelope))
    (hsoroban : (TransactionModel.fromInput input).soroban = some soroban)
    (hsoroban' : (TransactionModel.fromInput (input.withAuth entries)).soroban = some soroban')
    (hmixed : current > expiry → ¬ Mixed input.envelope address expiry) :
    corroborated (entryFor soroban'.auth address) (some (current, expiry))
      = corroborated (entryFor soroban.auth address) (some (current, expiry)) := by
  rw [Bool.eq_iff_iff, corroborated_iff hsoroban, corroborated_iff hsoroban']
  apply and_congr_right
  intro hgt
  have hnot := hmixed hgt
  have hnot' : ¬ Mixed (input.envelope.withAuth entries) address expiry := by
    rwa [mixed_withAuth h]
  show entryExpiry (input.envelope.withAuth entries) address = some expiry ↔ _
  rw [entryExpiry_eq_iff hnot, entryExpiry_eq_iff hnot', signedUpTo_withAuth h]

/-- What an expired signature's confidence is taken from, in one list of entries and in
another, is the same. -/
theorem expiry_withAuth {soroban soroban' : SorobanData} {data : ScVal}
    (h : entries.Perm (envelopeAuth input.envelope))
    (hsoroban : (TransactionModel.fromInput input).soroban = some soroban)
    (hsoroban' : (TransactionModel.fromInput (input.withAuth entries)).soroban = some soroban')
    (hmixed : ∀ address current expiry, eventAddress data = some address →
      eventLedgers data = some (current, expiry) → current > expiry →
      ¬ Mixed input.envelope address expiry) :
    corroborated ((eventAddress data).bind (entryFor soroban'.auth)) (eventLedgers data)
      = corroborated ((eventAddress data).bind (entryFor soroban.auth)) (eventLedgers data) := by
  cases haddress : eventAddress data with
  | none => rfl
  | some address =>
      cases hledgers : eventLedgers data with
      | none =>
          rw [Option.bind_some, Option.bind_some]
          cases entryFor soroban'.auth address <;> cases entryFor soroban.auth address <;> rfl
      | some ledgers =>
          obtain ⟨current, expiry⟩ := ledgers
          exact corroborated_withAuth h hsoroban hsoroban'
            (hmixed address current expiry haddress hledgers)

/-- The first recognised error event, with and without its index. -/
theorem firstError_invalidEntry {s : RawError} :
    firstError input RawError.isInvalidEntry = some s ↔
      ∃ x, (TransactionModel.fromInput input).diagnostics.errors.find?
        (fun x => x.error.isAuth && x.recognise.isSome) = some x ∧ x.toRaw = s :=
  first_iff (by
    intro x
    unfold RawError.isInvalidEntry ErrorEvent.recognise ErrorEvent.toRaw
    cases x.message <;> simp)

/-- The input reads as an expired signature, from what the rule checked. -/
theorem expiredRead_of_recognised {x : ErrorEvent} {message : String} {address : ScAddress}
    {current expiry : UInt32}
    (hfind : ((TransactionModel.fromInput input).diagnostics.errors.filter
      (fun x => x.error.isAuth)).findSome? ErrorEvent.recognise
        = some (x, message, .signatureExpired))
    (hended : (endedBy (TransactionModel.fromInput input) x).isSome = true)
    (haddress : eventAddress x.event.data = some address)
    (hledgers : eventLedgers x.event.data = some (current, expiry)) (hgt : current > expiry) :
    ExpiredRead input address current expiry := by
  obtain ⟨y, hy, hrecognised⟩ := Scan.findSome?_filter_eq_some.mp hfind
  obtain ⟨rfl, hmessage, hfailure⟩ := recognise_eq_some.mp hrecognised
  obtain ⟨first, more, hitems⟩ := eventLedgers_eq_some haddress hledgers
  exact ⟨x.toRaw, message, first, more, firstError_invalidEntry.mpr ⟨x, hy, rfl⟩, hmessage,
    authFailure_eq_expired.mp hfailure, endedBy_iff.mp hended, hitems, hgt⟩

/-- No address is mixed where that would count. -/
def NotMixed (input : AnalysisInput) : Prop :=
  ¬ ∃ address current expiry, Trapped input ∧ ExpiredRead input address current expiry ∧
    Mixed input.envelope address expiry

/-- Rearranging changes neither the kind of the answer nor its confidence. -/
theorem sameAnswer_withAuth (hnot : NotMixed input)
    (h : entries.Perm (envelopeAuth input.envelope)) :
    SameAnswer (invalidEntryAnswer (input.withAuth entries)) (invalidEntryAnswer input) := by
  have hstatus : (invalidEntryAnswer (input.withAuth entries)).status
      = (invalidEntryAnswer input).status :=
    invalidAuthorizationEntry_status rfl rfl soroban_withAuth
  refine ⟨hstatus, ?_⟩
  by_cases hmatched : (invalidEntryAnswer input).status = .matched
  · obtain ⟨c, hanswer⟩ := RuleOutcome.status_eq_matched.mp hmatched
    obtain ⟨hstage, havail, soroban, x, message, failure, hsoroban, hfind, rfl⟩ :=
      invalidAuthorizationEntry_matched hanswer
    have hmodel : (TransactionModel.fromInput input).soroban = some soroban := hsoroban
    have hsome : (TransactionModel.fromInput (input.withAuth entries)).soroban.isSome = true := by
      rw [soroban_withAuth, hmodel]
      rfl
    obtain ⟨soroban', hsoroban'⟩ := Option.isSome_iff_exists.mp hsome
    have hother : invalidEntryAnswer (input.withAuth entries)
        = .matched (invalidAuthCandidate _ soroban' x message failure) :=
      @invalidAuthorizationEntry_first _ (failureContext (input.withAuth entries)) _ _ _ _
        hstage havail hsoroban' hfind
    rw [hother, hanswer]
    simp only [RuleOutcome.candidate, Option.map_some, Option.some.injEq]
    cases failure with
    | nonceReused =>
        show nonceConfidence (endedBy _ x).isSome _ = nonceConfidence (endedBy _ x).isSome _
        cases haddress : eventAddress x.event.data with
        | none => rfl
        | some address =>
            rw [Option.bind_some, Option.bind_some, entryFor_withAuth h hmodel hsoroban']
            rfl
    | signatureExpired =>
        show expiredConfidence (endedBy _ x).isSome _ = expiredConfidence (endedBy _ x).isSome _
        have hsame : endedBy (failureContext (input.withAuth entries)).model x
          = endedBy (failureContext input).model x := rfl
        rw [hsame]
        -- without ending the invocation, the signature is no more than possible
        cases hended : (endedBy (failureContext input).model x).isSome with
        | false => rfl
        | true =>
            rw [expiry_withAuth h hmodel hsoroban']
            intro address current expiry haddress hledgers hgt hmixed
            exact hnot ⟨address, current, expiry, ⟨hstage, havail, by rw [hmodel]; rfl⟩,
              expiredRead_of_recognised hfind hended haddress hledgers hgt, hmixed⟩
  · rw [RuleOutcome.candidate_eq_none.mpr hmatched,
      RuleOutcome.candidate_eq_none.mpr (by rw [hstatus]; exact hmatched)]

/-- On an expired signature the rule is certain when the entry found was signed up to the
ledger of the event. -/
theorem confirms_of_expiredRead {address : ScAddress} {current expiry : UInt32}
    (htrapped : Trapped input) (hread : ExpiredRead input address current expiry) :
    Confirms invalidAuthorizationEntry input ↔
      entryExpiry input.envelope address = some expiry := by
  obtain ⟨s, message, first, more, hfirst, hmessage, hmarker, hended, hitems, hgt⟩ := hread
  rw [confirms_invalidAuthorizationEntry, and_iff_right htrapped]
  constructor
  · rintro ⟨s', hfirst', -, -, first', address', current', expiry', more', hitems', -, hexpiry⟩
    have hsame : some s = some s' := hfirst.symm.trans hfirst'
    obtain rfl := Option.some.inj hsame
    rw [hitems] at hitems'
    simp only [List.cons.injEq, ScVal.address.injEq, ScVal.u32.injEq] at hitems'
    obtain ⟨-, rfl, rfl, rfl, -⟩ := hitems'
    exact hexpiry
  · intro hexpiry
    exact ⟨s, hfirst, hended, ⟨message, hmessage, hmarker⟩, first, address, current, expiry,
      more, hitems, hgt, hexpiry⟩

/-- The order of the entries does not matter to the rule. -/
def OrderFree (input : AnalysisInput) : Prop :=
  ∀ entries, entries.Perm (envelopeAuth input.envelope) →
    SameAnswer (invalidEntryAnswer (input.withAuth entries)) (invalidEntryAnswer input)

/-- On an expired signature, any entry signed up to its ledger makes the rule certain. -/
def ConfirmsAny (input : AnalysisInput) : Prop :=
  ∀ address current expiry, Trapped input → ExpiredRead input address current expiry →
    (Confirms invalidAuthorizationEntry input ↔ SignedUpTo input.envelope address expiry)

/-- Answers of one kind and confidence are certain together. -/
theorem confirms_congr {input' : AnalysisInput}
    (h : SameAnswer (invalidEntryAnswer input') (invalidEntryAnswer input)) :
    Confirms invalidAuthorizationEntry input' ↔ Confirms invalidAuthorizationEntry input := by
  have hconfirms : ∀ input : AnalysisInput, Confirms invalidAuthorizationEntry input ↔
      (invalidEntryAnswer input).candidate.map CandidateCause.confidence = some .confirmed := by
    intro input
    rw [Option.map_eq_some_iff]
    simp only [RuleOutcome.candidate_eq_some]
    rfl
  rw [hconfirms, hconfirms, h.2]

/-- **The order of the entries.**  The rule's kind of answer and its confidence do not
depend on the order of the entries, and on an expired signature it is certain exactly
when some entry bears it out, unless the invocation ended with an expired signature
of an address that has entries signed up to the ledger of the event and entries
signed up to another. -/
theorem orderFree_iff (input : AnalysisInput) :
    OrderFree input ∧ ConfirmsAny input ↔ NotMixed input := by
  constructor
  · rintro ⟨hfree, -⟩ ⟨address, current, expiry, htrapped, hread, hsigned, other, hne, hother⟩
    -- one entry brought to the front makes the rule certain, the other one does not
    obtain ⟨entries, hperm, hexpiry⟩ := exists_perm_first hsigned
    obtain ⟨entries', hperm', hexpiry'⟩ := exists_perm_first hother
    have hconfirms : Confirms invalidAuthorizationEntry (input.withAuth entries) :=
      (confirms_of_expiredRead (trapped_withAuth.mpr htrapped) hread).mpr hexpiry
    have hconfirms' : Confirms invalidAuthorizationEntry (input.withAuth entries') :=
      (confirms_congr (hfree entries' hperm')).mpr
        ((confirms_congr (hfree entries hperm)).mp hconfirms)
    have hfound : entryExpiry (input.envelope.withAuth entries') address = some expiry :=
      (confirms_of_expiredRead (trapped_withAuth.mpr htrapped) hread).mp hconfirms'
    rw [hexpiry'] at hfound
    exact hne (Option.some.inj hfound)
  · intro hnot
    refine ⟨fun entries hperm => sameAnswer_withAuth hnot hperm, ?_⟩
    intro address current expiry htrapped hread
    rw [confirms_of_expiredRead htrapped hread]
    apply entryExpiry_eq_iff
    intro hmixed
    exact hnot ⟨address, current, expiry, htrapped, hread, hmixed⟩

end EntryOrder

/-- A trap with an expired signature of `cid(7)`, which has two entries: signed up to
ledger 80 and up to ledger 90. -/
def twoEntriesInput : AnalysisInput :=
  sorobanFailureWithAuth .trapped []
    [addressAuth (.contract (cid 7)) 41 80, addressAuth (.contract (cid 7)) 42 90]
    (some [call none (cid 5) "f", expiredEvent, hostFnFailed (.auth .invalidInput)])

set_option maxRecDepth 20000 in
/-- The rule is likely of the failure in this order, and confirmed in the other. -/
theorem orderFree_fails :
    let _ : Strkey := Strkey.standard
    ¬ Confirms invalidAuthorizationEntry twoEntriesInput ∧
      Confirms invalidAuthorizationEntry
        (twoEntriesInput.withAuth (envelopeAuth twoEntriesInput.envelope).reverse) ∧
      ¬ OrderFree twoEntriesInput ∧ ¬ ConfirmsAny twoEntriesInput := by
  intro _
  have hno : ¬ Confirms invalidAuthorizationEntry twoEntriesInput := by decide
  have hyes : Confirms invalidAuthorizationEntry
      (twoEntriesInput.withAuth (envelopeAuth twoEntriesInput.envelope).reverse) := by decide
  refine ⟨hno, hyes, ?_, ?_⟩
  · intro hfree
    exact hno ((confirms_congr (hfree _ (List.reverse_perm _))).mp hyes)
  · intro hany
    have htrapped : Trapped twoEntriesInput := ⟨by decide, by decide, by decide⟩
    have hread : ExpiredRead twoEntriesInput (.contract (cid 7)) 100 90 :=
      ⟨_, _, _, _, rfl, rfl, rfl, rfl, rfl, by decide⟩
    have hsigned : SignedUpTo twoEntriesInput.envelope (.contract (cid 7)) 90 :=
      ⟨addressAuth (.contract (cid 7)) 42 90, by
        exact List.mem_cons_of_mem _ List.mem_cons_self, _, rfl, rfl, rfl⟩
    exact hno ((hany _ _ _ htrapped hread).mpr hsigned)

end Observatory
