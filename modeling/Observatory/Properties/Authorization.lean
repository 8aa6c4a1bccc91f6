import Observatory.Properties.Certainty

/-!
# The source account

The account a transaction comes from authorizes by signing it, so that it needs
no entry.  The rule on missing entries recognises it by its printed form, which
is not the same for a muxed account and for its address.

* `missingAuthorizationEntry_matches_iff` — when the rule matches.
* `sourceAccount_authorized` — an unauthorized call that names the source account
  is set aside, unless the account is muxed.
-/

namespace Observatory

/-! ## The source account -/

/-- The source account of the inner transaction. -/
def TransactionEnvelope.source : TransactionEnvelope → MuxedAccount
  | .tx e => e.sourceAccount
  | .txFeeBump e => e.innerTx.sourceAccount
  | .txV0 e => .ed25519 e.sourceAccountEd25519

/-- The key behind an account, plain or muxed. -/
def MuxedAccount.key : MuxedAccount → Uint256
  | .ed25519 key => key
  | .muxedEd25519 m => m.ed25519

/-- The account is given with a multiplexing id. -/
def MuxedAccount.isMuxed : MuxedAccount → Bool
  | .ed25519 _ => false
  | .muxedEd25519 _ => true

/-- None of the envelope's entries is for this address. -/
def NoEntry (envelope : TransactionEnvelope) (address : ScAddress) : Prop :=
  ∀ entry ∈ envelopeAuth envelope, ∀ credentials,
    entry.credentials.addressCredentials = some credentials → credentials.address ≠ address

/-- The first unauthorized call names the account the transaction comes from. -/
def NamesSource (input : AnalysisInput) : Prop :=
  ∃ s, firstError input RawError.isUnauthorized = some s ∧
    eventAddress s.data = some (.account input.envelope.source.key)

/-- The strkey of an account is not that of a muxed one. -/
def DistinctForms [Strkey] : Prop :=
  ∀ (key : Uint256) (m : MuxedEd25519), Strkey.ed25519 key ≠ Strkey.muxed m

section SourceAccount

variable [Strkey]

theorem unwrap_sourceAccount (envelope : TransactionEnvelope) :
    (unwrap envelope).sourceAccount = envelope.source.display := by
  cases envelope <;> rfl

/-- The address of an account is printed as its source account, unless that is muxed. -/
theorem display_account_eq (hforms : DistinctForms) (account : MuxedAccount) :
    (ScAddress.account account.key).display = account.display ↔ account.isMuxed = false := by
  cases account with
  | ed25519 key => exact iff_of_true rfl rfl
  | muxedEd25519 m =>
      refine iff_of_false ?_ (by simp [MuxedAccount.isMuxed])
      exact hforms m.ed25519 m

/-- When the missing-entry rule matches, for the address the first unauthorized call names. -/
theorem missingAuthorizationEntry_matches_iff {input : AnalysisInput} {s : RawError}
    {address : ScAddress} (hfirst : firstError input RawError.isUnauthorized = some s)
    (haddress : eventAddress s.data = some address) :
    (∃ c, missingAuthorizationEntry.evaluate (failureContext input) = .matched c) ↔
      Trapped input ∧ address.display ≠ (unwrap input.envelope).sourceAccount ∧
        NoEntry input.envelope address := by
  obtain ⟨x, hfind, rfl⟩ :=
    (first_iff (p := ErrorEvent.isUnauthorized) (fun _ => rfl)).mp hfirst
  have hx : eventAddress x.event.data = some address := haddress
  constructor
  · rintro ⟨c, hmatch⟩
    obtain ⟨hstage, havail, soroban, y, hsoroban, hy, hsource, hentry, -⟩ :=
      missingAuthorizationEntry_matched hmatch
    have hxy : (TransactionModel.fromInput input).diagnostics.errors.find?
        ErrorEvent.isUnauthorized = some y := hy
    rw [hfind] at hxy
    obtain rfl := Option.some.inj hxy
    have hnone : entryFor soroban.auth address = none := by rwa [hx, Option.bind_some] at hentry
    exact ⟨⟨hstage, havail, Option.isSome_of_eq_some hsoroban⟩, hsource address hx,
      (entryFor_eq_none hsoroban).mp hnone⟩
  · rintro ⟨⟨hstage, havail, hsome⟩, hsource, hnone⟩
    obtain ⟨soroban, hsoroban⟩ := Option.isSome_iff_exists.mp hsome
    refine ⟨_, missingAuthorizationEntry_first hstage havail hsoroban hfind ?_ ?_⟩
    · intro a ha
      rw [hx] at ha
      obtain rfl := Option.some.inj ha
      exact hsource
    · rw [hx, Option.bind_some]
      exact (entryFor_eq_none hsoroban).mpr hnone

/-- **The source account.**  An unauthorized call that names the account the transaction
comes from is no missing entry, unless that account is muxed and the transaction
trapped without an entry for it. -/
theorem sourceAccount_authorized (input : AnalysisInput) (hforms : DistinctForms)
    (hnames : NamesSource input) :
    (∀ c, missingAuthorizationEntry.evaluate (failureContext input) ≠ .matched c) ↔
      ¬ (input.envelope.source.isMuxed = true ∧ Trapped input ∧
        NoEntry input.envelope (.account input.envelope.source.key)) := by
  obtain ⟨s, hfirst, haddress⟩ := hnames
  have hmatches := missingAuthorizationEntry_matches_iff hfirst haddress
  have hdisplay := display_account_eq hforms input.envelope.source
  rw [unwrap_sourceAccount, ne_eq, hdisplay, Bool.not_eq_false] at hmatches
  rw [← not_exists, hmatches]
  constructor
  · rintro hnot ⟨hmuxed, htrapped, hnone⟩
    exact hnot ⟨htrapped, hmuxed, hnone⟩
  · rintro hnot ⟨htrapped, hmuxed, hnone⟩
    exact hnot ⟨hmuxed, htrapped, hnone⟩

end SourceAccount

/-- A strkey starts with the character of the first five bits of its version byte. -/
theorem Strkey.head?_encode (version : UInt8) (payload : List UInt8) {a b c d e : Bool}
    {more : List Bool} (hbits : Strkey.bits version = a :: b :: c :: d :: e :: more) :
    (Strkey.encode version payload).toList.head?
      = some (Strkey.base32Bits.digit [a, b, c, d, e]) := by
  unfold Strkey.encode
  dsimp only
  rw [String.toList_ofList, List.cons_append, List.flatMap_cons, hbits]
  rfl

/-- In the published encoding the two forms start with `G` and `M`. -/
theorem distinctForms_standard : @DistinctForms Strkey.standard := by
  intro key m h
  have hg : (Strkey.encode 48 key.bytes).toList.head? = some 'G' :=
    Strkey.head?_encode 48 _ rfl
  have hm : (Strkey.encode 96 (m.ed25519.bytes ++ Strkey.idBytes m.id)).toList.head? = some 'M' :=
    Strkey.head?_encode 96 _ rfl
  have heq : Strkey.encode 48 key.bytes
      = Strkey.encode 96 (m.ed25519.bytes ++ Strkey.idBytes m.id) := h
  rw [heq, hm] at hg
  exact absurd (Option.some.inj hg) (by decide)

/-- The envelope with another source account. -/
def TransactionEnvelope.withSource (account : MuxedAccount) :
    TransactionEnvelope → TransactionEnvelope
  | .tx e => .tx { e with sourceAccount := account }
  | .txFeeBump e => .txFeeBump { e with innerTx := { e.innerTx with sourceAccount := account } }
  | .txV0 e => .txV0 e

/-- A trap that ends with an unauthorized call for the key 1, from the given account. -/
def sourceInput (account : MuxedAccount) : AnalysisInput :=
  let input := sorobanFailure .trapped []
    (some [call none (cid 5) "f", unauthorizedEvent (.account (.fill 1)),
      hostFnFailed (.auth .invalidAction)])
  { input with envelope := input.envelope.withSource account }

theorem namesSource_sourceInput {account : MuxedAccount} (h : account.key = .fill 1) :
    NamesSource (sourceInput account) := by
  refine ⟨_, rfl, ?_⟩
  show _ = some (ScAddress.account account.key)
  rw [h]
  rfl

set_option maxRecDepth 20000 in
/-- With a multiplexing id, the call for the transaction's own account is a confirmed
missing entry. -/
theorem sourceAccount_muxed :
    let _ : Strkey := Strkey.standard
    NamesSource (sourceInput (.muxedEd25519 ⟨7, .fill 1⟩)) ∧
      Confirms missingAuthorizationEntry (sourceInput (.muxedEd25519 ⟨7, .fill 1⟩)) ∧
      ¬ ∀ c, missingAuthorizationEntry.evaluate
          (failureContext (sourceInput (.muxedEd25519 ⟨7, .fill 1⟩))) ≠ .matched c := by
  intro _
  have hconfirms : Confirms missingAuthorizationEntry
      (sourceInput (.muxedEd25519 ⟨7, .fill 1⟩)) := by decide
  refine ⟨namesSource_sourceInput rfl, hconfirms, ?_⟩
  obtain ⟨c, hmatch, -⟩ := hconfirms
  exact fun hnone => hnone c hmatch

/-- Without a multiplexing id, the call for the own account is no missing entry. -/
theorem sourceAccount_authorized_plain :
    let _ : Strkey := Strkey.standard
    ∀ c, missingAuthorizationEntry.evaluate (failureContext (sourceInput (.ed25519 (.fill 1))))
      ≠ .matched c := by
  intro _
  refine (sourceAccount_authorized (sourceInput (.ed25519 (.fill 1))) distinctForms_standard
    (namesSource_sourceInput rfl)).mpr ?_
  rintro ⟨hmuxed, -⟩
  cases hmuxed

end Observatory
