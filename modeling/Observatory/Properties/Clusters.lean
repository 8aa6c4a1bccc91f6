import Observatory.Census.PilotReport
import Observatory.Contract.Hex32
import Observatory.Properties.Authorization
import Observatory.Properties.Provenance

/-!
# What the cluster keys stand for

The evaluation counts one transaction for a code cluster and three for a submitter, so
two records must share a key exactly when they share the code, or the account.

* `Ran` — the code a root contract is known to have run.
* `codeCluster_identifies_code` — code clusters are codes.
* `submitterCluster_identifies_key` — submitter clusters are keys.
-/

namespace Observatory

/-! ## Code -/

/-- Code that has a cluster. -/
inductive RootCode where
  | wasm (hash : Hash)
  | stellarAsset

/-- The cluster key of code. -/
def RootCode.key : RootCode → String
  | .wasm hash => wasmCluster hash
  | .stellarAsset => stellarAssetCluster

theorem RootCode.key_injective : Function.Injective RootCode.key := by
  have hhead : ∀ hash : Hash, (wasmCluster hash).toList.head? = some 'w' := by
    intro hash
    rw [wasmCluster, String.toList_append]
    rfl
  have hne : ∀ hash : Hash, wasmCluster hash ≠ stellarAssetCluster := by
    intro hash heq
    have hfirst := hhead hash
    rw [heq] at hfirst
    exact absurd (Option.some.inj hfirst) (by decide)
  intro code code' h
  cases code with
  | wasm hash =>
      cases code' with
      | wasm hash' =>
          have hhex : hex hash.bytes = hex hash'.bytes := String.append_right_inj _ |>.mp h
          rw [Hex32.serialize_injective hhex]
      | stellarAsset => exact absurd h (hne hash)
  | stellarAsset =>
      cases code' with
      | wasm hash' => exact absurd h.symm (hne hash')
      | stellarAsset => rfl

/-- The footprint of the transaction lists the WASM with this hash. -/
def TransactionModel.ListsCode (model : TransactionModel) (hash : Hash) : Prop :=
  ∃ soroban, model.soroban = some soroban ∧ soroban.footprint.ListsCode hash

theorem mem_footprintCodeHashes {model : TransactionModel} {hash : Hash} :
    hash ∈ model.footprintCodeHashes ↔ model.ListsCode hash := by
  unfold TransactionModel.footprintCodeHashes TransactionModel.ListsCode
  cases model.soroban with
  | none => simp
  | some soroban =>
      rw [mem_contractCodeHashes]
      constructor
      · intro h
        exact ⟨soroban, rfl, h⟩
      · rintro ⟨soroban', hsoroban, h⟩
        obtain rfl := Option.some.inj hsoroban
        exact h

/-- The code a root contract is known to have run: the instance that was read names it, and the
transaction's own footprint lists WASM. -/
inductive Ran (model : TransactionModel) (lookup : Option InstanceLookup) : RootCode → Prop where
  | wasm {hash : Hash} (hfound : lookup = some (.found (.wasm hash)))
      (hlisted : model.ListsCode hash) : Ran model lookup (.wasm hash)
  | stellarAsset (hfound : lookup = some (.found .stellarAsset)) : Ran model lookup .stellarAsset

/-- A key stands for code that ran. -/
theorem codeCluster_eq_resolved {model : TransactionModel} {lookup : Option InstanceLookup}
    {key : String} :
    codeCluster (lookup.bind InstanceLookup.executable) model.footprintCodeHashes = .resolved key ↔
      ∃ code, Ran model lookup code ∧ code.key = key := by
  constructor
  · intro h
    match lookup, h with
    | some (.found (.wasm hash)), h =>
        simp only [Option.bind_some, InstanceLookup.executable, codeCluster] at h
        split at h
        · next hlisted =>
          exact ⟨.wasm hash, .wasm rfl (mem_footprintCodeHashes.mp hlisted),
            CodeIdentity.resolved.inj h⟩
        · cases h
    | some (.found .stellarAsset), h =>
        exact ⟨.stellarAsset, .stellarAsset rfl, CodeIdentity.resolved.inj h⟩
    | some (.found (.externalRef ..)), h => cases h
    | some .notFound, h => cases h
    | some .failed, h => cases h
    | none, h => cases h
  · rintro ⟨code, ⟨rfl, hlisted⟩ | ⟨rfl⟩, rfl⟩
    · simp only [Option.bind_some, InstanceLookup.executable, codeCluster]
      rw [if_pos (mem_footprintCodeHashes.mpr hlisted)]
      rfl
    · rfl

/-- A root contract ran one code only. -/
theorem Ran.unique {model : TransactionModel} {lookup : Option InstanceLookup}
    {code code' : RootCode} (h : Ran model lookup code) (h' : Ran model lookup code') :
    code = code' := by
  cases h with
  | wasm hfound hlisted =>
      cases h' with
      | wasm hfound' hlisted' =>
          rw [hfound] at hfound'
          cases hfound'
          rfl
      | stellarAsset hfound' =>
          rw [hfound] at hfound'
          cases hfound'
  | stellarAsset hfound =>
      cases h' with
      | wasm hfound' hlisted' =>
          rw [hfound] at hfound'
          cases hfound'
      | stellarAsset hfound' => rfl

section Records

variable [Strkey] (parse : AccountParser)

/-- The code cluster of a record, or the reason there is none, for a root contract only. -/
theorem clusterFields_new (hash : String) (ledger : UInt32) (model : TransactionModel)
    (lookup : Option InstanceLookup) :
    let r := PilotRecord.new parse hash ledger model lookup
    (r.rootContractId.isSome → (r.codeCluster.isSome ↔ r.codeUnresolvedReason = none)) ∧
      (r.rootContractId = none → r.codeCluster = none ∧ r.codeUnresolvedReason = none) := by
  intro r
  have hfields : (r.codeCluster, r.codeUnresolvedReason) = clusterFields r.rootContractId
      (codeCluster (lookup.bind InstanceLookup.executable) model.footprintCodeHashes) := rfl
  obtain ⟨hcode, hreason⟩ := Prod.mk.inj hfields
  rw [hcode, hreason]
  cases r.rootContractId with
  | none => exact ⟨nofun, fun _ => ⟨rfl, rfl⟩⟩
  | some id =>
      cases codeCluster (lookup.bind InstanceLookup.executable) model.footprintCodeHashes with
      | resolved key => exact ⟨fun _ => ⟨fun _ => rfl, fun _ => rfl⟩, nofun⟩
      | unresolved reason => exact ⟨fun _ => ⟨nofun, nofun⟩, nofun⟩

/-- An eligible record has a code cluster. -/
theorem codeCluster_of_exclusion (hash : String) (ledger : UInt32) (model : TransactionModel)
    (lookup : Option InstanceLookup)
    (h : exclusion (PilotRecord.new parse hash ledger model lookup) = none) :
    (PilotRecord.new parse hash ledger model lookup).codeCluster.isSome := by
  obtain ⟨hroot, -⟩ := clusterFields_new parse hash ledger model lookup
  unfold exclusion at h
  split at h
  · cases h
  · split at h
    · cases h
    · split at h
      · cases h
      · next hsome =>
        refine (hroot ?_).mpr (Option.map_eq_none_iff.mp h)
        rwa [Option.isSome_iff_ne_none, ne_eq, ← Option.isNone_iff_eq_none]

/-- The code cluster of a record is that of code its root contract ran. -/
theorem exists_ran {hash : String} {ledger : UInt32} {model : TransactionModel}
    {lookup : Option InstanceLookup} {key : String}
    (h : (PilotRecord.new parse hash ledger model lookup).codeCluster = some key) :
    ∃ code, Ran model lookup code ∧ code.key = key := by
  have hfields : (clusterFields (rootContractId model) (codeCluster
      (lookup.bind InstanceLookup.executable) model.footprintCodeHashes)).1 = some key := h
  rw [← codeCluster_eq_resolved]
  cases hroot : rootContractId model with
  | none =>
      rw [hroot] at hfields
      cases hfields
  | some id =>
      rw [hroot] at hfields
      cases hidentity : codeCluster (lookup.bind InstanceLookup.executable)
          model.footprintCodeHashes with
      | resolved key' =>
          rw [hidentity] at hfields
          rw [Option.some.inj hfields]
      | unresolved reason =>
          rw [hidentity] at hfields
          cases hfields

/-- Code that a root contract is known to have run gets its cluster. -/
theorem codeCluster_of_ran {hash : String} {ledger : UInt32} {model : TransactionModel}
    {lookup : Option InstanceLookup} {code : RootCode}
    (hroot : (PilotRecord.new parse hash ledger model lookup).rootContractId.isSome)
    (hran : Ran model lookup code) :
    (PilotRecord.new parse hash ledger model lookup).codeCluster = some code.key := by
  obtain ⟨id, hid⟩ := Option.isSome_iff_exists.mp hroot
  have hroot' : rootContractId model = some id := hid
  have hidentity := codeCluster_eq_resolved.mpr ⟨code, hran, rfl⟩
  show (clusterFields (rootContractId model) _).1 = some code.key
  rw [hroot', hidentity]
  rfl

/-- **Code clusters identify code.**  A record of a transaction with a root contract has either a
code cluster or a reason why it has none, any other record has neither, and an eligible one has a
cluster; code that the root contract is known to have run gets its cluster; two records have the
same cluster exactly when the root contracts ran the same code: WASM with one hash, which each
footprint lists, or the Stellar Asset Contract. -/
theorem codeCluster_identifies_code :
    (∀ (hash : String) (ledger : UInt32) (model : TransactionModel)
      (lookup : Option InstanceLookup),
      let r := PilotRecord.new parse hash ledger model lookup
      (r.rootContractId.isSome → (r.codeCluster.isSome ↔ r.codeUnresolvedReason = none)) ∧
        (r.rootContractId = none → r.codeCluster = none ∧ r.codeUnresolvedReason = none) ∧
        (exclusion r = none → r.codeCluster.isSome) ∧
        (r.rootContractId.isSome → ∀ code, Ran model lookup code →
          r.codeCluster = some code.key)) ∧
    ∀ (hash hash' : String) (ledger ledger' : UInt32) (model model' : TransactionModel)
      (lookup lookup' : Option InstanceLookup) (key key' : String),
      (PilotRecord.new parse hash ledger model lookup).codeCluster = some key →
      (PilotRecord.new parse hash' ledger' model' lookup').codeCluster = some key' →
      (key = key' ↔ ∃ code, Ran model lookup code ∧ Ran model' lookup' code) := by
  constructor
  · intro hash ledger model lookup r
    obtain ⟨hroot, hnone⟩ := clusterFields_new parse hash ledger model lookup
    exact ⟨hroot, hnone, codeCluster_of_exclusion parse hash ledger model lookup,
      fun hsome code hran => codeCluster_of_ran parse hsome hran⟩
  · intro hash hash' ledger ledger' model model' lookup lookup' key key' h h'
    obtain ⟨code, hran, rfl⟩ := exists_ran parse h
    obtain ⟨code', hran', rfl⟩ := exists_ran parse h'
    constructor
    · intro heq
      obtain rfl := RootCode.key_injective heq
      exact ⟨code, hran, hran'⟩
    · rintro ⟨common, hcommon, hcommon'⟩
      rw [hran.unique hcommon, hran'.unique hcommon']

end Records

/-- A call of one contract, whose footprint lists the WASM under 9. -/
def firstCaller [Strkey] : TransactionModel :=
  .fromInput (sorobanFailure .trapped [codeKey (.fill 9)] none)

/-- A call of another contract, whose footprint lists two. -/
def secondCaller [Strkey] : TransactionModel :=
  { TransactionModel.fromInput
      (sorobanFailure .malformed [codeKey (.fill 3), codeKey (.fill 9)] none) with
    operations := [⟨0, none, .invokeHostFunction "InvokeContract"
      (some ⟨.contract (cid 6), "g", []⟩)⟩] }

/-- Calls of two contracts that run one WASM are in its cluster, and one of a contract that runs
another is not. -/
theorem codeCluster_identifies_code_callers :
    let _ : Strkey := Strkey.standard
    let record := fun model hash =>
      PilotRecord.new Strkey.parseAccount "" 5 model (some (.found (.wasm (.fill hash))))
    (record firstCaller 9).rootContractId = some (toString (cid 5)) ∧
      (record secondCaller 9).rootContractId = some (toString (cid 6)) ∧
      (record firstCaller 9).codeCluster = (record secondCaller 9).codeCluster ∧
      (record firstCaller 9).codeCluster ≠ (record secondCaller 3).codeCluster := by
  intro _ record
  obtain ⟨hfields, hequal⟩ := codeCluster_identifies_code Strkey.parseAccount
  have hlisted : Hash.fill 9 ∈ firstCaller.footprintCodeHashes := List.mem_cons_self
  have hlisted' : secondCaller.footprintCodeHashes = [.fill 3, .fill 9] := rfl
  have hfirst : Ran firstCaller (some (.found (.wasm (.fill 9)))) (.wasm (.fill 9)) :=
    .wasm rfl (mem_footprintCodeHashes.mp hlisted)
  have hsecond : ∀ hash, hash = .fill 9 ∨ hash = .fill 3 →
      Ran secondCaller (some (.found (.wasm hash))) (.wasm hash) := by
    intro hash h
    refine .wasm rfl (mem_footprintCodeHashes.mp ?_)
    rw [hlisted']
    simpa using h.symm
  have hkey := (hfields "" 5 firstCaller (some (.found (.wasm (.fill 9))))).2.2.2 rfl _ hfirst
  have hkey' : ∀ hash, hash = .fill 9 ∨ hash = .fill 3 →
      (PilotRecord.new Strkey.parseAccount "" 5 secondCaller
        (some (.found (.wasm hash)))).codeCluster
        = some (RootCode.key (.wasm hash)) :=
    fun hash h => (hfields "" 5 secondCaller (some (.found (.wasm hash)))).2.2.2 rfl _
      (hsecond hash h)
  refine ⟨rfl, rfl, ?_, fun heq => ?_⟩
  · have hcode := (hequal "" "" 5 5 firstCaller secondCaller _ _ _ _ hkey
      (hkey' _ (.inl rfl))).mpr ⟨_, hfirst, hsecond _ (.inl rfl)⟩
    exact (hkey.trans (congrArg some hcode)).trans (hkey' _ (.inl rfl)).symm
  · have hcode := (hequal "" "" 5 5 firstCaller secondCaller _ _ _ _ hkey
      (hkey' _ (.inr rfl))).mp
      (Option.some.inj (hkey.symm.trans (heq.trans (hkey' _ (.inr rfl)))))
    obtain ⟨code, hran, hran'⟩ := hcode
    have hcommon := (hran.unique hfirst).symm.trans (hran'.unique (hsecond _ (.inr rfl)))
    exact absurd (RootCode.wasm.inj hcommon) (by decide)

/-! ## Submitters -/

section Submitters

variable [Strkey] {parse : AccountParser}

/-- The key of the account that pays: the fee source of a fee bump, else the source account. -/
def TransactionEnvelope.payingKey : TransactionEnvelope → Uint256
  | .tx e => e.sourceAccount.key
  | .txFeeBump e => e.feeSource.key
  | .txV0 e => e.sourceAccountEd25519

/-- An account is reduced to its key. -/
theorem baseAccount_display (h : parse.Inverse) (a : MuxedAccount) :
    baseAccount parse a.display = Strkey.ed25519 a.key := by
  rw [baseAccount, h.parse_display]
  cases a with
  | ed25519 key => rfl
  | muxedEd25519 m => rfl

theorem submitterCluster_fromInput (h : parse.Inverse) (input : AnalysisInput) :
    submitterCluster parse (.fromInput input) = Strkey.ed25519 input.envelope.payingKey := by
  unfold submitterCluster TransactionModel.fromInput
  cases input.envelope with
  | tx e => exact baseAccount_display h e.sourceAccount
  | txFeeBump e => exact baseAccount_display h e.feeSource
  | txV0 e => exact baseAccount_display h (.ed25519 e.sourceAccountEd25519)

/-- Printed keys are told apart. -/
theorem ed25519_injective (h : parse.Inverse) : Function.Injective Strkey.ed25519 := by
  intro key key' heq
  have hparse := h.parse_display (.ed25519 key)
  have hparse' := h.parse_display (.ed25519 key')
  have hdisplay : (MuxedAccount.ed25519 key).display = (MuxedAccount.ed25519 key').display := heq
  rw [hdisplay, hparse'] at hparse
  cases hparse
  rfl

/-- What is no muxed account is left as it is. -/
theorem baseAccount_of_not_muxed (h : parse.Inverse) {s : String}
    (hs : ∀ m, s ≠ (MuxedAccount.muxedEd25519 m).display) : baseAccount parse s = s := by
  unfold baseAccount
  split
  · next m hm => exact absurd (h.display_of_parse hm).symm (hs m)
  · rfl

theorem baseAccount_idempotent (h : parse.Inverse) (s : String) :
    baseAccount parse (baseAccount parse s) = baseAccount parse s := by
  by_cases hs : ∃ m, s = (MuxedAccount.muxedEd25519 m).display
  · obtain ⟨m, rfl⟩ := hs
    rw [baseAccount_display h]
    exact baseAccount_display h (.ed25519 m.ed25519)
  · have hnot : ∀ m, s ≠ (MuxedAccount.muxedEd25519 m).display := fun m heq => hs ⟨m, heq⟩
    rw [baseAccount_of_not_muxed h hnot, baseAccount_of_not_muxed h hnot]

/-- **Submitter clusters identify keys.**  Two transactions have the same submitter exactly when
one key pays for both; reducing an account twice is reducing it once, and what is no muxed account
is left as it is. -/
theorem submitterCluster_identifies_key (h : parse.Inverse) :
    (∀ x y : AnalysisInput,
      submitterCluster parse (.fromInput x) = submitterCluster parse (.fromInput y) ↔
        x.envelope.payingKey = y.envelope.payingKey) ∧
    (∀ s, baseAccount parse (baseAccount parse s) = baseAccount parse s) ∧
    ∀ s, (∀ m, s ≠ (MuxedAccount.muxedEd25519 m).display) → baseAccount parse s = s := by
  refine ⟨?_, baseAccount_idempotent h, fun s hs => baseAccount_of_not_muxed h hs⟩
  intro x y
  rw [submitterCluster_fromInput h, submitterCluster_fromInput h]
  exact (ed25519_injective h).eq_iff

end Submitters

/-- With the published encoding, an account with a multiplexing id is the submitter that the plain
account is, and another account is not. -/
theorem submitterCluster_identifies_key_standard :
    let _ : Strkey := Strkey.standard
    let submitter := fun account =>
      submitterCluster Strkey.parseAccount (.fromInput (sourceInput account))
    submitter (.muxedEd25519 ⟨7, .fill 1⟩) = submitter (.ed25519 (.fill 1)) ∧
      submitter (.muxedEd25519 ⟨7, .fill 1⟩) ≠ submitter (.muxedEd25519 ⟨7, .fill 2⟩) := by
  intro _ submitter
  have hclusters := (submitterCluster_identifies_key Strkey.inverse_parseAccount).1
  refine ⟨(hclusters _ _).mpr rfl, fun heq => ?_⟩
  have hkeys : Hash.fill 1 = Hash.fill 2 := (hclusters _ _).mp heq
  exact absurd hkeys (by decide)

end Observatory
