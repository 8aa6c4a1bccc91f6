import Observatory.Rules.Auth

/-!
# An access outside the declared footprint

`footprint_entry_missing` (`rules/footprint.rs`).  The host's message alone is
not trusted: the accessed key is taken from the event and looked up in the
declared footprint, under any durability.
-/

namespace Observatory

/-- The fragment of the host's message that identifies a footprint violation. -/
def footprintMarker : String := "outside of the footprint"

/-- `str::contains`. -/
def containsText (text part : String) : Bool :=
  text.toList.tails.any (fun rest => part.toList.isPrefixOf rest)

/-- The contract and key an access-violation event reports. -/
def accessedKey (data : ScVal) : Option (ScAddress × ScVal) :=
  match data with
  | .vec items =>
      let second : Option ScVal := items.toList[1]?
      let third : Option ScVal := items.toList[2]?
      match second, third with
      | some (.address a), some key => some (a, key)
      | _, _ => none
  | _ => none

/-- An error of type `Storage`. -/
def ScError.isStorage : ScError → Bool
  | .storage _ => true
  | _ => false

/-- An error event reporting an access outside the footprint. -/
def ErrorEvent.isViolation (x : ErrorEvent) : Bool :=
  x.error.isStorage && x.message.any (fun m => containsText m footprintMarker)

theorem isViolation_eq_true {x : ErrorEvent} :
    x.isViolation = true ↔ ∃ code message, x.error = .storage code ∧
      x.message = some message ∧ containsText message footprintMarker = true := by
  unfold ErrorEvent.isViolation
  rw [Bool.and_eq_true]
  cases x.message <;> cases x.error <;> simp [ScError.isStorage]

/-! ## Declared keys -/

/-- A footprint entry: its list, its position there, and its durability. -/
structure DeclaredKey where
  /-- Whether it is in the read-write list. -/
  readWrite : Bool
  /-- Its position in that list. -/
  index : UInt32
  /-- The name of its durability. -/
  durability : String
  deriving DecidableEq

/-- The key declares this contract data, under some durability. -/
def LedgerKey.declares (address : ScAddress) (key : ScVal) : LedgerKey → Option String
  | .contractData d =>
      if d.contract = address ∧ d.key = key then some d.durability.name else none
  | _ => none

/-- The entries of one list that declare this contract data. -/
def declaredIn (readWrite : Bool) (keys : List LedgerKey) (address : ScAddress) (key : ScVal) :
    List DeclaredKey :=
  keys.zipIdx.filterMap (fun p =>
    (p.1.declares address key).map (fun durability => ⟨readWrite, u32OrMax p.2, durability⟩))

/-- Every footprint entry that declares this contract data. -/
def Footprint.declared (f : Footprint) (address : ScAddress) (key : ScVal) : List DeclaredKey :=
  declaredIn false f.readOnly address key ++ declaredIn true f.readWrite address key

/-- A contract-data key. -/
def LedgerKey.isContractData : LedgerKey → Bool
  | .contractData _ => true
  | _ => false

section FootprintRule

variable [Strkey]

/-- What the violation says about the footprint. -/
structure Finding where
  /-- Evidence about the footprint. -/
  evidence : List Evidence
  /-- Confidence. -/
  confidence : Confidence
  /-- Summary. -/
  summary : String
  /-- Remediation. -/
  remediation : String

/-- The key is not declared. -/
def undeclaredFinding (footprint : Footprint) (address : ScAddress) (label : String)
    (ended : Bool) : Finding :=
  let dataKeys :=
    ((footprint.readOnly ++ footprint.readWrite).filter LedgerKey.isContractData).length
  { evidence :=
      [⟨.footprint,
        s!"contract data key {label} of {address} is not among the {dataKeys} contract-data " ++
          s!"keys the footprint declares ({footprint.readOnly.length} read-only and " ++
          s!"{footprint.readWrite.length} read-write entries in total)"⟩]
    confidence := if ended then .confirmed else .possible
    summary :=
      s!"Contract {address} accessed contract data key {label}, which the transaction's " ++
        "declared footprint does not include."
    remediation :=
      "Re-simulate the transaction immediately before submitting so its footprint includes " ++
        s!"contract data key {label} of {address}. If that key is derived from state that " ++
        "changes between simulation and inclusion (a counter, sequence, block or ledger " ++
        "number), a simulated footprint can be stale by the time the transaction executes." }

/-- One entry that declares the key after all. -/
def conflictEvidence (d : DeclaredKey) : Evidence :=
  let list := if d.readWrite then "read-write" else "read-only"
  ⟨.footprintEntry d.readWrite d.index,
    s!"yet the footprint declares that key ({d.durability}, {list} entry {d.index}), so the " ++
      "evidence conflicts"⟩

/-- The key is declared. -/
def conflictingFinding (declared : List DeclaredKey) (address : ScAddress) (label : String) :
    Finding :=
  { evidence := declared.map conflictEvidence
    confidence := .possible
    summary :=
      s!"The host reported an access outside the footprint for contract data key {label} of " ++
        s!"{address}, but the footprint declares that key; the evidence is inconsistent."
    remediation :=
      "Compare the durability and exact encoding of the declared key with what the contract " ++
        "accesses; a freshly simulated footprint contains the keys the host expects." }

/-- The event does not carry the key. -/
def unreadableFinding (x : ErrorEvent) (ended : Bool) : Finding :=
  { evidence :=
      [⟨.diagnosticEvent x.event.index,
        "the event does not carry the accessed key in the expected [message, address, key] " ++
          "shape, so it could not be checked against the footprint"⟩]
    confidence := if ended then .likely else .possible
    summary :=
      "The host reported an access outside the transaction's declared footprint; the accessed " ++
        "key could not be identified."
    remediation :=
      "Re-simulate the transaction immediately before submitting so its footprint covers " ++
        "every entry the invocation touches." }

/-- The finding on a violation; `ended` says whether it ended the invocation. -/
def footprintFinding (footprint : Footprint) (x : ErrorEvent) (ended : Bool) : Finding :=
  match accessedKey x.event.data with
  | some (address, key) =>
      let label := valueLabel key
      let declared := footprint.declared address key
      if declared.isEmpty then undeclaredFinding footprint address label ended
      else conflictingFinding declared address label
  | none => unreadableFinding x ended

/-- The error the invocation ended with, in words. -/
def endedText (model : TransactionModel) : String :=
  (model.diagnostics.terminalError.map (fun t => errorLabel t.error)).getD
    "no terminal error event"

/-- The candidate for a violation. -/
def footprintCandidate (model : TransactionModel) (soroban : SorobanData) (x : ErrorEvent) :
    CandidateCause :=
  let terminal := endedBy model x
  let who := (x.event.contract.map (fun c => s!"contract {c}")).getD "the host"
  let label := errorLabel x.error
  let message := x.message.getD ""
  let ended := endedText model
  let finding := footprintFinding soroban.footprint x terminal.isSome
  { causeClass := .footprintEntryMissing
    confidence := finding.confidence
    summary := finding.summary
    evidence :=
      [⟨.diagnosticEvent x.event.index, s!"{who} hit {label}: \"{message}\""⟩,
        match terminal with
        | some t =>
            ⟨.diagnosticEvent t.eventIndex,
              s!"the invocation ended with the same error, {label}"⟩
        | none =>
            ⟨.diagnosticEvent x.event.index,
              s!"the invocation ended with {ended}, not with this error"⟩]
        ++ finding.evidence
    remediation := some finding.remediation
    ruleId := "footprint_entry_missing" }

/-- `FootprintEntryMissing::evaluate`. -/
def footprintEntryMissingEvaluate (ctx : FailureContext) : RuleOutcome :=
  behindGate
    (sorobanGate ctx.model "not a Soroban transaction, so it has no footprint"
      "an access outside the footprint ends contract execution with a trap"
      ("diagnostic events were not available; without them an access outside the footprint is " ++
        "indistinguishable from any other trap"))
    fun soroban =>
      match ctx.model.diagnostics.errors.find? ErrorEvent.isViolation with
      | none =>
          let ended := endedText ctx.model
          .noEvidence
            ("no diagnostic event reports an access outside the footprint (the invocation " ++
              s!"ended with {ended})")
      | some x => .matched (footprintCandidate ctx.model soroban x)

/-- `FootprintEntryMissing`. -/
def footprintEntryMissing : Rule where
  id := "footprint_entry_missing"
  description :=
    "The invocation accessed a contract data key its declared footprint did not include"
  evaluate := footprintEntryMissingEvaluate

/-! ## What a match rests on -/

/-- Confirmed means: the violation ended the invocation, and no footprint entry
declares the key it reports. -/
theorem footprintFinding_confirmed {footprint : Footprint} {x : ErrorEvent} {ended : Bool} :
    (footprintFinding footprint x ended).confidence = .confirmed ↔
      ∃ address key, ended = true ∧ accessedKey x.event.data = some (address, key) ∧
        footprint.declared address key = [] := by
  constructor
  swap
  · rintro ⟨address, key, rfl, hkey, hdeclared⟩
    simp [footprintFinding, hkey, hdeclared, undeclaredFinding]
  intro h
  unfold footprintFinding at h
  split at h
  · next address key hkey =>
    simp only at h
    split at h
    · next hempty =>
      refine ⟨address, key, ?_, hkey, List.isEmpty_iff.mp hempty⟩
      cases ended with
      | true => rfl
      | false => cases h
    · cases h
  · cases ended <;> cases h

/-- A match of the footprint rule: a trap with events and Soroban data, and the
first event reporting a violation. -/
theorem footprintEntryMissing_matched {ctx : FailureContext} {c : CandidateCause}
    (h : footprintEntryMissing.evaluate ctx = .matched c) :
    ctx.model.stage = some .contractExecution ∧
      ctx.model.diagnostics.availability = .emitted ∧
      ∃ soroban x, ctx.model.soroban = some soroban ∧
        ctx.model.diagnostics.errors.find? ErrorEvent.isViolation = some x ∧
        c = footprintCandidate ctx.model soroban x := by
  obtain ⟨soroban, hgate, hc⟩ := behindGate_matched (fun _ => sorobanGate_candidate) h
  obtain ⟨hstage, havail, hsoroban⟩ := sorobanGate_ok.mp hgate
  refine ⟨hstage, havail, ?_⟩
  dsimp only at hc
  split at hc
  · cases hc
  · next x hfind => exact ⟨soroban, x, hsoroban, hfind, (RuleOutcome.matched.inj hc).symm⟩

/-- Behind the gate, the first violation decides. -/
theorem footprintEntryMissing_first {ctx : FailureContext} {soroban : SorobanData}
    {x : ErrorEvent} (hstage : ctx.model.stage = some .contractExecution)
    (havail : ctx.model.diagnostics.availability = .emitted)
    (hsoroban : ctx.model.soroban = some soroban)
    (hfind : ctx.model.diagnostics.errors.find? ErrorEvent.isViolation = some x) :
    footprintEntryMissing.evaluate ctx
      = .matched (footprintCandidate ctx.model soroban x) := by
  show footprintEntryMissingEvaluate ctx = _
  unfold footprintEntryMissingEvaluate
  rw [sorobanGate_ok.mpr ⟨hstage, havail, hsoroban⟩]
  simp only [behindGate, hfind]

end FootprintRule

/-! ## Positions of declared keys -/

theorem mem_declaredIn {readWrite : Bool} {keys : List LedgerKey} {address : ScAddress}
    {key : ScVal} {d : DeclaredKey} :
    d ∈ declaredIn readWrite keys address key ↔
      d.readWrite = readWrite ∧ ∃ (i : Nat) (k : LedgerKey), keys[i]? = some k ∧
        k.declares address key = some d.durability ∧ d.index = u32OrMax i := by
  unfold declaredIn
  rw [List.mem_filterMap]
  constructor
  · rintro ⟨⟨k, i⟩, hmem, hd⟩
    rw [Option.map_eq_some_iff] at hd
    obtain ⟨durability, hk, rfl⟩ := hd
    exact ⟨rfl, i, k, List.mem_zipIdx_iff_getElem?.mp hmem, hk, rfl⟩
  · rintro ⟨rfl, i, k, hi, hk, hindex⟩
    refine ⟨(k, i), List.mem_zipIdx_iff_getElem?.mpr hi, ?_⟩
    obtain ⟨readWrite, index, durability⟩ := d
    simp only at hk hindex
    simp [hk, hindex]

/-- In one list of the footprint, the positions found are those of the entries that declare
the key. -/
theorem mem_declaredIn_iff {readWrite : Bool} {keys : List LedgerKey} {address : ScAddress}
    {key : ScVal} {i : UInt32} (hlen : keys.length < UInt32.size) :
    (∃ d ∈ declaredIn readWrite keys address key, (d.readWrite, d.index) = (readWrite, i)) ↔
      ∃ k, keys[i.toNat]? = some k ∧ (k.declares address key).isSome = true := by
  constructor
  · rintro ⟨d, hd, heq⟩
    obtain ⟨-, j, k, hj, hk, hindex⟩ := mem_declaredIn.mp hd
    have hjlt : j < UInt32.size := Nat.lt_trans (List.getElem?_eq_some_iff.mp hj).1 hlen
    have hi : i = u32OrMax j := by rw [← hindex, (Prod.mk.inj heq).2]
    refine ⟨k, ?_, Option.isSome_of_eq_some hk⟩
    rw [hi, toNat_u32OrMax hjlt, hj]
  · rintro ⟨k, hk, hsome⟩
    obtain ⟨durability, hdeclares⟩ := Option.isSome_iff_exists.mp hsome
    have hi : i.toNat < UInt32.size := i.toNat_lt
    have hindex : i = u32OrMax i.toNat := UInt32.toNat_inj.mp (toNat_u32OrMax hi).symm
    exact ⟨⟨readWrite, i, durability⟩,
      mem_declaredIn.mpr ⟨rfl, i.toNat, k, hk, hdeclares, hindex⟩, rfl⟩

/-- Nothing found in one list is cited in the other. -/
theorem not_mem_declaredIn {flag readWrite : Bool} {keys : List LedgerKey}
    {address : ScAddress} {key : ScVal} {i : UInt32} (hne : flag ≠ readWrite) :
    ¬ ∃ d ∈ declaredIn flag keys address key, (d.readWrite, d.index) = (readWrite, i) := by
  rintro ⟨d, hd, heq⟩
  have hflag : d.readWrite = flag := (mem_declaredIn.mp hd).1
  have hcited : d.readWrite = readWrite := (Prod.mk.inj heq).1
  exact hne (hflag.symm.trans hcited)

theorem declaredIn_eq_nil {readWrite : Bool} {keys : List LedgerKey} {address : ScAddress}
    {key : ScVal} :
    declaredIn readWrite keys address key = [] ↔ ∀ k ∈ keys, k.declares address key = none := by
  unfold declaredIn
  rw [List.filterMap_eq_nil_iff]
  constructor
  · intro h k hk
    obtain ⟨i, hi⟩ := List.getElem?_of_mem hk
    have hnone := h (k, i) (List.mem_zipIdx_iff_getElem?.mpr hi)
    rwa [Option.map_eq_none_iff] at hnone
  · rintro h ⟨k, i⟩ hmem
    have hk : k ∈ keys := List.mem_of_getElem? (List.mem_zipIdx_iff_getElem?.mp hmem)
    rw [h k hk]
    rfl

/-- No entry declares the key exactly when no key of the footprint does. -/
theorem declared_eq_nil {f : Footprint} {address : ScAddress} {key : ScVal} :
    f.declared address key = [] ↔
      ∀ k ∈ f.readOnly ++ f.readWrite, k.declares address key = none := by
  rw [Footprint.declared, List.append_eq_nil_iff, declaredIn_eq_nil, declaredIn_eq_nil,
    List.forall_mem_append]

/-- The positions at which one list declares a key are distinct. -/
theorem nodup_declaredIn {readWrite : Bool} {keys : List LedgerKey} {address : ScAddress}
    {key : ScVal} (hlen : keys.length < UInt32.size) :
    ((declaredIn readWrite keys address key).map (fun d => (d.readWrite, d.index))).Nodup := by
  unfold declaredIn
  rw [List.map_filterMap]
  apply Scan.nodup_filterMap_zipIdx keys
  intro a i a' j b hi hj hb hb'
  simp only [Option.map_map, Option.map_eq_some_iff, Function.comp] at hb hb'
  obtain ⟨-, -, rfl⟩ := hb
  obtain ⟨-, -, heq⟩ := hb'
  have hindex : u32OrMax j = u32OrMax i := (Prod.mk.inj heq).2
  exact (u32OrMax_inj (Nat.lt_trans hj hlen) (Nat.lt_trans hi hlen) hindex).symm

/-- The positions at which a footprint declares a key are distinct. -/
theorem nodup_declared {f : Footprint} {address : ScAddress} {key : ScVal}
    (hlen : f.readOnly.length + f.readWrite.length < UInt32.size) :
    ((f.declared address key).map (fun d => (d.readWrite, d.index))).Nodup := by
  have hro : f.readOnly.length < UInt32.size := by omega
  have hrw : f.readWrite.length < UInt32.size := by omega
  unfold Footprint.declared
  rw [List.map_append, List.nodup_append]
  refine ⟨nodup_declaredIn hro, nodup_declaredIn hrw, ?_⟩
  intro p hp q hq hpq
  obtain ⟨d, hd, rfl⟩ := List.mem_map.mp hp
  obtain ⟨d', hd', rfl⟩ := List.mem_map.mp hq
  -- the two lists are told apart by the flag
  have hfalse : d.readWrite = false := (mem_declaredIn.mp hd).1
  have htrue : d'.readWrite = true := (mem_declaredIn.mp hd').1
  have hflag : d.readWrite = d'.readWrite := (Prod.mk.inj hpq).1
  rw [hfalse, htrue] at hflag
  cases hflag

end Observatory
