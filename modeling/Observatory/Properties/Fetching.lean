import Observatory.Properties.Sections
import Observatory.Rpc.Contract
import Observatory.Testutil

/-!
# Specs and the keys they were asked for

A spec that was fetched is recorded with the hash of the WASM it describes, and
that hash is trusted later.  What an endpoint answers for a key is decoded
without a look at the key the answer is for.

* `availability_eq_available` — what leads to a spec.
* `SpecsBelong` — the entries a spec came from are those asked for.
* `StoredUnderKeys` — the endpoint answers with entries under the keys it was sent.
* `specsBelong_of_keys` — then they are; and only then, where each contract has a spec.
-/

namespace Observatory

open Reading

/-! ## What leads to a spec -/

/-- The entry in the answer for a contract's instance. -/
def instanceEntry (decoder : EntryDecoder) (client : RpcClient) (contract : ContractId) :
    Except SourceError LedgerEntryData := do
  let result ← client.contractInstanceEntry contract
  singleEntry decoder "contract instance" result

/-- The entry in the answer for the code under a hash. -/
def codeEntry (decoder : EntryDecoder) (client : RpcClient) (hash : Hash) :
    Except SourceError LedgerEntryData := do
  let result ← client.contractCodeEntry hash
  singleEntry decoder "contract code" result

/-- The answers for a contract lead to a spec: they decode to a data entry that holds an
instance running the WASM under `hash`, and to a code entry whose WASM holds a spec. -/
structure LeadsToSpec (specs : SpecDecoder) (decoder : EntryDecoder) (client : RpcClient)
    (contract : ContractId) (d : ContractDataEntry) (hash : Hash) (code : ContractCodeEntry)
    (spec : ContractSpec) : Prop where
  /-- The answer for the instance. -/
  instanceEntry_eq : instanceEntry decoder client contract = .ok (.contractData d)
  /-- What the instance runs. -/
  executable_eq : (LedgerEntryData.contractData d).executable = .ok (.wasm hash)
  /-- The answer for the code. -/
  codeEntry_eq : codeEntry decoder client hash = .ok (.contractCode code)
  /-- The spec in the code. -/
  fromWasm_eq : ContractSpec.fromWasm specs code.code = .ok spec

section Leads

variable {specs : SpecDecoder} {decoder : EntryDecoder} {client : RpcClient}

theorem contractExecutable_eq_ok {contract : ContractId} {executable : ContractExecutable} :
    (client.source decoder).contractExecutable contract = .ok executable ↔
      ∃ d, instanceEntry decoder client contract = .ok (.contractData d) ∧
        (LedgerEntryData.contractData d).executable = .ok executable := by
  constructor
  · intro h
    obtain ⟨result, hresult, h⟩ := bind_eq_ok.mp h
    obtain ⟨entry, hentry, h⟩ := bind_eq_ok.mp h
    cases entry with
    | contractData d => exact ⟨d, bind_eq_ok.mpr ⟨result, hresult, hentry⟩, h⟩
    | _ => cases h
  · rintro ⟨d, hd, h⟩
    obtain ⟨result, hresult, hentry⟩ := bind_eq_ok.mp hd
    exact bind_eq_ok.mpr ⟨result, hresult, bind_eq_ok.mpr ⟨_, hentry, h⟩⟩

theorem contractWasm_eq_ok {hash : Hash} {wasm : List UInt8} :
    (client.source decoder).contractWasm hash = .ok wasm ↔
      ∃ code, codeEntry decoder client hash = .ok (.contractCode code) ∧ code.code = wasm := by
  constructor
  · intro h
    obtain ⟨result, hresult, h⟩ := bind_eq_ok.mp h
    obtain ⟨entry, hentry, h⟩ := bind_eq_ok.mp h
    cases entry with
    | contractCode code =>
        exact ⟨code, bind_eq_ok.mpr ⟨result, hresult, hentry⟩, Except.ok.inj h⟩
    | _ => cases h
  · rintro ⟨code, hcode, rfl⟩
    obtain ⟨result, hresult, hentry⟩ := bind_eq_ok.mp hcode
    exact bind_eq_ok.mpr ⟨result, hresult, bind_eq_ok.mpr ⟨_, hentry, rfl⟩⟩

theorem specFor_eq_available {source : ContractSource} {hash : Hash} {spec : ContractSpec} :
    specFor specs source hash = .available spec ↔
      ∃ wasm spec', source.contractWasm hash = .ok wasm ∧
      ContractSpec.fromWasm specs wasm = .ok spec' ∧ spec = spec'.withWasmHash hash := by
  unfold specFor
  cases hwasm : source.contractWasm hash with
  | error e => simp
  | ok wasm =>
      cases hspec : ContractSpec.fromWasm specs wasm with
      | error e => simp [hspec]
      | ok spec' => simp [hspec, eq_comm]

/-- A contract has a spec just when its answers lead to one. -/
theorem availability_eq_available {contract : ContractId} {spec : ContractSpec} :
    availability specs (client.source decoder) contract = .available spec ↔
      ∃ d hash code spec', LeadsToSpec specs decoder client contract d hash code spec' ∧
        spec = spec'.withWasmHash hash := by
  constructor
  · intro h
    unfold availability fetchAvailability at h
    split at h
    · next hash hexecutable =>
      obtain ⟨d, hd, hruns⟩ := contractExecutable_eq_ok.mp hexecutable
      obtain ⟨_, spec', hwasm, hspec, rfl⟩ := specFor_eq_available.mp h
      obtain ⟨code, hcode, rfl⟩ := contractWasm_eq_ok.mp hwasm
      exact ⟨d, hash, code, spec', ⟨hd, hruns, hcode, hspec⟩, rfl⟩
    all_goals cases h
  · rintro ⟨d, hash, code, spec', hleads, rfl⟩
    have hexecutable : (client.source decoder).contractExecutable contract = .ok (.wasm hash) :=
      contractExecutable_eq_ok.mpr ⟨d, hleads.instanceEntry_eq, hleads.executable_eq⟩
    have hwasm : (client.source decoder).contractWasm hash = .ok code.code :=
      contractWasm_eq_ok.mpr ⟨code, hleads.codeEntry_eq, rfl⟩
    unfold availability fetchAvailability
    rw [hexecutable]
    exact specFor_eq_available.mpr ⟨code.code, spec', hwasm, hleads.fromWasm_eq, rfl⟩

end Leads

/-! ## Whose entries they are -/

/-- The entry is the persistent instance entry of the contract. -/
def LedgerEntryData.IsInstanceOf (contract : ContractId) : LedgerEntryData → Prop
  | .contractData d => d.contract = .contract contract ∧ d.key = .ledgerKeyContractInstance ∧
      d.durability = .persistent
  | _ => False

/-- The entry is code stored under the hash. -/
def LedgerEntryData.IsCodeUnder (hash : Hash) : LedgerEntryData → Prop
  | .contractCode c => c.hash = hash
  | _ => False

/-- The specs fetched for these contracts came from the entries asked for. -/
def SpecsBelong (specs : SpecDecoder) (decoder : EntryDecoder) (client : RpcClient)
    (contracts : List ContractId) : Prop :=
  ∀ contract spec hash,
    fetchSpecs specs (client.source decoder) contracts contract = some (.available spec) →
    spec.wasmHash = some hash →
    (∃ entry, instanceEntry decoder client contract = .ok entry ∧ entry.IsInstanceOf contract) ∧
      ∃ entry, codeEntry decoder client hash = .ok entry ∧ entry.IsCodeUnder hash

/-- The key that an entry is stored under, for the entries that are asked for. -/
def LedgerEntryData.ledgerKey : LedgerEntryData → Option LedgerKey
  | .contractData d => some (.contractData ⟨d.contract, d.key, d.durability⟩)
  | .contractCode c => some (.contractCode c.hash)
  | _ => none

theorem ledgerKey_eq_instanceKey {entry : LedgerEntryData} {contract : ContractId} :
    entry.ledgerKey = some (Rpc.instanceKey contract) ↔ entry.IsInstanceOf contract := by
  cases entry <;> simp [LedgerEntryData.ledgerKey, Rpc.instanceKey, LedgerEntryData.IsInstanceOf]

theorem ledgerKey_eq_codeKey {entry : LedgerEntryData} {hash : Hash} :
    entry.ledgerKey = some (Rpc.codeKey hash) ↔ entry.IsCodeUnder hash := by
  cases entry <;> simp [LedgerEntryData.ledgerKey, Rpc.codeKey, LedgerEntryData.IsCodeUnder]

/-- The entries that an endpoint answers with, for the instances of these contracts and for the code
these run, are stored under the keys that were sent. -/
structure StoredUnderKeys (decoder : EntryDecoder) (client : RpcClient)
    (contracts : List ContractId) : Prop where
  instances : ∀ contract ∈ contracts, ∀ entry, instanceEntry decoder client contract = .ok entry →
    entry.ledgerKey = some (Rpc.instanceKey contract)
  code : ∀ contract ∈ contracts, ∀ entry hash, instanceEntry decoder client contract = .ok entry →
    entry.executable = .ok (.wasm hash) →
    ∀ codeEntry', codeEntry decoder client hash = .ok codeEntry' →
      codeEntry'.ledgerKey = some (Rpc.codeKey hash)

section Belong

variable {specs : SpecDecoder} {decoder : EntryDecoder} {client : RpcClient}
  {contracts : List ContractId}

/-- Entries under the keys that were sent are those asked for. -/
theorem specsBelong_of_stored (h : StoredUnderKeys decoder client contracts) :
    SpecsBelong specs decoder client contracts := by
  intro contract spec hash hfetched hhash
  rw [fetchSpecs_eq] at hfetched
  split at hfetched
  · next hmem =>
    obtain ⟨d, hash', code, spec', hleads, rfl⟩ :=
      availability_eq_available.mp (Option.some.inj hfetched)
    obtain rfl : hash' = hash := Option.some.inj hhash
    have hinstance := h.instances contract hmem _ hleads.instanceEntry_eq
    have hcode := h.code contract hmem _ hash' hleads.instanceEntry_eq hleads.executable_eq _
      hleads.codeEntry_eq
    exact ⟨⟨_, hleads.instanceEntry_eq, ledgerKey_eq_instanceKey.mp hinstance⟩,
      _, hleads.codeEntry_eq, ledgerKey_eq_codeKey.mp hcode⟩
  · cases hfetched

/-- Where every contract has a spec no other entries are. -/
theorem stored_of_specsBelong
    (havailable : ∀ contract ∈ contracts, ∃ spec,
      fetchSpecs specs (client.source decoder) contracts contract = some (.available spec))
    (h : SpecsBelong specs decoder client contracts) :
    StoredUnderKeys decoder client contracts := by
  have hleads : ∀ contract ∈ contracts, ∃ d hash code spec,
      LeadsToSpec specs decoder client contract d hash code spec ∧
        (LedgerEntryData.contractData d).IsInstanceOf contract ∧
        (LedgerEntryData.contractCode code).IsCodeUnder hash := by
    intro contract hmem
    obtain ⟨spec, hfetched⟩ := havailable contract hmem
    have havail := hfetched
    rw [fetchSpecs_eq, if_pos hmem] at havail
    obtain ⟨d, hash, code, spec', hleads, rfl⟩ :=
      availability_eq_available.mp (Option.some.inj havail)
    obtain ⟨⟨entry, hentry, hinstance⟩, entry', hentry', hcode⟩ := h contract _ hash hfetched rfl
    obtain rfl := Except.ok.inj (hleads.instanceEntry_eq.symm.trans hentry)
    obtain rfl := Except.ok.inj (hleads.codeEntry_eq.symm.trans hentry')
    exact ⟨d, hash, code, spec', hleads, hinstance, hcode⟩
  refine ⟨fun contract hmem entry hentry => ?_, fun contract hmem entry hash hentry hruns => ?_⟩
  · obtain ⟨d, hash, code, spec, hleads, hinstance, -⟩ := hleads contract hmem
    obtain rfl := Except.ok.inj (hleads.instanceEntry_eq.symm.trans hentry)
    exact ledgerKey_eq_instanceKey.mpr hinstance
  · obtain ⟨d, hash', code, spec, hleads, -, hcode⟩ := hleads contract hmem
    obtain rfl := Except.ok.inj (hleads.instanceEntry_eq.symm.trans hentry)
    obtain rfl : hash' = hash := by
      have hboth := hleads.executable_eq.symm.trans hruns
      rw [Except.ok.injEq, ContractExecutable.wasm.injEq] at hboth
      exact hboth
    intro answered hanswered
    obtain rfl := Except.ok.inj (hleads.codeEntry_eq.symm.trans hanswered)
    exact ledgerKey_eq_codeKey.mpr hcode

/-- **Whose specs they are.**  Where an endpoint answers with entries that are stored under the keys
it was sent, the specs fetched for any contracts came from the entries asked for.  Where each of the
contracts has a spec this is so exactly then. -/
theorem specsBelong_of_keys (specs : SpecDecoder) (decoder : EntryDecoder) (client : RpcClient)
    (contracts : List ContractId) :
    (StoredUnderKeys decoder client contracts → SpecsBelong specs decoder client contracts) ∧
      ((∀ contract ∈ contracts, ∃ spec, fetchSpecs specs (client.source decoder) contracts contract
          = some (.available spec)) →
        (SpecsBelong specs decoder client contracts ↔
          StoredUnderKeys decoder client contracts)) :=
  ⟨specsBelong_of_stored, fun havailable =>
    ⟨stored_of_specsBelong havailable, specsBelong_of_stored⟩⟩

end Belong

/-! ## An endpoint that answers with the entries of other keys -/

/-- A module with an empty section of this name. -/
def emptySpecWasm : List UInt8 :=
  wasmMagic ++ (wasmVersion ++ (0 :: ([15] ++ ([14] ++ (specSection.toUTF8.data.toList ++ [])))))

theorem fromWasm_emptySpecWasm :
    ContractSpec.fromWasm (fun _ _ => .ok []) emptySpecWasm = .ok (.fromEntries []) := by
  have hname : LebU32 [14] specSection.toUTF8.data.toList.length :=
    ⟨Leb128.Encodes.last 14 (by decide), by decide, by decide⟩
  have hsize : LebU32 [15] ([14] ++ (specSection.toUTF8.data.toList ++ [])).length :=
    ⟨Leb128.Encodes.last 15 (by decide), by decide, by decide⟩
  have hsection := SectionBytes.custom hsize ⟨[14], hname, rfl⟩
  have hmodule : ModuleBytes emptySpecWasm [.custom specSection.toUTF8.data.toList []] :=
    ⟨_, rfl, by simpa using Many.cons hsection Many.nil⟩
  have hsections : customSections emptySpecWasm specSection = .ok [[]] :=
    customSections_eq_contents.mpr ⟨_, hmodule, by simp [contents, Section.contentOf]⟩
  exact bind_eq_ok.mpr ⟨[[]], mapError_eq_ok.mpr (settle_eq_ok.mpr hsections), rfl⟩

/-- An answer with one entry. -/
def answerWith (xdr : String) : Json :=
  .object [("entries", .array [.object [("xdr", .string xdr)]])]

/-- An endpoint that answers every instance key with one entry, and every code key with one. -/
def strayClient : RpcClient where
  getLedgerEntries
    | .contractData _ => .ok (answerWith "instance")
    | _ => .ok (answerWith "code")

/-- The instance entry of contract 2, running the WASM under hash 9. -/
def strayInstance : ContractDataEntry :=
  ⟨.contract (cid 2), .ledgerKeyContractInstance, .persistent, .contractInstance (.wasm (.fill 9))⟩

/-- Code stored under hash 3. -/
def strayCode : ContractCodeEntry := ⟨.fill 3, emptySpecWasm⟩

def strayDecoder : EntryDecoder := fun encoded _ =>
  match encoded with
  | "instance" => .ok (.contractData strayInstance)
  | _ => .ok (.contractCode strayCode)

/-- The entries of contract 1, running the WASM under hash 9. -/
def ownDecoder : EntryDecoder := fun encoded _ =>
  match encoded with
  | "instance" => .ok (.contractData { strayInstance with contract := .contract (cid 1) })
  | _ => .ok (.contractCode { strayCode with hash := .fill 9 })

/-- Contract 1 gets the spec of the WASM it runs. -/
theorem specsBelong_own :
    SpecsBelong (fun _ _ => .ok []) ownDecoder strayClient [cid 1] ∧
      StoredUnderKeys ownDecoder strayClient [cid 1] := by
  have hown : StoredUnderKeys ownDecoder strayClient [cid 1] := by
    refine ⟨fun contract hmem entry hentry => ?_, fun contract hmem entry hash hentry hruns => ?_⟩
    · obtain rfl := List.mem_singleton.mp hmem
      obtain rfl := Except.ok.inj hentry
      rfl
    · obtain rfl := Except.ok.inj hentry
      obtain rfl := ContractExecutable.wasm.inj (Except.ok.inj hruns)
      intro answered hanswered
      obtain rfl := Except.ok.inj hanswered
      rfl
  exact ⟨(specsBelong_of_keys _ ownDecoder strayClient [cid 1]).1 hown, hown⟩

/-- Contract 1 gets the spec in the code under hash 3, recorded as that of hash 9, because
contract 2 runs it. -/
theorem specsBelong_fails :
    ¬ SpecsBelong (fun _ _ => .ok []) strayDecoder strayClient [cid 1] := by
  intro hbelong
  have hleads : LeadsToSpec (fun _ _ => .ok []) strayDecoder strayClient (cid 1) strayInstance
      (.fill 9) strayCode (.fromEntries []) := ⟨rfl, rfl, rfl, fromWasm_emptySpecWasm⟩
  have hfetched : fetchSpecs (fun _ _ => .ok []) (strayClient.source strayDecoder) [cid 1] (cid 1)
      = some (.available ((ContractSpec.fromEntries []).withWasmHash (.fill 9))) := by
    rw [fetchSpecs_eq, if_pos List.mem_cons_self,
      availability_eq_available.mpr ⟨_, _, _, _, hleads, rfl⟩]
  obtain ⟨⟨entry, hentry, hinstance⟩, -⟩ := hbelong (cid 1) _ (.fill 9) hfetched rfl
  rw [hleads.instanceEntry_eq] at hentry
  cases hentry
  exact absurd hinstance.1 (by decide)

end Observatory
