import Observatory.Lib.Memo
import Observatory.Rpc.Decode

/-!
# Obtaining contract specs

From contracts to their specs (`contract.rs`): the executable of each contract is
looked up, then the WASM it names, and the spec is read from that.  Ledger
entries come from an endpoint as JSON.  Decoding them, and decoding the entries
of a spec, are parameters.

* `decodeInstance`, `decodeCode` — what is taken from the two answers.
* `fetchSpecs` — the specs of a list of contracts, each WASM read once; `fetchSpecsM`
  is the same program for a source whose lookups have effects.
* `fetchSpecs_eq` — the spec of each contract is the one it would have alone.
-/

namespace Observatory

/-- A contract's code could not be obtained. -/
inductive SourceError where
  /-- No live entry exists for the key. -/
  | notFound (what : String)
  /-- The contract is not backed by WASM. -/
  | noWasm (reason : String)
  /-- The lookup failed. -/
  | lookup (error : String)
  /-- A response arrived but did not decode as expected. -/
  | malformed (error : String)
  deriving DecidableEq

def SourceError.display : SourceError → String
  | .notFound what => what ++ " not found; it may not exist on this network, or may be archived"
  | .noWasm reason => reason
  | .lookup e => "lookup failed: " ++ e
  | .malformed e => "malformed ledger entry: " ++ e

/-- Somewhere contract executables and WASM can be read from. -/
structure ContractSource where
  /-- The executable of a contract instance. -/
  contractExecutable : ContractId → Except SourceError ContractExecutable
  /-- The WASM stored under a code hash. -/
  contractWasm : Hash → Except SourceError (List UInt8)

/-- The ledger key of a contract's instance entry. -/
def Rpc.instanceKey (contract : ContractId) : LedgerKey :=
  .contractData ⟨.contract contract, .ledgerKeyContractInstance, .persistent⟩

/-- The ledger key of a WASM code entry. -/
def Rpc.codeKey (wasmHash : Hash) : LedgerKey := .contractCode wasmHash

/-! ## Decoding answers -/

/-- `from_xdr_base64` for the data of a ledger entry; an error comes with its text. -/
abbrev EntryDecoder : Type := String → Limits → Except String LedgerEntryData

/-- The single entry in a `getLedgerEntries` result. -/
def singleEntry (decoder : EntryDecoder) (what : String) (result : Json) :
    Except SourceError LedgerEntryData :=
  match (result.get "entries").bind Json.asArray with
  | none => .error (.malformed "result has no `entries` array")
  | some [] => .error (.notFound what)
  | some [entry] =>
      match entry.getStr "xdr" with
      | none => .error (.malformed "entry has no `xdr` field")
      | some xdr => (decoder xdr (limitsForBase64 xdr)).mapError .malformed
  | some more => .error (.malformed s!"expected one entry, got {more.length}")

/-- The executable in the entry of a contract instance. -/
def LedgerEntryData.executable : LedgerEntryData → Except SourceError ContractExecutable
  | .contractData d =>
      match d.val with
      | .contractInstance executable | .contractInstanceStorage executable _ => .ok executable
      | other => .error (.malformed
          ("instance entry holds " ++ other.name ++ " rather than a contract instance"))
  | other => .error (.malformed ("expected contract data, got " ++ other.name))

/-- The WASM in the entry of a contract's code. -/
def LedgerEntryData.wasm : LedgerEntryData → Except SourceError (List UInt8)
  | .contractCode c => .ok c.code
  | other => .error (.malformed ("expected contract code, got " ++ other.name))

/-- Decode a `getLedgerEntries` result for an instance key. -/
def decodeInstance (decoder : EntryDecoder) (result : Json) :
    Except SourceError ContractExecutable := do
  let entry ← singleEntry decoder "contract instance" result
  entry.executable

/-- Decode a `getLedgerEntries` result for a code key. -/
def decodeCode (decoder : EntryDecoder) (result : Json) : Except SourceError (List UInt8) := do
  let entry ← singleEntry decoder "contract code" result
  entry.wasm

/-! ## The endpoint -/

/-- An endpoint, by the results it gives for ledger keys; a failed call comes with its text. -/
structure RpcClient where
  /-- `getLedgerEntries` with this key alone. -/
  getLedgerEntries : LedgerKey → Except String Json

namespace RpcClient

def getLedgerEntry (client : RpcClient) (key : LedgerKey) : Except SourceError Json :=
  (client.getLedgerEntries key).mapError .lookup

/-- The result for a contract's instance. -/
def contractInstanceEntry (client : RpcClient) (contract : ContractId) :
    Except SourceError Json :=
  client.getLedgerEntry (Rpc.instanceKey contract)

/-- The result for a WASM code entry. -/
def contractCodeEntry (client : RpcClient) (wasmHash : Hash) : Except SourceError Json :=
  client.getLedgerEntry (Rpc.codeKey wasmHash)

/-- The endpoint as a source of contracts. -/
def source (decoder : EntryDecoder) (client : RpcClient) : ContractSource where
  contractExecutable contract := do
    let result ← client.contractInstanceEntry contract
    decodeInstance decoder result
  contractWasm wasmHash := do
    let result ← client.contractCodeEntry wasmHash
    decodeCode decoder result

end RpcClient

/-! ## Fetching -/

/-- The spec in the WASM under a hash, or the reason there is none. -/
def specFor (specs : SpecDecoder) (source : ContractSource) (hash : Hash) : SpecAvailability :=
  match source.contractWasm hash with
  | .ok wasm =>
      match ContractSpec.fromWasm specs wasm with
      | .ok spec => .available (spec.withWasmHash hash)
      | .error e => .unavailable e.display
  | .error e => .unavailable e.display

/-- The availability of one contract, with the specs by hash before and after. -/
def fetchAvailability (specs : SpecDecoder) (source : ContractSource)
    (byHash : Hash → Option SpecAvailability) (contract : ContractId) :
    SpecAvailability × (Hash → Option SpecAvailability) :=
  match source.contractExecutable contract with
  | .ok (.wasm hash) => Memo.getOrInsert (specFor specs source) byHash hash
  | .ok .stellarAsset =>
      (.unavailable "Stellar Asset Contract: built into the host, with no on-chain WASM spec",
        byHash)
  | .ok other =>
      (.unavailable ("contract executable `" ++ other.name ++ "` is not supported"), byHash)
  | .error e => (.unavailable e.display, byHash)

/-- One iteration of the loop of `fetch_specs`. -/
def fetchStep (specs : SpecDecoder) (source : ContractSource)
    (state : (Hash → Option SpecAvailability) × (ContractId → Option SpecAvailability))
    (contract : ContractId) :
    (Hash → Option SpecAvailability) × (ContractId → Option SpecAvailability) :=
  let (availability, byHash) := fetchAvailability specs source state.1 contract
  (byHash, Function.update state.2 contract (some availability))

/-- Obtain a spec, or the reason there is none, for each contract. -/
def fetchSpecs (specs : SpecDecoder) (source : ContractSource) (contracts : List ContractId) :
    ContractId → Option SpecAvailability :=
  (contracts.foldl (fetchStep specs source) (fun _ => none, fun _ => none)).2

/-! ### With the effects of the source

The same program for a source whose lookups have effects. -/

/-- Somewhere contract executables and WASM are read from, with effects. -/
structure ContractSourceM (m : Type → Type) where
  /-- The executable of a contract instance. -/
  contractExecutable : ContractId → m (Except SourceError ContractExecutable)
  /-- The WASM stored under a code hash. -/
  contractWasm : Hash → m (Except SourceError (List UInt8))

section Effects

variable {m : Type → Type} [Monad m]

/-- `spec_for` -/
def specForM (specs : SpecDecoder) (source : ContractSourceM m) (hash : Hash) :
    m SpecAvailability := do
  match ← source.contractWasm hash with
  | .ok wasm =>
      match ContractSpec.fromWasm specs wasm with
      | .ok spec => pure (.available (spec.withWasmHash hash))
      | .error e => pure (.unavailable e.display)
  | .error e => pure (.unavailable e.display)

/-- The availability of one contract, with the specs by hash before and after. -/
def fetchAvailabilityM (specs : SpecDecoder) (source : ContractSourceM m)
    (byHash : Hash → Option SpecAvailability) (contract : ContractId) :
    m (SpecAvailability × (Hash → Option SpecAvailability)) := do
  match ← source.contractExecutable contract with
  | .ok (.wasm hash) => Memo.getOrInsertM (specForM specs source) byHash hash
  | .ok .stellarAsset =>
      pure (.unavailable "Stellar Asset Contract: built into the host, with no on-chain WASM spec",
        byHash)
  | .ok other =>
      pure (.unavailable ("contract executable `" ++ other.name ++ "` is not supported"), byHash)
  | .error e => pure (.unavailable e.display, byHash)

/-- One iteration of the loop of `fetch_specs`. -/
def fetchStepM (specs : SpecDecoder) (source : ContractSourceM m)
    (state : (Hash → Option SpecAvailability) × (ContractId → Option SpecAvailability))
    (contract : ContractId) :
    m ((Hash → Option SpecAvailability) × (ContractId → Option SpecAvailability)) := do
  let (availability, byHash) ← fetchAvailabilityM specs source state.1 contract
  pure (byHash, Function.update state.2 contract (some availability))

/-- `fetch_specs` -/
def fetchSpecsM (specs : SpecDecoder) (source : ContractSourceM m) (contracts : List ContractId) :
    m (ContractId → Option SpecAvailability) := do
  let state ← contracts.foldlM (fetchStepM specs source) (fun _ => none, fun _ => none)
  pure state.2

end Effects

/-- A source that lists the calls of `contract_wasm`. -/
def ContractSource.recorded (source : ContractSource) : ContractSourceM (StateM (List Hash)) where
  contractExecutable contract := pure (source.contractExecutable contract)
  contractWasm hash := Memo.recording source.contractWasm hash

section Fetching

variable {specs : SpecDecoder} {source : ContractSource}

/-- The availability of a contract when nothing was fetched before. -/
def availability (specs : SpecDecoder) (source : ContractSource) (contract : ContractId) :
    SpecAvailability :=
  (fetchAvailability specs source (fun _ => none) contract).1

theorem fetchAvailability_fst {byHash : Hash → Option SpecAvailability}
    (h : Memo.Agrees (specFor specs source) byHash) (contract : ContractId) :
    (fetchAvailability specs source byHash contract).1 = availability specs source contract := by
  unfold availability fetchAvailability
  split
  · rw [Memo.getOrInsert_fst h, Memo.getOrInsert_fst Memo.agrees_none]
  all_goals rfl

theorem agrees_fetchAvailability {byHash : Hash → Option SpecAvailability}
    (h : Memo.Agrees (specFor specs source) byHash) (contract : ContractId) :
    Memo.Agrees (specFor specs source) (fetchAvailability specs source byHash contract).2 := by
  unfold fetchAvailability
  split
  · exact Memo.agrees_getOrInsert h _
  all_goals exact h

/-- **Each contract as if alone.**  The specs kept by hash change no answer. -/
theorem fetchSpecs_eq (contracts : List ContractId) (contract : ContractId) :
    fetchSpecs specs source contracts contract
      = if contract ∈ contracts then some (availability specs source contract) else none := by
  refine Memo.foldl_update (Memo.Agrees (specFor specs source)) ?_ Memo.agrees_none _ _ _
  intro byHash out c h
  refine ⟨agrees_fetchAvailability h c, ?_⟩
  show Function.update out c (some (fetchAvailability specs source byHash c).1) = _
  rw [fetchAvailability_fst h c]

end Fetching

end Observatory
