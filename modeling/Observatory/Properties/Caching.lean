import Observatory.Rpc.Contract

/-!
# Specs kept by hash

`fetch_specs` keeps the spec it read under each WASM hash for the rest of the call.
What it returns for a contract is what a lookup of that contract alone, without
anything kept, gives; and `contract_wasm` is called once for each hash.

* `uncached` — the lookup of one contract.
* `fetchSpecsM_recorded` — the specs, and the calls that are made for them.
* `fetchSpecs_transparent` — the two together.
-/

namespace Observatory

section Caching

variable {specs : SpecDecoder} {source : ContractSource}

/-- The lookup of a contract, with nothing kept. -/
def uncached (specs : SpecDecoder) (source : ContractSource) (contract : ContractId) :
    SpecAvailability :=
  match source.contractExecutable contract with
  | .ok (.wasm hash) => specFor specs source hash
  | .ok .stellarAsset =>
      .unavailable "Stellar Asset Contract: built into the host, with no on-chain WASM spec"
  | .ok other => .unavailable ("contract executable `" ++ other.name ++ "` is not supported")
  | .error e => .unavailable e.display

theorem availability_eq_uncached (contract : ContractId) :
    availability specs source contract = uncached specs source contract := by
  unfold availability fetchAvailability uncached
  cases source.contractExecutable contract with
  | error e => rfl
  | ok executable => cases executable <;> rfl

/-- The hash a contract's executable names. -/
def ContractSource.wasmHash (source : ContractSource) (contract : ContractId) : Option Hash :=
  match source.contractExecutable contract with
  | .ok (.wasm hash) => some hash
  | _ => none

theorem wasmHash_eq_some {contract : ContractId} {hash : Hash} :
    source.wasmHash contract = some hash ↔
      source.contractExecutable contract = .ok (.wasm hash) := by
  unfold ContractSource.wasmHash
  split
  · next hash' h => simp [h]
  · next h => simpa using h hash

/-! ## The calls -/

/-- Reading the spec under a hash is one call. -/
theorem specForM_recorded :
    specForM specs source.recorded = Memo.recording (specFor specs source) := by
  funext hash calls
  show specForM specs source.recorded hash calls = (specFor specs source hash, calls ++ [hash])
  have hcall : source.recorded.contractWasm hash
      = fun calls => (source.contractWasm hash, calls ++ [hash]) := rfl
  unfold specForM specFor
  rw [hcall]
  cases source.contractWasm hash with
  | error e => rfl
  | ok wasm =>
      simp only [bind, StateT.bind]
      cases ContractSpec.fromWasm specs wasm <;> rfl

/-- The calls after a contract: its hash is asked for when it is new. -/
def callsAfter (source : ContractSource) (calls : List Hash) (contract : ContractId) : List Hash :=
  match source.wasmHash contract with
  | some hash => Scan.pushNew calls hash
  | none => calls

theorem foldl_callsAfter (contracts : List ContractId) (calls : List Hash) :
    contracts.foldl (callsAfter source) calls
      = (contracts.filterMap source.wasmHash).foldl Scan.pushNew calls := by
  induction contracts generalizing calls with
  | nil => rfl
  | cons contract contracts ih =>
      rw [List.foldl_cons, ih]
      unfold callsAfter
      cases h : source.wasmHash contract with
      | none => rw [List.filterMap_cons_none h]
      | some hash => rw [List.filterMap_cons_some h, List.foldl_cons]

variable {byHash : Hash → Option SpecAvailability} {calls : List Hash}

/-- Looking a contract up asks for its hash when nothing is kept under it. -/
theorem fetchAvailabilityM_recorded (h : Memo.Recorded byHash calls) (contract : ContractId) :
    (fetchAvailabilityM specs source.recorded byHash contract).run calls
      = (fetchAvailability specs source byHash contract, callsAfter source calls contract) := by
  have hcall : source.recorded.contractExecutable contract
      = pure (source.contractExecutable contract) := rfl
  unfold fetchAvailabilityM fetchAvailability callsAfter ContractSource.wasmHash
  rw [hcall, pure_bind]
  cases source.contractExecutable contract with
  | error e => rfl
  | ok executable =>
      cases executable with
      | wasm hash =>
          rw [specForM_recorded]
          exact Memo.getOrInsertM_recording h hash
      | _ => rfl

/-- What is kept after a contract is what was asked for. -/
theorem recorded_fetchAvailability (h : Memo.Recorded byHash calls) (contract : ContractId) :
    Memo.Recorded (fetchAvailability specs source byHash contract).2
      (callsAfter source calls contract) := by
  unfold fetchAvailability callsAfter ContractSource.wasmHash
  cases source.contractExecutable contract with
  | error e => exact h
  | ok executable =>
      cases executable with
      | wasm hash => exact Memo.recorded_getOrInsert h hash
      | _ => exact h

/-- A step of `fetch_specs` asks for the WASM of a hash that it meets for the first time. -/
theorem fetchStepM_recorded (h : Memo.Recorded byHash calls)
    (out : ContractId → Option SpecAvailability) (contract : ContractId) :
    (fetchStepM specs source.recorded (byHash, out) contract).run calls
      = (fetchStep specs source (byHash, out) contract, callsAfter source calls contract) := by
  unfold fetchStepM
  rw [StateT.run_bind, fetchAvailabilityM_recorded h]
  rfl

/-- The loop with its calls: each hash is asked for where it first comes up. -/
theorem foldlM_recorded (h : Memo.Recorded byHash calls)
    (out : ContractId → Option SpecAvailability) (contracts : List ContractId) :
    (contracts.foldlM (fetchStepM specs source.recorded) (byHash, out)).run calls
      = (contracts.foldl (fetchStep specs source) (byHash, out),
          contracts.foldl (callsAfter source) calls) := by
  induction contracts generalizing byHash out calls with
  | nil => rfl
  | cons contract contracts ih =>
      have hkept : Memo.Recorded (fetchStep specs source (byHash, out) contract).1
          (callsAfter source calls contract) := recorded_fetchAvailability h contract
      rw [List.foldlM_cons, StateT.run_bind, fetchStepM_recorded h]
      exact ih hkept (fetchStep specs source (byHash, out) contract).2

/-- The specs, and what was asked for to have them. -/
theorem fetchSpecsM_recorded (contracts : List ContractId) :
    (fetchSpecsM specs source.recorded contracts).run []
      = (fetchSpecs specs source contracts,
          Scan.distinct (contracts.filterMap source.wasmHash)) := by
  unfold fetchSpecsM
  rw [StateT.run_bind, foldlM_recorded Memo.recorded_none, foldl_callsAfter]
  rfl

theorem uncached_available {contract : ContractId} {spec : ContractSpec}
    (h : uncached specs source contract = .available spec) :
    ∃ hash, source.contractExecutable contract = .ok (.wasm hash) ∧ spec.wasmHash = some hash := by
  unfold uncached at h
  cases hexec : source.contractExecutable contract with
  | error e =>
      rw [hexec] at h
      cases h
  | ok executable =>
      rw [hexec] at h
      cases executable with
      | wasm hash =>
          refine ⟨hash, rfl, ?_⟩
          replace h : specFor specs source hash = .available spec := h
          unfold specFor at h
          split at h
          · split at h
            · cases h
              rfl
            · cases h
          · cases h
      | _ => cases h

/-- **The kept specs change no answer.**  Whatever the source answers, and whatever list
of contracts is asked for, `fetch_specs` has an entry for exactly the contracts of the
list, each the one a lookup of that contract alone gives; `contract_wasm` is called once
for each hash an executable of theirs names, and for no other; and a spec that is there
carries the hash its contract's executable names. -/
theorem fetchSpecs_transparent (specs : SpecDecoder) (source : ContractSource)
    (contracts : List ContractId) :
    ∃ out calls, (fetchSpecsM specs source.recorded contracts).run [] = (out, calls) ∧
      (∀ contract, out contract
        = if contract ∈ contracts then some (uncached specs source contract) else none) ∧
      calls.Nodup ∧
      (∀ hash, hash ∈ calls ↔
        ∃ contract ∈ contracts, source.contractExecutable contract = .ok (.wasm hash)) ∧
      ∀ contract spec, out contract = some (.available spec) →
        ∃ hash, source.contractExecutable contract = .ok (.wasm hash) ∧
          spec.wasmHash = some hash := by
  have hout : ∀ contract, fetchSpecs specs source contracts contract
      = if contract ∈ contracts then some (uncached specs source contract) else none := by
    intro contract
    rw [fetchSpecs_eq, availability_eq_uncached]
  refine ⟨_, _, fetchSpecsM_recorded contracts, hout, Scan.nodup_distinct _, ?_, ?_⟩
  · intro hash
    simp only [Scan.mem_distinct, List.mem_filterMap, wasmHash_eq_some]
  · intro contract spec hspec
    rw [hout contract] at hspec
    split at hspec
    · exact uncached_available (Option.some.inj hspec)
    · cases hspec

end Caching

end Observatory
