import Observatory.Testutil

/-!
# Specs and the code that ran

A spec is taken for the code that ran when its WASM hash is in the footprint.
The footprint lists the code of every contract of the transaction, so the check
cannot tell a contract's own code from another's.

* `LoadedCode` — what a transaction ran, with a footprint that lists it.
* `SpecOfRan` — a name verified for a contract was read from that contract's code.
* `resolve_specOfRan` — when that holds, for one spec and for a footprint.
-/

namespace Observatory

/-- The footprint lists the WASM with this hash. -/
def Footprint.ListsCode (f : Footprint) (hash : Hash) : Prop :=
  .contractCode hash ∈ f.readOnly ++ f.readWrite

theorem mem_contractCodeHashes {f : Footprint} {hash : Hash} :
    hash ∈ f.contractCodeHashes ↔ f.ListsCode hash := by
  unfold Footprint.contractCodeHashes Footprint.ListsCode
  rw [List.mem_filterMap]
  constructor
  · rintro ⟨key, hkey, hcode⟩
    cases key with
    | contractCode hash' =>
        obtain rfl := Option.some.inj hcode
        exact hkey
    | _ => cases hcode
  · intro h
    exact ⟨.contractCode hash, h, rfl⟩

/-- The WASM contracts a transaction ran, and the code each of them had; the footprint
lists all of it. -/
structure LoadedCode where
  /-- The footprint of the transaction. -/
  footprint : Footprint
  /-- The WASM contracts that ran. -/
  contracts : List ContractId
  /-- The WASM hash a contract had when the transaction executed. -/
  ran : ContractId → Hash
  /-- The footprint lists what ran. -/
  listed : ∀ d ∈ contracts, footprint.ListsCode (ran d)

/-- A name verified for `c` was read from the spec of the code `c` ran. -/
def LoadedCode.SpecOfRan (e : LoadedCode) (c : ContractId) (code : UInt32)
    (identification : ContractIdentification) (specs : ContractId → Option SpecAvailability) :
    Prop :=
  ∀ enumName caseName doc hash,
    resolve (.contract code) identification specs (some e.footprint.contractCodeHashes)
      = .resolved c enumName caseName doc (.matchesFootprint hash) → hash = e.ran c

/-- The spec supplied for `c` is that of other code in the footprint, and declares this
code under one name. -/
def LoadedCode.SuppliesOther (e : LoadedCode) (c : ContractId) (code : UInt32)
    (specs : ContractId → Option SpecAvailability) : Prop :=
  ∃ spec hash case, specs c = some (.available spec) ∧ spec.wasmHash = some hash ∧
    hash ≠ e.ran c ∧ e.footprint.ListsCode hash ∧ spec.Declares code case

/-- The code of `c` is the only code the footprint lists. -/
def LoadedCode.OnlyCode (e : LoadedCode) (c : ContractId) : Prop :=
  ∀ hash, e.footprint.ListsCode hash ↔ hash = e.ran c

/-- For one identified contract and one spec, exactly a spec of other listed code goes
wrong. -/
theorem specOfRan_iff (e : LoadedCode) (c : ContractId) (code : UInt32)
    (identification : ContractIdentification) (specs : ContractId → Option SpecAvailability)
    (hid : identification.contract = some c) :
    e.SpecOfRan c code identification specs ↔ ¬ e.SuppliesOther c code specs := by
  constructor
  · rintro hran ⟨spec, hash, case, hspec, hwasm, hne, hlisted, hdeclares⟩
    obtain ⟨enumName, caseName, doc, hres⟩ :=
      resolve_of_declares hid hspec hwasm (mem_contractCodeHashes.mpr hlisted) hdeclares
    exact hne (hran enumName caseName doc hash hres)
  · intro hnone enumName caseName doc hash hres
    obtain ⟨-, spec, hashes, case, hspec, hwasm, hloaded, hmem, hdeclares, -⟩ :=
      resolve_matchesFootprint hres
    obtain rfl := Option.some.inj hloaded
    by_contra hne
    exact hnone ⟨spec, hash, case, hspec, hwasm, hne, mem_contractCodeHashes.mp hmem, hdeclares⟩

/-- A spec of the given code that declares the error under some name. -/
def specNaming (hash : Hash) (code : UInt32) : ContractSpec :=
  { wasmHash := some hash
    errorEnums := [⟨"Error", "", "", [⟨"Failed", code, ""⟩]⟩]
    entryCount := 1 }

theorem specNaming_declares (hash : Hash) (code : UInt32) :
    (specNaming hash code).Declares code ⟨"Failed", code, ""⟩ := by
  simp [ContractSpec.Declares, specNaming]

/-- **The spec of the code that ran.**  For one spec, a verified name comes from the code
`c` ran unless the spec is that of other code in the footprint that declares the
error as well.  For a footprint, it does whatever spec is supplied exactly when the
footprint lists no code but that of `c`. -/
theorem resolve_specOfRan (e : LoadedCode) (c : ContractId) (hc : c ∈ e.contracts) :
    (∀ code identification specs, identification.contract = some c →
      (e.SpecOfRan c code identification specs ↔ ¬ e.SuppliesOther c code specs)) ∧
    ((∀ code identification specs, e.SpecOfRan c code identification specs) ↔ e.OnlyCode c) := by
  refine ⟨specOfRan_iff e c, ?_⟩
  constructor
  · intro hran hash
    constructor
    · intro hlisted
      let specs : ContractId → Option SpecAvailability :=
        fun _ => some (.available (specNaming hash 0))
      by_contra hne
      have hsupplied : e.SuppliesOther c 0 specs :=
        ⟨_, hash, _, rfl, rfl, hne, hlisted, specNaming_declares hash 0⟩
      exact (specOfRan_iff e c 0 (.unique c .soleEmitter) specs rfl).mp (hran _ _ _) hsupplied
    · rintro rfl
      exact e.listed c hc
  · intro honly code identification specs enumName caseName doc hash hres
    obtain ⟨-, spec, hashes, case, -, -, hloaded, hmem, -, -⟩ := resolve_matchesFootprint hres
    obtain rfl := Option.some.inj hloaded
    exact (honly hash).mp (mem_contractCodeHashes.mp hmem)

/-! ## A spec of other code -/

/-- `cid(5)` and `cid(6)` ran different code. -/
def twoContracts : LoadedCode where
  footprint := ⟨[codeKey (.fill 1), codeKey (.fill 2)], []⟩
  contracts := [cid 5, cid 6]
  ran c := if c = cid 5 then .fill 1 else .fill 2
  listed := by
    unfold Footprint.ListsCode
    decide

/-- Since then, `cid(5)` was upgraded to the code of `cid(6)`. -/
def upgradedSpecs (c : ContractId) : Option SpecAvailability :=
  if c = cid 5 then some (errorSpec (some (.fill 2)) [("Boom", 9)]) else none

/-- The name is read from the new code and said to be that of the code that ran. -/
theorem resolve_upgraded :
    cid 5 ∈ twoContracts.contracts ∧
      resolve (.contract 9) (.unique (cid 5) .soleEmitter) upgradedSpecs
          (some twoContracts.footprint.contractCodeHashes)
        = .resolved (cid 5) "Error" "Boom" "" (.matchesFootprint (.fill 2)) ∧
      twoContracts.ran (cid 5) = .fill 1 ∧
      ¬ twoContracts.SpecOfRan (cid 5) 9 (.unique (cid 5) .soleEmitter) upgradedSpecs := by
  have hres : resolve (.contract 9) (.unique (cid 5) .soleEmitter) upgradedSpecs
      (some twoContracts.footprint.contractCodeHashes)
        = .resolved (cid 5) "Error" "Boom" "" (.matchesFootprint (.fill 2)) := by decide
  refine ⟨by decide, hres, by decide, ?_⟩
  intro hran
  have heq : Hash.fill 2 = twoContracts.ran (cid 5) := hran _ _ _ _ hres
  revert heq
  decide

theorem resolve_specOfRan_twoContracts :
    (∀ code identification specs, identification.contract = some (cid 5) →
      (twoContracts.SpecOfRan (cid 5) code identification specs ↔
        ¬ twoContracts.SuppliesOther (cid 5) code specs)) ∧
    ((∀ code identification specs, twoContracts.SpecOfRan (cid 5) code identification specs) ↔
      twoContracts.OnlyCode (cid 5)) :=
  resolve_specOfRan twoContracts (cid 5) (by decide)

end Observatory
