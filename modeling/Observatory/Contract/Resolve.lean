import Mathlib.Data.List.Sort
import Observatory.Model.Transaction

/-!
# Resolving contract errors

From `Error(Contract, n)` to the name the contract declared
(`contract/resolve.rs`).  Three questions are asked in order: which contract
raised it (`identify`), is that contract's spec at hand, and is the spec for the
code that ran (`resolve`).

`identify` walks the error events once with two accumulators;
`identify_eq` says that these are the distinct emitters of the code, and of the
code with the origin marker.
-/

namespace Observatory

/-- `str::starts_with`. -/
def startsWith (text start : String) : Bool := start.toList.isPrefixOf text.toList

/-- The host's message on the error event of a contract raising its own error. -/
def originMarker : String := "failing with contract error"

/-- How a contract was singled out as the one that raised an error. -/
inductive IdentificationBasis where
  /-- It was the only contract that emitted an error event with this value. -/
  | soleEmitter
  /-- Several contracts emitted it; only this one emitted the origin marker. -/
  | originMarker
  deriving DecidableEq

/-- Which contract raised an error. -/
inductive ContractIdentification where
  /-- Exactly one contract. -/
  | unique (contract : ContractId) (basis : IdentificationBasis)
  /-- Several contracts, and nothing in the events separates them. -/
  | ambiguous (candidates : List ContractId)
  /-- No error event attributes the value to any contract. -/
  | unidentified
  deriving DecidableEq

/-- The contract, if exactly one was identified. -/
def ContractIdentification.contract : ContractIdentification → Option ContractId
  | .unique contract _ => some contract
  | _ => none

theorem ContractIdentification.contract_eq_some {identification : ContractIdentification}
    {c : ContractId} :
    identification.contract = some c ↔ ∃ basis, identification = .unique c basis := by
  cases identification <;> simp [ContractIdentification.contract]

/-- Whether a spec is known to describe the code that ran. -/
inductive SpecProvenance where
  /-- The spec's WASM hash is in the transaction's footprint. -/
  | matchesFootprint (wasmHash : Hash)
  /-- There is no hash, or no footprint to check it against. -/
  | unverified
  deriving DecidableEq

/-- The outcome of trying to name one contract error. -/
inductive ErrorResolution where
  /-- The contract's spec declares a name for the code. -/
  | resolved (contract : ContractId) (enumName caseName doc : String)
      (provenance : SpecProvenance)
  /-- The spec declares no name for this code. -/
  | codeNotInSpec (contract : ContractId) (provenance : SpecProvenance)
  /-- The spec declares the code under more than one name. -/
  | ambiguousInSpec (contract : ContractId) (candidates : List (String × String))
  /-- The contract was identified but its spec could not be obtained. -/
  | specUnavailable (contract : ContractId) (reason : String)
  /-- A spec was obtained, but for WASM the transaction did not load. -/
  | specVersionMismatch (contract : ContractId) (specWasmHash : Hash)
  /-- No single contract could be identified. -/
  | contractNotIdentified
  /-- The error is not a contract-defined error. -/
  | notApplicable
  deriving DecidableEq

/-- The resolved case name, only when resolution fully succeeded. -/
def ErrorResolution.name : ErrorResolution → Option String
  | .resolved _ _ caseName _ _ => some caseName
  | _ => none

/-- Everything known about one contract error code seen in a transaction. -/
structure ContractErrorReport where
  /-- The code, as in `Error(Contract, code)`. -/
  code : UInt32
  /-- Whether this is the error the invocation as a whole failed with. -/
  terminal : Bool
  /-- Diagnostic events carrying this error value. -/
  eventIndexes : List UInt32
  /-- Which contract raised it. -/
  identification : ContractIdentification
  /-- Whether a name could be found. -/
  resolution : ErrorResolution
  deriving DecidableEq

/-! ## Identification -/

/-- An error event carries the message of a contract raising its own error. -/
def ErrorEvent.isOrigin (x : ErrorEvent) : Bool :=
  x.message.any (fun m => startsWith m originMarker)

/-- The body of `identify`'s loop, on the emitters and the origins found so far. -/
def identifyStep (target : ScError) (acc : List ContractId × List ContractId) (x : ErrorEvent) :
    List ContractId × List ContractId :=
  match x.event.contract with
  | none => acc
  | some contract =>
      if x.error ≠ target then acc
      else (Scan.pushNew acc.1 contract,
        if x.isOrigin then Scan.pushNew acc.2 contract else acc.2)

/-- The decision `identify` takes on the emitters and the origins. -/
def decideEmitter (emitters origins : List ContractId) : ContractIdentification :=
  match emitters, origins with
  | [], _ => .unidentified
  | [only], _ => .unique only .soleEmitter
  | _, [origin] => .unique origin .originMarker
  | _, _ => .ambiguous emitters

/-- Identify the contract that raised `Error(Contract, code)`. -/
def identify (model : TransactionModel) (code : UInt32) : ContractIdentification :=
  let found := model.diagnostics.errors.foldl (identifyStep (.contract code)) ([], [])
  decideEmitter found.1 found.2

/-! ## Resolution -/

/-- The provenance of a spec with the given WASM hash; a hash the transaction did
not load is handed back. -/
def provenanceOf (wasmHash : Option Hash) (footprintCodeHashes : Option (List Hash)) :
    Except Hash SpecProvenance :=
  match wasmHash, footprintCodeHashes with
  | some hash, some loaded =>
      if loaded.isEmpty then .ok .unverified
      else if loaded.contains hash then .ok (.matchesFootprint hash)
      else .error hash
  | _, _ => .ok .unverified

/-- Name a code from an available spec. -/
def resolveFrom (code : UInt32) (contract : ContractId) (spec : ContractSpec)
    (footprintCodeHashes : Option (List Hash)) : ErrorResolution :=
  match provenanceOf spec.wasmHash footprintCodeHashes with
  | .error hash => .specVersionMismatch contract hash
  | .ok provenance =>
      match spec.lookup code with
      | .found errorEnum case =>
          .resolved contract errorEnum.name case.name case.doc provenance
      | .notFound => .codeNotInSpec contract provenance
      | .conflicting candidates =>
          .ambiguousInSpec contract (candidates.map (fun p => (p.1.name, p.2.name)))

/-- Resolve one error against the supplied specs.  `footprintCodeHashes` is the
set of WASM hashes the transaction loaded. -/
def resolve (error : ScError) (identification : ContractIdentification)
    (specs : ContractId → Option SpecAvailability) (footprintCodeHashes : Option (List Hash)) :
    ErrorResolution :=
  match error, identification.contract with
  | .contract code, some contract =>
      match specs contract with
      | some (.available spec) => resolveFrom code contract spec footprintCodeHashes
      | some (.unavailable reason) => .specUnavailable contract reason
      | none => .specUnavailable contract "no contract spec was supplied for this contract"
  | .contract _, none => .contractNotIdentified
  | _, _ => .notApplicable

/-- The code of a contract-defined error. -/
def ScError.contractCode : ScError → Option UInt32
  | .contract code => some code
  | _ => none

/-- The code the invocation as a whole failed with, if that is a contract error. -/
def TransactionModel.terminalCode (model : TransactionModel) : Option UInt32 :=
  model.diagnostics.terminalError.bind (fun t => t.error.contractCode)

/-- The WASM hashes the transaction loaded, when it has a footprint. -/
def TransactionModel.codeHashes (model : TransactionModel) : Option (List Hash) :=
  model.soroban.map (fun s => s.footprint.contractCodeHashes)

/-- The contract error codes of a transaction: the terminal one first, then by
first appearance. -/
def contractErrorCodes (model : TransactionModel) : List UInt32 :=
  let terminal := model.terminalCode
  let raised := (model.diagnostics.errors.filterMap (fun x => x.error.contractCode)).foldl
    Scan.pushNew []
  let codes := match terminal with
    | some code => Scan.pushNew raised code
    | none => raised
  codes.insertionSort (fun a b => (some a != terminal) ≤ (some b != terminal))

/-- The report on one code. -/
def contractErrorReport (model : TransactionModel) (specs : ContractId → Option SpecAvailability)
    (code : UInt32) : ContractErrorReport :=
  let identification := identify model code
  { code
    terminal := some code == model.terminalCode
    eventIndexes :=
      (model.diagnostics.errors.filter (fun x => x.error == .contract code)).map
          (fun x => x.event.index)
        ++ (match model.diagnostics.terminalError with
          | some t => if t.error = .contract code then [t.eventIndex] else []
          | none => [])
    identification
    resolution := resolve (.contract code) identification specs model.codeHashes }

/-- Every contract error code in the diagnostic events, resolved against the
supplied specs. -/
def resolveContractErrors (model : TransactionModel)
    (specs : ContractId → Option SpecAvailability) : List ContractErrorReport :=
  (contractErrorCodes model).map (contractErrorReport model specs)

/-- Contracts whose specs are needed to resolve this transaction's errors. -/
def contractsNeedingSpecs (model : TransactionModel) : List ContractId :=
  ((resolveContractErrors model (fun _ => none)).filterMap
    (fun report => report.identification.contract)).foldl Scan.pushNew []

/-! ## What resolution rests on -/

/-- A hash that was checked against the footprint is the spec's and is in it. -/
theorem provenanceOf_matches {wasmHash : Option Hash} {loaded : Option (List Hash)} {hash : Hash}
    (h : provenanceOf wasmHash loaded = .ok (.matchesFootprint hash)) :
    wasmHash = some hash ∧ ∃ hashes, loaded = some hashes ∧ hash ∈ hashes := by
  unfold provenanceOf at h
  split at h
  · next hash' hashes =>
    split at h
    · cases h
    · split at h
      · next hmem =>
        simp only [Except.ok.injEq, SpecProvenance.matchesFootprint.injEq] at h
        subst h
        exact ⟨rfl, hashes, rfl, List.contains_iff_mem.mp hmem⟩
      · cases h
  · cases h

/-- A name is read from the spec supplied for the identified contract. -/
theorem resolve_eq_resolved {code : UInt32} {identification : ContractIdentification}
    {specs : ContractId → Option SpecAvailability} {loaded : Option (List Hash)}
    {c : ContractId} {enumName caseName doc : String} {provenance : SpecProvenance}
    (h : resolve (.contract code) identification specs loaded
      = .resolved c enumName caseName doc provenance) :
    ∃ contract spec, identification.contract = some contract ∧
      specs contract = some (.available spec) ∧
      resolveFrom code contract spec loaded = .resolved c enumName caseName doc provenance := by
  unfold resolve at h
  cases hc : identification.contract with
  | none =>
      rw [hc] at h
      cases h
  | some contract =>
      rw [hc] at h
      simp only at h
      cases hs : specs contract with
      | none =>
          rw [hs] at h
          cases h
      | some availability =>
          rw [hs] at h
          cases availability with
          | unavailable reason => cases h
          | available spec => exact ⟨contract, spec, rfl, hs, h⟩

/-- A name from a spec that declares the code under that name only. -/
theorem resolveFrom_eq_resolved {code : UInt32} {contract c : ContractId} {spec : ContractSpec}
    {loaded : Option (List Hash)} {enumName caseName doc : String} {provenance : SpecProvenance}
    (h : resolveFrom code contract spec loaded = .resolved c enumName caseName doc provenance) :
    contract = c ∧ provenanceOf spec.wasmHash loaded = .ok provenance ∧
      ∃ case, spec.Declares code case ∧ case.name = caseName := by
  unfold resolveFrom at h
  cases hp : provenanceOf spec.wasmHash loaded with
  | error hash =>
      rw [hp] at h
      cases h
  | ok checked =>
      rw [hp] at h
      cases hl : spec.lookup code with
      | notFound =>
          rw [hl] at h
          cases h
      | conflicting candidates =>
          rw [hl] at h
          cases h
      | found errorEnum case =>
          rw [hl] at h
          simp only [ErrorResolution.resolved.injEq] at h
          obtain ⟨rfl, -, hname, -, rfl⟩ := h
          have hdeclares : spec.Declares code case := (declares_of_lookup hl).1
          exact ⟨rfl, rfl, case, hdeclares, hname⟩

/-- **A verified name.**  It was read from the spec supplied for the identified
contract, which declares the code under that name only, and whose WASM hash is in
the footprint. -/
theorem resolve_matchesFootprint {code : UInt32} {identification : ContractIdentification}
    {specs : ContractId → Option SpecAvailability} {loaded : Option (List Hash)}
    {c : ContractId} {enumName caseName doc : String} {hash : Hash}
    (h : resolve (.contract code) identification specs loaded
      = .resolved c enumName caseName doc (.matchesFootprint hash)) :
    identification.contract = some c ∧ ∃ spec hashes case,
      specs c = some (.available spec) ∧ spec.wasmHash = some hash ∧ loaded = some hashes ∧
      hash ∈ hashes ∧ spec.Declares code case ∧ case.name = caseName := by
  obtain ⟨contract, spec, hid, hspec, hfrom⟩ := resolve_eq_resolved h
  obtain ⟨rfl, hprovenance, case, hdeclares, hname⟩ := resolveFrom_eq_resolved hfrom
  obtain ⟨hhash, hashes, hloaded, hmem⟩ := provenanceOf_matches hprovenance
  exact ⟨hid, spec, hashes, case, hspec, hhash, hloaded, hmem, hdeclares, hname⟩

/-- A hash in the footprint is enough for the provenance. -/
theorem provenanceOf_mem {hash : Hash} {hashes : List Hash} (h : hash ∈ hashes) :
    provenanceOf (some hash) (some hashes) = .ok (.matchesFootprint hash) := by
  have hne : hashes.isEmpty = false := by
    cases hashes with
    | nil => cases h
    | cons a rest => rfl
  simp [provenanceOf, hne, h]

/-- A spec whose WASM hash is in the footprint and which declares the code under one
name only is all that a verified name needs. -/
theorem resolve_of_declares {code : UInt32} {identification : ContractIdentification}
    {specs : ContractId → Option SpecAvailability} {hashes : List Hash} {c : ContractId}
    {spec : ContractSpec} {case : ErrorCase} {hash : Hash}
    (hid : identification.contract = some c) (hspec : specs c = some (.available spec))
    (hwasm : spec.wasmHash = some hash) (hmem : hash ∈ hashes)
    (hdeclares : spec.Declares code case) :
    ∃ enumName caseName doc, resolve (.contract code) identification specs (some hashes)
      = .resolved c enumName caseName doc (.matchesFootprint hash) := by
  obtain ⟨errorEnum, found, hlookup, -⟩ := lookup_of_declares hdeclares
  refine ⟨errorEnum.name, found.name, found.doc, ?_⟩
  simp only [resolve, hid, hspec, resolveFrom, hwasm, provenanceOf_mem hmem, hlookup]

/-- A report is about its own code. -/
theorem mem_resolveContractErrors {model : TransactionModel}
    {specs : ContractId → Option SpecAvailability} {report : ContractErrorReport}
    (h : report ∈ resolveContractErrors model specs) :
    report = contractErrorReport model specs report.code := by
  obtain ⟨code, -, rfl⟩ := List.mem_map.mp h
  rfl

/-! ## What identification looks at -/

/-- The contracts named by the error events with `code`, once for each event. -/
def emittersOf (code : UInt32) (errors : List ErrorEvent) : List ContractId :=
  errors.filterMap (fun x => if x.error = .contract code then x.event.contract else none)

/-- The contracts named by the error events with `code` and the origin marker. -/
def originsOf (code : UInt32) (errors : List ErrorEvent) : List ContractId :=
  emittersOf code (errors.filter ErrorEvent.isOrigin)

/-- The loop collects the distinct emitters and the distinct origins. -/
theorem foldl_identifyStep (code : UInt32) (errors : List ErrorEvent)
    (acc : List ContractId × List ContractId) :
    errors.foldl (identifyStep (.contract code)) acc
      = ((emittersOf code errors).foldl Scan.pushNew acc.1,
          (originsOf code errors).foldl Scan.pushNew acc.2) := by
  induction errors generalizing acc with
  | nil => rfl
  | cons x errors ih =>
      rw [List.foldl_cons, ih]
      unfold identifyStep originsOf emittersOf
      cases hc : x.event.contract with
      | none =>
          by_cases ho : x.isOrigin = true <;> simp [hc, ho]
      | some contract =>
          by_cases he : x.error = .contract code <;> by_cases ho : x.isOrigin = true <;>
            simp [hc, he, ho]

/-- **What identification depends on**: the distinct emitters of the code, and of
the code with the origin marker. -/
theorem identify_eq (model : TransactionModel) (code : UInt32) :
    identify model code = decideEmitter (Scan.distinct (emittersOf code model.diagnostics.errors))
      (Scan.distinct (originsOf code model.diagnostics.errors)) := by
  unfold identify
  rw [foldl_identifyStep]
  rfl

theorem mem_emittersOf {code : UInt32} {errors : List ErrorEvent} {c : ContractId} :
    c ∈ emittersOf code errors ↔
      ∃ x ∈ errors, x.error = .contract code ∧ x.event.contract = some c := by
  unfold emittersOf
  rw [List.mem_filterMap]
  constructor
  · rintro ⟨x, hx, h⟩
    by_cases he : x.error = .contract code
    · rw [if_pos he] at h
      exact ⟨x, hx, he, h⟩
    · rw [if_neg he] at h
      cases h
  · rintro ⟨x, hx, he, hc⟩
    exact ⟨x, hx, by rw [if_pos he, hc]⟩

theorem mem_originsOf {code : UInt32} {errors : List ErrorEvent} {c : ContractId} :
    c ∈ originsOf code errors ↔
      ∃ x ∈ errors, x.isOrigin = true ∧ x.error = .contract code ∧ x.event.contract = some c := by
  rw [originsOf, mem_emittersOf]
  simp [and_assoc]

/-- **Attribution.**  A contract is named when it alone emitted the code, or when
it alone did so with the origin marker. -/
theorem decideEmitter_eq_unique {emitters origins : List ContractId} {c : ContractId}
    {basis : IdentificationBasis} :
    decideEmitter emitters origins = .unique c basis ↔
      emitters = [c] ∧ basis = .soleEmitter ∨
        emitters ≠ [] ∧ (∀ d, emitters ≠ [d]) ∧ origins = [c] ∧ basis = .originMarker := by
  unfold decideEmitter
  split
  · simp
  · next _ _ only =>
    simp only [ContractIdentification.unique.injEq, List.cons.injEq, and_true, ne_eq,
      List.cons_ne_nil, not_false_eq_true, true_and]
    constructor
    · rintro ⟨rfl, rfl⟩
      exact Or.inl ⟨rfl, rfl⟩
    · rintro (⟨rfl, rfl⟩ | ⟨hne, -⟩)
      · exact ⟨rfl, rfl⟩
      · exact absurd rfl (hne only)
  · next emitters' origin hnil hone =>
    simp only [ContractIdentification.unique.injEq, List.cons.injEq, and_true]
    constructor
    · rintro ⟨rfl, rfl⟩
      exact Or.inr ⟨hnil, fun d h => hone d h, rfl, rfl⟩
    · rintro (⟨h, -⟩ | ⟨-, -, rfl, rfl⟩)
      · exact absurd h (hone c)
      · exact ⟨rfl, rfl⟩
  · next emitters' origins' hnil hone horigin =>
    constructor
    · intro h
      cases h
    · rintro (⟨h, -⟩ | ⟨-, -, h, -⟩)
      · exact absurd h (hone c)
      · exact absurd h (horigin c)

end Observatory
