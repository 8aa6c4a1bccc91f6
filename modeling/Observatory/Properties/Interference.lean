import Observatory.Properties.FeeBump
import Observatory.Testutil

/-!
# What a spec contributes

A spec reaches the diagnosis through the reports on contract errors and nowhere
else.  The contracts whose specs can matter are those `contracts_needing_specs`
lists, and of a spec for code the transaction did not load only the hash is used.

* `SpecsAlike` — two answers about a spec that a footprint does not tell apart.
* `resolve_congr` — resolution does not tell them apart either.
* `analyze_specsAlike` — nor does the analysis.
-/

namespace Observatory

/-- Two answers about the spec of one contract: the same answer, or two specs read from
one WASM, which is not among the code the transaction loaded. -/
def SpecsAlike (loaded : Option (List Hash)) (a b : Option SpecAvailability) : Prop :=
  a = b ∨ ∃ spec spec' hash hashes, a = some (.available spec) ∧ b = some (.available spec') ∧
    spec.wasmHash = some hash ∧ spec'.wasmHash = some hash ∧
    loaded = some hashes ∧ hashes ≠ [] ∧ hash ∉ hashes

/-- A hash the transaction did not load is handed back. -/
theorem provenanceOf_not_mem {hash : Hash} {hashes : List Hash} (hne : hashes ≠ [])
    (h : hash ∉ hashes) : provenanceOf (some hash) (some hashes) = .error hash := by
  have hempty : hashes.isEmpty = false := by
    cases hashes with
    | nil => exact absurd rfl hne
    | cons a rest => rfl
  simp [provenanceOf, hempty, h]

/-- Of a spec for code the transaction did not load, resolution uses the hash alone. -/
theorem resolveFrom_not_loaded {code : UInt32} {contract : ContractId} {spec : ContractSpec}
    {hash : Hash} {hashes : List Hash} (hwasm : spec.wasmHash = some hash) (hne : hashes ≠ [])
    (h : hash ∉ hashes) :
    resolveFrom code contract spec (some hashes) = .specVersionMismatch contract hash := by
  unfold resolveFrom
  rw [hwasm, provenanceOf_not_mem hne h]

/-- Resolution asks for the spec of the identified contract, and does not tell like
answers apart. -/
theorem resolve_congr {code : UInt32} {identification : ContractIdentification}
    {specs specs' : ContractId → Option SpecAvailability} {loaded : Option (List Hash)}
    (h : ∀ c, identification.contract = some c → SpecsAlike loaded (specs c) (specs' c)) :
    resolve (.contract code) identification specs loaded
      = resolve (.contract code) identification specs' loaded := by
  unfold resolve
  cases hc : identification.contract with
  | none => rfl
  | some contract =>
      rcases h contract hc with heq | ⟨spec, spec', hash, hashes, ha, hb, hwasm, hwasm', hloaded,
        hne, hnot⟩
      · simp only [heq]
      · subst hloaded
        simp only [ha, hb]
        rw [resolveFrom_not_loaded hwasm hne hnot, resolveFrom_not_loaded hwasm' hne hnot]

/-- A contract is listed when it is the one identified for some code of the transaction. -/
theorem mem_contractsNeedingSpecs {model : TransactionModel} {c : ContractId} :
    c ∈ contractsNeedingSpecs model ↔
      ∃ code ∈ contractErrorCodes model, (identify model code).contract = some c := by
  unfold contractsNeedingSpecs resolveContractErrors
  rw [Scan.mem_foldl_pushNew, List.mem_filterMap]
  simp [contractErrorReport]

theorem nodup_contractsNeedingSpecs (model : TransactionModel) :
    (contractsNeedingSpecs model).Nodup := Scan.nodup_distinct _

/-- The reports depend on the specs of the listed contracts only. -/
theorem resolveContractErrors_congr {model : TransactionModel}
    {specs specs' : ContractId → Option SpecAvailability}
    (h : ∀ c ∈ contractsNeedingSpecs model, SpecsAlike model.codeHashes (specs c) (specs' c)) :
    resolveContractErrors model specs = resolveContractErrors model specs' := by
  unfold resolveContractErrors
  apply List.map_congr_left
  intro code hcode
  have hres : resolve (.contract code) (identify model code) specs model.codeHashes
      = resolve (.contract code) (identify model code) specs' model.codeHashes := by
    apply resolve_congr
    intro c hc
    exact h c (mem_contractsNeedingSpecs.mpr ⟨code, hcode, hc⟩)
  simp only [contractErrorReport, hres]

section Interference

variable [Strkey]

/-- No rule looks past the model and the reports at the raw input. -/
theorem evaluate_input (ctx : FailureContext) (input : AnalysisInput) :
    ∀ rule ∈ builtin, rule.evaluate { ctx with input } = rule.evaluate ctx :=
  evaluate_rewrap ctx input ctx.model.feeBump ctx.model.outcome.feeCharged ctx.model.outcome.feeBump

/-- **Specs do not interfere.**  Each contract is listed once, and two spec maps that are
alike on the listed contracts are diagnosed alike. -/
theorem analyze_specsAlike (input : AnalysisInput) :
    (contractsNeedingSpecs (TransactionModel.fromInput input)).Nodup ∧
      ∀ specs specs' : ContractId → Option SpecAvailability,
        (∀ c ∈ contractsNeedingSpecs (TransactionModel.fromInput input),
          SpecsAlike (TransactionModel.fromInput input).codeHashes (specs c) (specs' c)) →
        analyze { input with contractSpecs := specs }
          = analyze { input with contractSpecs := specs' } := by
  refine ⟨nodup_contractsNeedingSpecs _, ?_⟩
  intro specs specs' hspecs
  have herrors : resolveContractErrors (TransactionModel.fromInput input) specs
      = resolveContractErrors (TransactionModel.fromInput input) specs' :=
    resolveContractErrors_congr hspecs
  -- the two contexts differ in the raw input alone
  have hctx : failureContext { input with contractSpecs := specs }
      = { failureContext { input with contractSpecs := specs' } with
          input := { input with contractSpecs := specs } } := by
    show FailureContext.mk _ (TransactionModel.fromInput input) _
      (resolveContractErrors (TransactionModel.fromInput input) specs) = _
    rw [herrors]
    rfl
  refine analyzeWith_congr ?_ rfl rfl herrors rfl
  intro rule hrule
  rw [hctx]
  exact evaluate_input _ _ rule hrule

end Interference

/-- `cid(5)` fails with its own error 9; the footprint lists other code than the specs
are for. -/
def staleSpecInput : AnalysisInput :=
  sorobanFailure .trapped [codeKey (.fill 9)]
    (some [call none (cid 5) "f", err (cid 5) (.contract 9) "failing with contract error",
      hostFnFailed (.contract 9)])

/-- A spec map with one error name for every contract, read from WASM 1. -/
def staleSpecs (name : String) (_ : ContractId) : Option SpecAvailability :=
  some (errorSpec (some (.fill 1)) [(name, 9)])

/-- The name in a spec for other code is never seen. -/
theorem analyze_specsAlike_stale :
    @analyze Strkey.standard { staleSpecInput with contractSpecs := staleSpecs "Boom" }
      = @analyze Strkey.standard { staleSpecInput with contractSpecs := staleSpecs "Bang" } := by
  let _ : Strkey := Strkey.standard
  apply (analyze_specsAlike staleSpecInput).2
  intro c _
  exact Or.inr ⟨_, _, .fill 1, [.fill 9], rfl, rfl, rfl, rfl, rfl, by simp, by decide⟩

end Observatory
