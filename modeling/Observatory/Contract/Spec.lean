import Observatory.Contract.Wasm
import Observatory.Xdr.Ledger

/-!
# Contract specifications

The error enums a contract declares (`contract/spec.rs`), how they are read from
its WASM, and the lookup of the name declared for an error code.  Names are only
ever read from a spec.

* `ContractSpec.fromWasm` — the spec in a contract's code.
* `ContractSpec.lookup` — the name of an error code.
-/

namespace Observatory

open Reading

/-- One case of a contract error enum. -/
structure ErrorCase where
  /-- The case name. -/
  name : String
  /-- The value raised as `Error(Contract, value)`. -/
  value : UInt32
  /-- The developer's doc comment, possibly empty. -/
  doc : String
  deriving DecidableEq

/-- One `#[contracterror]` enum. -/
structure ErrorEnum where
  /-- The enum name. -/
  name : String
  /-- The library it came from, when not the contract itself. -/
  lib : String
  /-- The developer's doc comment, possibly empty. -/
  doc : String
  /-- The cases, in declaration order. -/
  cases : List ErrorCase
  deriving DecidableEq

/-- The parts of a contract spec that error resolution needs. -/
structure ContractSpec where
  /-- Hash of the WASM the spec was read from, when known. -/
  wasmHash : Option Hash
  /-- Every error enum the spec declares. -/
  errorEnums : List ErrorEnum
  /-- Total number of spec entries read, of any kind. -/
  entryCount : Nat
  deriving DecidableEq

/-! ## Reading a spec -/

/-- Name of the custom section carrying the spec. -/
def specSection : String := "contractspecv0"

/-- Maximum XDR nesting depth accepted when decoding a spec. -/
def specDecodeDepth : UInt32 := 64

/-- A spec could not be read. -/
inductive SpecError where
  /-- The WASM framing was invalid. -/
  | wasm (e : WasmError)
  /-- The WASM has no spec section. -/
  | noSpecSection
  /-- The spec section held invalid XDR. -/
  | xdr (error : String)
  deriving DecidableEq

def SpecError.display : SpecError → String
  | .wasm e => "invalid contract WASM: " ++ e.display
  | .noSpecSection => "contract WASM has no `" ++ specSection ++ "` section"
  | .xdr e => "contract spec is not valid XDR: " ++ e

/-- The entries of a spec read to the end, under these limits; an error comes with its text. -/
abbrev SpecDecoder : Type := List UInt8 → Limits → Except String (List ScSpecEntry)

/-- What the iterator of `read_xdr_iter` yields over these bytes, under these limits, as far
as its first error; an error comes with its text. -/
abbrev EntryIter : Type := List UInt8 → Limits → List (Except String ScSpecEntry)

/-- `collect::<Result<Vec<_>, _>>` -/
def EntryIter.decoder (iter : EntryIter) : SpecDecoder := fun bytes limits =>
  collect (iter bytes limits)

/-- The error enum an entry declares, if it declares one. -/
def ScSpecEntry.errorEnum : ScSpecEntry → Option ErrorEnum
  | .udtErrorEnumV0 e =>
      some
        { name := e.name.toUtf8StringLossy
          lib := e.lib.toUtf8StringLossy
          doc := e.doc.toUtf8StringLossy
          cases := e.cases.map fun c =>
            ⟨c.name.toUtf8StringLossy, c.value, c.doc.toUtf8StringLossy⟩ }
  | _ => none

/-- Build a spec from already-decoded entries. -/
def ContractSpec.fromEntries (entries : List ScSpecEntry) : ContractSpec :=
  ⟨none, entries.filterMap ScSpecEntry.errorEnum, entries.length⟩

/-- Read the spec from contract WASM: every section with the name, concatenated. -/
def ContractSpec.fromWasm (decoder : SpecDecoder) (wasm : List UInt8) :
    Except SpecError ContractSpec := do
  -- the section reader never panics, so that its caller sees a result
  let sections ← (settle (customSections wasm specSection)
    (inBounds_customSections wasm specSection)).mapError .wasm
  if sections.isEmpty then .error .noSpecSection
  else
    let bytes := sections.flatten
    let entries ← (decoder bytes ⟨specDecodeDepth, bytes.length⟩).mapError .xdr
    .ok (fromEntries entries)

/-- Record the hash of the WASM this spec came from. -/
def ContractSpec.withWasmHash (spec : ContractSpec) (hash : Hash) : ContractSpec :=
  { spec with wasmHash := some hash }

/-! ## Looking a code up -/

/-- The result of looking an error code up in a spec. -/
inductive ErrorLookup where
  /-- Exactly one name is declared for the code. -/
  | found (errorEnum : ErrorEnum) (case : ErrorCase)
  /-- No enum declares the code. -/
  | notFound
  /-- The code is declared under different names. -/
  | conflicting (candidates : List (ErrorEnum × ErrorCase))
  deriving DecidableEq

/-- Every case of the spec with the given value, with its enum. -/
def ContractSpec.casesFor (spec : ContractSpec) (code : UInt32) : List (ErrorEnum × ErrorCase) :=
  (spec.errorEnums.flatMap (fun en => en.cases.map (fun c => (en, c)))).filter
    (fun p => p.2.value == code)

/-- Look up the name declared for a contract error code. -/
def ContractSpec.lookup (spec : ContractSpec) (code : UInt32) : ErrorLookup :=
  match spec.casesFor code with
  | [] => .notFound
  | (errorEnum, case) :: rest =>
      if rest.all (fun p => p.2.name == case.name) then .found errorEnum case
      else .conflicting ((errorEnum, case) :: rest)

/-- Whether a contract's spec could be obtained. -/
inductive SpecAvailability where
  /-- The spec was obtained and parsed. -/
  | available (spec : ContractSpec)
  /-- It could not be, for the stated reason. -/
  | unavailable (reason : String)
  deriving DecidableEq

/-- The spec declares `code` under one name only, that of `case`. -/
def ContractSpec.Declares (spec : ContractSpec) (code : UInt32) (case : ErrorCase) : Prop :=
  (∃ en ∈ spec.errorEnums, case ∈ en.cases ∧ case.value = code) ∧
    ∀ en ∈ spec.errorEnums, ∀ c ∈ en.cases, c.value = code → c.name = case.name

theorem mem_casesFor {spec : ContractSpec} {code : UInt32} {p : ErrorEnum × ErrorCase} :
    p ∈ spec.casesFor code ↔ p.1 ∈ spec.errorEnums ∧ p.2 ∈ p.1.cases ∧ p.2.value = code := by
  obtain ⟨en, c⟩ := p
  simp [ContractSpec.casesFor, and_assoc]

/-- A lookup that succeeds found the one name the spec declares for the code. -/
theorem declares_of_lookup {spec : ContractSpec} {code : UInt32} {errorEnum : ErrorEnum}
    {case : ErrorCase} (h : spec.lookup code = .found errorEnum case) :
    spec.Declares code case ∧ errorEnum ∈ spec.errorEnums ∧ case ∈ errorEnum.cases := by
  unfold ContractSpec.lookup at h
  split at h
  · cases h
  · next en c rest hcases =>
    split at h
    · next hall =>
      simp only [ErrorLookup.found.injEq] at h
      obtain ⟨rfl, rfl⟩ := h
      have hfirst : (en, c) ∈ spec.casesFor code := by rw [hcases]; exact List.mem_cons_self
      obtain ⟨hen, hc, hvalue⟩ := mem_casesFor.mp hfirst
      refine ⟨⟨⟨en, hen, hc, hvalue⟩, ?_⟩, hen, hc⟩
      intro en' hen' c' hc' hvalue'
      have hmem : (en', c') ∈ spec.casesFor code := mem_casesFor.mpr ⟨hen', hc', hvalue'⟩
      rw [hcases] at hmem
      rcases List.mem_cons.mp hmem with heq | hrest
      · rw [(Prod.mk.inj heq).2]
      · simpa using List.all_eq_true.mp hall (en', c') hrest
    · cases h

/-- A code declared under one name only is found under that name. -/
theorem lookup_of_declares {spec : ContractSpec} {code : UInt32} {case : ErrorCase}
    (h : spec.Declares code case) :
    ∃ errorEnum found, spec.lookup code = .found errorEnum found ∧ found.name = case.name := by
  obtain ⟨⟨en, hen, hcase, hvalue⟩, honly⟩ := h
  have hmem : (en, case) ∈ spec.casesFor code := mem_casesFor.mpr ⟨hen, hcase, hvalue⟩
  -- every case with this value has the one name
  have hname : ∀ p ∈ spec.casesFor code, p.2.name = case.name := by
    intro p hp
    obtain ⟨hpen, hpc, hpvalue⟩ := mem_casesFor.mp hp
    exact honly p.1 hpen p.2 hpc hpvalue
  cases hcases : spec.casesFor code with
  | nil =>
      rw [hcases] at hmem
      cases hmem
  | cons first rest =>
      rw [hcases] at hname
      have hfirst : first.2.name = case.name := hname first List.mem_cons_self
      refine ⟨first.1, first.2, ?_, hfirst⟩
      have hall : rest.all (fun p => p.2.name == first.2.name) = true := by
        rw [List.all_eq_true]
        intro p hp
        rw [beq_iff_eq, hfirst, hname p (List.mem_cons_of_mem _ hp)]
      simp only [ContractSpec.lookup, hcases, hall, if_true]

end Observatory
