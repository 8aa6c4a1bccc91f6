import Observatory.Contract.Spec
import Observatory.Properties.Sections

/-!
# A spec cut into sections

A linker may cut a contract's spec into several custom sections, anywhere.  What is
read from the module depends on the bytes they make up together.

* `ReadsEntries` — what is assumed of the iterator over the entries.
* `fromWasm_sections` — the spec of a module in terms of its sections.
* `fromWasm_split` — any way of cutting the entries gives the same spec, and bytes that
  do not decode to the end give none.
-/

namespace Observatory

open Reading

/-- The iterator reads entries encoded one after the other, and yields an error on bytes
that are not entries to the end.  `EntryBytes depth xs entry` says that `xs` is the XDR of
`entry`, nested within `depth`. -/
structure ReadsEntries (EntryBytes : UInt32 → List UInt8 → ScSpecEntry → Prop)
    (iter : EntryIter) : Prop where
  reads : ∀ (bytes : List UInt8) (entries : List ScSpecEntry) (limits : Limits),
    Many (EntryBytes limits.depth) bytes entries → bytes.length ≤ limits.len →
    iter bytes limits = entries.map .ok
  fails : ∀ (bytes : List UInt8) (limits : Limits),
    (¬ ∃ entries, Many (EntryBytes limits.depth) bytes entries) →
    ∃ (entries : List ScSpecEntry) (e : String) (rest : List (Except String ScSpecEntry)),
      iter bytes limits = entries.map .ok ++ .error e :: rest

/-- The spec of a module: its sections with the name are decoded as one. -/
theorem fromWasm_sections {decoder : SpecDecoder} {wasm : List UInt8} {sections : List Section}
    (h : ModuleBytes wasm sections) :
    ContractSpec.fromWasm decoder wasm =
      if (contents specSection sections).isEmpty then .error .noSpecSection
      else ((decoder (contents specSection sections).flatten
          ⟨specDecodeDepth, (contents specSection sections).flatten.length⟩).mapError
            SpecError.xdr).map
        ContractSpec.fromEntries := by
  have hsections : customSections wasm specSection = .ok (contents specSection sections) :=
    customSections_eq_contents.mpr ⟨sections, h, rfl⟩
  have hsettle : (settle (customSections wasm specSection)
      (inBounds_customSections wasm specSection)).mapError SpecError.wasm
        = .ok (contents specSection sections) :=
    mapError_eq_ok.mpr (settle_eq_ok.mpr hsections)
  unfold ContractSpec.fromWasm
  rw [hsettle]
  show (if _ then _ else _) = _
  split
  · rfl
  · cases (decoder (contents specSection sections).flatten
        ⟨specDecodeDepth, (contents specSection sections).flatten.length⟩).mapError
          SpecError.xdr <;> rfl

section Split

variable {EntryBytes : UInt32 → List UInt8 → ScSpecEntry → Prop} {iter : EntryIter}
  {wasm : List UInt8} {sections : List Section}

/-- Entries are read from any sections that make up their bytes. -/
theorem fromWasm_of_entries (hiter : ReadsEntries EntryBytes iter)
    (h : ModuleBytes wasm sections) (hsome : contents specSection sections ≠ [])
    {entries : List ScSpecEntry}
    (hentries : Many (EntryBytes specDecodeDepth) (contents specSection sections).flatten
      entries) :
    ContractSpec.fromWasm iter.decoder wasm = .ok (ContractSpec.fromEntries entries) := by
  have hread := hiter.reads _ entries
    ⟨specDecodeDepth, (contents specSection sections).flatten.length⟩ hentries le_rfl
  rw [fromWasm_sections h, if_neg (by simpa using hsome), EntryIter.decoder, hread,
    collect_map_ok]
  rfl

/-- A module without such a section has no spec. -/
theorem fromWasm_of_none (decoder : SpecDecoder) (h : ModuleBytes wasm sections)
    (hnone : contents specSection sections = []) :
    ContractSpec.fromWasm decoder wasm = .error .noSpecSection := by
  rw [fromWasm_sections h, if_pos (by rw [hnone]; rfl)]

/-- Bytes that are not entries to the end give an error, and not the entries before it. -/
theorem fromWasm_of_invalid (hiter : ReadsEntries EntryBytes iter)
    (h : ModuleBytes wasm sections) (hsome : contents specSection sections ≠ [])
    (hinvalid : ¬ ∃ entries,
      Many (EntryBytes specDecodeDepth) (contents specSection sections).flatten entries) :
    ∃ e, ContractSpec.fromWasm iter.decoder wasm = .error (.xdr e) := by
  obtain ⟨entries, e, rest, hyields⟩ := hiter.fails _
    ⟨specDecodeDepth, (contents specSection sections).flatten.length⟩ hinvalid
  refine ⟨e, ?_⟩
  rw [fromWasm_sections h, if_neg (by simpa using hsome), EntryIter.decoder, hyields,
    collect_append_error]
  rfl

end Split

/-- **Any way of cutting a spec.**  Where the sections with the name, in order, make up the
bytes of some entries, the spec of the module is that of the entries, however they are cut and
whatever other sections stand in between; without such a section there is none; and where
their bytes do not decode to the end, the result is an error. -/
theorem fromWasm_split (EntryBytes : UInt32 → List UInt8 → ScSpecEntry → Prop)
    (iter : EntryIter) (hiter : ReadsEntries EntryBytes iter) :
    (∀ wasm sections entries, ModuleBytes wasm sections → contents specSection sections ≠ [] →
      Many (EntryBytes specDecodeDepth) (contents specSection sections).flatten entries →
      ContractSpec.fromWasm iter.decoder wasm = .ok (ContractSpec.fromEntries entries)) ∧
    (∀ wasm sections, ModuleBytes wasm sections → contents specSection sections = [] →
      ContractSpec.fromWasm iter.decoder wasm = .error .noSpecSection) ∧
    ∀ wasm sections, ModuleBytes wasm sections → contents specSection sections ≠ [] →
      (¬ ∃ entries,
        Many (EntryBytes specDecodeDepth) (contents specSection sections).flatten entries) →
      ∃ e, ContractSpec.fromWasm iter.decoder wasm = .error (.xdr e) :=
  ⟨fun _ _ _ h hsome hentries => fromWasm_of_entries hiter h hsome hentries,
    fun _ _ h hnone => fromWasm_of_none iter.decoder h hnone,
    fun _ _ h hsome hinvalid => fromWasm_of_invalid hiter h hsome hinvalid⟩

/-! ## An entry cut in two -/

/-- The enum `Error` with the case `Paused`, of value 1. -/
def pausedEntry : ScSpecEntry :=
  .udtErrorEnumV0
    { doc := .ofAscii ""
      lib := .ofAscii ""
      name := .ofAscii "Error"
      cases := [⟨.ofAscii "", .ofAscii "Paused", 1⟩] }

/-- The XDR of `pausedEntry`: the arm, the doc, the library, the name, the number of cases and
the cases. -/
def pausedXdr : List UInt8 :=
  [0, 0, 0, 4, 0, 0, 0, 0, 0, 0, 0, 0, 0, 0, 0, 5, 69, 114, 114, 111, 114, 0, 0, 0,
    0, 0, 0, 1, 0, 0, 0, 0, 0, 0, 0, 6, 80, 97, 117, 115, 101, 100, 0, 0, 0, 0, 0, 1]

/-- An iterator that knows this entry only. -/
def pausedIter : EntryIter := fun bytes _ =>
  if bytes = (List.replicate (bytes.length / 48) pausedXdr).flatten then
    (List.replicate (bytes.length / 48) pausedEntry).map .ok
  else [.error "xdr value invalid"]

theorem many_paused {bytes : List UInt8} {entries : List ScSpecEntry} :
    Many (fun xs entry => xs = pausedXdr ∧ entry = pausedEntry) bytes entries ↔
      ∃ n, bytes = (List.replicate n pausedXdr).flatten ∧
        entries = List.replicate n pausedEntry := by
  constructor
  · intro h
    induction h with
    | nil => exact ⟨0, rfl, rfl⟩
    | cons head _ ih =>
        obtain ⟨rfl, rfl⟩ := head
        obtain ⟨n, rfl, rfl⟩ := ih
        exact ⟨n + 1, rfl, rfl⟩
  · rintro ⟨n, rfl, rfl⟩
    induction n with
    | zero => exact Many.nil
    | succ n ih => exact Many.cons ⟨rfl, rfl⟩ ih

theorem readsEntries_paused :
    ReadsEntries (fun _ xs entry => xs = pausedXdr ∧ entry = pausedEntry) pausedIter where
  reads := by
    intro bytes entries limits h hlen
    obtain ⟨n, rfl, rfl⟩ := many_paused.mp h
    have hlength : (List.replicate n pausedXdr).flatten.length / 48 = n := by
      have hone : pausedXdr.length = 48 := rfl
      simp [hone]
    unfold pausedIter
    rw [hlength, if_pos rfl]
  fails := by
    intro bytes limits h
    refine ⟨[], "xdr value invalid", [], ?_⟩
    unfold pausedIter
    rw [if_neg]
    · rfl
    · intro heq
      exact h ⟨_, many_paused.mpr ⟨_, heq, rfl⟩⟩

/-- The entry twice, cut inside the first one, with other sections in between. -/
def cutSections : List Section :=
  [.custom specSection.toUTF8.data.toList ((pausedXdr ++ pausedXdr).take 20),
    .other 1 (by decide) [0], .custom "name".toUTF8.data.toList [1, 2],
    .custom specSection.toUTF8.data.toList ((pausedXdr ++ pausedXdr).drop 20)]

/-- A small custom section fits. -/
theorem fits_custom {name content : List UInt8} (h : name.length + content.length < 2 ^ 31) :
    (Section.custom name content).Fits := by
  have hname : (Leb128.encode name.length).length ≤ 4 + 1 := by
    apply Leb128.length_encode_le 4
    calc name.length < 2 ^ 31 := by omega
      _ ≤ 128 ^ (4 + 1) := by decide
  have hsize : UInt32.size = 2 ^ 32 := rfl
  show (Leb128.encode name.length ++ (name ++ content)).length < UInt32.size
  simp only [List.length_append]
  omega

theorem fits_cutSections : ∀ s ∈ cutSections, s.Fits := by
  intro s hs
  simp only [cutSections, List.mem_cons, List.not_mem_nil, or_false] at hs
  rcases hs with rfl | rfl | rfl | rfl
  · exact fits_custom (by decide)
  · show [(0 : UInt8)].length < UInt32.size
    decide
  · exact fits_custom (by decide)
  · exact fits_custom (by decide)

theorem fromWasm_split_cut :
    ContractSpec.fromWasm pausedIter.decoder (encodeModule cutSections)
      = .ok (ContractSpec.fromEntries [pausedEntry, pausedEntry]) := by
  have hmodule : ModuleBytes (encodeModule cutSections) cutSections :=
    moduleBytes_encodeModule fits_cutSections
  have hcontents : contents specSection cutSections
      = [(pausedXdr ++ pausedXdr).take 20, (pausedXdr ++ pausedXdr).drop 20] := by decide
  refine (fromWasm_split _ _ readsEntries_paused).1 _ cutSections _ hmodule ?_ ?_
  · rw [hcontents]
    simp
  · rw [hcontents]
    exact many_paused.mpr ⟨2, rfl, rfl⟩

end Observatory
