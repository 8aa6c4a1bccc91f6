import Observatory.Lib.Reading

/-!
# Custom sections of a WebAssembly module

The reader of `contract/wasm.rs`: a position in a byte string, the reads that
move it, and the loop over the sections of a module.  An index or a slice out of
bounds, at which the program would panic, is a way to stop of its own.

* `customSections` — the contents of the custom sections with a name.
* `inBounds_customSections` — no index or slice is out of bounds.
-/

namespace Observatory

open Reading

/-- The WASM could not be read. -/
inductive WasmError where
  /-- Missing the `\0asm` magic number. -/
  | notWasm
  /-- A WASM binary version other than 1. -/
  | unsupportedVersion (version : UInt32)
  /-- The input ended inside a section header or payload. -/
  | truncated
  /-- A LEB128 integer was longer than 5 bytes or overflowed a `u32`. -/
  | badLeb128
  deriving DecidableEq

def WasmError.display : WasmError → String
  | .notWasm => "not a WebAssembly module (missing \\0asm magic)"
  | .unsupportedVersion v => s!"unsupported WebAssembly version {v}"
  | .truncated => "WebAssembly module is truncated"
  | .badLeb128 => "malformed LEB128 integer in WebAssembly module"

/-- How a step of the reader ends: in a value, an error, or out of bounds. -/
abbrev WasmResult (α : Type) : Type := Except (Halt WasmError) α

/-- `xs[i]` -/
def index (xs : List UInt8) (i : Nat) : WasmResult UInt8 :=
  match xs[i]? with
  | some b => .ok b
  | none => .error .outOfBounds

/-- `&xs[i..]` -/
def sliceFrom (xs : List UInt8) (i : Nat) : WasmResult (List UInt8) :=
  if i ≤ xs.length then .ok (xs.drop i) else .error .outOfBounds

/-- `u32::from_le_bytes` -/
def u32FromLeBytes (a b c d : UInt8) : UInt32 :=
  UInt32.ofNat (a.toNat + 256 * b.toNat + 65536 * c.toNat + 16777216 * d.toNat)

/-! ## The reader -/

/-- A position in a byte string. -/
structure Reader where
  /-- All the bytes. -/
  bytes : List UInt8
  /-- The bytes before the position. -/
  pos : Nat
  /-- The position is at most one past the last byte. -/
  pos_le : pos ≤ bytes.length

/-- A reader at the start of a byte string. -/
def Reader.start (bytes : List UInt8) : Reader := ⟨bytes, 0, Nat.zero_le _⟩

namespace Reader

/-- The next `n` bytes.  A slice is shorter than `usize::MAX`, so that a sum the source's
`checked_add` refuses is past its end. -/
def take (n : Nat) (r : Reader) : WasmResult (List UInt8 × Reader) :=
  if h : r.pos + n ≤ r.bytes.length then
    .ok ((r.bytes.drop r.pos).take n, ⟨r.bytes, r.pos + n, h⟩)
  else .error (.error .truncated)

def byte (r : Reader) : WasmResult (UInt8 × Reader) := do
  let (xs, r) ← r.take 1
  let b ← index xs 0
  .ok (b, r)

/-- The loop of `leb_u32` over these numbers of bytes read before. -/
def lebLoop (result : UInt32) : List Nat → Reader → WasmResult (UInt32 × Reader)
  | [], _ => .error (.error .badLeb128)
  | i :: is, r => do
      let (b, r) ← r.byte
      let low := (b &&& 0x7f).toUInt32
      -- the fifth byte may only contribute the top 4 bits
      if i = 4 ∧ low > 0x0f then .error (.error .badLeb128)
      else
        let result := result ||| low <<< UInt32.ofNat (7 * i)
        if b &&& 0x80 = 0 then .ok (result, r) else lebLoop result is r

/-- Unsigned LEB128, capped at the 5 bytes a `u32` can need. -/
def lebU32 (r : Reader) : WasmResult (UInt32 × Reader) := r.lebLoop 0 (List.range 5)

def done (r : Reader) : Bool := r.pos ≥ r.bytes.length

/-- What is left to read. -/
def rest (r : Reader) : List UInt8 := r.bytes.drop r.pos

@[simp] theorem rest_start (bytes : List UInt8) : (start bytes).rest = bytes := rfl

@[simp] theorem length_rest (r : Reader) : r.rest.length = r.bytes.length - r.pos :=
  List.length_drop

theorem rest_eq_nil {r : Reader} : r.rest = [] ↔ r.done = true := by
  simp [rest, done]

/-- A reader is where its bytes and what is left of them say. -/
theorem eq_of_rest {r s : Reader} (hbytes : s.bytes = r.bytes) (hrest : s.rest = r.rest) :
    s = r := by
  have hlength := congrArg List.length hrest
  obtain ⟨bytes, pos, hpos⟩ := r
  obtain ⟨bytes', pos', hpos'⟩ := s
  cases hbytes
  simp only [length_rest] at hlength
  have hsame : pos' = pos := by omega
  cases hsame
  rfl

/-- A reader passes over any bytes that come next. -/
theorem exists_after {r : Reader} {xs ys : List UInt8} (h : r.rest = xs ++ ys) :
    ∃ s : Reader, s.bytes = r.bytes ∧ s.rest = ys := by
  have hlength := congrArg List.length h
  simp only [length_rest, List.length_append] at hlength
  have hpos := r.pos_le
  by_cases hxs : xs = []
  · subst hxs
    exact ⟨r, rfl, h⟩
  · have hpositive : 0 < xs.length := List.length_pos_iff.mpr hxs
    refine ⟨⟨r.bytes, r.pos + xs.length, by omega⟩, rfl, ?_⟩
    show r.bytes.drop (r.pos + xs.length) = ys
    rw [← List.drop_drop, show r.bytes.drop r.pos = r.rest from rfl, h, List.drop_left]

/-- How a reader moves over its bytes. -/
def tape : Tape Reader UInt8 where
  Moves r xs s := s.bytes = r.bytes ∧ r.rest = xs ++ s.rest
  nil_iff r s := by
    constructor
    · rintro ⟨hbytes, hrest⟩
      exact eq_of_rest hbytes hrest.symm
    · rintro rfl
      exact ⟨rfl, rfl⟩
  append_iff r xs ys t := by
    constructor
    · rintro ⟨hbytes, hrest⟩
      rw [List.append_assoc] at hrest
      obtain ⟨s, hs, hafter⟩ := exists_after hrest
      exact ⟨s, ⟨hs, by rw [hrest, hafter]⟩, hbytes.trans hs.symm, hafter⟩
    · rintro ⟨s, ⟨hbytes, hrest⟩, hbytes', hrest'⟩
      exact ⟨hbytes'.trans hbytes, by rw [hrest, hrest', List.append_assoc]⟩

end Reader

/-! ## The sections -/

/-- What the loop of `custom_sections` finds in the payload of a custom section: its content,
if it has the name. -/
def namedContent (name : String) (payload : List UInt8) : WasmResult (Option (List UInt8)) := do
  let s := Reader.start payload
  let (nameLen, s) ← s.lebU32
  let (bytes, s) ← s.take nameLen.toNat
  if bytes = name.toUTF8.data.toList then
    let content ← sliceFrom payload s.pos
    .ok (some content)
  else .ok none

/-- One iteration of the loop of `custom_sections`: what it pushes, and the reader after it. -/
def Reader.nextSection (name : String) (r : Reader) :
    WasmResult (Option (List UInt8) × Reader) := do
  let (id, r) ← r.byte
  let (size, r) ← r.lebU32
  let (payload, r) ← r.take size.toNat
  let hit ← (if id ≠ 0 then .ok none else namedContent name payload)
  .ok (hit, r)

/-! ### Every iteration moves the reader on -/

namespace Reader

theorem take_pos {n : Nat} {r s : Reader} {xs : List UInt8} (h : r.take n = .ok (xs, s)) :
    s.bytes = r.bytes ∧ s.pos = r.pos + n ∧ xs.length = n := by
  unfold take at h
  split at h
  · next hle =>
    cases h
    refine ⟨rfl, rfl, ?_⟩
    simp only [List.length_take, List.length_drop]
    omega
  · cases h

theorem byte_pos {r s : Reader} {b : UInt8} (h : r.byte = .ok (b, s)) :
    s.bytes = r.bytes ∧ s.pos = r.pos + 1 := by
  obtain ⟨⟨xs, s'⟩, htake, h⟩ := bind_eq_ok.mp h
  obtain ⟨c, -, h⟩ := bind_eq_ok.mp h
  cases h
  obtain ⟨hbytes, hpos, -⟩ := take_pos htake
  exact ⟨hbytes, hpos⟩

theorem lebLoop_pos {r s : Reader} {result n : UInt32} {is : List Nat}
    (h : r.lebLoop result is = .ok (n, s)) : s.bytes = r.bytes ∧ r.pos ≤ s.pos := by
  induction is generalizing r result with
  | nil => cases h
  | cons i is ih =>
      obtain ⟨⟨b, r'⟩, hbyte, h⟩ := bind_eq_ok.mp h
      obtain ⟨hbytes, hpos⟩ := byte_pos hbyte
      dsimp only at h
      split at h
      · cases h
      · split at h
        · cases h
          exact ⟨hbytes, by omega⟩
        · obtain ⟨hbytes', hpos'⟩ := ih h
          exact ⟨hbytes'.trans hbytes, by omega⟩

theorem nextSection_pos {name : String} {r s : Reader} {hit : Option (List UInt8)}
    (h : r.nextSection name = .ok (hit, s)) : s.bytes = r.bytes ∧ r.pos < s.pos := by
  obtain ⟨⟨id, r₁⟩, hid, h⟩ := bind_eq_ok.mp h
  obtain ⟨⟨size, r₂⟩, hsize, h⟩ := bind_eq_ok.mp h
  obtain ⟨⟨payload, r₃⟩, hpayload, h⟩ := bind_eq_ok.mp h
  obtain ⟨_, -, h⟩ := bind_eq_ok.mp h
  cases h
  obtain ⟨hbytes₁, hpos₁⟩ := byte_pos hid
  obtain ⟨hbytes₂, hpos₂⟩ := lebLoop_pos hsize
  obtain ⟨hbytes₃, hpos₃, -⟩ := take_pos hpayload
  exact ⟨hbytes₃.trans (hbytes₂.trans hbytes₁), by omega⟩

end Reader

/-- The loop of `custom_sections`, with what was found so far. -/
def sectionsFrom (name : String) (r : Reader) (found : List (List UInt8)) :
    WasmResult (List (List UInt8)) :=
  if r.done then .ok found
  else
    match _ : r.nextSection name with
    | .error e => .error e
    | .ok (hit, s) => sectionsFrom name s (found ++ hit.toList)
termination_by r.bytes.length - r.pos
decreasing_by
  obtain ⟨hbytes, hpos⟩ := Reader.nextSection_pos ‹_›
  have hle := s.pos_le
  rw [hbytes] at hle ⊢
  omega

/-- `\0asm` -/
def wasmMagic : List UInt8 := [0x00, 0x61, 0x73, 0x6d]

/-- The contents of every custom section with the given name, in module order. -/
def customSections (wasm : List UInt8) (name : String) : WasmResult (List (List UInt8)) := do
  let r := Reader.start wasm
  let (magic, r) ← (r.take 4).mapError (Halt.map fun _ => .notWasm)
  if magic ≠ wasmMagic then .error (.error .notWasm)
  else
    let (v, r) ← r.take 4
    let version := u32FromLeBytes (← index v 0) (← index v 1) (← index v 2) (← index v 3)
    if version ≠ 1 then .error (.error (.unsupportedVersion version))
    else sectionsFrom name r []

/-! ## No index is out of bounds -/

theorem inBounds_index {xs : List UInt8} {i : Nat} (h : i < xs.length) : InBounds (index xs i) := by
  simp [index, List.getElem?_eq_getElem h]

theorem Reader.inBounds_take (n : Nat) (r : Reader) : InBounds (r.take n) := by
  unfold take
  split
  · exact inBounds_ok _
  · exact inBounds_error _

theorem Reader.inBounds_byte (r : Reader) : InBounds r.byte := by
  refine (r.inBounds_take 1).bind ?_
  rintro ⟨xs, s⟩ htake
  obtain ⟨-, -, hlength⟩ := take_pos htake
  exact (inBounds_index (by omega)).bind fun b _ => inBounds_ok (b, s)

theorem Reader.inBounds_lebLoop (result : UInt32) (is : List Nat) (r : Reader) :
    InBounds (r.lebLoop result is) := by
  induction is generalizing r result with
  | nil => exact inBounds_error _
  | cons i is ih =>
      refine r.inBounds_byte.bind ?_
      rintro ⟨b, s⟩ -
      dsimp only
      split
      · exact inBounds_error _
      · split
        · exact inBounds_ok _
        · exact ih _ s

theorem inBounds_namedContent (name : String) (payload : List UInt8) :
    InBounds (namedContent name payload) := by
  refine (Reader.inBounds_lebLoop 0 _ _).bind ?_
  rintro ⟨nameLen, s⟩ hlen
  refine (s.inBounds_take _).bind ?_
  rintro ⟨bytes, t⟩ htake
  dsimp only
  split
  · -- the reader is within the payload, and so is what the slice leaves out
    have hpos : t.pos ≤ payload.length := by
      have hle := t.pos_le
      rwa [(Reader.take_pos htake).1, (Reader.lebLoop_pos hlen).1] at hle
    have hslice : sliceFrom payload t.pos = .ok (payload.drop t.pos) := if_pos hpos
    rw [hslice]
    exact inBounds_ok _
  · exact inBounds_ok _

theorem Reader.inBounds_nextSection (name : String) (r : Reader) :
    InBounds (r.nextSection name) := by
  refine r.inBounds_byte.bind ?_
  rintro ⟨id, r₁⟩ -
  refine (r₁.inBounds_lebLoop 0 _).bind ?_
  rintro ⟨size, r₂⟩ -
  refine (r₂.inBounds_take _).bind ?_
  rintro ⟨payload, r₃⟩ -
  have hhit : InBounds (if id ≠ 0 then .ok none else namedContent name payload) := by
    split
    · exact inBounds_ok _
    · exact inBounds_namedContent name payload
  exact hhit.bind fun hit _ => inBounds_ok (hit, r₃)

theorem inBounds_sectionsFrom (name : String) (r : Reader) (found : List (List UInt8)) :
    InBounds (sectionsFrom name r found) := by
  induction r, found using sectionsFrom.induct name with
  | case1 r found hdone =>
      rw [sectionsFrom, if_pos hdone]
      exact inBounds_ok _
  | case2 r found hdone e herror =>
      rw [sectionsFrom, if_neg hdone]
      split
      · next e' h =>
        have hbounds := r.inBounds_nextSection name
        rw [h] at hbounds
        intro hbad
        cases hbad
        exact hbounds rfl
      · next h => simp [h] at herror
  | case3 r found hdone hit s h ih =>
      rw [sectionsFrom, if_neg hdone]
      split
      · next h' => simp [h] at h'
      · next hit' s' h' =>
        rw [h] at h'
        cases h'
        exact ih

theorem inBounds_customSections (wasm : List UInt8) (name : String) :
    InBounds (customSections wasm name) := by
  refine (((Reader.start wasm).inBounds_take 4).mapError _).bind ?_
  rintro ⟨magic, r⟩ -
  dsimp only
  split
  · exact inBounds_error _
  · refine (r.inBounds_take 4).bind ?_
    rintro ⟨v, s⟩ htake
    obtain ⟨-, -, hlength⟩ := Reader.take_pos htake
    dsimp only
    refine (inBounds_index (by omega)).bind fun a _ => ?_
    refine (inBounds_index (by omega)).bind fun b _ => ?_
    refine (inBounds_index (by omega)).bind fun c _ => ?_
    refine (inBounds_index (by omega)).bind fun d _ => ?_
    split
    · exact inBounds_error _
    · exact inBounds_sectionsFrom name s []

end Observatory
