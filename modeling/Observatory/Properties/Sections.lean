import Mathlib.Tactic.IntervalCases
import Observatory.Contract.Wasm
import Observatory.Lib.Leb128

/-!
# The grammar of WebAssembly sections

What a module is, as far as its sections go, and that the reader of custom
sections accepts just that: the magic, the version, and any number of sections,
each an id, its size and its payload; a custom section has id 0, and its payload
begins with a name.

* `ModuleBytes` — the bytes of a module with these sections.
* `reads_lebU32` — the reader of numbers accepts any encoding of at most five bytes.
* `sectionsFrom_eq_ok` — what the loop finds from any position.
* `customSections_grammar` — the reader accepts the grammar, finds the sections
  with the name, and stays in bounds.
-/

namespace Observatory

open Reading

/-! ## The grammar -/

/-- A `u32` in at most five bytes. -/
def LebU32 (xs : List UInt8) (n : Nat) : Prop :=
  Leb128.Encodes xs n ∧ xs.length ≤ 5 ∧ n < UInt32.size

/-- A section of a module. -/
inductive Section where
  /-- A custom section, of id 0. -/
  | custom (name content : List UInt8)
  /-- Any other. -/
  | other (id : UInt8) (nonzero : id ≠ 0) (payload : List UInt8)

/-- The payload of a custom section: the length of its name, the name, the content. -/
def CustomPayload (payload name content : List UInt8) : Prop :=
  ∃ len, LebU32 len name.length ∧ payload = len ++ (name ++ content)

/-- The bytes of a section: its id, the size of its payload, the payload. -/
inductive SectionBytes : List UInt8 → Section → Prop where
  | custom {size payload name content : List UInt8} (hsize : LebU32 size payload.length)
      (hpayload : CustomPayload payload name content) :
      SectionBytes (0 :: (size ++ payload)) (.custom name content)
  | other {size payload : List UInt8} {id : UInt8} (nonzero : id ≠ 0)
      (hsize : LebU32 size payload.length) :
      SectionBytes (id :: (size ++ payload)) (.other id nonzero payload)

/-- Version 1, as a `u32` with its lowest byte first. -/
def wasmVersion : List UInt8 := [1, 0, 0, 0]

/-- The bytes of a module with these sections. -/
def ModuleBytes (wasm : List UInt8) (sections : List Section) : Prop :=
  ∃ body, wasm = wasmMagic ++ (wasmVersion ++ body) ∧ Many SectionBytes body sections

/-- The content of a section, if it is custom and has the name. -/
def Section.contentOf (name : String) : Section → Option (List UInt8)
  | .custom bytes content => if bytes = name.toUTF8.data.toList then some content else none
  | .other .. => none

/-- The contents of the custom sections with the name, in module order. -/
def contents (name : String) (sections : List Section) : List (List UInt8) :=
  sections.filterMap (Section.contentOf name)

/-! ## Writing a module -/

def Section.id : Section → UInt8
  | .custom .. => 0
  | .other id .. => id

/-- The payload of a section, its name's length written without padding. -/
def Section.payload : Section → List UInt8
  | .custom name content => Leb128.encode name.length ++ (name ++ content)
  | .other _ _ payload => payload

/-- The size of the payload is a `u32`. -/
def Section.Fits (s : Section) : Prop := s.payload.length < UInt32.size

def Section.encode (s : Section) : List UInt8 :=
  s.id :: (Leb128.encode s.payload.length ++ s.payload)

/-- A module with these sections. -/
def encodeModule (sections : List Section) : List UInt8 :=
  wasmMagic ++ (wasmVersion ++ sections.flatMap Section.encode)

theorem lebU32_encode {n : Nat} (h : n < UInt32.size) : LebU32 (Leb128.encode n) n := by
  refine ⟨Leb128.encodes_encode n, Leb128.length_encode_le 4 ?_, h⟩
  calc n < UInt32.size := h
    _ ≤ 128 ^ (4 + 1) := by decide

theorem sectionBytes_encode {s : Section} (h : s.Fits) : SectionBytes s.encode s := by
  cases s with
  | custom name content =>
      have hname : name.length < UInt32.size := by
        have hfits : (Leb128.encode name.length ++ (name ++ content)).length < UInt32.size := h
        simp only [List.length_append] at hfits
        omega
      exact SectionBytes.custom (lebU32_encode h) ⟨_, lebU32_encode hname, rfl⟩
  | other id nonzero payload => exact SectionBytes.other nonzero (lebU32_encode h)

/-- A number that is encoded is a `u32`. -/
theorem LebU32.exists_u32 {xs : List UInt8} {n : Nat} (h : LebU32 xs n) :
    ∃ v : UInt32, v.toNat = n ∧ LebU32 xs v.toNat := by
  have hv : (UInt32.ofNat n).toNat = n := by
    rw [UInt32.toNat_ofNat']
    exact Nat.mod_eq_of_lt h.2.2
  exact ⟨UInt32.ofNat n, hv, by rwa [hv]⟩

/-- What is written is a module with these sections. -/
theorem moduleBytes_encodeModule {sections : List Section} (h : ∀ s ∈ sections, s.Fits) :
    ModuleBytes (encodeModule sections) sections :=
  ⟨_, rfl, Many.flatMap fun s hs => sectionBytes_encode (h s hs)⟩

/-! ## Reading bytes and numbers -/

namespace Reader

theorem reads_take (n : Nat) : Reads tape (fun xs ys => xs = ys ∧ ys.length = n) (take n) := by
  intro r ys s
  constructor
  · intro h
    have hlength := (take_pos h).2.2
    refine ⟨ys, ⟨rfl, hlength⟩, (take_pos h).1, ?_⟩
    unfold take at h
    split at h
    · next hle =>
      cases h
      show r.bytes.drop r.pos = (r.bytes.drop r.pos).take n ++ r.bytes.drop (r.pos + n)
      rw [← List.drop_drop, List.take_append_drop]
    · cases h
  · rintro ⟨xs, ⟨hsame, hlength⟩, hbytes, hrest⟩
    rw [hsame] at hrest
    have hsize := congrArg List.length hrest
    simp only [length_rest, List.length_append] at hsize
    have hpos := r.pos_le
    have hle : r.pos + n ≤ r.bytes.length := by
      rw [hbytes] at hsize
      omega
    have htaken : (r.bytes.drop r.pos).take n = ys := by
      rw [show r.bytes.drop r.pos = r.rest from rfl, hrest, ← hlength, List.take_left]
    have hafter : s = ⟨r.bytes, r.pos + n, hle⟩ := by
      refine eq_of_rest hbytes ?_
      show s.rest = r.bytes.drop (r.pos + n)
      rw [← List.drop_drop, show r.bytes.drop r.pos = r.rest from rfl, hrest, ← hlength,
        List.drop_left]
    rw [take, dif_pos hle, htaken, hafter]

theorem reads_byte : Reads tape (fun xs b => xs = [b]) byte := by
  have hreads := (reads_take 1).bind fun xs => reads_result (T := tape) (index xs 0)
  refine hreads.congr fun xs b => ?_
  constructor
  · rintro ⟨ys, zs, a, rfl, ⟨rfl, hlength⟩, rfl, hindex⟩
    obtain ⟨c, rfl⟩ := List.length_eq_one_iff.mp hlength
    cases hindex
    rfl
  · rintro rfl
    exact ⟨[b], [], [b], rfl, ⟨rfl, rfl⟩, rfl, rfl⟩

/-! ### The loop over the bytes of a number -/

theorem toNat_low (b : UInt8) : (b &&& 0x7f).toUInt32.toNat = b.toNat % 128 := by
  rw [UInt8.toNat_toUInt32, UInt8.toNat_and]
  exact Nat.and_two_pow_sub_one_eq_mod b.toNat 7

theorem highBit_eq_zero (b : UInt8) : b &&& 0x80 = 0 ↔ b.toNat < 128 := by
  have hall : ∀ n : Fin 256, n.val &&& 128 = 0 ↔ n.val < 128 := by decide +kernel
  rw [← UInt8.toNat_inj, UInt8.toNat_and]
  exact hall ⟨b.toNat, b.toNat_lt⟩

/-- Seven bits of a number are added above those read before. -/
theorem toNat_addLow {i : Nat} {result low : UInt32} (hi : i ≤ 4)
    (hresult : result.toNat < 2 ^ (7 * i)) (hlow : low.toNat < 128)
    (hlast : i = 4 → low.toNat ≤ 15) :
    (result ||| low <<< UInt32.ofNat (7 * i)).toNat = result.toNat + 2 ^ (7 * i) * low.toNat := by
  have hshift : (UInt32.ofNat (7 * i)).toNat % 32 = 7 * i := by
    rw [UInt32.toNat_ofNat', Nat.mod_eq_of_lt (a := 7 * i) (by omega)]
    omega
  have hfits : 2 ^ (7 * i) * low.toNat < 2 ^ 32 := by
    interval_cases i <;> omega
  rw [UInt32.toNat_or, UInt32.toNat_shiftLeft, hshift, Nat.shiftLeft_eq, Nat.mul_comm,
    Nat.mod_eq_of_lt hfits, Nat.or_comm, ← Nat.two_pow_add_eq_or_of_lt hresult, Nat.add_comm]

/-- One pass of the loop, and the passes after it. -/
def lebPass (result : UInt32) (i : Nat) (is : List Nat) (b : UInt8) (r : Reader) :
    WasmResult (UInt32 × Reader) :=
  let low := (b &&& 0x7f).toUInt32
  if i = 4 ∧ low > 0x0f then .error (.error .badLeb128)
  else
    let result := result ||| low <<< UInt32.ofNat (7 * i)
    if b &&& 0x80 = 0 then .ok (result, r) else lebLoop result is r

theorem lebLoop_cons (result : UInt32) (i : Nat) (is : List Nat) :
    lebLoop result (i :: is) = fun r => r.byte >>= fun x => lebPass result i is x.1 x.2 := rfl

/-- What is left of a number when `i` bytes of it are read: at most `k` bytes, which add to the
result so far what does not overflow a `u32`. -/
def LebRest (result : UInt32) (i k : Nat) (xs : List UInt8) (v : UInt32) : Prop :=
  ∃ n, Leb128.Encodes xs n ∧ xs.length ≤ k ∧ v.toNat = result.toNat + 2 ^ (7 * i) * n

/-- More than four bits in the fifth byte do not fit. -/
theorem not_lebRest_of_overflow {result v : UInt32} {b : UInt8} {ys : List UInt8}
    (hb : 15 < b.toNat % 128) : ¬ LebRest result 4 1 (b :: ys) v := by
  rintro ⟨n, hencodes, hlength, hvalue⟩
  obtain rfl : ys = [] := by simpa using hlength
  have hn : b.toNat % 128 ≤ n := by
    cases hencodes with
    | last _ _ => exact Nat.mod_le _ _
    | more _ _ tail => exact absurd tail.length_pos (by simp)
  have hv := v.toNat_lt
  omega

section Pass

variable {result result' v : UInt32} {i k : Nat} {b : UInt8} {ys : List UInt8}
variable (hadd : result'.toNat = result.toNat + 2 ^ (7 * i) * (b.toNat % 128))
include hadd

theorem lebRest_last (hb : b.toNat < 128) :
    LebRest result i (k + 1) (b :: ys) v ↔ ys = [] ∧ v = result' := by
  rw [Nat.mod_eq_of_lt hb] at hadd
  simp only [LebRest, Leb128.encodes_cons_of_lt hb]
  constructor
  · rintro ⟨n, ⟨hys, rfl⟩, -, hvalue⟩
    exact ⟨hys, UInt32.toNat_inj.mp (hvalue.trans hadd.symm)⟩
  · rintro ⟨rfl, rfl⟩
    exact ⟨b.toNat, ⟨rfl, rfl⟩, by simp, hadd⟩

theorem lebRest_more (hb : 128 ≤ b.toNat) :
    LebRest result i (k + 1) (b :: ys) v ↔ LebRest result' (i + 1) k ys v := by
  have hsum : ∀ m, result.toNat + 2 ^ (7 * i) * (b.toNat % 128 + 128 * m)
      = result'.toNat + 2 ^ (7 * (i + 1)) * m := by
    intro m
    rw [hadd]
    ring
  simp only [LebRest, Leb128.encodes_cons_of_ge hb]
  constructor
  · rintro ⟨_, ⟨m, hencodes, rfl⟩, hlength, hvalue⟩
    exact ⟨m, hencodes, Nat.le_of_succ_le_succ hlength, hvalue.trans (hsum m)⟩
  · rintro ⟨m, hencodes, hlength, hvalue⟩
    exact ⟨_, ⟨m, hencodes, rfl⟩, Nat.succ_le_succ hlength, hvalue.trans (hsum m).symm⟩

/-- The bits read so far stay below those to come. -/
theorem toNat_lt_of_addLow (hresult : result.toNat < 2 ^ (7 * i)) :
    result'.toNat < 2 ^ (7 * (i + 1)) := by
  have hlow : b.toNat % 128 + 1 ≤ 128 := Nat.mod_lt _ (by omega)
  calc result'.toNat = result.toNat + 2 ^ (7 * i) * (b.toNat % 128) := hadd
    _ < 2 ^ (7 * i) * (b.toNat % 128 + 1) := by rw [Nat.mul_succ]; omega
    _ ≤ 2 ^ (7 * i) * 128 := Nat.mul_le_mul_left _ hlow
    _ = 2 ^ (7 * (i + 1)) := by ring

end Pass

/-- A pass reads the rest of a number, if the passes after it do. -/
theorem reads_lebPass {result : UInt32} {i k : Nat} (hi : i + (k + 1) = 5)
    (hresult : result.toNat < 2 ^ (7 * i))
    (hrest : ∀ {result' : UInt32}, result'.toNat < 2 ^ (7 * (i + 1)) →
      Reads tape (LebRest result' (i + 1) k) (lebLoop result' (List.range' (i + 1) k)))
    (b : UInt8) :
    Reads tape (fun ys => LebRest result i (k + 1) (b :: ys))
      (lebPass result i (List.range' (i + 1) k) b) := by
  have hlow := toNat_low b
  by_cases hlast : i = 4 ∧ (b &&& 0x7f).toUInt32 > 0x0f
  · intro r v s
    rw [lebPass, if_pos hlast]
    obtain ⟨rfl, hbits⟩ := hlast
    obtain rfl : k = 0 := by omega
    have hbits : 15 < b.toNat % 128 := hlow ▸ UInt32.lt_iff_toNat_lt.mp hbits
    constructor
    · intro h
      cases h
    · rintro ⟨ys, hys, -⟩
      exact absurd hys (not_lebRest_of_overflow hbits)
  · have hadd : (result ||| (b &&& 0x7f).toUInt32 <<< UInt32.ofNat (7 * i)).toNat
        = result.toNat + 2 ^ (7 * i) * (b.toNat % 128) := by
      rw [← hlow]
      refine toNat_addLow (by omega) hresult ?_ ?_
      · rw [hlow]
        exact Nat.mod_lt _ (by omega)
      · intro h4
        by_contra hgt
        exact hlast ⟨h4, UInt32.lt_iff_toNat_lt.mpr (Nat.lt_of_not_le hgt)⟩
    by_cases hb : b.toNat < 128
    · intro r v s
      rw [lebPass, if_neg hlast]
      dsimp only
      rw [if_pos ((highBit_eq_zero b).mpr hb)]
      simp only [lebRest_last hadd hb]
      constructor
      · intro h
        cases h
        exact ⟨[], ⟨rfl, rfl⟩, (tape.nil_iff r r).mpr rfl⟩
      · rintro ⟨_, ⟨rfl, rfl⟩, hmoves⟩
        rw [(tape.nil_iff r s).mp hmoves]
    · have hloop : lebPass result i (List.range' (i + 1) k) b
          = lebLoop (result ||| (b &&& 0x7f).toUInt32 <<< UInt32.ofNat (7 * i))
            (List.range' (i + 1) k) := by
        funext r
        rw [lebPass, if_neg hlast]
        exact if_neg (mt (highBit_eq_zero b).mp hb)
      rw [hloop]
      refine (hrest (toNat_lt_of_addLow hadd hresult)).congr fun ys v => ?_
      exact (lebRest_more hadd (Nat.le_of_not_lt hb)).symm

theorem reads_lebLoop {i k : Nat} (hi : i + k = 5) {result : UInt32}
    (hresult : result.toNat < 2 ^ (7 * i)) :
    Reads tape (LebRest result i k) (lebLoop result (List.range' i k)) := by
  induction k generalizing i result with
  | zero =>
      intro r v s
      constructor
      · intro h
        cases h
      · rintro ⟨xs, ⟨n, hencodes, hlength, -⟩, -⟩
        have := hencodes.length_pos
        omega
  | succ k ih =>
      rw [List.range'_succ, lebLoop_cons]
      have hpass := reads_lebPass hi hresult fun hresult' => ih (by omega) hresult'
      refine (reads_byte.bind hpass).congr fun xs v => ?_
      constructor
      · rintro ⟨_, ys, b, rfl, rfl, hrest⟩
        exact hrest
      · intro hrest
        cases xs with
        | nil =>
            obtain ⟨n, hencodes, -⟩ := hrest
            exact absurd hencodes.length_pos (by simp)
        | cons b ys => exact ⟨[b], ys, b, rfl, rfl, hrest⟩

/-- The reader of numbers accepts the encodings of a `u32` of at most five bytes. -/
theorem reads_lebU32 : Reads tape (fun xs v => LebU32 xs v.toNat) lebU32 := by
  have hzero : (0 : UInt32).toNat < 2 ^ (7 * 0) := by decide
  have hloop := reads_lebLoop (i := 0) (k := 5) rfl hzero
  rw [← List.range_eq_range'] at hloop
  refine hloop.congr fun xs v => ?_
  constructor
  · rintro ⟨n, hencodes, hlength, hvalue⟩
    have hn : v.toNat = n := by simpa using hvalue
    rw [hn]
    exact ⟨hencodes, hlength, hn ▸ v.toNat_lt⟩
  · rintro ⟨hencodes, hlength, -⟩
    exact ⟨v.toNat, hencodes, hlength, by simp⟩

end Reader

/-! ## Reading sections -/

/-- The content of a custom section is what follows its name, and is kept if the name is the
one asked for. -/
theorem namedContent_eq_ok {name : String} {payload : List UInt8} {hit : Option (List UInt8)} :
    namedContent name payload = .ok hit ↔ ∃ bytes content,
      CustomPayload payload bytes content ∧
        hit = (Section.custom bytes content).contentOf name := by
  -- the slice of the payload from the reader on is what the reader has left
  have hslice : ∀ t : Reader, t.bytes = payload → sliceFrom payload t.pos = .ok t.rest := by
    rintro t rfl
    exact if_pos t.pos_le
  constructor
  · intro h
    obtain ⟨⟨nameLen, s⟩, hlen, h⟩ := bind_eq_ok.mp h
    obtain ⟨⟨bytes, t⟩, htake, h⟩ := bind_eq_ok.mp h
    obtain ⟨len, hleb, hbytes, hrest⟩ := (Reader.reads_lebU32 _ _ _).mp hlen
    obtain ⟨xs, ⟨rfl, hlength⟩, hbytes', hrest'⟩ := (Reader.reads_take _ _ _ _).mp htake
    refine ⟨xs, t.rest, ⟨len, hlength ▸ hleb, ?_⟩, ?_⟩
    · rw [← hrest', ← hrest, Reader.rest_start]
    · dsimp only at h
      split at h
      · next hname =>
        rw [hslice t (hbytes'.trans hbytes)] at h
        cases h
        exact (if_pos hname).symm
      · next hname =>
        cases h
        exact (if_neg hname).symm
  · rintro ⟨bytes, content, ⟨len, hleb, rfl⟩, rfl⟩
    have hstart : (Reader.start (len ++ (bytes ++ content))).rest = len ++ (bytes ++ content) := rfl
    obtain ⟨s, hbytes, hrest⟩ := Reader.exists_after hstart
    obtain ⟨t, hbytes', hrest'⟩ := Reader.exists_after hrest
    obtain ⟨nameLen, hn, hlen⟩ := hleb.exists_u32
    have hread : (Reader.start (len ++ (bytes ++ content))).lebU32 = .ok (nameLen, s) :=
      (Reader.reads_lebU32 _ _ _).mpr ⟨len, hlen, hbytes, by rw [hrest]; rfl⟩
    have htake : s.take nameLen.toNat = .ok (bytes, t) :=
      (Reader.reads_take _ _ _ _).mpr ⟨bytes, ⟨rfl, hn.symm⟩, hbytes', by rw [hrest, hrest']⟩
    refine bind_eq_ok.mpr ⟨_, hread, bind_eq_ok.mpr ⟨_, htake, ?_⟩⟩
    simp only [hslice t (hbytes'.trans hbytes), hrest', Section.contentOf]
    split <;> rfl

/-- An iteration reads an id, a size and as many bytes, and looks into those. -/
theorem reads_header (name : String) :
    Reads Reader.tape (fun xs hit => ∃ id size payload, xs = id :: (size ++ payload) ∧
      LebU32 size payload.length ∧
      (if id ≠ 0 then .ok none else namedContent name payload) = .ok hit)
      (Reader.nextSection name) := by
  have hreads := Reader.reads_byte.bind fun id => Reader.reads_lebU32.bind fun size =>
    (Reader.reads_take size.toNat).bind fun payload => reads_result (T := Reader.tape)
      (if id ≠ 0 then .ok none else namedContent name payload)
  refine hreads.congr fun xs hit => ⟨?_, ?_⟩
  · rintro ⟨_, _, id, rfl, rfl, size, _, n, rfl, hsize, payload, _, _, rfl, ⟨rfl, hlength⟩, rfl, h⟩
    rw [← hlength] at hsize
    exact ⟨id, size, payload, by simp, hsize, h⟩
  · rintro ⟨id, size, payload, rfl, hsize, h⟩
    obtain ⟨n, hn, hread⟩ := hsize.exists_u32
    exact ⟨[id], size ++ payload, id, rfl, rfl, size, payload, n, rfl, hread,
      payload, [], payload, (List.append_nil _).symm, ⟨rfl, hn.symm⟩, rfl, h⟩

/-- The reader is past a section after each iteration, and has found its content if it has
the name. -/
theorem reads_nextSection (name : String) :
    Reads Reader.tape (fun xs hit => ∃ s, SectionBytes xs s ∧ hit = s.contentOf name)
      (Reader.nextSection name) := by
  refine (reads_header name).congr fun xs hit => ⟨?_, ?_⟩
  · rintro ⟨id, size, payload, rfl, hsize, h⟩
    by_cases hid : id = 0
    · subst hid
      rw [if_neg (by simp)] at h
      obtain ⟨bytes, content, hpayload, rfl⟩ := namedContent_eq_ok.mp h
      exact ⟨_, SectionBytes.custom hsize hpayload, rfl⟩
    · rw [if_pos hid] at h
      cases h
      exact ⟨_, SectionBytes.other hid hsize, rfl⟩
  · rintro ⟨s, hs, rfl⟩
    cases hs with
    | @custom size payload bytes content hsize hpayload =>
        refine ⟨0, size, payload, rfl, hsize, ?_⟩
        rw [if_neg (by simp)]
        exact namedContent_eq_ok.mpr ⟨bytes, content, hpayload, rfl⟩
    | @other size payload id nonzero hsize =>
        exact ⟨id, size, payload, rfl, hsize, if_pos nonzero⟩

theorem SectionBytes.ne_nil {xs : List UInt8} {s : Section} (h : SectionBytes xs s) : xs ≠ [] := by
  cases h <;> simp

/-- Before the end there is a section, and an iteration reads it. -/
theorem nextSection_of_many (name : String) {r : Reader} {sections : List Section}
    (hdone : ¬r.done = true) (h : Many SectionBytes r.rest sections) :
    ∃ s later t, sections = s :: later ∧ Many SectionBytes t.rest later ∧
      r.nextSection name = .ok (s.contentOf name, t) := by
  generalize hrest : r.rest = xs at h
  cases h with
  | nil => exact absurd (Reader.rest_eq_nil.mp hrest) hdone
  | @cons xs ys s later head tail =>
      obtain ⟨t, hbytes, hafter⟩ := Reader.exists_after hrest
      refine ⟨s, later, t, rfl, hafter ▸ tail, ?_⟩
      exact (reads_nextSection name r _ t).mpr ⟨xs, ⟨s, head, rfl⟩, hbytes, by rw [hrest, hafter]⟩

/-- A section that is read comes before the others. -/
theorem sectionsFrom_next {name : String} {r t : Reader} {found : List (List UInt8)}
    {hit : Option (List UInt8)} (hdone : ¬ r.done = true)
    (hnext : r.nextSection name = .ok (hit, t)) :
    sectionsFrom name r found = sectionsFrom name t (found ++ hit.toList) := by
  rw [sectionsFrom, if_neg hdone]
  split
  · next h => simp [hnext] at h
  · next h =>
    rw [hnext] at h
    cases h
    rfl

theorem append_contents_cons (name : String) (found : List (List UInt8)) (s : Section)
    (later : List Section) : found ++ contents name (s :: later)
      = found ++ (Section.contentOf name s).toList ++ contents name later := by
  rw [contents, List.filterMap_cons, List.append_assoc]
  cases s.contentOf name <;> rfl

/-- From any position on, the loop accepts any number of sections, and finds the contents of
those with the name. -/
theorem sectionsFrom_eq_ok {name : String} {r : Reader} {found out : List (List UInt8)} :
    sectionsFrom name r found = .ok out ↔
      ∃ sections, Many SectionBytes r.rest sections ∧ out = found ++ contents name sections := by
  induction r, found using sectionsFrom.induct name with
  | case1 r found hdone =>
      rw [sectionsFrom, if_pos hdone, Reader.rest_eq_nil.mpr hdone]
      constructor
      · intro h
        cases h
        exact ⟨[], Many.nil, (List.append_nil _).symm⟩
      · rintro ⟨sections, hmany, rfl⟩
        generalize hxs : ([] : List UInt8) = xs at hmany
        cases hmany with
        | nil => simp [contents]
        | cons head _ => exact absurd (List.append_eq_nil_iff.mp hxs.symm).1 head.ne_nil
  | case2 r found hdone e herror =>
      rw [sectionsFrom, if_neg hdone]
      constructor
      · intro h
        split at h
        · cases h
        · next h' => simp [herror] at h'
      · rintro ⟨sections, hmany, -⟩
        obtain ⟨s, later, t, -, -, hnext⟩ := nextSection_of_many name hdone hmany
        rw [herror] at hnext
        cases hnext
  | case3 r found hdone hit t hnext ih =>
      rw [sectionsFrom_next hdone hnext, ih]
      constructor
      · rintro ⟨later, hmany, rfl⟩
        obtain ⟨xs, ⟨s, hs, rfl⟩, -, hrest⟩ := (reads_nextSection name r hit t).mp hnext
        exact ⟨s :: later, hrest ▸ Many.cons hs hmany,
          (append_contents_cons name found s later).symm⟩
      · rintro ⟨sections, hmany, rfl⟩
        obtain ⟨s, later, t', rfl, hlater, hnext'⟩ := nextSection_of_many name hdone hmany
        rw [hnext] at hnext'
        cases hnext'
        exact ⟨later, hlater, append_contents_cons name found s later⟩

/-! ## The whole module -/

/-- Version 1 is written in one way only. -/
theorem u32FromLeBytes_eq_one {a b c d : UInt8} :
    u32FromLeBytes a b c d = 1 ↔ [a, b, c, d] = wasmVersion := by
  have ha := a.toNat_lt
  have hb := b.toNat_lt
  have hc := c.toNat_lt
  have hd := d.toNat_lt
  simp only [wasmVersion, List.cons.injEq, and_true, ← UInt8.toNat_inj, ← UInt32.toNat_inj,
    u32FromLeBytes, UInt32.toNat_ofNat']
  constructor
  · intro h
    simp at h ⊢
    omega
  · rintro ⟨h1, h2, h3, h4⟩
    simp at h1 h2 h3 h4 ⊢
    omega

/-- The reader gets to the sections past the magic and the version. -/
theorem customSections_eq_ok {wasm : List UInt8} {name : String} {found : List (List UInt8)} :
    customSections wasm name = .ok found ↔ ∃ r : Reader, r.bytes = wasm ∧
      wasm = wasmMagic ++ (wasmVersion ++ r.rest) ∧ sectionsFrom name r [] = .ok found := by
  constructor
  · intro h
    obtain ⟨⟨magic, r⟩, hmagic, h⟩ := bind_eq_ok.mp h
    obtain ⟨_, ⟨rfl, -⟩, hbytes, hrest⟩ := (Reader.reads_take 4 _ _ r).mp (mapError_eq_ok.mp hmagic)
    dsimp only at h
    split at h
    · cases h
    · next heq =>
      obtain rfl := not_not.mp heq
      obtain ⟨⟨v, s⟩, hv, h⟩ := bind_eq_ok.mp h
      obtain ⟨xs, ⟨hxs, hlength⟩, hbytes', hrest'⟩ := (Reader.reads_take 4 r v s).mp hv
      rw [hxs] at hrest'
      match v, hlength with
      | [a, b, c, d], _ =>
          have h : (if u32FromLeBytes a b c d ≠ 1
              then .error (.error (.unsupportedVersion (u32FromLeBytes a b c d)))
              else sectionsFrom name s []) = .ok found := h
          split at h
          · cases h
          · next hversion =>
            refine ⟨s, hbytes'.trans hbytes, ?_, h⟩
            rw [← u32FromLeBytes_eq_one.mp (not_not.mp hversion), ← hrest', ← hrest,
              Reader.rest_start]
  · rintro ⟨s, hbytes, hwasm, h⟩
    obtain ⟨r, hr, hafter⟩ := Reader.exists_after (r := Reader.start wasm) hwasm
    have hmagic : (Reader.start wasm).take 4 = .ok (wasmMagic, r) :=
      (Reader.reads_take 4 _ _ r).mpr ⟨wasmMagic, ⟨rfl, rfl⟩, hr, by rw [hafter]; exact hwasm⟩
    have hversion : r.take 4 = .ok (wasmVersion, s) :=
      (Reader.reads_take 4 r _ s).mpr ⟨wasmVersion, ⟨rfl, rfl⟩, hbytes.trans hr.symm, hafter⟩
    refine bind_eq_ok.mpr ⟨_, mapError_eq_ok.mpr hmagic, ?_⟩
    dsimp only
    rw [if_neg (not_not.mpr rfl)]
    exact bind_eq_ok.mpr ⟨_, hversion, h⟩

/-- The reader accepts the bytes of modules, and finds the contents of the sections with the
name. -/
theorem customSections_eq_contents {wasm : List UInt8} {name : String}
    {found : List (List UInt8)} : customSections wasm name = .ok found ↔
      ∃ sections, ModuleBytes wasm sections ∧ found = contents name sections := by
  simp only [customSections_eq_ok, sectionsFrom_eq_ok, List.nil_append]
  constructor
  · rintro ⟨r, -, hwasm, sections, hmany, hfound⟩
    exact ⟨sections, ⟨r.rest, hwasm, hmany⟩, hfound⟩
  · rintro ⟨sections, ⟨body, hwasm, hmany⟩, hfound⟩
    have hstart : (Reader.start wasm).rest = (wasmMagic ++ wasmVersion) ++ body := by
      rw [List.append_assoc]
      exact hwasm
    obtain ⟨r, hbytes, hrest⟩ := Reader.exists_after hstart
    exact ⟨r, hbytes, hrest.symm ▸ hwasm, sections, hrest.symm ▸ hmany, hfound⟩

/-- **The section reader accepts its grammar.**  A byte string is read without an error just when
it is a module, and what is found is the contents of its sections with the name, in order; what
is written of any sections is read back; and no index or slice is ever out of bounds. -/
theorem customSections_grammar (wasm : List UInt8) (name : String) :
    (∀ found, customSections wasm name = .ok found ↔
      ∃ sections, ModuleBytes wasm sections ∧ found = contents name sections) ∧
    (∀ sections : List {s : Section // s.Fits},
      customSections (encodeModule (sections.map Subtype.val)) name
        = .ok (contents name (sections.map Subtype.val))) ∧
    InBounds (customSections wasm name) := by
  refine ⟨fun found => customSections_eq_contents, ?_, inBounds_customSections wasm name⟩
  intro sections
  have hfits : ∀ s ∈ sections.map Subtype.val, s.Fits := by
    intro s hs
    obtain ⟨⟨t, ht⟩, -, rfl⟩ := List.mem_map.mp hs
    exact ht
  exact customSections_eq_contents.mpr ⟨_, moduleBytes_encodeModule hfits, rfl⟩

end Observatory
