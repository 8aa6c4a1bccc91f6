import Mathlib.Data.List.Basic

/-!
# UTF-8

The decoder of `String::from_utf8_lossy`: every maximal prefix of an ill-formed
sequence becomes one replacement character and reading resumes at the byte that
broke it.

* `Utf8.decode` — the decoder as a two-state machine: either a new sequence is
  expected, or a multi-byte sequence is pending.
* `Utf8.decode_ascii` — plain ASCII is read back unchanged, which is all that
  the fixed words of a protocol ever need.
* `Utf8.validate` — the same machine, refusing what is ill formed.
* `Utf8.bytes` — the bytes of a text, and `Utf8.bytes_eq_map` for ASCII.
-/

namespace Utf8

/-- A multi-byte sequence being read: the range its next byte has to fall in,
how many continuation bytes follow that one, and the bits read so far. -/
structure Pending where
  /-- Least admissible next byte. -/
  lo : UInt8
  /-- Greatest admissible next byte. -/
  hi : UInt8
  /-- Continuation bytes that follow the next one. -/
  more : Nat
  /-- The scalar value read so far. -/
  acc : Nat

/-- What a byte means where a new sequence is expected. -/
inductive Lead where
  /-- A complete one-byte character. -/
  | char (c : Char)
  /-- The first byte of a longer sequence. -/
  | seq (p : Pending)
  /-- A byte no sequence starts with. -/
  | invalid

/-- Classify a leading byte.  The narrowed second-byte ranges rule out overlong
forms, surrogates and values past `U+10FFFF`. -/
def lead (b : UInt8) : Lead :=
  if b < 0x80 then .char (Char.ofNat b.toNat)
  else if b < 0xC2 then .invalid
  else if b < 0xE0 then .seq ⟨0x80, 0xBF, 0, b.toNat % 32⟩
  else if b = 0xE0 then .seq ⟨0xA0, 0xBF, 1, 0⟩
  else if b = 0xED then .seq ⟨0x80, 0x9F, 1, 13⟩
  else if b < 0xF0 then .seq ⟨0x80, 0xBF, 1, b.toNat % 16⟩
  else if b = 0xF0 then .seq ⟨0x90, 0xBF, 2, 0⟩
  else if b < 0xF4 then .seq ⟨0x80, 0xBF, 2, b.toNat % 8⟩
  else if b = 0xF4 then .seq ⟨0x80, 0x8F, 2, 4⟩
  else .invalid

/-- The replacement character `U+FFFD`. -/
def replacement : Char := Char.ofNat 0xFFFD

/-- Decode bytes, given the sequence pending in front of them, if any. -/
def decode : Option Pending → List UInt8 → List Char
  | none, [] => []
  | some _, [] => [replacement]
  | none, b :: bs =>
      match lead b with
      | .char c => c :: decode none bs
      | .seq p => decode (some p) bs
      | .invalid => replacement :: decode none bs
  | some p, b :: bs =>
      if p.lo ≤ b ∧ b ≤ p.hi then
        match p.more with
        | 0 => Char.ofNat (p.acc * 64 + b.toNat % 64) :: decode none bs
        | n + 1 => decode (some ⟨0x80, 0xBF, n, p.acc * 64 + b.toNat % 64⟩) bs
      else
        -- the byte that breaks a sequence is read again as a leading byte
        match lead b with
        | .char c => replacement :: c :: decode none bs
        | .seq q => replacement :: decode (some q) bs
        | .invalid => replacement :: replacement :: decode none bs

/-- `String::from_utf8_lossy`. -/
def lossy (bytes : List UInt8) : String := String.ofList (decode none bytes)

/-- The bytes of a text made of ASCII characters only. -/
def ascii (s : String) : List UInt8 := s.toList.map (fun c => UInt8.ofNat c.toNat)

theorem lead_ascii {c : Char} (h : c.toNat < 128) : lead (UInt8.ofNat c.toNat) = .char c := by
  have hval : (UInt8.ofNat c.toNat).toNat = c.toNat := by
    rw [UInt8.toNat_ofNat']
    omega
  have hlt : UInt8.ofNat c.toNat < 0x80 := by
    rw [UInt8.lt_iff_toNat_lt, hval]
    exact h
  rw [lead, if_pos hlt, hval, Char.ofNat_toNat]

/-- Plain ASCII is read back unchanged. -/
theorem decode_ascii : ∀ {cs : List Char}, (∀ c ∈ cs, c.toNat < 128) →
    decode none (cs.map (fun c => UInt8.ofNat c.toNat)) = cs := by
  intro cs
  induction cs with
  | nil => intro _; rfl
  | cons c cs ih =>
      intro h
      rw [List.map_cons, decode, lead_ascii (h c (List.mem_cons_self ..))]
      simp only [ih (fun d hd => h d (List.mem_cons_of_mem _ hd))]

theorem lossy_ascii {s : String} (h : ∀ c ∈ s.toList, c.toNat < 128) : lossy (ascii s) = s := by
  rw [lossy, ascii, decode_ascii h, String.ofList_toList]

/-! ## Strict decoding -/

/-- Where a byte string stops being UTF-8, and how many bytes are wrong; none are when the string
ends too early. -/
structure Error where
  /-- The length of the part that is well formed. -/
  validUpTo : Nat
  /-- The number of bytes that are wrong. -/
  errorLen : Option Nat
  deriving DecidableEq

/-- The text of the error. -/
def Error.display (e : Error) : String :=
  match e.errorLen with
  | some n => s!"invalid utf-8 sequence of {n} bytes from index {e.validUpTo}"
  | none => s!"incomplete utf-8 byte sequence from index {e.validUpTo}"

/-- The first error of what comes behind `start` valid bytes and `read` bytes of a sequence. -/
def validate (start read : Nat) : Option Pending → List UInt8 → Option Error
  | none, [] => none
  | some _, [] => some ⟨start, none⟩
  | none, b :: bs =>
      match lead b with
      | .char _ => validate (start + 1) 0 none bs
      | .seq p => validate start 1 (some p) bs
      | .invalid => some ⟨start, some 1⟩
  | some p, b :: bs =>
      if p.lo ≤ b ∧ b ≤ p.hi then
        match p.more with
        | 0 => validate (start + read + 1) 0 none bs
        | n + 1 => validate start (read + 1) (some ⟨0x80, 0xBF, n, p.acc * 64 + b.toNat % 64⟩) bs
      else some ⟨start, some read⟩

/-- `str::from_utf8`: the error, if there is one. -/
def fromUtf8 (bytes : List UInt8) : Option Error := validate 0 0 none bytes

/-- ASCII is well formed. -/
theorem validate_ascii {bs : List UInt8} (h : ∀ b ∈ bs, b < 0x80) (start : Nat) :
    validate start 0 none bs = none := by
  induction bs generalizing start with
  | nil => rfl
  | cons b bs ih =>
      rw [validate, lead, if_pos (h b List.mem_cons_self)]
      exact ih (fun c hc => h c (List.mem_cons_of_mem _ hc)) (start + 1)

/-! ## The bytes of a text -/

/-- The UTF-8 bytes of a text. -/
def bytes (s : String) : List UInt8 := s.toList.flatMap String.utf8EncodeChar

/-- `str::is_char_boundary`. -/
def isCharBoundary (bs : List UInt8) (i : Nat) : Bool :=
  match bs[i]? with
  | some b => i = 0 ∨ b < 0x80 ∨ 0xC0 ≤ b
  | none => i = bs.length

/-- An ASCII character is one byte, any other one has no ASCII byte. -/
theorem utf8EncodeChar_cases (c : Char) :
    c.toNat < 128 ∧ String.utf8EncodeChar c = [UInt8.ofNat c.toNat] ∨
      128 ≤ c.toNat ∧ ∃ b bs, String.utf8EncodeChar c = b :: bs ∧ 0x80 ≤ b := by
  have hhigh : ∀ {n k : Nat}, 128 ≤ n → n < 256 → k = n → (0x80 : UInt8) ≤ UInt8.ofNat k := by
    rintro n k hlow hlt rfl
    rw [UInt8.le_iff_toNat_le, UInt8.toNat_ofNat_of_lt' hlt]
    exact hlow
  have hval : c.val.toNat = c.toNat := rfl
  unfold String.utf8EncodeChar
  dsimp only
  rw [hval]
  split
  · next h => exact .inl ⟨by omega, rfl⟩
  · next h₁ =>
    refine .inr ⟨by omega, ?_⟩
    split
    · exact ⟨_, _, rfl, hhigh (by omega) (by omega) rfl⟩
    · split
      · exact ⟨_, _, rfl, hhigh (by omega) (by omega) rfl⟩
      · exact ⟨_, _, rfl, hhigh (by omega) (by omega) rfl⟩

/-- A text is ASCII when its bytes are. -/
theorem forall_bytes_lt {s : String} :
    (∀ b ∈ bytes s, b < 0x80) ↔ ∀ c ∈ s.toList, c.toNat < 128 := by
  unfold bytes
  simp only [List.mem_flatMap]
  constructor
  · intro h c hc
    rcases utf8EncodeChar_cases c with ⟨hlt, -⟩ | ⟨-, b, bs, hencode, hb⟩
    · exact hlt
    · have hlow := h b ⟨c, hc, by rw [hencode]; exact List.mem_cons_self⟩
      exact absurd hlow (UInt8.not_lt.mpr hb)
  · rintro h b ⟨c, hc, hb⟩
    rcases utf8EncodeChar_cases c with ⟨hlt, hencode⟩ | ⟨hge, -⟩
    · rw [hencode, List.mem_singleton] at hb
      rw [hb, UInt8.lt_iff_toNat_lt, UInt8.toNat_ofNat_of_lt' (Nat.lt_trans hlt (by decide))]
      exact hlt
    · exact absurd (h c hc) (Nat.not_lt.mpr hge)

/-- The bytes of an ASCII text. -/
theorem bytes_eq_map {s : String} (h : ∀ c ∈ s.toList, c.toNat < 128) :
    bytes s = s.toList.map (fun c => UInt8.ofNat c.toNat) := by
  have hmap : ∀ {cs : List Char}, (∀ c ∈ cs, c.toNat < 128) →
      cs.flatMap String.utf8EncodeChar = cs.map (fun c => UInt8.ofNat c.toNat) := by
    intro cs
    induction cs with
    | nil => intro _; rfl
    | cons c cs ih =>
        intro hcs
        rcases utf8EncodeChar_cases c with ⟨-, hencode⟩ | ⟨hge, -⟩
        · rw [List.flatMap_cons, hencode, ih (fun d hd => hcs d (List.mem_cons_of_mem _ hd))]
          rfl
        · exact absurd (hcs c List.mem_cons_self) (Nat.not_lt.mpr hge)
  exact hmap h

/-- `str::split_at`: the text is cut at byte `n`; absent where that is no place between two
characters. -/
def splitAt : List Char → Nat → Option (List Char × List Char)
  | cs, 0 => some ([], cs)
  | [], _ + 1 => none
  | c :: cs, n + 1 =>
      let width := (String.utf8EncodeChar c).length
      if width ≤ n + 1 then (splitAt cs (n + 1 - width)).map (fun cut => (c :: cut.1, cut.2))
      else none

end Utf8
