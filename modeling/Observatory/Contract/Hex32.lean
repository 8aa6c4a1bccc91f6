import Observatory.Lib.Radix
import Observatory.Model.Label

/-!
# Hashes in text

The codec of hashes in serialized results (`hex32` in `contract/resolve.rs`):
lowercase hex out, and back two characters at a time through the parser of
integers.

* `deserialize_eq_ok` — which texts are read, and as what.
* `deserialize_serialize` — a hash is read back.
-/

namespace Observatory

namespace Hex32

/-- A hash as text. -/
def serialize (h : Hash) : String := hex h.bytes

/-- `<[u8]>::chunks(2)`. -/
def chunks : List UInt8 → List (List UInt8)
  | a :: b :: rest => [a, b] :: chunks rest
  | [a] => [[a]]
  | [] => []

/-- The byte a chunk spells. -/
def hexByte (chunk : List UInt8) : Except String UInt8 :=
  match Utf8.fromUtf8 chunk with
  | some e => .error e.display
  | none =>
      match Radix.fromStrRadix 16 UInt8.size chunk with
      | .ok n => .ok (UInt8.ofNat n)
      | .error e => .error e.display

/-- The bytes the chunks spell, up to the first that spells none. -/
def hexBytes : List (List UInt8) → Except String (List UInt8)
  | [] => .ok []
  | chunk :: rest =>
      match hexByte chunk with
      | .error e => .error e
      | .ok b =>
          match hexBytes rest with
          | .error e => .error e
          | .ok bs => .ok (b :: bs)

/-- Every chunk is a byte. -/
theorem hexBytes_eq_ok {cs : List (List UInt8)} {bs : List UInt8} :
    hexBytes cs = .ok bs ↔ List.Forall₂ (fun chunk b => hexByte chunk = .ok b) cs bs := by
  induction cs generalizing bs with
  | nil =>
      rw [hexBytes]
      constructor
      · intro h
        obtain rfl := Except.ok.inj h
        exact .nil
      · intro h
        cases h
        rfl
  | cons chunk rest ih =>
      rw [hexBytes]
      constructor
      · intro h
        cases hchunk : hexByte chunk with
        | error e =>
            rw [hchunk] at h
            cases h
        | ok b =>
            cases hrest : hexBytes rest with
            | error e =>
                rw [hchunk, hrest] at h
                cases h
            | ok bs' =>
                rw [hchunk, hrest] at h
                obtain rfl := Except.ok.inj h
                exact .cons hchunk (ih.mp hrest)
      · intro h
        cases h with
        | cons hchunk hrest => rw [hchunk, ih.mpr hrest]

theorem length_chunks : (bytes : List UInt8) → (n : Nat) → bytes.length = 2 * n →
    (chunks bytes).length = n
  | [], n, h => by
      rw [List.length_nil] at h
      rw [chunks, List.length_nil]
      omega
  | [_], n, h => by
      rw [List.length_singleton] at h
      omega
  | _ :: _ :: rest, n, h => by
      rw [List.length_cons, List.length_cons] at h
      rw [chunks, List.length_cons, length_chunks rest (n - 1) (by omega)]
      omega

/-- The hash in a text. -/
def deserialize (s : String) : Except String Hash :=
  let bytes := Utf8.bytes s
  if hlength : bytes.length = 64 then
    match hout : hexBytes (chunks bytes) with
    | .ok out => .ok ⟨out, by
        rw [← (hexBytes_eq_ok.mp hout).length_eq, length_chunks bytes 32 hlength]⟩
    | .error e => .error e
  else .error s!"expected 64 hex characters, got {bytes.length}"

/-! ## What is read -/

/-- Pairs of bytes, and the byte each of them spells. -/
inductive Reads : List UInt8 → List UInt8 → Prop where
  | nil : Reads [] []
  | cons {a b v : UInt8} {rest vs : List UInt8} (hbyte : hexByte [a, b] = .ok v)
      (hrest : Reads rest vs) : Reads (a :: b :: rest) (v :: vs)

theorem reads_iff : (bytes : List UInt8) → (n : Nat) → bytes.length = 2 * n → (vs : List UInt8) →
    (Reads bytes vs ↔ List.Forall₂ (fun chunk b => hexByte chunk = .ok b) (chunks bytes) vs)
  | [], _, _, vs => by
      rw [chunks]
      constructor
      · rintro ⟨⟩
        exact .nil
      · rintro ⟨⟩
        exact .nil
  | [_], n, h, _ => by
      rw [List.length_singleton] at h
      omega
  | a :: b :: rest, n, h, vs => by
      rw [List.length_cons, List.length_cons] at h
      have ih := reads_iff rest (n - 1) (by omega)
      rw [chunks]
      constructor
      · rintro ⟨⟩
        case cons hbyte hrest => exact .cons hbyte ((ih _).mp hrest)
      · rintro ⟨⟩
        case cons hbyte hrest => exact .cons hbyte ((ih _).mpr hrest)

/-- **What is read**: thirty-two pairs of bytes. -/
theorem deserialize_eq_ok {s : String} {h : Hash} : deserialize s = .ok h ↔
    (Utf8.bytes s).length = 64 ∧ Reads (Utf8.bytes s) h.bytes := by
  unfold deserialize
  dsimp only
  split
  · next hlength =>
    rw [reads_iff _ 32 hlength, ← hexBytes_eq_ok]
    split
    · next out hout =>
      constructor
      · intro heq
        obtain rfl := Except.ok.inj heq
        exact ⟨hlength, hout⟩
      · rintro ⟨-, heq⟩
        obtain ⟨bytes, hbytes⟩ := h
        obtain rfl : out = bytes := Except.ok.inj (hout.symm.trans heq)
        rfl
    · next e hout =>
      rw [hout]
      constructor
      · intro heq
        cases heq
      · rintro ⟨-, heq⟩
        cases heq
  · next hlength =>
    constructor
    · intro heq
      cases heq
    · rintro ⟨hlength', -⟩
      exact absurd hlength' hlength

/-! ## Pairs of digits -/

open Radix (toDigit plus toDigit_lt lt_of_toDigit)

/-- A pair as a number. -/
theorem fromStrRadix_pair {a b : UInt8} {m : Nat} :
    Radix.fromStrRadix 16 UInt8.size [a, b] = .ok m ↔ ∃ y, toDigit 16 b = some y ∧
      ((∃ x, toDigit 16 a = some x ∧ m = 16 * x + y) ∨ a = plus ∧ m = y) := by
  have htwo : ∀ x y, Radix.value 16 0 [x, y] = 16 * x + y := by
    intro x y
    show (0 * 16 + x) * 16 + y = 16 * x + y
    omega
  have hone : ∀ y, Radix.value 16 0 [y] = y := by
    intro y
    show 0 * 16 + y = y
    omega
  rw [Radix.fromStrRadix_eq_ok (by decide) (by decide)]
  constructor
  · rintro ⟨-, text, digits, rfl | htext, -, hspells, hvalue⟩
    · cases hspells with
      | cons hx hrest =>
          cases hrest with
          | cons hy hnil =>
              cases hnil
              exact ⟨_, hy, .inl ⟨_, hx, hvalue.symm.trans (htwo _ _)⟩⟩
    · obtain ⟨rfl, rfl⟩ := List.cons.inj htext
      cases hspells with
      | cons hy hnil =>
          cases hnil
          exact ⟨_, hy, .inr ⟨rfl, hvalue.symm.trans (hone _)⟩⟩
  · rintro ⟨y, hy, ⟨x, hx, rfl⟩ | ⟨rfl, rfl⟩⟩
    · have hxlt := toDigit_lt hx
      have hylt := toDigit_lt hy
      have hfits : 16 * x + y < UInt8.size := by
        show 16 * x + y < 256
        omega
      exact ⟨hfits, [a, b], [x, y], .inl rfl, List.cons_ne_nil _ _, .cons hx (.cons hy .nil),
        htwo x y⟩
    · have hfits : m < UInt8.size := Nat.lt_trans (toDigit_lt hy) (by decide)
      exact ⟨hfits, [b], [m], .inr rfl, List.cons_ne_nil _ _, .cons hy .nil, hone m⟩

/-- A pair of ASCII is UTF-8. -/
theorem fromUtf8_pair {a b : UInt8} (ha : a < 0x80) (hb : b < 0x80) :
    Utf8.fromUtf8 [a, b] = none := by
  refine Utf8.validate_ascii ?_ 0
  intro c hc
  rcases List.mem_cons.mp hc with rfl | hc
  · exact ha
  · rw [List.mem_singleton.mp hc]
    exact hb

/-- **A pair**: two digits, or a digit behind a plus sign. -/
theorem hexByte_eq_ok {a b v : UInt8} : hexByte [a, b] = .ok v ↔ ∃ y, toDigit 16 b = some y ∧
    ((∃ x, toDigit 16 a = some x ∧ v = UInt8.ofNat (16 * x + y)) ∨
      a = plus ∧ v = UInt8.ofNat y) := by
  constructor
  · intro h
    unfold hexByte at h
    split at h
    · cases h
    · split at h
      · next n hn =>
        obtain ⟨y, hy, ⟨x, hx, rfl⟩ | ⟨ha, rfl⟩⟩ := fromStrRadix_pair.mp hn
        · exact ⟨y, hy, .inl ⟨x, hx, (Except.ok.inj h).symm⟩⟩
        · exact ⟨n, hy, .inr ⟨ha, (Except.ok.inj h).symm⟩⟩
      · cases h
  · rintro ⟨y, hy, hpair⟩
    have ha : a < 0x80 := by
      rcases hpair with ⟨x, hx, -⟩ | ⟨rfl, -⟩
      · exact lt_of_toDigit hx
      · decide
    unfold hexByte
    rw [fromUtf8_pair ha (lt_of_toDigit hy)]
    dsimp only
    rcases hpair with ⟨x, hx, rfl⟩ | ⟨hplus, rfl⟩
    · rw [fromStrRadix_pair.mpr ⟨y, hy, .inl ⟨x, hx, rfl⟩⟩]
    · rw [fromStrRadix_pair.mpr ⟨y, hy, .inr ⟨hplus, rfl⟩⟩]

/-! ## The round trip -/

/-- The two digits of a byte. -/
def hexPair (b : UInt8) : List Char := [hexDigit (b.toNat / 16), hexDigit (b.toNat % 16)]

/-- A character as a byte. -/
def byteOf (c : Char) : UInt8 := UInt8.ofNat c.toNat

theorem toList_hex (bs : List UInt8) : (hex bs).toList = bs.flatMap hexPair := String.toList_ofList

theorem hexDigit_spec : ∀ d < 16, (hexDigit d).toNat < 128 ∧
    toDigit 16 (byteOf (hexDigit d)) = some d := by decide

theorem halves_lt (b : UInt8) : b.toNat / 16 < 16 ∧ b.toNat % 16 < 16 := by
  have hb := b.toNat_lt
  omega

theorem forall_hex_lt (bs : List UInt8) : ∀ c ∈ (hex bs).toList, c.toNat < 128 := by
  rw [toList_hex]
  intro c hc
  obtain ⟨b, -, hpair⟩ := List.mem_flatMap.mp hc
  obtain ⟨hhigh, hlow⟩ := halves_lt b
  rcases List.mem_cons.mp hpair with rfl | hpair
  · exact (hexDigit_spec _ hhigh).1
  · rw [List.mem_singleton.mp hpair]
    exact (hexDigit_spec _ hlow).1

/-- The digits of bytes are read as these bytes. -/
theorem reads_hexPair (bs : List UInt8) : Reads ((bs.flatMap hexPair).map byteOf) bs := by
  induction bs with
  | nil => exact .nil
  | cons b bs ih =>
      obtain ⟨hhigh, hlow⟩ := halves_lt b
      have hsum : 16 * (b.toNat / 16) + b.toNat % 16 = b.toNat := by omega
      refine .cons (hexByte_eq_ok.mpr ⟨_, (hexDigit_spec _ hlow).2, .inl ⟨_,
        (hexDigit_spec _ hhigh).2, ?_⟩⟩) ih
      rw [hsum, UInt8.ofNat_toNat]

theorem length_bytes_hex (bs : List UInt8) : (Utf8.bytes (hex bs)).length = 2 * bs.length := by
  rw [Utf8.bytes_eq_map (forall_hex_lt bs), List.length_map, toList_hex, List.length_flatMap]
  simp [hexPair, Nat.mul_comm]

/-- **The round trip.** -/
theorem deserialize_serialize (h : Hash) : deserialize (serialize h) = .ok h := by
  rw [deserialize_eq_ok, serialize, length_bytes_hex, h.length_eq,
    Utf8.bytes_eq_map (forall_hex_lt h.bytes), toList_hex]
  exact ⟨rfl, reads_hexPair h.bytes⟩

theorem serialize_injective : Function.Injective serialize := by
  intro h h' heq
  have hread := deserialize_serialize h
  rw [heq, deserialize_serialize h'] at hread
  exact (Except.ok.inj hread).symm

end Hex32

end Observatory
