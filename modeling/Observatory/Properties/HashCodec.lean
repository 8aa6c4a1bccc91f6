import Observatory.Contract.Hex32

/-!
# What the hash codec accepts

Hashes are written as 64 lowercase digits and read back.  The reader also takes a
plus sign for the first character of a pair, because the parser of integers does.

* `CodecExact` — a text is accepted exactly when it is a hash, and then written back in
  lowercase.
* `PlusHash` — the texts that are accepted and are no hash.
* `hex32_exact` — the codec, for every hash and every text.
-/

namespace Observatory

namespace Hex32

open Radix (toDigit plus)

/-- A hexadecimal digit, in either case of a letter. -/
def IsHexDigit (c : Char) : Prop := c ∈ "0123456789abcdefABCDEF".toList

instance (c : Char) : Decidable (IsHexDigit c) := inferInstanceAs (Decidable (_ ∈ _))

/-- A text of exactly 64 hexadecimal digits. -/
structure IsHash (s : String) : Prop where
  length_eq : s.toList.length = 64
  digits : ∀ c ∈ s.toList, IsHexDigit c

/-- Pairs of a digit or a plus sign, and a digit. -/
inductive Pairs : List Char → Prop where
  | nil : Pairs []
  | cons {a b : Char} {rest : List Char} (ha : IsHexDigit a ∨ a = '+') (hb : IsHexDigit b)
      (hrest : Pairs rest) : Pairs (a :: b :: rest)

/-- Thirty-two such pairs with a plus sign among them. -/
structure PlusHash (s : String) : Prop where
  length_eq : s.toList.length = 64
  pairs : Pairs s.toList
  plus_mem : '+' ∈ s.toList

/-- What the reader is for: exactly the hashes are read, and written back in lowercase. -/
def CodecExact (s : String) : Prop :=
  ((∃ h, deserialize s = .ok h) ↔ IsHash s) ∧ ∀ h, deserialize s = .ok h → serialize h = s.toLower

/-! ## Characters and bytes -/

theorem isHexDigit_lt {c : Char} (h : IsHexDigit c) : c.toNat < 128 := by
  have hall : "0123456789abcdefABCDEF".toList.all (fun c => c.toNat < 128) = true := by decide
  exact of_decide_eq_true (List.all_eq_true.mp hall c h)

/-- A property of the ASCII characters. -/
theorem ascii_induction {p : Char → Prop} (h : ∀ n < 128, p (Char.ofNat n)) {c : Char}
    (hc : c.toNat < 128) : p c := by
  have hp := h c.toNat hc
  rwa [Char.ofNat_toNat] at hp

/-- The digits of the parser are the hexadecimal digits. -/
theorem toDigit_isSome_iff {c : Char} (hc : c.toNat < 128) :
    (toDigit 16 (byteOf c)).isSome = true ↔ IsHexDigit c :=
  ascii_induction (p := fun c => (toDigit 16 (byteOf c)).isSome = true ↔ IsHexDigit c)
    (by decide +kernel) hc

/-- A digit is written in lowercase. -/
theorem hexDigit_of_toDigit {c : Char} (hc : c.toNat < 128) {d : Nat}
    (h : toDigit 16 (byteOf c) = some d) : hexDigit d = c.toLower := by
  have hall : toDigit 16 (byteOf c) = none ∨
      (toDigit 16 (byteOf c)).map hexDigit = some c.toLower :=
    ascii_induction (p := fun c => toDigit 16 (byteOf c) = none ∨
      (toDigit 16 (byteOf c)).map hexDigit = some c.toLower) (by decide +kernel) hc
  rcases hall with hnone | hsome
  · rw [hnone] at h
    cases h
  · rw [h] at hsome
    exact Option.some.inj hsome

theorem byteOf_eq_plus_iff {c : Char} (hc : c.toNat < 128) : byteOf c = plus ↔ c = '+' :=
  ascii_induction (p := fun c => byteOf c = plus ↔ c = '+') (by decide) hc

/-! ## What is accepted -/

theorem pairs_lt {cs : List Char} (h : Pairs cs) : ∀ c ∈ cs, c.toNat < 128 := by
  induction h with
  | nil => simp
  | cons ha hb hrest ih =>
      intro c hc
      rcases List.mem_cons.mp hc with rfl | hc
      · rcases ha with ha | rfl
        · exact isHexDigit_lt ha
        · decide
      · rcases List.mem_cons.mp hc with rfl | hc
        · exact isHexDigit_lt hb
        · exact ih c hc

theorem reads_lt {bytes vs : List UInt8} (h : Reads bytes vs) : ∀ b ∈ bytes, b < 0x80 := by
  induction h with
  | nil => simp
  | cons hbyte hrest ih =>
      obtain ⟨y, hy, hpair⟩ := hexByte_eq_ok.mp hbyte
      intro b hb
      rcases List.mem_cons.mp hb with rfl | hb
      · rcases hpair with ⟨x, hx, -⟩ | ⟨rfl, -⟩
        · exact Radix.lt_of_toDigit hx
        · decide
      · rcases List.mem_cons.mp hb with rfl | hb
        · exact Radix.lt_of_toDigit hy
        · exact ih b hb

/-- The pairs of bytes that are read are the pairs of characters. -/
theorem exists_reads_iff : (cs : List Char) → (∀ c ∈ cs, c.toNat < 128) →
    ((∃ vs, Reads (cs.map byteOf) vs) ↔ Pairs cs)
  | [], _ => ⟨fun _ => .nil, fun _ => ⟨[], .nil⟩⟩
  | [_], _ => by
      constructor
      · rintro ⟨vs, ⟨⟩⟩
      · rintro ⟨⟩
  | a :: b :: rest, h => by
      have ha := h a List.mem_cons_self
      have hb := h b (List.mem_cons_of_mem _ List.mem_cons_self)
      have ih := exists_reads_iff rest
        (fun c hc => h c (List.mem_cons_of_mem _ (List.mem_cons_of_mem _ hc)))
      constructor
      · rintro ⟨vs, hreads⟩
        cases hreads with
        | cons hbyte hrest =>
            obtain ⟨y, hy, hpair⟩ := hexByte_eq_ok.mp hbyte
            refine .cons ?_ ((toDigit_isSome_iff hb).mp (by rw [hy]; rfl)) (ih.mp ⟨_, hrest⟩)
            rcases hpair with ⟨x, hx, -⟩ | ⟨hplus, -⟩
            · exact .inl ((toDigit_isSome_iff ha).mp (by rw [hx]; rfl))
            · exact .inr ((byteOf_eq_plus_iff ha).mp hplus)
      · intro hpairs
        cases hpairs with
        | cons hfirst hsecond hrest =>
            obtain ⟨vs, hvs⟩ := ih.mpr hrest
            obtain ⟨y, hy⟩ := Option.isSome_iff_exists.mp ((toDigit_isSome_iff hb).mpr hsecond)
            rcases hfirst with hfirst | hfirst
            · obtain ⟨x, hx⟩ := Option.isSome_iff_exists.mp ((toDigit_isSome_iff ha).mpr hfirst)
              exact ⟨_, .cons (hexByte_eq_ok.mpr ⟨y, hy, .inl ⟨x, hx, rfl⟩⟩) hvs⟩
            · exact ⟨_, .cons (hexByte_eq_ok.mpr
                ⟨y, hy, .inr ⟨(byteOf_eq_plus_iff ha).mpr hfirst, rfl⟩⟩) hvs⟩

/-- **What is accepted**: thirty-two pairs. -/
theorem exists_deserialize_iff (s : String) :
    (∃ h, deserialize s = .ok h) ↔ s.toList.length = 64 ∧ Pairs s.toList := by
  have hbytes : (∀ c ∈ s.toList, c.toNat < 128) → Utf8.bytes s = s.toList.map byteOf :=
    Utf8.bytes_eq_map
  constructor
  · rintro ⟨h, hread⟩
    obtain ⟨hlength, hreads⟩ := deserialize_eq_ok.mp hread
    have hascii := Utf8.forall_bytes_lt.mp (reads_lt hreads)
    rw [hbytes hascii] at hlength hreads
    rw [List.length_map] at hlength
    exact ⟨hlength, (exists_reads_iff _ hascii).mp ⟨_, hreads⟩⟩
  · rintro ⟨hlength, hpairs⟩
    have hascii := pairs_lt hpairs
    obtain ⟨vs, hreads⟩ := (exists_reads_iff _ hascii).mpr hpairs
    have hcount : vs.length = 32 := by
      have hforall := (reads_iff _ 32 (by rw [List.length_map, hlength]) vs).mp hreads
      rw [← hforall.length_eq, length_chunks _ 32 (by rw [List.length_map, hlength])]
    refine ⟨⟨vs, hcount⟩, deserialize_eq_ok.mpr ?_⟩
    rw [hbytes hascii, List.length_map]
    exact ⟨hlength, hreads⟩

/-! ## Hashes -/

theorem pairs_of_digits : (cs : List Char) → (n : Nat) → cs.length = 2 * n →
    (∀ c ∈ cs, IsHexDigit c) → Pairs cs
  | [], _, _, _ => .nil
  | [_], n, hlength, _ => by
      rw [List.length_singleton] at hlength
      omega
  | a :: b :: rest, n, hlength, h => by
      rw [List.length_cons, List.length_cons] at hlength
      exact .cons (.inl (h a List.mem_cons_self))
        (h b (List.mem_cons_of_mem _ List.mem_cons_self))
        (pairs_of_digits rest (n - 1) (by omega)
          (fun c hc => h c (List.mem_cons_of_mem _ (List.mem_cons_of_mem _ hc))))

/-- Pairs without a plus sign are digits. -/
theorem digits_of_pairs {cs : List Char} (h : Pairs cs) (hplus : '+' ∉ cs) :
    ∀ c ∈ cs, IsHexDigit c := by
  induction h with
  | nil => simp
  | @cons a b rest ha hb hrest ih =>
      have hnot : a ≠ '+' := fun heq => hplus (heq ▸ List.mem_cons_self)
      have hlater : '+' ∉ rest := fun hmem =>
        hplus (List.mem_cons_of_mem _ (List.mem_cons_of_mem _ hmem))
      intro c hc
      rcases List.mem_cons.mp hc with rfl | hc
      · exact ha.resolve_right hnot
      · rcases List.mem_cons.mp hc with rfl | hc
        · exact hb
        · exact ih hlater c hc

/-- The bytes that digits spell are written as the digits in lowercase. -/
theorem hexPair_of_reads {bytes vs : List UInt8} (h : Reads bytes vs) : ∀ {cs : List Char},
    bytes = cs.map byteOf → (∀ c ∈ cs, IsHexDigit c) →
      vs.flatMap hexPair = cs.map Char.toLower := by
  induction h with
  | nil =>
      intro cs hcs _
      rw [List.map_eq_nil_iff.mp hcs.symm]
      rfl
  | @cons a b v rest vs hbyte hrest ih =>
      intro cs hcs hdigits
      match cs, hcs with
      | c :: d :: cs, hcs =>
          obtain ⟨rfl, hsecond⟩ := List.cons.inj hcs
          obtain ⟨rfl, htail⟩ := List.cons.inj hsecond
          have hc := hdigits c List.mem_cons_self
          have hd := hdigits d (List.mem_cons_of_mem _ List.mem_cons_self)
          obtain ⟨x, hx⟩ :=
            Option.isSome_iff_exists.mp ((toDigit_isSome_iff (isHexDigit_lt hc)).mpr hc)
          obtain ⟨y, hy, hpair⟩ := hexByte_eq_ok.mp hbyte
          have hvalue : v = UInt8.ofNat (16 * x + y) := by
            rcases hpair with ⟨x', hx', hv⟩ | ⟨hplus, -⟩
            · rw [hx] at hx'
              rw [hv, Option.some.inj hx']
            · rw [(byteOf_eq_plus_iff (isHexDigit_lt hc)).mp hplus] at hc
              exact absurd hc (by decide)
          have hxlt := Radix.toDigit_lt hx
          have hylt := Radix.toDigit_lt hy
          have hnat : v.toNat = 16 * x + y := by
            rw [hvalue, UInt8.toNat_ofNat_of_lt' (show 16 * x + y < 256 by omega)]
          have hhigh : v.toNat / 16 = x := by omega
          have hlow : v.toNat % 16 = y := by omega
          have hrestDigits := ih htail
            (fun e he => hdigits e (List.mem_cons_of_mem _ (List.mem_cons_of_mem _ he)))
          rw [List.flatMap_cons, hrestDigits, hexPair, hhigh, hlow,
            hexDigit_of_toDigit (isHexDigit_lt hc) hx, hexDigit_of_toDigit (isHexDigit_lt hd) hy]
          rfl

/-- A hash is written back in lowercase. -/
theorem serialize_deserialize {s : String} (hs : ∀ c ∈ s.toList, IsHexDigit c) {h : Hash}
    (hread : deserialize s = .ok h) : serialize h = s.toLower := by
  obtain ⟨-, hreads⟩ := deserialize_eq_ok.mp hread
  rw [Utf8.bytes_eq_map (fun c hc => isHexDigit_lt (hs c hc))] at hreads
  have hlower : s.toLower = s.map Char.toLower := rfl
  rw [← String.toList_inj, hlower, String.toList_map, serialize, toList_hex]
  exact hexPair_of_reads hreads rfl hs

/-- What is written is 64 lowercase digits. -/
theorem serialize_digits (h : Hash) : (serialize h).toList.length = 64 ∧
    ∀ c ∈ (serialize h).toList, c ∈ "0123456789abcdef".toList := by
  have hdigit : ∀ d < 16, hexDigit d ∈ "0123456789abcdef".toList := by decide
  rw [serialize, toList_hex]
  constructor
  · rw [List.length_flatMap]
    simp [hexPair, h.length_eq]
  · intro c hc
    obtain ⟨b, -, hpair⟩ := List.mem_flatMap.mp hc
    obtain ⟨hhigh, hlow⟩ := halves_lt b
    rcases List.mem_cons.mp hpair with rfl | hpair
    · exact hdigit _ hhigh
    · rw [List.mem_singleton.mp hpair]
      exact hdigit _ hlow

theorem isHash_serialize (h : Hash) : IsHash (serialize h) := by
  have hlower : "0123456789abcdef".toList.all (fun c => IsHexDigit c) = true := by decide
  obtain ⟨hlength, hdigits⟩ := serialize_digits h
  refine ⟨hlength, fun c hc => ?_⟩
  exact of_decide_eq_true (List.all_eq_true.mp hlower c (hdigits c hc))

/-- Where there is no plus sign exactly the hashes are read. -/
theorem codecExact_iff (s : String) : CodecExact s ↔ ¬ PlusHash s := by
  have haccepted := exists_deserialize_iff s
  constructor
  · rintro ⟨hexact, -⟩ hplus
    have hhash := hexact.mp (haccepted.mpr ⟨hplus.length_eq, hplus.pairs⟩)
    exact absurd (hhash.digits '+' hplus.plus_mem) (by decide)
  · intro hnot
    have hdigits : (∃ h, deserialize s = .ok h) → IsHash s := by
      intro hread
      obtain ⟨hlength, hpairs⟩ := haccepted.mp hread
      exact ⟨hlength, digits_of_pairs hpairs (fun hmem => hnot ⟨hlength, hpairs, hmem⟩)⟩
    refine ⟨⟨hdigits, fun hhash => haccepted.mpr ⟨hhash.length_eq, ?_⟩⟩, ?_⟩
    · exact pairs_of_digits _ 32 hhash.length_eq hhash.digits
    · intro h hread
      exact serialize_deserialize (hdigits ⟨h, hread⟩).digits hread

/-- **The hash codec.**  Every hash is written as 64 lowercase digits and read back; exactly the
hashes are accepted, but for the texts with a plus sign for the first digit of a pair. -/
theorem hex32_exact (s : String) :
    (∀ h : Hash, deserialize (serialize h) = .ok h ∧ (serialize h).toList.length = 64 ∧
      ∀ c ∈ (serialize h).toList, c ∈ "0123456789abcdef".toList) ∧
    (CodecExact s ↔ ¬ PlusHash s) :=
  ⟨fun h => ⟨deserialize_serialize h, serialize_digits h⟩, codecExact_iff s⟩

/-- Thirty-two times a plus sign and a digit. -/
def plusHash : String := "+f+f+f+f+f+f+f+f+f+f+f+f+f+f+f+f+f+f+f+f+f+f+f+f+f+f+f+f+f+f+f+f"

/-- The text of plus signs is no hash, and read as one. -/
theorem plusHash_accepted : deserialize plusHash = .ok (Hash.fill 15) ∧ ¬ IsHash plusHash ∧
    ¬ CodecExact plusHash := by
  have hread : deserialize plusHash = .ok (Hash.fill 15) := rfl
  have hno : ¬ IsHash plusHash := fun h =>
    absurd (h.digits '+' (by decide)) (by decide)
  exact ⟨hread, hno, fun hexact => hno (hexact.1.mp ⟨_, hread⟩)⟩

end Hex32

end Observatory
