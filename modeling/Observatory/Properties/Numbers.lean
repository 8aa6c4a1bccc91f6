import Mathlib.Algebra.Order.BigOperators.Group.List
import Observatory.Properties.Sections

/-!
# Reading a LEB128 number

`leb_u32` reads a `u32` of at most five bytes, the fifth of which has room for four bits
only.  It stops in one of three ways: with a number, with an encoding that is too long or
overflows, or at the end of the bytes.

* `lebLoop_error` — why the loop stops without a number.
* `lebU32_exact` — which of the three it is, for every reader.
-/

namespace Observatory

open Reading

/-- The continuation bit of a byte is set. -/
def Continues (b : UInt8) : Prop := b &&& 0x80 ≠ 0

/-- The low seven bits of a byte. -/
def lowBits (b : UInt8) : Nat := (b &&& 0x7f).toNat

/-- The sum of the low seven bits of each byte, times `2 ^ (7 * i)` for the byte at `i`. -/
def lowSum (xs : List UInt8) : Nat := (xs.mapIdx fun i b => lowBits b * 2 ^ (7 * i)).sum

/-- All bytes but the last have the continuation bit. -/
def Delimited (xs : List UInt8) : Prop :=
  ∃ init last, xs = init ++ [last] ∧ (∀ b ∈ init, Continues b) ∧ ¬ Continues last

theorem continues_iff {b : UInt8} : Continues b ↔ 128 ≤ b.toNat := by
  rw [Continues, ne_eq, Reader.highBit_eq_zero, Nat.not_lt]

theorem lowBits_eq (b : UInt8) : lowBits b = b.toNat % 128 := by
  rw [lowBits, ← UInt8.toNat_toUInt32]
  exact Reader.toNat_low b

/-- The encodings of a number are the delimited bytes that add up to it. -/
theorem encodes_iff_delimited {xs : List UInt8} {n : Nat} :
    Leb128.Encodes xs n ↔ Delimited xs ∧ n = lowSum xs := by
  have hsum : lowSum xs = Leb128.value xs := by simp only [lowSum, lowBits_eq, Leb128.value]
  rw [Leb128.encodes_iff, hsum]
  simp only [Delimited, continues_iff, Nat.not_le]

theorem Delimited.length_pos {xs : List UInt8} (h : Delimited xs) : 0 < xs.length := by
  obtain ⟨init, last, rfl, -⟩ := h
  simp

/-! ## Stopping without a number -/

namespace Reader

theorem lebLoop_of_nil {r : Reader} (h : r.rest = []) (result : UInt32) (i : Nat) (is : List Nat) :
    r.lebLoop result (i :: is) = .error (.error .truncated) := by
  have hpos : r.bytes.length ≤ r.pos := List.drop_eq_nil_iff.mp h
  have hbyte : r.byte = .error (.error .truncated) := by
    unfold byte take
    rw [dif_neg (by omega)]
    rfl
  rw [lebLoop, hbyte]
  rfl

theorem lebLoop_of_cons {r : Reader} {b : UInt8} {ys : List UInt8} (h : r.rest = b :: ys)
    (result : UInt32) (i : Nat) (is : List Nat) :
    ∃ s : Reader, s.rest = ys ∧ r.lebLoop result (i :: is) = lebPass result i is b s := by
  have hsplit : r.rest = [b] ++ ys := h
  obtain ⟨s, hbytes, hrest⟩ := exists_after hsplit
  have hbyte : r.byte = .ok (b, s) := by
    refine (reads_byte r b s).mpr ⟨[b], rfl, hbytes, ?_⟩
    rw [hrest, h]
    rfl
  refine ⟨s, hrest, ?_⟩
  show (r.byte >>= fun x => lebPass result i is x.1 x.2) = _
  rw [hbyte]
  rfl

/-- **A pass** that finds no number: there is no byte, the byte has too many bits, or it goes on
and the passes after it find none. -/
theorem lebLoop_error_cases {r : Reader} {result : UInt32} {i : Nat} {is : List Nat}
    {e : Halt WasmError} (h : r.lebLoop result (i :: is) = .error e) :
    (r.rest = [] ∧ e = .error .truncated) ∨ ∃ b ys, r.rest = b :: ys ∧
      ((i = 4 ∧ 15 < lowBits b ∧ e = .error .badLeb128) ∨
        Continues b ∧ ∃ (s : Reader) (result' : UInt32), s.rest = ys ∧
          s.lebLoop result' is = .error e) := by
  cases hrest : r.rest with
  | nil =>
      rw [lebLoop_of_nil hrest] at h
      cases h
      exact .inl ⟨rfl, rfl⟩
  | cons b ys =>
      obtain ⟨s, hafter, hloop⟩ := lebLoop_of_cons hrest result i is
      refine .inr ⟨b, ys, rfl, ?_⟩
      rw [hloop] at h
      unfold lebPass at h
      dsimp only at h
      split at h
      · next hoverflow =>
        cases h
        refine .inl ⟨hoverflow.1, ?_, rfl⟩
        rw [lowBits_eq, ← toNat_low]
        exact UInt32.lt_iff_toNat_lt.mp hoverflow.2
      · split at h
        · cases h
        · next hgoes => exact .inr ⟨hgoes, s, _, hafter, h⟩

/-- Why `k` passes of the loop, the last of them over the fifth byte, end without a number. -/
inductive Stops (k : Nat) (rest : List UInt8) : Halt WasmError → Prop where
  /-- The bytes ran out, and all of them go on. -/
  | truncated (hlength : rest.length < k) (hall : ∀ b ∈ rest, Continues b) :
      Stops k rest (.error .truncated)
  /-- The bytes before the fifth go on, and it goes on too or has more than four bits. -/
  | bad (init : List UInt8) (last : UInt8) (after : List UInt8)
      (hrest : rest = init ++ last :: after) (hk : init.length + 1 = k)
      (hinit : ∀ b ∈ init, Continues b) (hlast : Continues last ∨ 15 < lowBits last) :
      Stops k rest (.error .badLeb128)

/-- A byte that goes on comes before the others. -/
theorem Stops.cons {k : Nat} {b : UInt8} {rest : List UInt8} {e : Halt WasmError}
    (h : Stops k rest e) (hb : Continues b) : Stops (k + 1) (b :: rest) e := by
  cases h with
  | truncated hlength hall =>
      exact .truncated (Nat.succ_lt_succ hlength) (List.forall_mem_cons.mpr ⟨hb, hall⟩)
  | bad init last after hrest hk hinit hlast =>
      exact .bad (b :: init) last after (by rw [hrest]; rfl) (by rw [← hk]; rfl)
        (List.forall_mem_cons.mpr ⟨hb, hinit⟩) hlast

/-- **Stopping.**  Without a number the loop ends in one of two ways. -/
theorem lebLoop_error {i k : Nat} (hi : i + (k + 1) = 5) {result : UInt32} {r : Reader}
    {e : Halt WasmError} (h : r.lebLoop result (List.range' i (k + 1)) = .error e) :
    Stops (k + 1) r.rest e := by
  rw [List.range'_succ] at h
  induction k generalizing i result r with
  | zero =>
      rcases lebLoop_error_cases h with ⟨hrest, rfl⟩ |
        ⟨b, ys, hrest, ⟨-, hmore, rfl⟩ | ⟨hgoes, _, _, -, h⟩⟩
      · rw [hrest]
        exact .truncated (by simp) (by simp)
      · exact .bad [] b ys hrest rfl (by simp) (.inr hmore)
      · -- no pass is left
        cases h
        exact .bad [] b ys hrest rfl (by simp) (.inl hgoes)
  | succ k ih =>
      rcases lebLoop_error_cases h with ⟨hrest, rfl⟩ |
        ⟨b, ys, hrest, ⟨hfifth, -⟩ | ⟨hgoes, s, _, rfl, h⟩⟩
      · rw [hrest]
        exact .truncated (by simp) (by simp)
      · omega
      · rw [hrest]
        exact (ih (by omega) h).cons hgoes

end Reader

/-! ## The three outcomes -/

/-- The next `k` bytes are a number. -/
structure NumberAt (rest : List UInt8) (k : Nat) (v : UInt32) : Prop where
  /-- They are there, and there are five of them at most. -/
  length_eq : (rest.take k).length = k
  le_five : k ≤ 5
  /-- All but the last go on. -/
  delimited : Delimited (rest.take k)
  /-- They add up to a `u32`. -/
  lt_size : lowSum (rest.take k) < 2 ^ 32
  value_eq : v.toNat = lowSum (rest.take k)

/-- The next five bytes are no number: the first four go on, and the fifth goes on too or has
more than four bits. -/
def TooLong (rest : List UInt8) : Prop :=
  ∃ init last after, rest = init ++ last :: after ∧ init.length = 4 ∧ (∀ b ∈ init, Continues b) ∧
    (Continues last ∨ 15 < lowBits last)

theorem Delimited.continues_iff_lt {xs : List UInt8} (h : Delimited xs) {i : Nat} {b : UInt8}
    (hb : xs[i]? = some b) : Continues b ↔ i + 1 < xs.length := by
  obtain ⟨init, last, rfl, hinit, hlast⟩ := h
  rw [List.length_append, List.length_singleton, Nat.add_lt_add_iff_right]
  rw [List.getElem?_append] at hb
  split at hb
  · next hi => exact iff_of_true (hinit b (List.mem_of_getElem? hb)) hi
  · next hi =>
    obtain rfl := List.mem_singleton.mp (List.mem_of_getElem? hb)
    exact iff_of_false hlast hi

/-- Each byte adds no more than the sum. -/
theorem lowBits_le_lowSum {xs : List UInt8} {i : Nat} {b : UInt8} (hb : xs[i]? = some b) :
    lowBits b * 2 ^ (7 * i) ≤ lowSum xs := by
  apply List.le_sum_of_mem
  rw [List.mem_mapIdx]
  obtain ⟨hi, rfl⟩ := List.getElem?_eq_some_iff.mp hb
  exact ⟨i, hi, rfl⟩

/-- Five bytes that are no number do not begin with one. -/
theorem TooLong.not_numberAt {rest : List UInt8} (h : TooLong rest) (k : Nat) (v : UInt32) :
    ¬ NumberAt rest k v := by
  intro hnumber
  obtain ⟨init, last, after, rfl, hinit, hall, hlast⟩ := h
  have hpos : 0 < k := hnumber.length_eq ▸ hnumber.delimited.length_pos
  have hk := hnumber.le_five
  -- the last byte of the number
  obtain ⟨b, hb⟩ : ∃ b, ((init ++ last :: after).take k)[k - 1]? = some b :=
    ⟨_, List.getElem?_eq_getElem (by rw [hnumber.length_eq]; omega)⟩
  have hends : ¬ Continues b := by
    rw [hnumber.delimited.continues_iff_lt hb, hnumber.length_eq]
    omega
  have hsum := lowBits_le_lowSum hb
  rw [List.getElem?_take_of_lt (by omega), List.getElem?_append] at hb
  split at hb
  · exact hends (hall b (List.mem_of_getElem? hb))
  · next hge =>
    obtain rfl : k = 5 := by omega
    rw [hinit] at hb
    obtain rfl : last = b := Option.some.inj hb
    rcases hlast with hgoes | hbits
    · exact hends hgoes
    · have := hnumber.lt_size
      omega

/-- A reader that gives a number moves past its bytes. -/
theorem lebU32_eq_ok {r s : Reader} {v : UInt32} :
    r.lebU32 = .ok (v, s) ↔
      ∃ k, NumberAt r.rest k v ∧ s.bytes = r.bytes ∧ s.pos = r.pos + k := by
  rw [Reader.reads_lebU32 r v s]
  constructor
  · rintro ⟨xs, ⟨hencodes, hlength, hlt⟩, hbytes, hrest⟩
    obtain ⟨hdelimited, hvalue⟩ := encodes_iff_delimited.mp hencodes
    have htake : r.rest.take xs.length = xs := by rw [hrest, List.take_left]
    have hpos : s.pos = r.pos + xs.length := by
      have hlengths := congrArg List.length hrest
      rw [List.length_append, Reader.length_rest, Reader.length_rest, hbytes] at hlengths
      have hs := s.pos_le
      have hr := r.pos_le
      rw [hbytes] at hs
      omega
    refine ⟨xs.length, ?_, hbytes, hpos⟩
    refine ⟨by rw [htake], hlength, by rwa [htake], ?_, by rw [htake, hvalue]⟩
    rw [htake, ← hvalue]
    exact hlt
  · rintro ⟨k, hnumber, hbytes, hpos⟩
    refine ⟨r.rest.take k, ⟨?_, ?_, v.toNat_lt⟩, hbytes, ?_⟩
    · exact encodes_iff_delimited.mpr ⟨hnumber.delimited, hnumber.value_eq⟩
    · rw [hnumber.length_eq]
      exact hnumber.le_five
    · have hafter : s.rest = r.rest.drop k := by
        rw [Reader.rest, Reader.rest, hbytes, hpos, List.drop_drop]
      rw [hafter, List.take_append_drop]

theorem NumberAt.exists_read {r : Reader} {k : Nat} {v : UInt32} (h : NumberAt r.rest k v) :
    ∃ s, r.lebU32 = .ok (v, s) := by
  have hlength := h.length_eq
  have hpos := r.pos_le
  rw [List.length_take, Reader.length_rest] at hlength
  exact ⟨⟨r.bytes, r.pos + k, by omega⟩, lebU32_eq_ok.mpr ⟨k, h, rfl, rfl⟩⟩

/-- The bits of a number stay within a `u32` when they are shifted to their place. -/
theorem NumberAt.toNat_shiftLeft {rest : List UInt8} {k : Nat} {v : UInt32}
    (h : NumberAt rest k v) {i : Nat} {b : UInt8} (hi : i < k) (hb : rest[i]? = some b) :
    ((b &&& 0x7f).toUInt32 <<< UInt32.ofNat (7 * i)).toNat = lowBits b * 2 ^ (7 * i) := by
  have hk := h.le_five
  have hlow : (b &&& 0x7f).toUInt32.toNat = lowBits b := UInt8.toNat_toUInt32 _
  have hplace : (UInt32.ofNat (7 * i)).toNat % 32 = 7 * i := by
    rw [UInt32.toNat_ofNat', Nat.mod_eq_of_lt (a := 7 * i) (by omega)]
    omega
  have hle : lowBits b * 2 ^ (7 * i) ≤ lowSum (rest.take k) :=
    lowBits_le_lowSum (by rw [List.getElem?_take_of_lt hi, hb])
  rw [UInt32.toNat_shiftLeft, hplace, Nat.shiftLeft_eq, hlow]
  exact Nat.mod_eq_of_lt (Nat.lt_of_le_of_lt hle h.lt_size)

/-- Without a number the reader stops in one of two ways. -/
theorem lebU32_error {r : Reader} {e : Halt WasmError} (h : r.lebU32 = .error e) :
    Reader.Stops 5 r.rest e := by
  rw [Reader.lebU32, List.range_eq_range'] at h
  exact Reader.lebLoop_error rfl h

theorem lebU32_eq_badLeb128 {r : Reader} :
    r.lebU32 = .error (.error .badLeb128) ↔ TooLong r.rest := by
  constructor
  · intro h
    cases lebU32_error h with
    | bad init last after hrest hk hinit hlast =>
        exact ⟨init, last, after, hrest, Nat.succ.inj hk, hinit, hlast⟩
  · intro h
    cases hread : r.lebU32 with
    | ok result =>
        obtain ⟨v, s⟩ := result
        obtain ⟨k, hnumber, -⟩ := lebU32_eq_ok.mp hread
        exact absurd hnumber (h.not_numberAt k v)
    | error e =>
        cases lebU32_error hread with
        | truncated hlength hall =>
            obtain ⟨init, last, after, hrest, hinit, -⟩ := h
            rw [hrest, List.length_append, List.length_cons] at hlength
            omega
        | bad => rfl

theorem lebU32_eq_truncated {r : Reader} :
    r.lebU32 = .error (.error .truncated) ↔
      (∀ k v, ¬ NumberAt r.rest k v) ∧ ¬ TooLong r.rest := by
  constructor
  · intro h
    constructor
    · intro k v hnumber
      obtain ⟨s, hread⟩ := hnumber.exists_read
      rw [hread] at h
      cases h
    · intro hlong
      rw [lebU32_eq_badLeb128.mpr hlong] at h
      cases h
  · rintro ⟨hnumber, hlong⟩
    cases hread : r.lebU32 with
    | ok result =>
        obtain ⟨v, s⟩ := result
        obtain ⟨k, hat, -⟩ := lebU32_eq_ok.mp hread
        exact absurd hat (hnumber k v)
    | error e =>
        cases lebU32_error hread with
        | truncated => rfl
        | bad => exact absurd (lebU32_eq_badLeb128.mp hread) hlong

/-- **Reading a number.**  From any position the reader gives the number in the next bytes, if
there is one, and moves past it, and no bit is lost by a shift; five bytes that are no
number are an error of their own, and otherwise the bytes have run out.  The shortest
encoding of a `u32`, and any with up to five bytes that adds zeros to it, give that `u32`. -/
theorem lebU32_exact (r : Reader) :
    (∀ v s, r.lebU32 = .ok (v, s) ↔
      ∃ k, NumberAt r.rest k v ∧ s.bytes = r.bytes ∧ s.pos = r.pos + k) ∧
    (∀ k v, NumberAt r.rest k v → ∀ i b, i < k → r.rest[i]? = some b →
      ((b &&& 0x7f).toUInt32 <<< UInt32.ofNat (7 * i)).toNat = lowBits b * 2 ^ (7 * i)) ∧
    (r.lebU32 = .error (.error .badLeb128) ↔ TooLong r.rest) ∧
    (r.lebU32 = .error (.error .truncated) ↔
      (∀ k v, ¬ NumberAt r.rest k v) ∧ ¬ TooLong r.rest) ∧
    ∀ (v : UInt32) (zeros : Nat) (after : List UInt8),
      (Leb128.encode v.toNat).length + zeros ≤ 5 →
      r.rest = Leb128.pad^[zeros] (Leb128.encode v.toNat) ++ after →
      ∃ s, r.lebU32 = .ok (v, s) ∧ s.bytes = r.bytes ∧ s.rest = after := by
  refine ⟨fun v s => lebU32_eq_ok, fun k v h i b hi hb => h.toNat_shiftLeft hi hb,
    lebU32_eq_badLeb128, lebU32_eq_truncated, ?_⟩
  intro v zeros after hlength hrest
  obtain ⟨hencodes, hpadded⟩ := (Leb128.encodes_encode v.toNat).pad_iterate zeros
  obtain ⟨s, hbytes, hafter⟩ := Reader.exists_after hrest
  refine ⟨s, (Reader.reads_lebU32 r v s).mpr ⟨_, ⟨hencodes, ?_, v.toNat_lt⟩, hbytes, ?_⟩,
    hbytes, hafter⟩
  · rw [hpadded]
    exact hlength
  · rw [hafter, hrest]

end Observatory
