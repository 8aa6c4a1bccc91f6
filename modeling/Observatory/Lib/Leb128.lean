import Mathlib.Algebra.BigOperators.Ring.List
import Mathlib.Algebra.Group.Nat.Defs
import Mathlib.Tactic.Ring

/-!
# Unsigned LEB128

Natural numbers as bytes of seven bits each, the lowest first, every byte but
the last with its high bit set.  A number has many encodings: the last byte may
be followed by bytes that add nothing.

* `Encodes` — the bytes of a number, padded or not.
* `encodes_iff` — which bytes they are, and the sum they stand for.
* `encodes_cons_of_lt`, `encodes_cons_of_ge` — the first byte says whether there are more.
* `encodes_encode` — the encoding without padding is one.
* `length_encode_le` — it is no longer than the number needs.
* `Encodes.pad` — an encoding with a byte more.
-/

namespace Leb128

/-- Some bytes encode a number. -/
inductive Encodes : List UInt8 → Nat → Prop where
  /-- The last byte, its high bit clear. -/
  | last (b : UInt8) (h : b.toNat < 128) : Encodes [b] b.toNat
  /-- A byte with its high bit set, and the bytes of what is above its seven bits. -/
  | more (b : UInt8) {bs : List UInt8} {n : Nat} (h : 128 ≤ b.toNat) (tail : Encodes bs n) :
      Encodes (b :: bs) (b.toNat % 128 + 128 * n)

theorem Encodes.length_pos {bs : List UInt8} {n : Nat} (h : Encodes bs n) : 0 < bs.length := by
  cases h <;> simp

/-- What begins with a byte whose high bit is clear is that byte. -/
theorem encodes_cons_of_lt {b : UInt8} {bs : List UInt8} {n : Nat} (hb : b.toNat < 128) :
    Encodes (b :: bs) n ↔ bs = [] ∧ n = b.toNat := by
  constructor
  · intro h
    cases h with
    | last _ _ => exact ⟨rfl, rfl⟩
    | more _ hge _ => omega
  · rintro ⟨rfl, rfl⟩
    exact Encodes.last b hb

/-- What begins with a byte whose high bit is set goes on. -/
theorem encodes_cons_of_ge {b : UInt8} {bs : List UInt8} {n : Nat} (hb : 128 ≤ b.toNat) :
    Encodes (b :: bs) n ↔ ∃ m, Encodes bs m ∧ n = b.toNat % 128 + 128 * m := by
  constructor
  · intro h
    cases h with
    | last _ hlt => omega
    | more _ _ tail => exact ⟨_, tail, rfl⟩
  · rintro ⟨m, tail, rfl⟩
    exact Encodes.more b hb tail

/-! ## The number bytes stand for -/

/-- The sum of the low seven bits of each byte, at their places. -/
def value (bs : List UInt8) : Nat := (bs.mapIdx fun i b => b.toNat % 128 * 2 ^ (7 * i)).sum

@[simp] theorem value_nil : value [] = 0 := rfl

theorem value_cons (b : UInt8) (bs : List UInt8) :
    value (b :: bs) = b.toNat % 128 + 128 * value bs := by
  have hshift : (bs.mapIdx fun i b => b.toNat % 128 * 2 ^ (7 * (i + 1)))
      = (bs.mapIdx fun i b => b.toNat % 128 * 2 ^ (7 * i)).map (128 * ·) := by
    apply List.ext_getElem (by simp)
    intro i hi hi'
    simp only [List.getElem_mapIdx, List.getElem_map]
    ring
  rw [value, value, List.mapIdx_cons, List.sum_cons, hshift, List.sum_map_mul_left, List.map_id']
  simp

/-- **The bytes of a number**: all but the last have their high bit set, and their low bits
add up to it. -/
theorem encodes_iff {bs : List UInt8} {n : Nat} :
    Encodes bs n ↔ (∃ init last, bs = init ++ [last] ∧ (∀ b ∈ init, 128 ≤ b.toNat) ∧
      last.toNat < 128) ∧ n = value bs := by
  induction bs generalizing n with
  | nil => exact iff_of_false (fun h => absurd h.length_pos (by simp)) (by simp)
  | cons b bs ih =>
      rw [value_cons]
      by_cases hb : b.toNat < 128
      · rw [encodes_cons_of_lt hb]
        constructor
        · rintro ⟨rfl, rfl⟩
          exact ⟨⟨[], b, rfl, by simp, hb⟩, by simp [Nat.mod_eq_of_lt hb]⟩
        · rintro ⟨⟨init, last, hbytes, hinit, -⟩, rfl⟩
          cases init with
          | nil =>
              obtain ⟨rfl, rfl⟩ := List.cons.inj hbytes
              exact ⟨rfl, by simp [Nat.mod_eq_of_lt hb]⟩
          | cons c init =>
              obtain ⟨rfl, -⟩ := List.cons.inj hbytes
              have := hinit b List.mem_cons_self
              omega
      · have hge : 128 ≤ b.toNat := Nat.le_of_not_lt hb
        rw [encodes_cons_of_ge hge]
        constructor
        · rintro ⟨m, htail, rfl⟩
          obtain ⟨⟨init, last, rfl, hinit, hlast⟩, rfl⟩ := ih.mp htail
          exact ⟨⟨b :: init, last, rfl, List.forall_mem_cons.mpr ⟨hge, hinit⟩, hlast⟩, rfl⟩
        · rintro ⟨⟨init, last, hbytes, hinit, hlast⟩, rfl⟩
          cases init with
          | nil =>
              obtain ⟨rfl, -⟩ := List.cons.inj hbytes
              exact absurd hlast hb
          | cons c init =>
              obtain ⟨rfl, rfl⟩ := List.cons.inj hbytes
              refine ⟨_, ih.mpr ⟨⟨init, last, rfl, ?_, hlast⟩, rfl⟩, rfl⟩
              exact (List.forall_mem_cons.mp hinit).2

/-! ## The shortest encoding -/

/-- The encoding of a number, without padding. -/
def encode (n : Nat) : List UInt8 :=
  if n / 128 = 0 then [UInt8.ofNat (n % 128)]
  else UInt8.ofNat (n % 128 + 128) :: encode (n / 128)
termination_by n
decreasing_by omega

theorem toNat_ofNat_of_lt {n : Nat} (h : n < 256) : (UInt8.ofNat n).toNat = n := by
  rw [UInt8.toNat_ofNat']
  exact Nat.mod_eq_of_lt h

theorem encodes_encode (n : Nat) : Encodes (encode n) n := by
  induction n using Nat.strongRecOn with
  | ind n ih =>
    rw [encode]
    by_cases hn : n / 128 = 0
    · rw [if_pos hn]
      have hbyte : (UInt8.ofNat (n % 128)).toNat = n := by
        rw [toNat_ofNat_of_lt (by omega)]
        omega
      have hlast := Encodes.last (UInt8.ofNat (n % 128)) (by omega)
      rwa [hbyte] at hlast
    · rw [if_neg hn]
      have hbyte : (UInt8.ofNat (n % 128 + 128)).toNat = n % 128 + 128 :=
        toNat_ofNat_of_lt (by omega)
      have hmore := Encodes.more (UInt8.ofNat (n % 128 + 128)) (by omega) (ih (n / 128) (by omega))
      have hvalue : (UInt8.ofNat (n % 128 + 128)).toNat % 128 + 128 * (n / 128) = n := by
        rw [hbyte]
        omega
      rwa [hvalue] at hmore

/-- The shortest encoding takes one byte for every seven bits. -/
theorem length_encode_le {n : Nat} (k : Nat) (h : n < 128 ^ (k + 1)) :
    (encode n).length ≤ k + 1 := by
  induction k generalizing n with
  | zero =>
      have hn : n / 128 = 0 := by
        rw [Nat.pow_one] at h
        omega
      rw [encode, if_pos hn]
      simp
  | succ k ih =>
      rw [encode]
      by_cases hn : n / 128 = 0
      · simp [hn]
      · rw [if_neg hn, List.length_cons]
        have hbelow : n / 128 < 128 ^ (k + 1) := by
          rw [Nat.div_lt_iff_lt_mul (by omega), ← pow_succ]
          exact h
        have := ih hbelow
        omega

/-! ## Padding -/

/-- The encoding with a byte more: the last one goes on, with nothing. -/
def pad : List UInt8 → List UInt8
  | [] => []
  | [b] => [b ||| 0x80, 0]
  | b :: c :: bs => b :: pad (c :: bs)

theorem toNat_or_highBit {b : UInt8} (h : b.toNat < 128) : (b ||| 0x80).toNat = b.toNat + 128 := by
  rw [UInt8.toNat_or, Nat.or_comm]
  exact (Nat.two_pow_add_eq_or_of_lt (i := 7) h 1).symm.trans (Nat.add_comm _ _)

theorem Encodes.pad {bs : List UInt8} {n : Nat} (h : Encodes bs n) : Encodes (pad bs) n := by
  induction h with
  | last b hb =>
      have hbyte := toNat_or_highBit hb
      have hmore := Encodes.more (b ||| 0x80) (by omega) (Encodes.last 0 (by decide))
      have hvalue : (b ||| 0x80).toNat % 128 + 128 * (0 : UInt8).toNat = b.toNat := by
        rw [hbyte]
        simp [Nat.mod_eq_of_lt hb]
      rwa [hvalue] at hmore
  | @more b bs n hb tail ih =>
      cases bs with
      | nil => exact absurd tail.length_pos (by simp)
      | cons c bs => exact Encodes.more b hb ih

theorem Encodes.length_pad {bs : List UInt8} {n : Nat} (h : Encodes bs n) :
    (Leb128.pad bs).length = bs.length + 1 := by
  induction h with
  | last b hb => rfl
  | @more b bs n hb tail ih =>
      cases bs with
      | nil => exact absurd tail.length_pos (by simp)
      | cons c bs => exact congrArg Nat.succ ih

/-- Any number of bytes may be added. -/
theorem Encodes.pad_iterate {bs : List UInt8} {n : Nat} (h : Encodes bs n) (k : Nat) :
    Encodes (Leb128.pad^[k] bs) n ∧ (Leb128.pad^[k] bs).length = bs.length + k := by
  induction k with
  | zero => exact ⟨h, rfl⟩
  | succ k ih =>
      rw [Function.iterate_succ_apply']
      exact ⟨ih.1.pad, by rw [ih.1.length_pad, ih.2, Nat.add_assoc]⟩

end Leb128
