import Mathlib.Data.List.Basic
import Mathlib.Data.List.Forall2

/-!
# Integers in text

Unsigned integers read from the bytes of a text in a radix, as the parser of a
standard library reads them (`from_str_radix`): a plus sign may come first, and
a number that does not fit is refused.

* `fromStrRadix` — the parser, for integers below a bound.
* `fromStrRadix_eq_ok` — what it accepts.
-/

namespace Radix

/-- Why a text is no number. -/
inductive ParseIntError where
  | empty
  | invalidDigit
  | posOverflow
  deriving DecidableEq

/-- The text of the error. -/
def ParseIntError.display : ParseIntError → String
  | .empty => "cannot parse integer from empty string"
  | .invalidDigit => "invalid digit found in string"
  | .posOverflow => "number too large to fit in target type"

/-- The plus sign. -/
def plus : UInt8 := 0x2B

/-- The minus sign. -/
def minus : UInt8 := 0x2D

/-- What a byte counts as a digit, in either case of a letter; the radix if it is none. -/
def digitValue (radix : Nat) (b : UInt8) : Nat :=
  if 48 ≤ b.toNat ∧ b.toNat ≤ 57 then b.toNat - 48
  else if 97 ≤ b.toNat ∧ b.toNat ≤ 122 then b.toNat - 87
  else if 65 ≤ b.toNat ∧ b.toNat ≤ 90 then b.toNat - 55
  else radix

/-- The digit a byte is in the radix. -/
def toDigit (radix : Nat) (b : UInt8) : Option Nat :=
  if digitValue radix b < radix then some (digitValue radix b) else none

/-- Read digits behind a number already read. -/
def accumulate (radix bound : Nat) : Nat → List UInt8 → Except ParseIntError Nat
  | n, [] => .ok n
  | n, b :: bs =>
      match toDigit radix b with
      | none => .error .invalidDigit
      | some d =>
          if n * radix + d < bound then accumulate radix bound (n * radix + d) bs
          else .error .posOverflow

/-- Read a number below the bound. -/
def fromStrRadix (radix bound : Nat) : List UInt8 → Except ParseIntError Nat
  | [] => .error .empty
  | b :: bs =>
      if (b = plus ∨ b = minus) ∧ bs = [] then .error .invalidDigit
      else if b = plus then accumulate radix bound 0 bs
      else accumulate radix bound 0 (b :: bs)

/-! ## What is accepted -/

/-- The number with these digits, the most significant first, behind those of `n`. -/
def value (radix n : Nat) (digits : List Nat) : Nat := digits.foldl (fun n d => n * radix + d) n

theorem le_value {radix : Nat} (hradix : 0 < radix) (digits : List Nat) (n : Nat) :
    n ≤ value radix n digits := by
  induction digits generalizing n with
  | nil => exact Nat.le_refl n
  | cons d digits ih =>
      have hmul : n ≤ n * radix := Nat.le_mul_of_pos_right n hradix
      exact Nat.le_trans (by omega) (ih (n * radix + d))

/-- The bytes are these digits. -/
abbrev Spells (radix : Nat) (bytes : List UInt8) (digits : List Nat) : Prop :=
  List.Forall₂ (fun b d => toDigit radix b = some d) bytes digits

theorem toDigit_lt {radix : Nat} {b : UInt8} {d : Nat} (h : toDigit radix b = some d) :
    d < radix := by
  unfold toDigit at h
  split at h
  · next hlt =>
    obtain rfl := Option.some.inj h
    exact hlt
  · cases h

/-- A digit is ASCII. -/
theorem lt_of_toDigit {radix : Nat} {b : UInt8} {d : Nat} (h : toDigit radix b = some d) :
    b < 0x80 := by
  rw [UInt8.lt_iff_toNat_lt]
  by_contra hge
  have hge' : 128 ≤ b.toNat := Nat.not_lt.mp hge
  have hnone : digitValue radix b = radix := by
    rw [digitValue, if_neg (by omega), if_neg (by omega), if_neg (by omega)]
  rw [toDigit, hnone, if_neg (Nat.lt_irrefl radix)] at h
  cases h

/-- A sign is no digit. -/
theorem not_spells_sign {radix : Nat} {b : UInt8} (hb : b = plus ∨ b = minus)
    (bytes : List UInt8) (digits : List Nat) : ¬ Spells radix (b :: bytes) digits := by
  intro h
  have hnone : toDigit radix b = none := by
    rcases hb with rfl | rfl
    · simp [toDigit, digitValue, plus]
    · simp [toDigit, digitValue, minus]
  cases h with
  | cons hd _ =>
      rw [hnone] at hd
      cases hd

/-- A number behind `n`, by its first digit. -/
theorem exists_digits_cons {radix n m : Nat} {b : UInt8} {bytes : List UInt8} :
    (∃ digits, Spells radix (b :: bytes) digits ∧ value radix n digits = m) ↔
      ∃ d, toDigit radix b = some d ∧
        ∃ digits, Spells radix bytes digits ∧ value radix (n * radix + d) digits = m := by
  constructor
  · rintro ⟨digits, hspells, hvalue⟩
    obtain ⟨d, rest, hd, hrest, rfl⟩ := List.forall₂_cons_left_iff.mp hspells
    exact ⟨d, hd, rest, hrest, hvalue⟩
  · rintro ⟨d, hd, digits, hspells, hvalue⟩
    exact ⟨d :: digits, .cons hd hspells, hvalue⟩

/-- Digits are read to the end when the number fits. -/
theorem accumulate_eq_ok {radix bound : Nat} (hradix : 0 < radix) {bytes : List UInt8} {n m : Nat}
    (hn : n < bound) : accumulate radix bound n bytes = .ok m ↔
      m < bound ∧ ∃ digits, Spells radix bytes digits ∧ value radix n digits = m := by
  induction bytes generalizing n with
  | nil =>
      rw [accumulate]
      constructor
      · intro h
        obtain rfl := Except.ok.inj h
        exact ⟨hn, [], .nil, rfl⟩
      · rintro ⟨-, digits, hdigits, rfl⟩
        cases hdigits
        rfl
  | cons b bytes ih =>
      rw [accumulate, exists_digits_cons]
      cases hb : toDigit radix b with
      | none => simp
      | some d =>
          simp only [Option.some.injEq, exists_eq_left']
          by_cases hfits : n * radix + d < bound
          · rw [if_pos hfits]
            exact ih hfits
          · rw [if_neg hfits]
            constructor
            · intro h
              cases h
            · rintro ⟨hm, digits, -, rfl⟩
              -- what comes after a prefix that does not fit only makes it greater
              exact absurd (Nat.lt_of_le_of_lt (le_value hradix digits (n * radix + d)) hm) hfits

/-- **What is accepted**: digits, at least one, with or without a plus sign, whose number fits. -/
theorem fromStrRadix_eq_ok {radix bound : Nat} (hradix : 0 < radix) (hbound : 0 < bound)
    {bytes : List UInt8} {m : Nat} : fromStrRadix radix bound bytes = .ok m ↔
      m < bound ∧ ∃ text digits, (bytes = text ∨ bytes = plus :: text) ∧ text ≠ [] ∧
        Spells radix text digits ∧ value radix 0 digits = m := by
  cases bytes with
  | nil =>
      rw [fromStrRadix]
      constructor
      · intro h
        cases h
      · rintro ⟨-, text, digits, rfl | h, htext, -⟩
        · exact absurd rfl htext
        · cases h
  | cons b bytes =>
      rw [fromStrRadix]
      by_cases halone : (b = plus ∨ b = minus) ∧ bytes = []
      · rw [if_pos halone]
        obtain ⟨hsign, rfl⟩ := halone
        constructor
        · intro h
          cases h
        · rintro ⟨-, text, digits, rfl | h, htext, hspells, -⟩
          · exact absurd hspells (not_spells_sign hsign [] digits)
          · exact absurd (List.cons.inj h).2.symm htext
      · rw [if_neg halone]
        by_cases hplus : b = plus
        · subst hplus
          have hbytes : bytes ≠ [] := fun h => halone ⟨.inl rfl, h⟩
          rw [if_pos rfl, accumulate_eq_ok hradix hbound]
          constructor
          · rintro ⟨hm, digits, hspells, hvalue⟩
            exact ⟨hm, bytes, digits, .inr rfl, hbytes, hspells, hvalue⟩
          · rintro ⟨hm, text, digits, rfl | h, -, hspells, hvalue⟩
            · exact absurd hspells (not_spells_sign (.inl rfl) bytes digits)
            · obtain rfl := (List.cons.inj h).2
              exact ⟨hm, digits, hspells, hvalue⟩
        · rw [if_neg hplus, accumulate_eq_ok hradix hbound]
          constructor
          · rintro ⟨hm, digits, hspells, hvalue⟩
            exact ⟨hm, b :: bytes, digits, .inl rfl, List.cons_ne_nil b bytes, hspells, hvalue⟩
          · rintro ⟨hm, text, digits, rfl | h, -, hspells, hvalue⟩
            · exact ⟨hm, digits, hspells, hvalue⟩
            · exact absurd (List.cons.inj h).1 hplus

end Radix
