import Observatory.Rpc.Json

/-!
# Codecs

How `serde` writes the types of the program as JSON and reads them back: the derived
implementations for structures and enumerations, on `Json`.  A codec carries the proof
that it reads what it writes.  Left out are the array form of a structure, which
`serde` reads and never writes, and the texts of the errors.

* `Codec` — a writer, a reader, and the round trip.
* `Codec.variants`, `Codec.list`, `Codec.pair`, `Codec.u32` — the codecs the others are made of.
* `Codec.field`, `Codec.optionalField` — the fields of a structure.
* `asU64_toString` — the digits of a number are read as that number.
-/

namespace Observatory

/-! ## Numbers -/

/-- The digits of a number are read as that number. -/
theorem asU64_toString {n : Nat} (h : n < UInt64.size) :
    (Json.number (toString n)).asU64 = some (UInt64.ofNatLT n h) := by
  have hlist : (toString n).toList = Nat.toDigits 10 n := Nat.toList_repr
  have hdigits : (toString n).toList.all Char.isDigit = true := by
    rw [hlist, List.all_eq_true]
    intro c hc
    exact Nat.isDigit_of_mem_toDigits (by decide) (by decide) hc
  have hvalue : (toString n).toList.foldl (fun n c => 10 * n + (c.toNat - '0'.toNat)) 0 = n := by
    rw [hlist, ← Nat.ofDigitChars_eq_foldl]
    exact Nat.ofDigitChars_ten_toDigits
  unfold Json.asU64
  dsimp only
  rw [if_pos hdigits]
  simp only [hvalue, dif_pos h]

/-- The values under a key of an object, in order. -/
def Json.values (j : Json) (key : String) : List Json :=
  match j with
  | .object fields => (fields.filter (fun p => p.1 == key)).map Prod.snd
  | _ => []

/-- How values of a type are written, and how they are read back. -/
structure Codec (α : Type) where
  serialize : α → Json
  deserialize : Json → Option α
  /-- What is written is read back. -/
  deserialize_serialize : ∀ a, deserialize (serialize a) = some a
  /-- `null` stands for an absent value only. -/
  serialize_ne_null : ∀ a, serialize a ≠ .null

namespace Codec

variable {α β : Type}

/-! ## Plain values -/

/-- A text. -/
def string : Codec String where
  serialize := .string
  deserialize := Json.asStr
  deserialize_serialize _ := rfl
  serialize_ne_null _ h := by cases h

/-- A truth value. -/
def bool : Codec Bool where
  serialize := .bool
  deserialize
    | .bool b => some b
    | _ => none
  deserialize_serialize _ := rfl
  serialize_ne_null _ h := by cases h

/-- Reading a number that has to be below a bound. -/
def readBelow (bound : Nat) (j : Json) : Option Nat :=
  j.asU64.bind (fun n => if n.toNat < bound then some n.toNat else none)

theorem readBelow_toString {n bound : Nat} (h : n < bound) (hbound : bound ≤ UInt64.size) :
    readBelow bound (.number (toString n)) = some n := by
  have hsize : n < UInt64.size := Nat.lt_of_lt_of_le h hbound
  rw [readBelow, asU64_toString hsize, Option.bind_some, UInt64.toNat_ofNatLT, if_pos h]

/-- A number of 32 bits. -/
def u32 : Codec UInt32 where
  serialize n := .number (toString n.toNat)
  deserialize j := (readBelow UInt32.size j).map UInt32.ofNat
  deserialize_serialize n := by
    rw [readBelow_toString n.toNat_lt (by decide), Option.map_some, UInt32.ofNat_toNat]
  serialize_ne_null _ h := by cases h

/-- A type that is written as text. -/
def text (print : α → String) (parse : String → Option α) (h : ∀ a, parse (print a) = some a) :
    Codec α where
  serialize a := .string (print a)
  deserialize j := j.asStr.bind parse
  deserialize_serialize := h
  serialize_ne_null _ h := by cases h

/-- An enumeration without data, by the names of its variants. -/
def variants (name : α → String) (all : List α)
    (h : ∀ a, all.find? (fun b => name b == name a) = some a) : Codec α :=
  text name (fun s => all.find? (fun b => name b == s)) h

/-! ## Sequences -/

theorem mapM_serialize (c : Codec α) (as : List α) :
    (as.map c.serialize).mapM c.deserialize = some as := by
  induction as with
  | nil => rfl
  | cons a as ih => simp [c.deserialize_serialize, ih]

/-- A sequence. -/
def list (c : Codec α) : Codec (List α) where
  serialize as := .array (as.map c.serialize)
  deserialize j := j.asArray.bind (fun items => items.mapM c.deserialize)
  deserialize_serialize := c.mapM_serialize
  serialize_ne_null _ h := by cases h

/-- A pair. -/
def pair (c : Codec α) (d : Codec β) : Codec (α × β) where
  serialize p := .array [c.serialize p.1, d.serialize p.2]
  deserialize
    | .array [a, b] => (c.deserialize a).bind (fun a => (d.deserialize b).map (fun b => (a, b)))
    | _ => none
  deserialize_serialize p := by simp [c.deserialize_serialize, d.deserialize_serialize]
  serialize_ne_null _ h := by cases h

/-! ## Fields -/

/-- A field of a structure: it is there once. -/
def field (c : Codec α) (j : Json) (key : String) : Option α :=
  match j.values key with
  | [v] => c.deserialize v
  | _ => none

/-- A field that is a number below a bound: `usize`. -/
def readField (bound : Nat) (j : Json) (key : String) : Option Nat :=
  match j.values key with
  | [v] => readBelow bound v
  | _ => none

/-- A value that may be absent. -/
def serializeOption (c : Codec α) : Option α → Json
  | none => .null
  | some a => c.serialize a

theorem asStr_serializeOption (s : Option String) : (string.serializeOption s).asStr = s := by
  cases s <;> rfl

/-- A field that may be absent, or `null`. -/
def optionalField (c : Codec α) (j : Json) (key : String) : Option (Option α) :=
  match j.values key with
  | [] => some none
  | [.null] => some none
  | [v] => (c.deserialize v).map some
  | _ => none

/-- The field is read back. -/
theorem field_eq (c : Codec α) {j : Json} {key : String} {a : α}
    (h : j.values key = [c.serialize a]) : c.field j key = some a := by
  rw [field, h]
  exact c.deserialize_serialize a

/-- The number is read back. -/
theorem readField_eq {bound n : Nat} {j : Json} {key : String}
    (h : j.values key = [.number (toString n)]) (hn : n < bound) (hbound : bound ≤ UInt64.size) :
    readField bound j key = some n := by
  rw [readField, h]
  exact readBelow_toString hn hbound

/-- The field that may be absent is read back. -/
theorem optionalField_eq (c : Codec α) {j : Json} {key : String} {a : Option α}
    (h : j.values key = [c.serializeOption a]) : c.optionalField j key = some a := by
  rw [optionalField, h]
  cases a with
  | none => rfl
  | some a =>
      rw [serializeOption]
      split
      · next heq => cases heq
      · next heq => exact absurd (List.cons.inj heq).1 (c.serialize_ne_null a)
      · next v _ heq =>
        rw [← (List.cons.inj heq).1, c.deserialize_serialize]
        rfl
      · next hother => exact absurd rfl (hother _)

end Codec

end Observatory
