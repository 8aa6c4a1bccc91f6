import Mathlib.Data.List.Basic
import Mathlib.Order.Lattice
import Mathlib.Order.Monotone.Basic

/-!
# Nested records

A machine that keeps a stack of open records writes down, for each record it opens, how
many are open below it: its depth.  Records are closed from the top only, so the depths
alone tell which record each one was opened in.  Depths may be written in a bounded type,
through a monotone `code`.

* `Nested` — what the depths say of the records still open.
* `Nested.suffix`, `Nested.push` — closing and opening records keeps it.
* `Nested.nearest` — the record on top is the nearest one with its depth.
* `Grows` — no record is more than one deeper than the one before.
-/

namespace Nesting

variable {δ : Type*} [LinearOrder δ] {code : ℕ → δ}

/-- The open records, innermost first: each was written down with the number of records
below it, and every later one as deeper. -/
def Nested (code : ℕ → δ) (depths : List δ) : List ℕ → Prop
  | [] => True
  | i :: below =>
      depths[i]? = some (code below.length) ∧
        (∀ k d, i < k → depths[k]? = some d → code (below.length + 1) ≤ d) ∧
        Nested code depths below

theorem Nested.suffix {depths : List δ} {opened kept : List ℕ} (h : Nested code depths opened)
    (hkept : kept <:+ opened) : Nested code depths kept := by
  obtain ⟨closed, rfl⟩ := hkept
  induction closed with
  | nil => exact h
  | cons i closed ih => exact ih h.2.2

/-- A record opened above all the others is deeper than each of them. -/
theorem Nested.append (hcode : Monotone code) {depths : List δ} {opened : List ℕ} {n : ℕ}
    (h : Nested code depths opened) (hn : opened.length ≤ n) :
    Nested code (depths ++ [code n]) opened := by
  induction opened with
  | nil => trivial
  | cons i below ih =>
      obtain ⟨hdepth, hlater, hbelow⟩ := h
      rw [List.length_cons] at hn
      have hi : i < depths.length := (List.getElem?_eq_some_iff.mp hdepth).1
      refine ⟨?_, ?_, ih hbelow (by omega)⟩
      · rw [List.getElem?_append_left hi, hdepth]
      · intro k d hk hd
        rw [List.getElem?_append] at hd
        split at hd
        · exact hlater k d hk hd
        · obtain rfl := List.mem_singleton.mp (List.mem_of_getElem? hd)
          exact hcode hn

/-- **Opening a record.**  Whatever stays open below it, it is written down as one deeper. -/
theorem Nested.push (hcode : Monotone code) {depths : List δ} {kept : List ℕ}
    (h : Nested code depths kept) :
    Nested code (depths ++ [code kept.length]) (depths.length :: kept) := by
  refine ⟨by simp, ?_, h.append hcode (Nat.le_refl _)⟩
  intro k d hk hd
  have hlt := (List.getElem?_eq_some_iff.mp hd).1
  rw [List.length_append, List.length_singleton] at hlt
  omega

/-! ## The nearest record of a depth -/

/-- The last record before position `n` with this depth. -/
def Nearest (depths : List δ) (n : ℕ) (d : δ) (j : ℕ) : Prop :=
  j < n ∧ depths[j]? = some d ∧ ∀ k, j < k → k < n → depths[k]? ≠ some d

omit [LinearOrder δ] in
/-- A position has one nearest place of a depth at most. -/
theorem Nearest.unique {depths : List δ} {n : ℕ} {d : δ} {j j' : ℕ} (h : Nearest depths n d j)
    (h' : Nearest depths n d j') : j = j' := by
  obtain ⟨hj, hd, hlast⟩ := h
  obtain ⟨hj', hd', hlast'⟩ := h'
  rcases Nat.lt_trichotomy j j' with hlt | rfl | hgt
  · exact absurd hd' (hlast j' hlt hj')
  · rfl
  · exact absurd hd (hlast' j hgt hj)

/-- **The record on top** is the nearest one with its depth, where the code tells its depth
from the next. -/
theorem Nested.nearest {depths : List δ} {i : ℕ} {below : List ℕ}
    (h : Nested code depths (i :: below)) (hlt : code below.length < code (below.length + 1)) :
    Nearest depths depths.length (code below.length) i := by
  refine ⟨(List.getElem?_eq_some_iff.mp h.1).1, h.1, ?_⟩
  intro k hk _ hd
  exact absurd (h.2.1 k _ hk hd) (not_le.mpr hlt)

/-! ## Neighbours -/

/-- The first record is written down with depth zero, none as more than one deeper than the
one before, and no more than one deeper than the last are open. -/
structure Grows (code : ℕ → δ) (depths : List δ) (opened : ℕ) : Prop where
  /-- The first record. -/
  first : ∀ d, depths[0]? = some d → d = code 0
  /-- Two neighbours. -/
  next : ∀ k d d', depths[k]? = some d → depths[k + 1]? = some d' →
    ∃ n, d = code n ∧ d' ≤ code (n + 1)
  /-- The last record. -/
  last : ∀ d, depths.getLast? = some d → ∃ n, d = code n ∧ opened ≤ n + 1
  /-- Nothing is open before the first record. -/
  nil : depths = [] → opened = 0

theorem Grows.empty : Grows code [] 0 where
  first d h := by cases h
  next k d d' h := by simp at h
  last d h := by cases h
  nil _ := rfl

theorem Grows.mono {depths : List δ} {opened kept : ℕ} (h : Grows code depths opened)
    (hkept : kept ≤ opened) : Grows code depths kept where
  first := h.first
  next := h.next
  last d hd := by
    obtain ⟨n, hn, hopened⟩ := h.last d hd
    exact ⟨n, hn, by omega⟩
  nil hd := by
    have := h.nil hd
    omega

/-- Opening a record keeps this. -/
theorem Grows.push (hcode : Monotone code) {depths : List δ} {kept : ℕ}
    (h : Grows code depths kept) : Grows code (depths ++ [code kept]) (kept + 1) where
  first d hd := by
    cases depths with
    | nil =>
        obtain rfl := Option.some.inj hd
        rw [h.nil rfl]
    | cons a depths => exact h.first d hd
  next k d d' hd hd' := by
    by_cases hk : k + 1 < depths.length
    · rw [List.getElem?_append_left (by omega)] at hd
      rw [List.getElem?_append_left hk] at hd'
      exact h.next k d d' hd hd'
    · -- the later one is the new record
      have hlt := (List.getElem?_eq_some_iff.mp hd').1
      rw [List.length_append, List.length_singleton] at hlt
      rw [List.getElem?_append_left (by omega)] at hd
      rw [List.getElem?_append_right (by omega)] at hd'
      obtain rfl := List.mem_singleton.mp (List.mem_of_getElem? hd')
      have hlast : depths.getLast? = some d := by
        rw [List.getLast?_eq_getElem?, ← hd]
        congr 1
        omega
      obtain ⟨n, hn, hopened⟩ := h.last d hlast
      exact ⟨n, hn, hcode hopened⟩
  last d hd := by
    rw [List.getLast?_concat] at hd
    obtain rfl := Option.some.inj hd
    exact ⟨kept, rfl, Nat.le_refl _⟩
  nil hd := by simp at hd

end Nesting
