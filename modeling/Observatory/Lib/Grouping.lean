import Mathlib.Algebra.BigOperators.Group.List.Basic
import Mathlib.Algebra.GroupWithZero.Nat
import Mathlib.Data.List.Sort
import Observatory.Lib.Scan

/-!
# Values under keys

A loop that keeps a value under each key it meets, puts a default there the first time,
and changes the value each time: `map.entry(key).or_default()`.

* `group_eq` — each key has what the loop over its own elements alone leaves.
* `sum_filter_group` — a measure that each element raises by one counts the elements.
* `tally` — how often each key is met.
* `firsts` — the first element of each key.
* `ascending` — the distinct elements of a list in order.
-/

namespace Grouping

open Scan (pushNew distinct)

variable {α κ β : Type*} [DecidableEq κ]

/-- Change the value under a key; it is the default when there is none. -/
def modify (g : β → β) (default : β) (k : κ) : List (κ × β) → List (κ × β)
  | [] => [(k, g default)]
  | (k', b) :: rest =>
      if k' = k then (k', g b) :: rest else (k', b) :: modify g default k rest

/-- The loop over elements, each of which changes the value under its key. -/
def group (key : α → κ) (g : β → α → β) (default : β) (xs : List α) : List (κ × β) :=
  xs.foldl (fun kept x => modify (fun b => g b x) default (key x) kept) []

/-- The elements met once more. -/
theorem group_concat (key : α → κ) (g : β → α → β) (default : β) (xs : List α) (x : α) :
    group key g default (xs ++ [x])
      = modify (fun b => g b x) default (key x) (group key g default xs) := by
  rw [group, List.foldl_append]
  rfl

/-- Changing a value under a key, among values that are given by their keys. -/
theorem modify_map {g : β → β} {default : β} {k : κ} {value : κ → β} {ks : List κ}
    (hnodup : ks.Nodup) :
    modify g default k (ks.map (fun k => (k, value k)))
      = (pushNew ks k).map (fun k' =>
          (k', if k' = k then g (if k ∈ ks then value k else default) else value k')) := by
  induction ks with
  | nil => simp [modify, pushNew]
  | cons k' ks ih =>
      obtain ⟨hnew, hnodup⟩ := List.nodup_cons.mp hnodup
      by_cases hkey : k' = k
      · subst hkey
        have hrest : ∀ k ∈ ks, k ≠ k' := fun k hk heq => hnew (heq ▸ hk)
        have hmap : ks.map (fun k => (k, if k = k' then g (value k') else value k))
            = ks.map (fun k => (k, value k)) :=
          List.map_congr_left fun k hk => by rw [if_neg (hrest k hk)]
        simp [modify, pushNew, hmap]
      · have hmem : k ∈ k' :: ks ↔ k ∈ ks := by simp [Ne.symm hkey]
        have hpush : pushNew (k' :: ks) k = k' :: pushNew ks k := by
          unfold pushNew
          by_cases hk : k ∈ ks
          · rw [if_pos hk, if_pos (hmem.mpr hk)]
          · rw [if_neg hk, if_neg (mt hmem.mp hk), List.cons_append]
        rw [List.map_cons, modify, if_neg hkey, ih hnodup, hpush, List.map_cons, if_neg hkey]
        simp only [hmem]

/-- The keys behind a change: those there were, and the changed one. -/
theorem map_fst_modify (g : β → β) (default : β) (k : κ) (kept : List (κ × β)) :
    (modify g default k kept).map Prod.fst = pushNew (kept.map Prod.fst) k := by
  induction kept with
  | nil => rfl
  | cons e kept ih =>
      obtain ⟨k', b⟩ := e
      rw [modify]
      by_cases hkey : k' = k
      · subst hkey
        simp [pushNew]
      · rw [if_neg hkey, List.map_cons, ih]
        unfold pushNew
        by_cases hk : k ∈ kept.map Prod.fst
        · rw [if_pos hk, if_pos (by simp [hk])]
          rfl
        · rw [if_neg hk, if_neg (by simpa [Ne.symm hkey] using hk)]
          rfl

/-- **Each key as if alone.**  The keys are in order of first appearance. -/
theorem group_eq (key : α → κ) (g : β → α → β) (default : β) (xs : List α) :
    group key g default xs = (distinct (xs.map key)).map (fun k =>
      (k, (xs.filter (fun x => key x = k)).foldl g default)) := by
  induction xs using List.reverseRecOn with
  | nil => rfl
  | append_singleton xs x ih =>
      have hdistinct :
          distinct ((xs ++ [x]).map key) = pushNew (distinct (xs.map key)) (key x) := by
        rw [List.map_append, distinct, List.foldl_append]
        rfl
      rw [group_concat, ih, modify_map (Scan.nodup_distinct _), hdistinct]
      refine List.map_congr_left fun k _ => ?_
      by_cases hkey : k = key x
      · subst hkey
        have hfold : (if key x ∈ distinct (xs.map key)
            then (xs.filter (fun y => key y = key x)).foldl g default else default)
            = (xs.filter (fun y => key y = key x)).foldl g default := by
          split
          · rfl
          · next hnew =>
            have hnone : xs.filter (fun y => key y = key x) = [] := by
              rw [List.filter_eq_nil_iff]
              intro y hy heq
              refine hnew (Scan.mem_distinct.mpr (List.mem_map.mpr ⟨y, hy, ?_⟩))
              exact of_decide_eq_true heq
            rw [hnone]
            rfl
        rw [if_pos rfl, hfold, List.filter_append, List.foldl_append]
        simp
      · rw [if_neg hkey, List.filter_append]
        simp [Ne.symm hkey]

/-- The keys, each once. -/
theorem map_fst_group (key : α → κ) (g : β → α → β) (default : β) (xs : List α) :
    (group key g default xs).map Prod.fst = distinct (xs.map key) := by
  rw [group_eq, List.map_map]
  exact List.map_id _

/-- What is under a key. -/
theorem mem_group {key : α → κ} {g : β → α → β} {default : β} {xs : List α} {k : κ} {b : β} :
    (k, b) ∈ group key g default xs ↔ (∃ x ∈ xs, key x = k) ∧
      b = (xs.filter (fun x => key x = k)).foldl g default := by
  rw [group_eq, List.mem_map]
  simp only [Prod.mk.injEq, Scan.mem_distinct, List.mem_map]
  constructor
  · rintro ⟨k', ⟨x, hx, rfl⟩, rfl, rfl⟩
    exact ⟨⟨x, hx, rfl⟩, rfl⟩
  · rintro ⟨⟨x, hx, rfl⟩, rfl⟩
    exact ⟨_, ⟨x, hx, rfl⟩, rfl, rfl⟩

/-! ## Counting -/

/-- A measure that is raised by one is raised by one in the sum over the keys it is taken at. -/
theorem sum_filter_modify {g : β → β} {default : β} {k : κ} (measure : β → ℕ) (p : κ → Bool)
    (hdefault : measure default = 0) (hstep : ∀ b, measure (g b) = measure b + 1)
    (kept : List (κ × β)) :
    (((modify g default k kept).filter (fun e => p e.1)).map (fun e => measure e.2)).sum
      = ((kept.filter (fun e => p e.1)).map (fun e => measure e.2)).sum
        + (if p k then 1 else 0) := by
  induction kept with
  | nil => by_cases hp : p k = true <;> simp [modify, hp, hstep, hdefault]
  | cons e kept ih =>
      obtain ⟨k', b⟩ := e
      rw [modify]
      by_cases hkey : k' = k
      · subst hkey
        by_cases hp : p k' = true
        · simp [hp, hstep]
          omega
        · simp [hp]
      · rw [if_neg hkey]
        by_cases hp : p k' = true
        · simp [hp, ih]
          omega
        · simp [hp, ih]

/-- **Nothing is lost.**  Over the keys of a kind, the measure counts the elements of that kind. -/
theorem sum_filter_group (key : α → κ) {g : β → α → β} {default : β} (measure : β → ℕ)
    (p : κ → Bool) (hdefault : measure default = 0)
    (hstep : ∀ b x, measure (g b x) = measure b + 1) (xs : List α) :
    (((group key g default xs).filter (fun e => p e.1)).map (fun e => measure e.2)).sum
      = xs.countP (fun x => p (key x)) := by
  induction xs using List.reverseRecOn with
  | nil => rfl
  | append_singleton xs x ih =>
      rw [group_concat, sum_filter_modify measure p hdefault (fun b => hstep b x), ih,
        List.countP_append,
        List.countP_singleton]

/-- How often each key is met. -/
def tally (keys : List κ) : List (κ × ℕ) := group id (fun n _ => n + 1) 0 keys

theorem lookup_map {value : κ → β} {ks : List κ} {k : κ} :
    (ks.map (fun k => (k, value k))).lookup k = if k ∈ ks then some (value k) else none := by
  induction ks with
  | nil => rfl
  | cons k' ks ih =>
      rw [List.map_cons, List.lookup_cons, ih]
      by_cases hkey : k = k'
      · subst hkey
        simp
      · simp [hkey, beq_eq_false_iff_ne.mpr hkey]

/-- The first element of each key that was not seen before. -/
def firsts (key : α → κ) : List κ → List α → List α
  | _, [] => []
  | seen, x :: xs =>
      if key x ∈ seen then firsts key seen xs else x :: firsts key (key x :: seen) xs

theorem firsts_sublist (key : α → κ) (seen : List κ) (xs : List α) :
    (firsts key seen xs).Sublist xs := by
  induction xs generalizing seen with
  | nil => exact List.Sublist.refl []
  | cons x xs ih =>
      rw [firsts]
      split
      · exact (ih seen).cons x
      · exact (ih _).cons_cons x

/-- The keys that are new. -/
theorem mem_map_firsts {key : α → κ} {xs : List α} {k : κ} {seen : List κ} :
    k ∈ (firsts key seen xs).map key ↔ k ∈ xs.map key ∧ k ∉ seen := by
  induction xs generalizing seen with
  | nil => simp [firsts]
  | cons x xs ih =>
      rw [firsts]
      by_cases hseen : key x ∈ seen
      · rw [if_pos hseen, ih, List.map_cons, List.mem_cons]
        constructor
        · rintro ⟨hmem, hnew⟩
          exact ⟨.inr hmem, hnew⟩
        · rintro ⟨rfl | hmem, hnew⟩
          · exact absurd hseen hnew
          · exact ⟨hmem, hnew⟩
      · rw [if_neg hseen, List.map_cons, List.mem_cons, ih, List.map_cons, List.mem_cons,
          List.mem_cons, not_or]
        by_cases hkey : k = key x
        · subst hkey
          simp [hseen]
        · simp [hkey]

theorem nodup_map_firsts (key : α → κ) (seen : List κ) (xs : List α) :
    ((firsts key seen xs).map key).Nodup := by
  induction xs generalizing seen with
  | nil => exact List.nodup_nil
  | cons x xs ih =>
      rw [firsts]
      split
      · exact ih seen
      · rw [List.map_cons, List.nodup_cons, mem_map_firsts]
        exact ⟨fun h => h.2 List.mem_cons_self, ih _⟩

/-! ## In order -/

section Ascending

variable {ρ : Type*} [LinearOrder ρ] (rank : κ → ρ)

/-- The distinct elements of a list, by their rank: a `BTreeSet`. -/
def ascending (l : List κ) : List κ := (distinct l).insertionSort (fun a b => rank a ≤ rank b)

variable {rank}

@[simp] theorem mem_ascending {l : List κ} {a : κ} : a ∈ ascending rank l ↔ a ∈ l := by
  rw [ascending, List.mem_insertionSort, Scan.mem_distinct]

theorem perm_ascending (l : List κ) : (ascending rank l).Perm (distinct l) :=
  List.perm_insertionSort _ _

theorem nodup_ascending (l : List κ) : (ascending rank l).Nodup :=
  (perm_ascending l).nodup_iff.mpr (Scan.nodup_distinct l)

/-- Each element is behind the smaller ones. -/
theorem pairwise_ascending (hrank : Function.Injective rank) (l : List κ) :
    (ascending rank l).Pairwise (fun a b => rank a < rank b) := by
  have hle : (ascending rank l).Pairwise (fun a b => rank a ≤ rank b) := by
    have : Std.Total (fun a b : κ => rank a ≤ rank b) := ⟨fun a b => le_total _ _⟩
    have : IsTrans κ (fun a b => rank a ≤ rank b) := ⟨fun a b c => le_trans⟩
    exact List.pairwise_insertionSort _ _
  exact (hle.and (nodup_ascending l)).imp fun h =>
    lt_of_le_of_ne h.1 fun heq => h.2 (hrank heq)

end Ascending

end Grouping
