import Mathlib.Data.List.Nodup
import Mathlib.Data.List.Perm.Subperm

/-!
# Samples without replacement

The first steps of a Fisher–Yates shuffle: at each position an element from there on is
swapped in.  Whatever is drawn, nothing is lost and nothing is repeated.

* `shuffle` — the steps.
* `shuffle_perm` — the pool is permuted.
* `sample` — the first elements, and `nodup_sample`, `length_sample`.
-/

namespace Sampling

variable {α σ : Type*}

/-- The last `n` steps from position `i` on.  A drawn number is reduced to the positions left. -/
def shuffle (draw : σ → ℕ × σ) : ℕ → ℕ → σ → Array α → Array α
  | 0, _, _, pool => pool
  | n + 1, i, s, pool =>
      let (drawn, s) := draw s
      shuffle draw n (i + 1) s (pool.swapIfInBounds i (i + drawn % (pool.size - i)))

/-- The first `k` elements behind `k` steps. -/
def sample (draw : σ → ℕ × σ) (k : ℕ) (s : σ) (pool : List α) : List α :=
  (shuffle draw k 0 s pool.toArray).toList.take k

variable {draw : σ → ℕ × σ}

theorem swapIfInBounds_perm (pool : Array α) (i j : ℕ) :
    (pool.swapIfInBounds i j).toList.Perm pool.toList := by
  unfold Array.swapIfInBounds
  split
  · split
    · exact (Array.swap_perm _ _).toList
    · exact List.Perm.refl _
  · exact List.Perm.refl _

/-- The pool is permuted. -/
theorem shuffle_perm (n i : ℕ) (s : σ) (pool : Array α) :
    (shuffle draw n i s pool).toList.Perm pool.toList := by
  induction n generalizing i s pool with
  | zero => exact List.Perm.refl _
  | succ n ih =>
      rw [shuffle]
      exact (ih _ _ _).trans (swapIfInBounds_perm pool i _)

/-- A sample is some elements of the pool. -/
theorem sample_subperm (k : ℕ) (s : σ) (pool : List α) :
    (sample draw k s pool).Subperm pool := by
  have hperm : (shuffle draw k 0 s pool.toArray).toList.Perm pool := shuffle_perm k 0 s _
  exact (List.take_sublist k _).subperm.trans hperm.subperm

theorem length_sample {k : ℕ} {pool : List α} (h : k ≤ pool.length) (s : σ) :
    (sample draw k s pool).length = k := by
  have hperm : (shuffle draw k 0 s pool.toArray).toList.Perm pool := shuffle_perm k 0 s _
  rw [sample, List.length_take, hperm.length_eq, Nat.min_eq_left h]

theorem nodup_sample {pool : List α} (h : pool.Nodup) (k : ℕ) (s : σ) :
    (sample draw k s pool).Nodup := by
  have hperm : (shuffle draw k 0 s pool.toArray).toList.Perm pool := shuffle_perm k 0 s _
  exact (hperm.nodup_iff.mpr h).sublist (List.take_sublist k _)

end Sampling
