import Mathlib.Data.List.Sort
import Mathlib.Order.Bounds.Basic

/-!
# Stable rankings

A list put in order of a key, the greatest first, where elements of equal key
keep the order they had.

* `IsRanking` — a list is the ranking of another.
* `isRanking_insertionSort` — insertion sort ranks.
* `insertionSort_flag` — sorting by a flag is a stable partition.
* `insertionSort_eq_of_perm` — permutations sort alike by a key without ties.
* `IsRanking.perm_of_perm`, `IsRanking.map_key_eq` — the rankings of two permutations
  are permutations, and show the same keys in the same order.
-/

namespace Ranking

variable {α κ : Type*} [LinearOrder κ]

/-- `ranked` is `l` in order of `key`, the greatest first, ties as they stood. -/
structure IsRanking (key : α → κ) (l ranked : List α) : Prop where
  /-- Nothing is lost and nothing is repeated. -/
  perm : ranked.Perm l
  /-- The greatest key comes first. -/
  sorted : ranked.Pairwise (fun a b => key b ≤ key a)
  /-- Elements of one key stand in the order they had. -/
  stable : ∀ k, ranked.filter (fun a => key a = k) = l.filter (fun a => key a = k)

/-- Sorting keeps in order what was in order. -/
theorem filter_insertionSort {r : α → α → Prop} [DecidableRel r] [Std.Total r] [IsTrans α r]
    {p : α → Bool} (l : List α) (h : ∀ a b, p a = true → p b = true → r a b) :
    (l.insertionSort r).filter p = l.filter p := by
  have hpairwise : (l.filter p).Pairwise r := by
    rw [List.pairwise_iff_forall_sublist]
    intro a b hab
    have ha : a ∈ l.filter p := hab.subset (by simp)
    have hb : b ∈ l.filter p := hab.subset (by simp)
    exact h a b (List.mem_filter.mp ha).2 (List.mem_filter.mp hb).2
  have hsub : (l.filter p).Sublist ((l.insertionSort r).filter p) := by
    have := (List.sublist_insertionSort hpairwise List.filter_sublist).filter p
    rwa [List.filter_filter, List.filter_congr (fun _ _ => Bool.and_self _)] at this
  have hlen : (l.filter p).length = ((l.insertionSort r).filter p).length :=
    ((List.perm_insertionSort r l).filter p).length_eq.symm
  exact (hsub.eq_of_length hlen).symm

/-- A list in order of a flag has the unset ones first. -/
theorem eq_filter_append_filter {flag : α → Bool} {l : List α}
    (h : l.Pairwise (fun a b => flag a ≤ flag b)) :
    l = l.filter (fun a => !flag a) ++ l.filter flag := by
  induction l with
  | nil => rfl
  | cons a l ih =>
      obtain ⟨hfirst, hrest⟩ := List.pairwise_cons.mp h
      cases ha : flag a with
      | false =>
          have hold := ih hrest
          rw [List.filter_cons_of_pos (by simp [ha]), List.filter_cons_of_neg (by simp [ha]),
            List.cons_append, ← hold]
      | true =>
          -- nothing unset can follow
          have hset : ∀ b ∈ a :: l, flag b = true := by
            intro b hb
            rcases List.mem_cons.mp hb with rfl | hb
            · exact ha
            · have hle := hfirst b hb
              rw [ha] at hle
              exact Bool.eq_true_of_true_le hle
          rw [List.filter_eq_self.mpr hset, List.filter_eq_nil_iff.mpr, List.nil_append]
          intro b hb
          simp [hset b hb]

/-- **Sorting by a flag** is a stable partition. -/
theorem insertionSort_flag (flag : α → Bool) (l : List α) :
    l.insertionSort (fun a b => flag a ≤ flag b)
      = l.filter (fun a => !flag a) ++ l.filter flag := by
  have htotal : Std.Total (fun a b : α => flag a ≤ flag b) :=
    ⟨fun a b => le_total (flag a) (flag b)⟩
  have htrans : IsTrans α (fun a b => flag a ≤ flag b) := ⟨fun _ _ _ hab hbc => hab.trans hbc⟩
  rw [eq_filter_append_filter (List.pairwise_insertionSort _ l), filter_insertionSort,
    filter_insertionSort]
  · intro a b ha hb
    rw [ha, hb]
  · intro a b ha hb
    rw [Bool.not_eq_true'] at ha hb
    rw [ha, hb]

/-- **Insertion sort ranks.** -/
theorem isRanking_insertionSort (key : α → κ) (l : List α) :
    IsRanking key l (l.insertionSort (fun a b => key b ≤ key a)) := by
  have htotal : Std.Total (fun a b : α => key b ≤ key a) := ⟨fun a b => le_total (key b) (key a)⟩
  have htrans : IsTrans α (fun a b => key b ≤ key a) := ⟨fun _ _ _ hab hbc => hbc.trans hab⟩
  refine ⟨List.perm_insertionSort _ l, List.pairwise_insertionSort _ l, ?_⟩
  intro k
  apply filter_insertionSort
  intro a b ha hb
  rw [decide_eq_true_eq] at ha hb
  rw [ha, hb]

/-- **Permutations sort alike** by a key that tells their elements apart. -/
theorem insertionSort_eq_of_perm {key : α → κ} [DecidableRel (fun a b => key a ≤ key b)]
    {l l' : List α} (hperm : l.Perm l') (hkey : ∀ a ∈ l, ∀ b ∈ l, key a = key b → a = b) :
    l.insertionSort (fun a b => key a ≤ key b) = l'.insertionSort (fun a b => key a ≤ key b) := by
  have htotal : Std.Total (fun a b : α => key a ≤ key b) := ⟨fun a b => le_total (key a) (key b)⟩
  have htrans : IsTrans α (fun a b => key a ≤ key b) := ⟨fun _ _ _ hab hbc => hab.trans hbc⟩
  have hsorted : (l.insertionSort (fun a b => key a ≤ key b)).Perm
      (l'.insertionSort (fun a b => key a ≤ key b)) :=
    (List.perm_insertionSort _ l).trans (hperm.trans (List.perm_insertionSort _ l').symm)
  refine hsorted.eq_of_pairwise ?_ (List.pairwise_insertionSort _ l)
    (List.pairwise_insertionSort _ l')
  intro a b ha hb hab hba
  refine hkey a ((List.perm_insertionSort _ l).subset ha) b ?_ (le_antisymm hab hba)
  exact hperm.symm.subset ((List.perm_insertionSort _ l').subset hb)

namespace IsRanking

variable {key : α → κ} {l l' ranked ranked' : List α}

/-- The keys of a ranking, greatest first. -/
theorem sorted_map (h : IsRanking key l ranked) :
    (ranked.map key).Pairwise (fun a b => b ≤ a) := by
  rw [List.pairwise_map]
  exact h.sorted

/-- The first key is the greatest one. -/
theorem isGreatest_head {a : α} (h : IsRanking key l ranked) (ha : ranked.head? = some a) :
    IsGreatest {k | ∃ b ∈ ranked, key b = k} (key a) := by
  cases ranked with
  | nil => cases ha
  | cons first rest =>
      obtain rfl := Option.some.inj ha
      refine ⟨⟨first, List.mem_cons_self, rfl⟩, ?_⟩
      rintro k ⟨b, hb, rfl⟩
      rcases List.mem_cons.mp hb with rfl | hrest
      · exact le_refl _
      · exact (List.pairwise_cons.mp h.sorted).1 b hrest

/-- Rankings of permutations are permutations. -/
theorem perm_of_perm (h : IsRanking key l ranked) (h' : IsRanking key l' ranked')
    (hperm : l.Perm l') : ranked.Perm ranked' := h.perm.trans (hperm.trans h'.perm.symm)

/-- Rankings of permutations show the same keys, in the same order. -/
theorem map_key_eq (h : IsRanking key l ranked) (h' : IsRanking key l' ranked')
    (hperm : l.Perm l') : ranked.map key = ranked'.map key := by
  have hkeys : (ranked.map key).Perm (ranked'.map key) := (h.perm_of_perm h' hperm).map key
  exact hkeys.eq_of_pairwise (fun _ _ _ _ hab hba => le_antisymm hba hab)
    h.sorted_map h'.sorted_map

end IsRanking

end Ranking
