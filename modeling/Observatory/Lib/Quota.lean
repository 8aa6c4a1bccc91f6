import Mathlib.Data.List.Nodup
import Mathlib.Data.List.Perm.Subperm

/-!
# Selection under caps

Elements are offered one after the other, and each is accepted unless a cap on
the elements of its class is full.

* `greedy` — the elements accepted of a list, behind those accepted before.
* `Within.append_greedy` — no class ever has more than its cap allows.
* `mem_greedy_iff` — an element is turned down exactly when a cap is full as it is reached.
* `length_le_of_within` — in any order, with `n` caps, at least the `n`-th part of any selection
  that keeps to the caps.
-/

namespace Quota

variable {α κ : Type*} [DecidableEq κ]

/-- At most `limit` elements of one class. -/
structure Cap (α κ : Type*) where
  /-- The class of an element. -/
  key : α → κ
  /-- How many of one class are accepted. -/
  limit : ℕ

namespace Cap

/-- How many of a class are accepted. -/
def used (cap : Cap α κ) (accepted : List α) (k : κ) : ℕ :=
  accepted.countP (fun a => cap.key a = k)

/-- There is no room for another element of this class. -/
def Full (cap : Cap α κ) (accepted : List α) (a : α) : Prop :=
  cap.limit ≤ cap.used accepted (cap.key a)

instance (cap : Cap α κ) (accepted : List α) (a : α) : Decidable (cap.Full accepted a) :=
  inferInstanceAs (Decidable (_ ≤ _))

theorem used_append (cap : Cap α κ) (l l' : List α) (k : κ) :
    cap.used (l ++ l') k = cap.used l k + cap.used l' k := List.countP_append

theorem used_singleton (cap : Cap α κ) (a : α) (k : κ) :
    cap.used [a] k = if cap.key a = k then 1 else 0 := by
  rw [used, List.countP_singleton]
  simp only [decide_eq_true_eq]

end Cap

/-- The elements accepted of a list, where others were accepted before. -/
def greedy (caps : List (Cap α κ)) : List α → List α → List α
  | _, [] => []
  | before, a :: l =>
      if ∃ cap ∈ caps, cap.Full before a then greedy caps before l
      else a :: greedy caps (before ++ [a]) l

/-- No class has more than its cap allows. -/
def Within (caps : List (Cap α κ)) (accepted : List α) : Prop :=
  ∀ cap ∈ caps, ∀ k, cap.used accepted k ≤ cap.limit

variable {caps : List (Cap α κ)} {before : List α}

theorem within_nil : Within caps [] := fun _ _ _ => Nat.zero_le _

/-- An element for which there is room. -/
theorem Within.snoc (h : Within caps before) {a : α}
    (ha : ¬ ∃ cap ∈ caps, cap.Full before a) : Within caps (before ++ [a]) := by
  intro cap hcap k
  rw [cap.used_append, cap.used_singleton]
  split
  · next hk =>
    subst hk
    have hroom : ¬ cap.limit ≤ cap.used before (cap.key a) := fun hfull => ha ⟨cap, hcap, hfull⟩
    exact Nat.lt_of_not_le hroom
  · exact h cap hcap k

/-- **The caps hold.** -/
theorem Within.append_greedy (h : Within caps before) (l : List α) :
    Within caps (before ++ greedy caps before l) := by
  induction l generalizing before with
  | nil =>
      rw [greedy, List.append_nil]
      exact h
  | cons a l ih =>
      rw [greedy]
      split
      · exact ih h
      · next ha =>
        have hnext := ih (h.snoc ha)
        rwa [List.append_assoc, List.singleton_append] at hnext

/-- Two lists are gone through one behind the other. -/
theorem greedy_append (l l' : List α) : greedy caps before (l ++ l')
    = greedy caps before l ++ greedy caps (before ++ greedy caps before l) l' := by
  induction l generalizing before with
  | nil => rw [List.nil_append, greedy, List.nil_append, List.append_nil]
  | cons a l ih =>
      rw [List.cons_append, greedy, greedy]
      split
      · exact ih
      · rw [ih, List.cons_append, List.append_assoc, List.singleton_append]

/-- What is accepted was offered. -/
theorem greedy_sublist (l : List α) : (greedy caps before l).Sublist l := by
  induction l generalizing before with
  | nil => exact List.Sublist.slnil
  | cons a l ih =>
      rw [greedy]
      split
      · exact ih.cons a
      · exact ih.cons_cons a

/-- **What is turned down.**  An element that is offered once is accepted unless, when it is
reached, a cap is full. -/
theorem mem_greedy_iff {pre post : List α} {a : α} (hnodup : (pre ++ a :: post).Nodup) :
    a ∈ greedy caps before (pre ++ a :: post) ↔
      ¬ ∃ cap ∈ caps, cap.Full (before ++ greedy caps before pre) a := by
  have hmiddle : (a :: (pre ++ post)).Nodup := List.nodup_middle.mp hnodup
  have honce : a ∉ pre ++ post := (List.nodup_cons.mp hmiddle).1
  have hpre : a ∉ greedy caps before pre := fun h =>
    honce (List.mem_append_left _ ((greedy_sublist pre).subset h))
  have hpost : ∀ before', a ∉ greedy caps before' post := fun before' h =>
    honce (List.mem_append_right _ ((greedy_sublist post).subset h))
  rw [greedy_append, List.mem_append, greedy]
  split
  · next hfull =>
    constructor
    · rintro (h | h)
      · exact absurd h hpre
      · exact absurd h (hpost _)
    · intro h
      exact absurd hfull h
  · next hroom =>
    constructor
    · intro _
      exact hroom
    · intro _
      exact .inr List.mem_cons_self

/-! ## Against any other selection -/

namespace Cap

variable {cap : Cap α κ}

theorem Full.append {accepted : List α} {a : α} (h : cap.Full accepted a) (l : List α) :
    cap.Full (accepted ++ l) a := by
  rw [Full, cap.used_append]
  exact Nat.le_add_right_of_le h

/-- Lists are compared class by class. -/
theorem length_le_of_used {l l' : List α}
    (h : ∀ a ∈ l, cap.used l (cap.key a) ≤ cap.used l' (cap.key a)) : l.length ≤ l'.length := by
  have hcount : ∀ (m : List α) (k : κ), (m.map cap.key).count k = cap.used m k := by
    intro m k
    rw [List.count_eq_countP, List.countP_map]
    rfl
  have hsub : (l.map cap.key).Subperm (l'.map cap.key) := by
    refine List.subperm_ext_iff.mpr fun k hk => ?_
    obtain ⟨a, ha, rfl⟩ := List.mem_map.mp hk
    rw [hcount, hcount]
    exact h a ha
  simpa using hsub.length_le

/-- The elements of two lists that both have. -/
theorem filter_mem_perm [DecidableEq α] {l l' : List α} (h : l.Nodup) (h' : l'.Nodup) :
    (l.filter (· ∈ l')).Perm (l'.filter (· ∈ l)) := by
  refine (List.perm_ext_iff_of_nodup (h.filter _) (h'.filter _)).mpr fun a => ?_
  simp [and_comm]

/-- Where a cap is full, what a selection under it has beyond `accepted` is made up for by what
`accepted` has beyond the selection. -/
theorem countP_full_le [DecidableEq α] {before accepted selected : List α}
    (ha : accepted.Nodup) (hs : selected.Nodup)
    (hwithin : ∀ k, cap.used (before ++ selected) k ≤ cap.limit) :
    selected.countP (fun a => a ∉ accepted ∧ cap.Full (before ++ accepted) a)
      ≤ accepted.countP (· ∉ selected) := by
  rw [List.countP_eq_length_filter, List.countP_eq_length_filter]
  refine cap.length_le_of_used fun a hmem => ?_
  obtain ⟨-, hfull⟩ := List.mem_filter.mp hmem
  have hroom : cap.limit ≤ cap.used (before ++ accepted) (cap.key a) :=
    (of_decide_eq_true hfull).2
  have hlimit := hwithin (cap.key a)
  rw [cap.used_append] at hroom hlimit
  have hselected : cap.used selected (cap.key a)
      = cap.used (selected.filter (· ∈ accepted)) (cap.key a)
        + cap.used (selected.filter (fun b => !decide (b ∈ accepted))) (cap.key a) :=
    List.countP_eq_countP_filter_add _ _ _
  have haccepted : cap.used accepted (cap.key a)
      = cap.used (accepted.filter (· ∈ selected)) (cap.key a)
        + cap.used (accepted.filter (fun b => !decide (b ∈ selected))) (cap.key a) :=
    List.countP_eq_countP_filter_add _ _ _
  have hshared : cap.used (selected.filter (· ∈ accepted)) (cap.key a)
      = cap.used (accepted.filter (· ∈ selected)) (cap.key a) :=
    (filter_mem_perm hs ha).countP_eq _
  have hsublist :
      (selected.filter (fun b => b ∉ accepted ∧ cap.Full (before ++ accepted) b)).Sublist
      (selected.filter (fun b => !decide (b ∈ accepted))) :=
    List.monotone_filter_right _ fun b hb => by
      simpa using (of_decide_eq_true hb).1
  have hfewer := hsublist.countP_le (p := fun b => decide (cap.key b = cap.key a))
  simp only [decide_not] at hfewer ⊢
  exact Nat.le_trans hfewer (by simp only [used] at *; omega)

end Cap

/-- Elements are counted at least once where each is of one of two kinds. -/
theorem countP_le_add {p q r : α → Bool} (l : List α) (h : ∀ a, r a → p a ∨ q a) :
    l.countP r ≤ l.countP p + l.countP q := by
  induction l with
  | nil => exact Nat.le_refl _
  | cons a l ih =>
      rw [List.countP_cons, List.countP_cons, List.countP_cons]
      by_cases hr : r a = true
      · rcases h a hr with hp | hq
        · rw [if_pos hr, if_pos hp]
          omega
        · rw [if_pos hr, if_pos hq]
          omega
      · rw [if_neg hr]
        omega

/-- What is not accepted finds a cap full in the end. -/
theorem exists_full_of_not_mem {l : List α} {a : α} (ha : a ∈ l)
    (hnot : a ∉ greedy caps before l) :
    ∃ cap ∈ caps, cap.Full (before ++ greedy caps before l) a := by
  induction l generalizing before with
  | nil => exact absurd ha List.not_mem_nil
  | cons b l ih =>
      rw [greedy] at hnot ⊢
      by_cases hfull : ∃ cap ∈ caps, cap.Full before b
      · rw [if_pos hfull] at hnot ⊢
        rcases List.mem_cons.mp ha with rfl | ha
        · obtain ⟨cap, hcap, hfull⟩ := hfull
          exact ⟨cap, hcap, hfull.append _⟩
        · exact ih ha hnot
      · rw [if_neg hfull] at hnot ⊢
        obtain ⟨hne, hnot⟩ := not_or.mp (fun h => hnot (List.mem_cons.mpr h))
        have hlater := ih ((List.mem_cons.mp ha).resolve_left hne) hnot
        rwa [List.append_assoc, List.singleton_append] at hlater

/-- What a selection that keeps to the caps has beyond the accepted elements. -/
theorem countP_not_mem_le [DecidableEq α] {l selected : List α} (hl : l.Nodup)
    (hs : selected.Nodup) (hsub : ∀ a ∈ selected, a ∈ l)
    (hwithin : Within caps (before ++ selected)) :
    selected.countP (· ∉ greedy caps before l)
      ≤ caps.length * (greedy caps before l).countP (· ∉ selected) := by
  have hnodup : (greedy caps before l).Nodup := hl.sublist (greedy_sublist l)
  -- each cap is charged with the elements it turned down
  have hcharged : ∀ charged : List (Cap α κ), (∀ cap ∈ charged, cap ∈ caps) →
      selected.countP (fun a => a ∉ greedy caps before l ∧
        ∃ cap ∈ charged, cap.Full (before ++ greedy caps before l) a)
      ≤ charged.length * (greedy caps before l).countP (· ∉ selected) := by
    intro charged
    induction charged with
    | nil => simp
    | cons cap charged ih =>
        intro hcharged
        have hfirst := cap.countP_full_le hnodup hs (hwithin cap (hcharged cap List.mem_cons_self))
        have hlater := ih fun cap' hcap' => hcharged cap' (List.mem_cons_of_mem _ hcap')
        rw [List.length_cons, Nat.succ_mul, Nat.add_comm]
        refine Nat.le_trans (countP_le_add selected fun a ha => ?_) (Nat.add_le_add hfirst hlater)
        obtain ⟨hnot, cap', hcap', hfull⟩ := of_decide_eq_true ha
        rcases List.mem_cons.mp hcap' with rfl | hcap'
        · exact .inl (decide_eq_true ⟨hnot, hfull⟩)
        · exact .inr (decide_eq_true ⟨hnot, cap', hcap', hfull⟩)
  refine Nat.le_trans (List.countP_mono_left fun a ha hnot => ?_) (hcharged caps fun _ h => h)
  have hnot' : a ∉ greedy caps before l := of_decide_eq_true hnot
  exact decide_eq_true ⟨hnot', exists_full_of_not_mem (hsub a ha) hnot'⟩

/-- **In any order**, the accepted elements are at least the `n`-th part of any selection that
keeps to the `n` caps. -/
theorem length_le_of_within (hcaps : caps ≠ []) {l selected : List α} (hl : l.Nodup)
    (hs : selected.Nodup) (hsub : ∀ a ∈ selected, a ∈ l)
    (hwithin : Within caps (before ++ selected)) :
    selected.length ≤ caps.length * (greedy caps before l).length := by
  classical
  have hnodup : (greedy caps before l).Nodup := hl.sublist (greedy_sublist l)
  have hbeyond := countP_not_mem_le hl hs hsub hwithin
  have hshared : selected.countP (· ∈ greedy caps before l)
      = (greedy caps before l).countP (· ∈ selected) := by
    rw [List.countP_eq_length_filter, List.countP_eq_length_filter]
    exact (Cap.filter_mem_perm hs hnodup).length_eq
  have hselected := List.length_eq_countP_add_countP (l := selected)
    (fun a => decide (a ∈ greedy caps before l))
  have haccepted := List.length_eq_countP_add_countP (l := greedy caps before l)
    (fun a => decide (a ∈ selected))
  have hpos : 1 ≤ caps.length := List.length_pos_iff.mpr hcaps
  simp only [decide_eq_true_eq, decide_not] at *
  rw [hselected, haccepted, hshared, Nat.mul_add]
  exact Nat.add_le_add (Nat.le_mul_of_pos_left _ hpos) hbeyond

end Quota
