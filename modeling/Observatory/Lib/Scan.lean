import Mathlib.Data.List.Basic
import Mathlib.Data.List.Induction
import Mathlib.Data.List.Nodup

/-!
# Scanning lists

Facts about programs that walk a list once and keep something of it: which
element a first-match search returns, how the survivors of a partial decoding
line up with the elements they came from, and what an index added along the way
means afterwards.

* `findSome?_filter_eq_some` — a first-match search behind a filter, and `find?_of_least`
  in a sorted list.
* `filterMap_mapIdx`, `map_find?_mapIdx` and `nodup_filterMap_zipIdx` — filtering and
  searching after numbering.
* `distinct` — the distinct elements of a list in order of first appearance
  (`FirstAppearances`), and `distinct_eq_singleton` for a list that names one element
  only.
* `ReadablePrefix` and `filterMap_aligned_iff` — the survivors of a partial
  decoding keep their positions exactly when nothing unreadable precedes a
  survivor.
-/

namespace Scan

variable {α β γ : Type*}

/-! ## First-match searches -/

/-- Searching what survives a filter is one search with both conditions. -/
theorem findSome?_filter_eq_some {p : α → Bool} {f : α → Option β} {l : List α} {b : β} :
    (l.filter p).findSome? f = some b ↔
      ∃ a, l.find? (fun a => p a && (f a).isSome) = some a ∧ f a = some b := by
  induction l with
  | nil => simp
  | cons a l ih =>
      by_cases hp : p a = true
      · rw [List.filter_cons_of_pos hp, List.findSome?_cons, List.find?_cons]
        cases hf : f a with
        | none => simp [hp, ih]
        | some b' =>
            simp only [hp, Option.isSome_some, Bool.and_true, Option.some.injEq]
            constructor
            · rintro rfl
              exact ⟨a, rfl, hf⟩
            · rintro ⟨a', rfl, hf'⟩
              rw [hf] at hf'
              exact Option.some.inj hf'
      · rw [List.filter_cons_of_neg hp, ih, List.find?_cons]
        simp [hp]

/-- A filter that only drops what a search passes over does not change the search. -/
theorem findSome?_filter_of_none {p : α → Bool} {f : α → Option β} (l : List α)
    (h : ∀ a, p a = false → f a = none) : (l.filter p).findSome? f = l.findSome? f := by
  induction l with
  | nil => rfl
  | cons a l ih =>
      cases hp : p a with
      | true => rw [List.filter_cons_of_pos hp, List.findSome?_cons, List.findSome?_cons, ih]
      | false =>
          rw [List.filter_cons_of_neg (by simp [hp]), ih, List.findSome?_cons, h a hp]

/-- In a sorted list a search that accepts the least element finds it. -/
theorem find?_of_least {r : α → α → Prop} (hanti : ∀ a b, r a b → r b a → a = b) {l : List α}
    (hsorted : l.Pairwise r) {a : α} (ha : a ∈ l) (hleast : ∀ b ∈ l, r a b) {q : α → Bool}
    (hq : q a = true) : l.find? q = some a := by
  cases l with
  | nil => cases ha
  | cons b l =>
      obtain rfl : a = b := by
        rcases List.mem_cons.mp ha with rfl | hlater
        · rfl
        · exact hanti a b (hleast b List.mem_cons_self) ((List.pairwise_cons.mp hsorted).1 a hlater)
      exact List.find?_cons_of_pos hq

/-! ## Numbering -/

/-- Numbering a list and then forgetting the numbers. -/
theorem filterMap_mapIdx {l : List α} {f : ℕ → α → β} {g : β → Option γ} {h : α → Option γ}
    (hg : ∀ i x, l[i]? = some x → g (f i x) = h x) :
    (l.mapIdx f).filterMap g = l.filterMap h := by
  rw [List.mapIdx_eq_zipIdx_map, List.filterMap_map]
  have hfst : l.filterMap h = l.zipIdx.filterMap (fun p => h p.1) := by
    conv_lhs => rw [← List.zipIdx_map_fst 0 l, List.filterMap_map]
    rfl
  rw [hfst]
  apply List.filterMap_congr
  rintro ⟨x, i⟩ hx
  exact hg i x (List.mem_zipIdx_iff_getElem?.mp hx)

theorem mem_mapIdx_iff {l : List α} {f : ℕ → α → β} {b : β} :
    b ∈ l.mapIdx f ↔ ∃ i x, l[i]? = some x ∧ f i x = b := by
  rw [List.mem_mapIdx]
  constructor
  · rintro ⟨i, hi, rfl⟩
    exact ⟨i, l[i], List.getElem?_eq_getElem hi, rfl⟩
  · rintro ⟨i, x, hx, rfl⟩
    obtain ⟨hi, rfl⟩ := List.getElem?_eq_some_iff.mp hx
    exact ⟨i, hi, rfl⟩

/-- What is kept of a numbered list has no duplicates when it tells the numbers apart. -/
theorem nodup_filterMap_zipIdx {f : α × ℕ → Option β} (l : List α)
    (hf : ∀ a i a' j b, i < l.length → j < l.length → f (a, i) = some b → f (a', j) = some b →
      i = j) : (l.zipIdx.filterMap f).Nodup := by
  have hlt : l.zipIdx.Pairwise (fun p q => p.2 < q.2) := by
    rw [← List.pairwise_map (f := Prod.snd), List.zipIdx_map_snd]
    exact List.pairwise_lt_range'
  rw [List.Nodup, List.pairwise_filterMap]
  apply hlt.imp_of_mem
  rintro ⟨a, i⟩ ⟨a', j⟩ hi hj hij b hb b' hb' rfl
  have hi' : i < l.length :=
    (List.getElem?_eq_some_iff.mp (List.mem_zipIdx_iff_getElem?.mp hi)).1
  have hj' : j < l.length :=
    (List.getElem?_eq_some_iff.mp (List.mem_zipIdx_iff_getElem?.mp hj)).1
  have heq := hf a i a' j b hi' hj' hb hb'
  omega

/-- A search through a numbered list that does not look at the numbers. -/
theorem map_find?_mapIdx {l : List α} {f : ℕ → α → β} {p : β → Bool} {q : α → Bool}
    {g : β → γ} {k : α → γ} (hp : ∀ i a, p (f i a) = q a) (hg : ∀ i a, g (f i a) = k a) :
    ((l.mapIdx f).find? p).map g = (l.find? q).map k := by
  induction l generalizing f with
  | nil => rfl
  | cons a l ih =>
      rw [List.mapIdx_cons, List.find?_cons, List.find?_cons, hp]
      cases q a with
      | true => simp [hg]
      | false => exact ih (fun i => hp (i + 1)) (fun i => hg (i + 1))

/-- What is found at a position behind a partial map comes from an element, with as many
found before it. -/
theorem getElem?_filterMap {l : List α} {f : α → Option β} {i : ℕ} {b : β}
    (h : (l.filterMap f)[i]? = some b) :
    ∃ p a, l[p]? = some a ∧ f a = some b ∧ ((l.take p).filterMap f).length = i := by
  induction l generalizing i with
  | nil => simp at h
  | cons a l ih =>
      cases ha : f a with
      | none =>
          rw [List.filterMap_cons_none ha] at h
          obtain ⟨p, a', hp, hf, hlen⟩ := ih h
          refine ⟨p + 1, a', hp, hf, ?_⟩
          rwa [List.take_succ_cons, List.filterMap_cons_none ha]
      | some b₀ =>
          rw [List.filterMap_cons_some ha] at h
          cases i with
          | zero =>
              obtain rfl := Option.some.inj h
              exact ⟨0, a, rfl, ha, rfl⟩
          | succ i =>
              obtain ⟨p, a', hp, hf, hlen⟩ := ih h
              refine ⟨p + 1, a', hp, hf, ?_⟩
              rw [List.take_succ_cons, List.filterMap_cons_some ha, List.length_cons, hlen]

/-! ## Survivors of a partial decoding -/

/-- Nothing that can be read comes after something that cannot. -/
def ReadablePrefix (f : α → Option β) (l : List α) : Prop :=
  ∀ pre a post, l = pre ++ a :: post → f a = none → ∀ x ∈ post, f x = none

theorem readablePrefix_nil (f : α → Option β) : ReadablePrefix f [] := by
  rintro (_ | ⟨_, _⟩) a post h
  · cases h
  · cases h

theorem readablePrefix_cons {f : α → Option β} {a : α} {l : List α} :
    ReadablePrefix f (a :: l) ↔ (f a = none → ∀ x ∈ l, f x = none) ∧ ReadablePrefix f l := by
  constructor
  · intro h
    refine ⟨h [] a l rfl, ?_⟩
    intro pre b post hl
    exact h (a :: pre) b post (by rw [hl, List.cons_append])
  · rintro ⟨hfirst, hrest⟩ pre b post hl
    cases pre with
    | nil =>
        obtain ⟨rfl, rfl⟩ := List.cons.inj hl
        exact hfirst
    | cons c pre =>
        obtain ⟨-, rfl⟩ := List.cons.inj hl
        exact hrest pre b post rfl

/-- Where the first element cannot be read, survivors keep their positions only when there
are none. -/
theorem filterMap_aligned_cons_none {f : α → Option β} {a : α} {l : List α} (ha : f a = none) :
    (∀ (i : ℕ) (b : β), (l.filterMap f)[i]? = some b →
        ∃ a', (a :: l)[i]? = some a' ∧ f a' = some b) ↔ ∀ x ∈ l, f x = none := by
  rw [← List.filterMap_eq_nil_iff]
  constructor
  · intro h
    cases hl : l.filterMap f with
    | nil => rfl
    | cons b rest =>
        -- a survivor would stand first
        obtain ⟨a', ha', hb⟩ := h 0 b (by rw [hl]; rfl)
        obtain rfl := Option.some.inj ha'
        rw [ha] at hb
        cases hb
  · intro hnil i b h
    rw [hnil] at h
    simp at h

/-- Where it can be read, they do when the survivors of the rest keep theirs. -/
theorem filterMap_aligned_cons_some {f : α → Option β} {a : α} {b₀ : β} {l : List α}
    (ha : f a = some b₀) :
    (∀ (i : ℕ) (b : β), (b₀ :: l.filterMap f)[i]? = some b →
        ∃ a', (a :: l)[i]? = some a' ∧ f a' = some b) ↔
      ∀ (i : ℕ) (b : β), (l.filterMap f)[i]? = some b → ∃ a', l[i]? = some a' ∧ f a' = some b := by
  constructor
  · intro h i b hi
    exact h (i + 1) b hi
  · intro h i b hi
    cases i with
    | zero =>
        obtain rfl := Option.some.inj hi
        exact ⟨a, rfl, ha⟩
    | succ i => exact h i b hi

/-- **Survivors keep their positions** exactly when nothing unreadable precedes one. -/
theorem filterMap_aligned_iff {f : α → Option β} {l : List α} :
    (∀ (i : ℕ) (b : β), (l.filterMap f)[i]? = some b → ∃ a, l[i]? = some a ∧ f a = some b) ↔
      ReadablePrefix f l := by
  induction l with
  | nil =>
      refine iff_of_true ?_ (readablePrefix_nil f)
      intro i b h
      simp at h
  | cons a l ih =>
      rw [readablePrefix_cons]
      cases ha : f a with
      | none =>
          rw [List.filterMap_cons_none ha, filterMap_aligned_cons_none ha]
          constructor
          · intro hnone
            refine ⟨fun _ => hnone, ?_⟩
            rintro pre c post rfl - x hx
            exact hnone x (by simp [hx])
          · rintro ⟨hnone, -⟩
            exact hnone rfl
      | some b₀ =>
          rw [List.filterMap_cons_some ha, filterMap_aligned_cons_some ha, ih]
          simp

/-! ## Distinct elements -/

section Distinct

variable [DecidableEq α]

/-- Add an element at the end, unless it is there already. -/
def pushNew (acc : List α) (a : α) : List α := if a ∈ acc then acc else acc ++ [a]

/-- The distinct elements of a list, in order of first appearance. -/
def distinct (l : List α) : List α := l.foldl pushNew []

theorem mem_pushNew {acc : List α} {a x : α} : x ∈ pushNew acc a ↔ x ∈ acc ∨ x = a := by
  unfold pushNew
  split
  · next h =>
    constructor
    · exact Or.inl
    · rintro (hx | rfl)
      · exact hx
      · exact h
  · simp

theorem nodup_pushNew {acc : List α} (h : acc.Nodup) (a : α) : (pushNew acc a).Nodup := by
  unfold pushNew
  split
  · exact h
  · next ha =>
    rw [List.nodup_append]
    refine ⟨h, by simp, ?_⟩
    intro x hx y hy
    obtain rfl := List.mem_singleton.mp hy
    rintro rfl
    exact ha hx

/-- The new element is there once. -/
theorem filter_beq_pushNew {acc : List α} (h : acc.Nodup) (a : α) :
    (pushNew acc a).filter (· == a) = [a] := by
  have ha : a ∈ pushNew acc a := mem_pushNew.mpr (Or.inr rfl)
  rw [List.filter_beq, List.count_eq_one_of_mem (nodup_pushNew h a) ha, List.replicate_one]

/-- The elements before the new one are as they were. -/
theorem filter_bne_pushNew (acc : List α) (a : α) :
    (pushNew acc a).filter (· != a) = acc.filter (· != a) := by
  unfold pushNew
  split
  · rfl
  · rw [List.filter_append]
    simp

theorem mem_foldl_pushNew {l acc : List α} {x : α} :
    x ∈ l.foldl pushNew acc ↔ x ∈ acc ∨ x ∈ l := by
  induction l generalizing acc with
  | nil => simp
  | cons a l ih => rw [List.foldl_cons, ih, mem_pushNew, List.mem_cons, or_assoc]

@[simp] theorem mem_distinct {l : List α} {x : α} : x ∈ distinct l ↔ x ∈ l := by
  rw [distinct, mem_foldl_pushNew]
  simp

theorem nodup_distinct (l : List α) : (distinct l).Nodup := by
  have h : ∀ acc : List α, acc.Nodup → (l.foldl pushNew acc).Nodup := by
    induction l with
    | nil => exact fun _ hacc => hacc
    | cons a l ih => exact fun acc hacc => ih _ (nodup_pushNew hacc a)
  exact h [] List.nodup_nil

@[simp] theorem distinct_eq_nil {l : List α} : distinct l = [] ↔ l = [] := by
  constructor
  · intro h
    rw [List.eq_nil_iff_forall_not_mem] at h ⊢
    intro x hx
    exact h x (mem_distinct.mpr hx)
  · rintro rfl
    rfl

/-- A list has one distinct element exactly when it is not empty and repeats it. -/
theorem distinct_eq_singleton {l : List α} {c : α} :
    distinct l = [c] ↔ c ∈ l ∧ ∀ x ∈ l, x = c := by
  constructor
  · intro h
    refine ⟨mem_distinct.mp (h ▸ List.mem_singleton_self c), ?_⟩
    intro x hx
    have := mem_distinct.mpr hx
    rw [h] at this
    exact List.mem_singleton.mp this
  · rintro ⟨hc, hall⟩
    cases hd : distinct l with
    | nil =>
        rw [distinct_eq_nil] at hd
        simp [hd] at hc
    | cons a rest =>
        have ha : ∀ x ∈ a :: rest, x = c := fun x hx => hall x (mem_distinct.mp (hd ▸ hx))
        cases rest with
        | nil => rw [ha a List.mem_cons_self]
        | cons b rest =>
            have hnodup := nodup_distinct l
            rw [hd, ha a (by simp), ha b (by simp)] at hnodup
            simp at hnodup

/-- `firsts` lists the elements of `l`, each once, in the order in which they first appear. -/
structure FirstAppearances (l firsts : List α) : Prop where
  nodup : firsts.Nodup
  mem_iff : ∀ x, x ∈ firsts ↔ x ∈ l
  ordered : firsts.Pairwise (fun a b => l.idxOf a < l.idxOf b)

/-- One more element at the end comes after everything that is there. -/
theorem FirstAppearances.push {l firsts : List α} (h : FirstAppearances l firsts) (a : α) :
    FirstAppearances (l ++ [a]) (pushNew firsts a) where
  nodup := nodup_pushNew h.nodup a
  mem_iff x := by rw [mem_pushNew, h.mem_iff, List.mem_append, List.mem_singleton]
  ordered := by
    have hold : firsts.Pairwise (fun x y => (l ++ [a]).idxOf x < (l ++ [a]).idxOf y) := by
      apply h.ordered.imp_of_mem
      intro x y hx hy hxy
      rwa [List.idxOf_append_of_mem ((h.mem_iff x).mp hx),
        List.idxOf_append_of_mem ((h.mem_iff y).mp hy)]
    unfold pushNew
    split
    · exact hold
    · next hnew =>
      rw [List.pairwise_append]
      refine ⟨hold, List.pairwise_singleton _ _, ?_⟩
      intro x hx y hy
      obtain rfl := List.mem_singleton.mp hy
      have hxl : x ∈ l := (h.mem_iff x).mp hx
      have hyl : y ∉ l := fun hy => hnew ((h.mem_iff y).mpr hy)
      rw [List.idxOf_append_of_mem hxl, List.idxOf_append_of_notMem hyl]
      have := List.idxOf_lt_length_of_mem hxl
      omega

/-- **Order of first appearance.** -/
theorem firstAppearances_distinct (l : List α) : FirstAppearances l (distinct l) := by
  induction l using List.reverseRecOn with
  | nil => exact ⟨List.nodup_nil, fun _ => Iff.rfl, List.Pairwise.nil⟩
  | append_singleton l a ih =>
      have hpush : distinct (l ++ [a]) = pushNew (distinct l) a := by
        rw [distinct, List.foldl_append]
        rfl
      rw [hpush]
      exact ih.push a

/-- Reordering a list reorders its distinct elements. -/
theorem distinct_perm {l l' : List α} (h : l.Perm l') : (distinct l).Perm (distinct l') := by
  rw [List.perm_ext_iff_of_nodup (nodup_distinct l) (nodup_distinct l')]
  intro x
  rw [mem_distinct, mem_distinct, h.mem_iff]

end Distinct

end Scan
