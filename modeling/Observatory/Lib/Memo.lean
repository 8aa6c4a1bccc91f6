import Mathlib.Logic.Function.Basic
import Observatory.Lib.Scan

/-!
# Remembering results

A loop that computes a function at the keys it meets, keeps what it computed, and
looks there first.

* `Agrees` — what is kept is what the function gives.
* `getOrInsert_fst` — looking there first changes no result.
* `foldl_update` — a loop that writes a value at each key of a list.
* `getOrInsertM` and `getOrInsertM_recording` — the same with effects, and what is
  computed: each key the first time it is met.
* `Lookups` — the lookups of a loop that keeps some answers only, with `Lookups.settled` and
  `Lookups.nodup` for what they say of each other.
* `Keeps` — what such a loop keeps.
-/

namespace Memo

section Inserting

variable {κ β σ : Type*} [DecidableEq κ] {f : κ → β} {kept : κ → Option β}

/-- What is kept is what the function gives. -/
def Agrees (f : κ → β) (kept : κ → Option β) : Prop := ∀ k v, kept k = some v → v = f k

/-- The value at a key: the one kept, or else the one computed, which is kept from then on. -/
def getOrInsert (f : κ → β) (kept : κ → Option β) (k : κ) : β × (κ → Option β) :=
  match kept k with
  | some v => (v, kept)
  | none => (f k, Function.update kept k (some (f k)))

omit [DecidableEq κ] in
theorem agrees_none : Agrees f fun _ => none := by
  intro k v h
  cases h

theorem getOrInsert_fst (h : Agrees f kept) (k : κ) : (getOrInsert f kept k).1 = f k := by
  unfold getOrInsert
  cases hk : kept k with
  | none => rfl
  | some v => exact h k v hk

theorem agrees_getOrInsert (h : Agrees f kept) (k : κ) : Agrees f (getOrInsert f kept k).2 := by
  unfold getOrInsert
  cases hk : kept k with
  | some v => exact h
  | none =>
      intro k' v hv
      replace hv : Function.update kept k (some (f k)) k' = some v := hv
      by_cases hsame : k' = k
      · subst hsame
        rw [Function.update_self] at hv
        exact (Option.some.inj hv).symm
      · rw [Function.update_of_ne hsame] at hv
        exact h k' v hv

/-- A loop that writes the value of each key it meets, whatever else it keeps, ends with the
values of those keys. -/
theorem foldl_update (inv : σ → Prop) {g : κ → β}
    {step : σ × (κ → Option β) → κ → σ × (κ → Option β)}
    (hstep : ∀ s out k, inv s → inv (step (s, out) k).1 ∧
      (step (s, out) k).2 = Function.update out k (some (g k)))
    {s : σ} (hs : inv s) (out : κ → Option β) (keys : List κ) (k : κ) :
    (keys.foldl step (s, out)).2 k = if k ∈ keys then some (g k) else out k := by
  induction keys generalizing s out with
  | nil => simp
  | cons key keys ih =>
      obtain ⟨hinv, hout⟩ := hstep s out key hs
      show (keys.foldl step ((step (s, out) key).1, (step (s, out) key).2)).2 k = _
      rw [ih hinv, hout]
      by_cases hmem : k ∈ keys
      · simp [hmem]
      · by_cases hsame : k = key
        · subst hsame
          simp [hmem]
        · simp [hmem, hsame]

end Inserting

/-! ## What is computed -/

section Recording

variable {κ β : Type} [DecidableEq κ] {f : κ → β} {kept : κ → Option β} {calls : List κ}

/-- `getOrInsert` for a function with effects. -/
def getOrInsertM {m : Type → Type} [Monad m] (f : κ → m β) (kept : κ → Option β) (k : κ) :
    m (β × (κ → Option β)) :=
  match kept k with
  | some v => pure (v, kept)
  | none => do
      let v ← f k
      pure (v, Function.update kept k (some v))

/-- A function that lists the keys it is computed at. -/
def recording (f : κ → β) (k : κ) : StateM (List κ) β := fun calls => (f k, calls ++ [k])

omit [DecidableEq κ] in
/-- What is kept is what was computed. -/
def Recorded (kept : κ → Option β) (calls : List κ) : Prop :=
  ∀ k, (kept k).isSome = true ↔ k ∈ calls

omit [DecidableEq κ] in
theorem recorded_none : Recorded (fun _ => none : κ → Option β) [] := by
  intro k
  simp

/-- A key that is kept is not computed again. -/
theorem getOrInsertM_recording (h : Recorded kept calls) (k : κ) :
    (getOrInsertM (recording f) kept k).run calls
      = (getOrInsert f kept k, Scan.pushNew calls k) := by
  unfold getOrInsertM getOrInsert Scan.pushNew
  have hk := h k
  cases hkept : kept k with
  | some v =>
      rw [hkept] at hk
      rw [if_pos (hk.mp rfl)]
      rfl
  | none =>
      rw [hkept] at hk
      rw [if_neg (fun hmem => by simpa using hk.mpr hmem)]
      rfl

/-- From then on the value of the key is kept. -/
theorem recorded_getOrInsert (h : Recorded kept calls) (k : κ) :
    Recorded (getOrInsert f kept k).2 (Scan.pushNew calls k) := by
  intro k'
  rw [Scan.mem_pushNew, ← h k']
  unfold getOrInsert
  cases hkept : kept k with
  | some v =>
      have hk : (kept k).isSome = true := by rw [hkept]; rfl
      constructor
      · exact Or.inl
      · rintro (hk' | rfl)
        · exact hk'
        · exact hk
  | none =>
      show (Function.update kept k (some (f k)) k').isSome = true ↔ _
      by_cases hsame : k' = k
      · subst hsame
        simp
      · simp [hsame]

end Recording

/-! ## Keeping some answers

An answer that is not kept is asked for again. -/

/-- A lookup: the key, the answer it got, and whether it was asked for. -/
structure Lookup (κ β : Type*) where
  key : κ
  answer : β
  asked : Bool

section Keeping

variable {κ β : Type*} {keep : β → Bool} {gives : ℕ → κ → β → Prop} {kept : κ → Option β}
  {log : List (Lookup κ β)}

/-- Lookups in order, where `gives n k v` says that `v` is an answer for `k` to the `n`-th that is
asked for.  An earlier answer for the key that is kept is given again; otherwise it is asked for. -/
inductive Lookups (keep : β → Bool) (gives : ℕ → κ → β → Prop) : List (Lookup κ β) → Prop
  | nil : Lookups keep gives []
  | ask {log : List (Lookup κ β)} {k : κ} {v : β} (before : Lookups keep gives log)
      (hnew : ∀ l ∈ log, l.key = k → keep l.answer = false)
      (hgives : gives (log.countP Lookup.asked) k v) : Lookups keep gives (log ++ [⟨k, v, true⟩])
  | again {log : List (Lookup κ β)} {l : Lookup κ β} (before : Lookups keep gives log)
      (hl : l ∈ log) (hkeep : keep l.answer = true) :
      Lookups keep gives (log ++ [⟨l.key, l.answer, false⟩])

namespace Lookups

/-- A key has one answer that is kept. -/
theorem unique (h : Lookups keep gives log) : ∀ a ∈ log, ∀ b ∈ log, a.key = b.key →
    keep a.answer = true → keep b.answer = true → a.answer = b.answer := by
  induction h with
  | nil => exact fun a ha => (List.not_mem_nil ha).elim
  | ask before hnew hgives ih =>
      intro a ha b hb hkey hkeepa hkeepb
      simp only [List.mem_append, List.mem_singleton] at ha hb
      rcases ha with ha | rfl <;> rcases hb with hb | rfl
      · exact ih a ha b hb hkey hkeepa hkeepb
      · exact absurd hkeepa (by simp [hnew a ha hkey])
      · exact absurd hkeepb (by simp [hnew b hb hkey.symm])
      · rfl
  | @again log l before hl hkeep ih =>
      intro a ha b hb hkey hkeepa hkeepb
      simp only [List.mem_append, List.mem_singleton] at ha hb
      rcases ha with ha | rfl <;> rcases hb with hb | rfl
      · exact ih a ha b hb hkey hkeepa hkeepb
      · exact ih a ha l hl hkey hkeepa hkeep
      · exact ih l hl b hb hkey hkeep hkeepb
      · rfl

/-- **Settled.**  Behind an answer that is kept its key has this answer. -/
theorem settled (h : Lookups keep gives log) :
    log.Pairwise (fun a b => a.key = b.key → keep a.answer = true → b.answer = a.answer) := by
  induction h with
  | nil => exact List.Pairwise.nil
  | ask before hnew hgives ih =>
      refine List.pairwise_append.mpr ⟨ih, List.pairwise_singleton _ _, ?_⟩
      intro a ha b hb hkey hkeep
      rw [List.mem_singleton.mp hb] at hkey
      exact absurd hkeep (by simp [hnew a ha hkey])
  | @again log l before hl hkeep ih =>
      refine List.pairwise_append.mpr ⟨ih, List.pairwise_singleton _ _, ?_⟩
      intro a ha b hb hkey hkeepa
      obtain rfl := List.mem_singleton.mp hb
      exact (before.unique a ha l hl hkey hkeepa hkeep).symm

/-- **Asked once.**  No key is asked for again once it has an answer that is kept. -/
theorem nodup (h : Lookups keep gives log) :
    ((log.filter (fun l => l.asked && keep l.answer)).map Lookup.key).Nodup := by
  induction h with
  | nil => exact List.nodup_nil
  | @ask log k v before hnew hgives ih =>
      rw [List.filter_append, List.map_append]
      cases hkeep : keep v with
      | false => simpa [hkeep] using ih
      | true =>
          have hfresh : k ∉ (log.filter (fun l => l.asked && keep l.answer)).map Lookup.key := by
            rw [List.mem_map]
            rintro ⟨l, hl, hkey⟩
            obtain ⟨hmem, hboth⟩ := List.mem_filter.mp hl
            simp [hnew l hmem hkey] at hboth
          have hlast : (([⟨k, v, true⟩] : List (Lookup κ β)).filter
              (fun l => l.asked && keep l.answer)).map Lookup.key = [k] := by simp [hkeep]
          rw [hlast]
          exact List.nodup_append.mpr ⟨ih, List.nodup_singleton _, fun a ha b hb heq =>
            hfresh (List.mem_singleton.mp hb ▸ heq ▸ ha)⟩
  | again before hl hkeep ih =>
      rw [List.filter_append, List.map_append]
      simpa using ih

end Lookups

/-- The answers that are kept of some lookups. -/
def Keeps (keep : β → Bool) (kept : κ → Option β) (log : List (Lookup κ β)) : Prop :=
  ∀ k v, kept k = some v ↔ (∃ l ∈ log, l.key = k ∧ l.answer = v) ∧ keep v = true

theorem keeps_none : Keeps keep (fun _ => none : κ → Option β) [] := by
  intro k v
  simp

namespace Keeps

/-- A key without a kept answer has none among the lookups. -/
theorem not_kept (h : Keeps keep kept log) {k : κ} (hk : kept k = none) :
    ∀ l ∈ log, l.key = k → keep l.answer = false := by
  intro l hl hkey
  by_contra hkeep
  have hkept := (h k l.answer).mpr ⟨⟨l, hl, hkey, rfl⟩, by simpa using hkeep⟩
  rw [hk] at hkept
  cases hkept

/-- The kept answer is given again. -/
theorem again (h : Keeps keep kept log) {k : κ} {v : β} (hk : kept k = some v) :
    Keeps keep kept (log ++ [⟨k, v, false⟩]) := by
  intro k' v'
  rw [h k' v']
  simp only [List.mem_append, List.mem_singleton]
  constructor
  · rintro ⟨⟨l, hl, hkey, hanswer⟩, hkeep⟩
    exact ⟨⟨l, .inl hl, hkey, hanswer⟩, hkeep⟩
  · rintro ⟨⟨l, hl | rfl, rfl, rfl⟩, hkeep⟩
    · exact ⟨⟨l, hl, rfl, rfl⟩, hkeep⟩
    · exact (h k v).mp hk

/-- The answer is not kept. -/
theorem pass (h : Keeps keep kept log) {v : β} (hv : keep v = false) (k : κ) :
    Keeps keep kept (log ++ [⟨k, v, true⟩]) := by
  intro k' v'
  rw [h k' v']
  simp only [List.mem_append, List.mem_singleton]
  constructor
  · rintro ⟨⟨l, hl, hkey, hanswer⟩, hkeep⟩
    exact ⟨⟨l, .inl hl, hkey, hanswer⟩, hkeep⟩
  · rintro ⟨⟨l, hl | rfl, rfl, rfl⟩, hkeep⟩
    · exact ⟨⟨l, hl, rfl, rfl⟩, hkeep⟩
    · rw [hv] at hkeep
      cases hkeep

/-- The answer is kept. -/
theorem store [DecidableEq κ] (h : Keeps keep kept log) {k : κ} {v : β} (hk : kept k = none)
    (hv : keep v = true) :
    Keeps keep (Function.update kept k (some v)) (log ++ [⟨k, v, true⟩]) := by
  intro k' v'
  simp only [List.mem_append, List.mem_singleton]
  by_cases hsame : k' = k
  · subst hsame
    rw [Function.update_self, Option.some_inj]
    constructor
    · rintro rfl
      exact ⟨⟨_, .inr rfl, rfl, rfl⟩, hv⟩
    · rintro ⟨⟨l, hl | rfl, hkey, rfl⟩, hkeep⟩
      · rw [h.not_kept hk l hl hkey] at hkeep
        cases hkeep
      · rfl
  · rw [Function.update_of_ne hsame, h k' v']
    constructor
    · rintro ⟨⟨l, hl, hkey, hanswer⟩, hkeep⟩
      exact ⟨⟨l, .inl hl, hkey, hanswer⟩, hkeep⟩
    · rintro ⟨⟨l, hl | rfl, hkey, hanswer⟩, hkeep⟩
      · exact ⟨⟨l, hl, hkey, hanswer⟩, hkeep⟩
      · exact absurd hkey.symm hsame

end Keeps

end Keeping

end Memo
