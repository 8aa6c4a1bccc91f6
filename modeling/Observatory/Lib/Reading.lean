import Mathlib.Tactic.TypeStar

/-!
# Reading a grammar

Readers that move over a sequence of tokens, and the grammars they follow.  A
grammar is a relation between the tokens of an item and the item.  A reader may
stop with an error of its own, or by an index out of bounds, at which a program
would panic.

* `Halt` — the two ways in which a reader stops.
* `InBounds.bind` — steps that stay in bounds, one after the other.
* `collect` — the values of a list of results, or the first error.
* `Reads` — a reader accepts exactly what a grammar derives.
* `Reads.bind` — two readers, one after the other, follow the two grammars.
-/

namespace Reading

universe u

variable {τ ε : Type*} {ρ α β : Type u}

/-! ## Stopping early -/

/-- Why a computation over a slice stopped. -/
inductive Halt (ε : Type*) where
  /-- It returned an error. -/
  | error (e : ε)
  /-- An index was out of bounds. -/
  | outOfBounds
  deriving DecidableEq

/-- An error, put another way. -/
def Halt.map {ε' : Type*} (f : ε → ε') : Halt ε → Halt ε'
  | .error e => .error (f e)
  | .outOfBounds => .outOfBounds

/-- Two steps give a result if the first does, and the second does after it. -/
theorem bind_eq_ok {x : Except ε α} {f : α → Except ε β} {b : β} :
    (x >>= f) = .ok b ↔ ∃ a, x = .ok a ∧ f a = .ok b := by
  cases x with
  | error e => simp [Bind.bind, Except.bind]
  | ok a => simp [Bind.bind, Except.bind]

/-- No index was out of bounds. -/
def InBounds (x : Except (Halt ε) α) : Prop := x ≠ .error .outOfBounds

@[simp] theorem inBounds_ok (a : α) : InBounds (.ok a : Except (Halt ε) α) := by
  simp [InBounds]

@[simp] theorem inBounds_error (e : ε) : InBounds (.error (.error e) : Except (Halt ε) α) := by
  simp [InBounds]

/-- Two steps stay in bounds if the first does, and the second does after it. -/
theorem InBounds.bind {x : Except (Halt ε) α} {f : α → Except (Halt ε) β} (hx : InBounds x)
    (hf : ∀ a, x = .ok a → InBounds (f a)) : InBounds (x >>= f) := by
  cases x with
  | error e => exact fun h => hx (by cases h; rfl)
  | ok a => exact hf a rfl

theorem InBounds.mapError {ε' : Type*} {x : Except (Halt ε) α} (hx : InBounds x) (f : ε → ε') :
    InBounds (x.mapError (Halt.map f)) := by
  cases x with
  | ok a => exact inBounds_ok a
  | error e =>
      cases e with
      | error e => exact inBounds_error (f e)
      | outOfBounds => exact absurd rfl hx

theorem mapError_eq_ok {ε' : Type*} {x : Except ε α} {f : ε → ε'} {a : α} :
    x.mapError f = .ok a ↔ x = .ok a := by
  cases x with
  | ok b => exact ⟨fun h => by cases h; rfl, fun h => by cases h; rfl⟩
  | error e => exact iff_of_false (fun h => by cases h) (fun h => by cases h)

/-- The result of a computation that stays in bounds, as its caller sees it. -/
def settle (x : Except (Halt ε) α) (h : InBounds x) : Except ε α :=
  match x, h with
  | .ok a, _ => .ok a
  | .error (.error e), _ => .error e
  | .error .outOfBounds, h => absurd rfl h

theorem settle_eq_ok {x : Except (Halt ε) α} {h : InBounds x} {a : α} :
    settle x h = .ok a ↔ x = .ok a := by
  cases x with
  | ok b => simp [settle]
  | error s =>
      cases s with
      | error e => simp [settle]
      | outOfBounds => exact absurd rfl h

/-! ## Collecting results -/

/-- The values of results that are all of them values; otherwise the first error. -/
def collect : List (Except ε α) → Except ε (List α)
  | [] => .ok []
  | .error e :: _ => .error e
  | .ok a :: rest => (collect rest).map (a :: ·)

/-- Values are collected in order. -/
theorem collect_map_ok (as : List α) : collect (as.map .ok : List (Except ε α)) = .ok as := by
  induction as with
  | nil => rfl
  | cons a as ih =>
      rw [List.map_cons, collect, ih]
      rfl

/-- The values before an error are not kept. -/
theorem collect_append_error (as : List α) (e : ε) (rest : List (Except ε α)) :
    collect (as.map .ok ++ .error e :: rest) = .error e := by
  induction as with
  | nil => rfl
  | cons a as ih =>
      rw [List.map_cons, List.cons_append, collect, ih]
      rfl

/-! ## Grammars -/

/-- An item, and after it one that may depend on it. -/
def Seq (G : List τ → α → Prop) (H : α → List τ → β → Prop) (xs : List τ) (b : β) : Prop :=
  ∃ ys zs a, xs = ys ++ zs ∧ G ys a ∧ H a zs b

/-- Any number of items, one after the other. -/
inductive Many (G : List τ → α → Prop) : List τ → List α → Prop where
  | nil : Many G [] []
  | cons {xs ys : List τ} {a : α} {as : List α} (head : G xs a) (tail : Many G ys as) :
      Many G (xs ++ ys) (a :: as)

/-- The items of a flattened list of encodings. -/
theorem Many.flatMap {G : List τ → α → Prop} {encode : α → List τ} {as : List α}
    (h : ∀ a ∈ as, G (encode a) a) : Many G (as.flatMap encode) as := by
  induction as with
  | nil => exact Many.nil
  | cons a as ih =>
      rw [List.flatMap_cons]
      refine Many.cons (h a List.mem_cons_self) (ih ?_)
      intro b hb
      exact h b (List.mem_cons_of_mem _ hb)

/-! ## Readers -/

/-- How the positions of a reader follow each other: `Moves r xs s` if it comes from `r` to
`s` by passing over the tokens `xs`. -/
structure Tape (ρ τ : Type*) where
  /-- From one position to another, over these tokens. -/
  Moves : ρ → List τ → ρ → Prop
  /-- Over no tokens, a reader stays where it is. -/
  nil_iff : ∀ r s, Moves r [] s ↔ s = r
  /-- Over two stretches of tokens, it stops in between. -/
  append_iff : ∀ r xs ys t, Moves r (xs ++ ys) t ↔ ∃ s, Moves r xs s ∧ Moves s ys t

/-- `p` accepts exactly what the grammar derives, and stops right after it. -/
def Reads (T : Tape ρ τ) (G : List τ → α → Prop) (p : ρ → Except ε (α × ρ)) : Prop :=
  ∀ r a s, p r = .ok (a, s) ↔ ∃ xs, G xs a ∧ T.Moves r xs s

variable {T : Tape ρ τ} {G : List τ → α → Prop} {p : ρ → Except ε (α × ρ)}

/-- A result that takes no tokens to compute. -/
theorem reads_result (x : Except ε α) :
    Reads T (fun xs a => xs = [] ∧ x = .ok a)
      (fun r => x >>= fun a => (.ok (a, r) : Except ε (α × ρ))) := by
  intro r a s
  rw [bind_eq_ok]
  constructor
  · rintro ⟨b, hx, hb⟩
    cases hb
    exact ⟨[], ⟨rfl, hx⟩, (T.nil_iff r r).mpr rfl⟩
  · rintro ⟨_, ⟨rfl, hx⟩, hmoves⟩
    rw [(T.nil_iff r s).mp hmoves]
    exact ⟨a, hx, rfl⟩

/-- One reader after the other. -/
theorem Reads.bind {H : α → List τ → β → Prop} {q : α → ρ → Except ε (β × ρ)} (hp : Reads T G p)
    (hq : ∀ a, Reads T (H a) (q a)) :
    Reads T (Seq G H) (fun r => p r >>= fun (x : α × ρ) => q x.1 x.2) := by
  intro r b t
  rw [bind_eq_ok]
  constructor
  · rintro ⟨⟨a, s⟩, hx, hb⟩
    obtain ⟨ys, hG, hmoves⟩ := (hp r a s).mp hx
    obtain ⟨zs, hH, hmoves'⟩ := (hq a s b t).mp hb
    exact ⟨ys ++ zs, ⟨ys, zs, a, rfl, hG, hH⟩, (T.append_iff ..).mpr ⟨s, hmoves, hmoves'⟩⟩
  · rintro ⟨_, ⟨ys, zs, a, rfl, hG, hH⟩, hmoves⟩
    obtain ⟨s, hys, hzs⟩ := (T.append_iff ..).mp hmoves
    exact ⟨(a, s), (hp r a s).mpr ⟨ys, hG, hys⟩, (hq a s b t).mpr ⟨zs, hH, hzs⟩⟩

/-- A reader follows every grammar that derives the same. -/
theorem Reads.congr {G' : List τ → α → Prop} (hp : Reads T G p) (h : ∀ xs a, G xs a ↔ G' xs a) :
    Reads T G' p := by
  intro r a s
  rw [hp r a s]
  exact exists_congr fun xs => and_congr_left' (h xs a)

end Reading
