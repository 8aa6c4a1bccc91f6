import Mathlib.Data.List.Basic

/-!
# Unwinding a stack of open records

Machines that keep a stack of entries that are still open, and close some of
them from the top down: an interpreter discarding frames up to a handler, a
parser closing tags, a reader of a trace discovering that calls have ended.
`close` writes an entry's end into the machine's record, `stop` recognises the
entry to unwind to.

* `popUntil` — close entries until one satisfies `stop`.
* `popUntil_split` — what is popped, what stays, and what was written.
* `popUntil_append` — entries that do not satisfy `stop` are popped first.
* `closeAll_append` — closing the rest of a stack, in two parts.
-/

namespace Unwind

variable {F σ : Type*}

/-- Close entries from the top until one satisfies `stop`. -/
def popUntil (stop : F → σ → Bool) (close : F → σ → F) : F → List σ → F × List σ
  | f, [] => (f, [])
  | f, o :: st => if stop f o then (f, o :: st) else popUntil stop close (close f o) st

/-- Close every entry, from the top. -/
def closeAll (close : F → σ → F) (f : F) (st : List σ) : F := st.foldl close f

variable {stop : F → σ → Bool} {close : F → σ → F}

@[simp] theorem closeAll_nil (f : F) : closeAll close f [] = f := rfl

@[simp] theorem closeAll_cons (f : F) (o : σ) (st : List σ) :
    closeAll close f (o :: st) = closeAll close (close f o) st := rfl

theorem closeAll_append (f : F) (st st' : List σ) :
    closeAll close f (st ++ st') = closeAll close (closeAll close f st) st' :=
  List.foldl_append

/-- A quantity that closing an entry leaves alone is left alone by closing them all. -/
theorem closeAll_invariant {Q : Type*} (q : F → Q) (hq : ∀ f o, q (close f o) = q f) (f : F)
    (st : List σ) : q (closeAll close f st) = q f := by
  induction st generalizing f with
  | nil => rfl
  | cons o st ih => rw [closeAll_cons, ih, hq]

theorem popUntil_of_stop {f : F} {o : σ} {st : List σ} (h : stop f o = true) :
    popUntil stop close f (o :: st) = (f, o :: st) := by
  simp [popUntil, h]

section Stable

-- Closing an entry does not change which entries are recognised.
variable (hstable : ∀ f o o', stop (close f o) o' = stop f o')
include hstable

/-- Entries that are not recognised are closed, and the search goes on below them. -/
theorem popUntil_append {f : F} {junk st : List σ} (hjunk : ∀ o ∈ junk, stop f o = false) :
    popUntil stop close f (junk ++ st) = popUntil stop close (closeAll close f junk) st := by
  induction junk generalizing f with
  | nil => rfl
  | cons o junk ih =>
      have ho : stop f o = false := hjunk o List.mem_cons_self
      rw [List.cons_append, popUntil, ho, closeAll_cons]
      apply ih
      intro o' ho'
      rw [hstable]
      exact hjunk o' (List.mem_cons_of_mem _ ho')

/-- **Unwinding splits the stack.**  A top part is popped and closed, none of it
recognised, and what is left is empty or headed by a recognised entry. -/
theorem popUntil_split (f : F) (st : List σ) :
    ∃ popped, st = popped ++ (popUntil stop close f st).2 ∧
      (popUntil stop close f st).1 = closeAll close f popped ∧
      (∀ o ∈ popped, stop f o = false) ∧
      ∀ o ∈ (popUntil stop close f st).2.head?, stop f o = true := by
  induction st generalizing f with
  | nil => exact ⟨[], by simp [popUntil]⟩
  | cons o st ih =>
      by_cases ho : stop f o = true
      · refine ⟨[], ?_⟩
        rw [popUntil_of_stop ho]
        simp [ho]
      · rw [Bool.not_eq_true] at ho
        obtain ⟨popped, hst, hf, hpop, hhead⟩ := ih (close f o)
        refine ⟨o :: popped, ?_⟩
        rw [popUntil, ho]
        simp only [Bool.false_eq_true, if_false]
        refine ⟨by rw [List.cons_append, ← hst], hf, ?_, ?_⟩
        · intro o' ho'
          rcases List.mem_cons.mp ho' with rfl | ho'
          · exact ho
          · rw [← hstable f o]
            exact hpop o' ho'
        · intro o' ho'
          rw [← hstable f o]
          exact hhead o' ho'

/-- What is left after unwinding was on the stack before. -/
theorem popUntil_suffix (f : F) (st : List σ) : (popUntil stop close f st).2 <:+ st := by
  obtain ⟨popped, hst, -⟩ := popUntil_split hstable f st
  exact ⟨popped, hst.symm⟩

end Stable

end Unwind
