import Observatory.Analyze
import Observatory.Lib.Ranking
import Observatory.Testutil

/-!
# How a diagnosis is put together

What `analyze_with` makes of the answers of its rules, for any registry: the
candidates are the stable ranking of the matches, the reports are one a rule,
and the order of the rules decides ties and nothing else.  The verdict and the
limitation on the outcome are worked out separately, `Diagnosis.verdict` from the
finished diagnosis and `outcomeLimitation` along the way; they agree.
-/

namespace Observatory

/-! ## What a limitation opens with -/

/-- Some limitation opens with these words. -/
def Diagnosis.States (d : Diagnosis) (opening : String) : Prop :=
  ∃ limitation ∈ d.limitations, startsWith limitation opening = true

/-- How the limitation of a transaction that succeeded opens. -/
def succeededOpening : String := "The transaction succeeded"

/-- How the limitation of a failure no rule could explain opens. -/
def insufficientOpening : String := "No rule could establish a cause"

/-- How the limitation of a failure no rule concerns opens. -/
def unsupportedOpening : String := "No implemented rule covers"

theorem startsWith_iff {text start : String} :
    startsWith text start = true ↔ ∃ rest, text.toList = start.toList ++ rest := by
  unfold startsWith
  rw [List.isPrefixOf_iff_prefix]
  constructor
  · rintro ⟨rest, h⟩
    exact ⟨rest, h.symm⟩
  · rintro ⟨rest, h⟩
    exact ⟨rest, h.symm⟩

theorem startsWith_append {a rest start : String} (h : startsWith a start = true) :
    startsWith (a ++ rest) start = true := by
  obtain ⟨more, hmore⟩ := startsWith_iff.mp h
  exact startsWith_iff.mpr ⟨more ++ rest.toList, by rw [String.toList_append, hmore,
    List.append_assoc]⟩

/-- Texts that differ within their first `n` characters. -/
theorem startsWith_of_take_ne {a rest start : String} (n : Nat) (ha : n ≤ a.toList.length)
    (hstart : n ≤ start.toList.length) (h : a.toList.take n ≠ start.toList.take n) :
    startsWith (a ++ rest) start = false := by
  rw [Bool.eq_false_iff]
  intro hopens
  obtain ⟨more, hmore⟩ := startsWith_iff.mp hopens
  rw [String.toList_append] at hmore
  apply h
  have htake := congrArg (List.take n) hmore
  rwa [List.take_append_of_le_length ha, List.take_append_of_le_length hstart] at htake

/-- A text that opens with a number opens with no word. -/
theorem startsWith_number {n : Nat} {rest start : String} {c : Char} {more : List Char}
    (hstart : start.toList = c :: more) (hc : c.isDigit = false) :
    startsWith (toString n ++ rest) start = false := by
  have hdigits : (toString n).toList = Nat.toDigits 10 n := by
    rw [Nat.toString_eq_repr, Nat.toList_repr]
  cases hd : Nat.toDigits 10 n with
  | nil => exact absurd hd Nat.toDigits_ne_nil
  | cons d ds =>
      apply startsWith_of_take_ne 1
      · rw [hdigits, hd, List.length_cons]
        omega
      · rw [hstart, List.length_cons]
        omega
      · rw [hdigits, hd, hstart]
        intro h
        obtain rfl : d = c := (List.cons.inj h).1
        have hdigit : d.isDigit = true :=
          Nat.isDigit_of_mem_toDigits (by decide) (by decide) (hd ▸ List.mem_cons_self)
        rw [hc] at hdigit
        cases hdigit

/-- The openings of the limitations on the outcome, with the verdict each goes with. -/
def outcomeOpenings : List (String × Verdict) :=
  [(succeededOpening, .notAFailure), (insufficientOpening, .insufficientEvidence),
    (unsupportedOpening, .unsupported)]

theorem forall_outcomeOpenings {p : String × Verdict → Prop} :
    (∀ o ∈ outcomeOpenings, p o) ↔ p (succeededOpening, .notAFailure) ∧
      p (insufficientOpening, .insufficientEvidence) ∧ p (unsupportedOpening, .unsupported) := by
  simp [outcomeOpenings]

/-- The limitation on contract errors opens in another way: with their number. -/
theorem not_states_unnamed (reports : List ContractErrorReport) :
    ∀ l ∈ unnamedLimitation reports, ∀ o ∈ outcomeOpenings, startsWith l o.1 = false := by
  intro l hl
  unfold unnamedLimitation at hl
  dsimp only at hl
  split at hl
  · obtain rfl := List.mem_singleton.mp hl
    rw [String.append_assoc, forall_outcomeOpenings]
    refine ⟨?_, ?_, ?_⟩
    · exact startsWith_number (c := 'T') rfl (by decide)
    · exact startsWith_number (c := 'N') rfl (by decide)
    · exact startsWith_number (c := 'N') rfl (by decide)
  · cases hl

set_option maxRecDepth 2000 in
/-- The limitation on diagnostic events opens in words of its own as well. -/
theorem not_states_diagnostics (enabled : Bool) :
    ∀ l ∈ diagnosticsLimitation enabled, ∀ o ∈ outcomeOpenings, startsWith l o.1 = false := by
  intro l hl
  unfold diagnosticsLimitation at hl
  cases enabled with
  | true => cases hl
  | false =>
      obtain rfl := List.mem_singleton.mp hl
      rw [forall_outcomeOpenings]
      exact ⟨rfl, rfl, rfl⟩

/-- The limitation on the outcome opens in the way that goes with the verdict. -/
theorem outcomeLimitation_opens (d : Diagnosis) :
    ∀ o ∈ outcomeOpenings,
      (∃ l ∈ outcomeLimitation d.stage d.candidateCauses d.ruleReports,
        startsWith l o.1 = true) ↔ d.verdict = o.2 := by
  unfold outcomeLimitation Diagnosis.verdict Diagnosis.topCause
  cases d.stage with
  | none =>
      rw [forall_outcomeOpenings]
      simp only [List.mem_singleton, exists_eq_left, Option.isNone_none, if_true]
      refine ⟨iff_of_true rfl trivial, iff_of_false ?_ ?_, iff_of_false ?_ ?_⟩ <;> decide
  | some stage =>
      cases d.candidateCauses with
      | cons cause causes =>
          rw [forall_outcomeOpenings]
          simp
      | nil =>
          simp only [List.isEmpty_nil, if_true, List.head?_nil, Option.isNone_some,
            Bool.false_eq_true, if_false]
          cases d.ruleReports.any (fun r => decide (r.status = .noEvidence)) with
          | true =>
              simp only [if_true, List.mem_singleton, exists_eq_left]
              rw [forall_outcomeOpenings]
              refine ⟨iff_of_false ?_ (by decide), iff_of_true (startsWith_append rfl) rfl,
                iff_of_false ?_ (by decide)⟩
              · rw [startsWith_of_take_ne 4 (by decide) (by decide) (by decide)]
                decide
              · rw [startsWith_of_take_ne 4 (by decide) (by decide) (by decide)]
                decide
          | false =>
              -- the text goes on with the stage, so only its opening can be compared
              simp only [Bool.false_eq_true, if_false, List.mem_singleton, exists_eq_left,
                String.append_assoc]
              rw [forall_outcomeOpenings]
              refine ⟨iff_of_false ?_ (by decide), iff_of_false ?_ (by decide),
                iff_of_true (startsWith_append rfl) rfl⟩
              · rw [startsWith_of_take_ne 4 (by decide) (by decide) (by decide)]
                decide
              · rw [startsWith_of_take_ne 4 (by decide) (by decide) (by decide)]
                decide

section Assembly

variable [Strkey]

/-- What a diagnosis says about the outcome is what goes with its verdict. -/
theorem states_iff (input : AnalysisInput) (registry : List Rule) :
    ∀ o ∈ outcomeOpenings,
      (analyzeWith input registry).verdict = o.2 ↔ (analyzeWith input registry).States o.1 := by
  intro o ho
  rw [← outcomeLimitation_opens _ o ho]
  have hlimitations : (analyzeWith input registry).limitations
      = outcomeLimitation (analyzeWith input registry).stage
          (analyzeWith input registry).candidateCauses (analyzeWith input registry).ruleReports
        ++ unnamedLimitation (failureContext input).contractErrors
        ++ diagnosticsLimitation input.diagnosticsEnabled := rfl
  unfold Diagnosis.States
  rw [hlimitations]
  constructor
  · rintro ⟨l, hl, hstart⟩
    exact ⟨l, by simp [hl], hstart⟩
  · rintro ⟨l, hl, hstart⟩
    rw [List.mem_append, List.mem_append] at hl
    rcases hl with (houtcome | hunnamed) | hdiagnostics
    · exact ⟨l, houtcome, hstart⟩
    · rw [not_states_unnamed _ l hunnamed o ho] at hstart
      cases hstart
    · rw [not_states_diagnostics _ l hdiagnostics o ho] at hstart
      cases hstart

/-- A report on a rule: its identifier, its answer, and a reason unless it matched. -/
structure ReportsOn (ctx : FailureContext) (rule : Rule) (report : RuleReport) : Prop where
  /-- It is about this rule. -/
  ruleId : report.ruleId = rule.id
  /-- It gives the rule's status. -/
  status : report.status = (rule.evaluate ctx).status
  /-- It gives the rule's own reason. -/
  reason : report.reason = (rule.evaluate ctx).reason
  /-- There is one exactly when the rule did not match. -/
  reason_isSome : report.reason.isSome = true ↔ report.status ≠ .matched

omit [Strkey] in
theorem reportsOn_report (ctx : FailureContext) (rule : Rule) :
    ReportsOn ctx rule (rule.report ctx) := by
  refine ⟨rfl, rfl, rfl, ?_⟩
  unfold Rule.report
  cases rule.evaluate ctx <;> simp [RuleOutcome.reason, RuleOutcome.status]

/-- The matches of a registry, in registration order. -/
def matchedCauses (input : AnalysisInput) (registry : List Rule) : List CandidateCause :=
  registry.filterMap (fun rule => (rule.evaluate (failureContext input)).candidate)

/-- The candidates are the matches, ranked. -/
theorem isRanking_candidateCauses (input : AnalysisInput) (registry : List Rule) :
    Ranking.IsRanking CandidateCause.confidence (matchedCauses input registry)
      (analyzeWith input registry).candidateCauses := by
  rw [candidateCauses_analyzeWith]
  exact Ranking.isRanking_insertionSort CandidateCause.confidence _

/-! ## The verdict -/

omit [Strkey] in
/-- A failure is explained exactly when none of the other verdicts applies. -/
theorem verdict_explained_iff (d : Diagnosis) :
    (∃ k, d.verdict = .explained k) ↔ ∀ o ∈ outcomeOpenings, d.verdict ≠ o.2 := by
  rw [forall_outcomeOpenings]
  cases d.verdict <;> simp

/-- An explained failure is explained with the greatest confidence of its candidates. -/
theorem isGreatest_of_explained {input : AnalysisInput} {registry : List Rule} {k : Confidence}
    (h : (analyzeWith input registry).verdict = .explained k) :
    IsGreatest {k | ∃ c ∈ (analyzeWith input registry).candidateCauses, c.confidence = k} k := by
  have hranking := isRanking_candidateCauses input registry
  unfold Diagnosis.verdict Diagnosis.topCause at h
  split at h
  · cases h
  · split at h
    · next top htop =>
      obtain rfl := Verdict.explained.inj h
      exact hranking.isGreatest_head htop
    · split at h <;> cases h

/-- The verdict depends on the stage, the keys of the ranking and the set of reports. -/
theorem verdict_perm {input : AnalysisInput} {registry registry' : List Rule}
    (h : registry.Perm registry') :
    (analyzeWith input registry).verdict = (analyzeWith input registry').verdict := by
  have hkeys : (analyzeWith input registry).candidateCauses.map CandidateCause.confidence
      = (analyzeWith input registry').candidateCauses.map CandidateCause.confidence :=
    (isRanking_candidateCauses input registry).map_key_eq
      (isRanking_candidateCauses input registry') (h.filterMap _)
  have hreports : (analyzeWith input registry).ruleReports.Perm
      (analyzeWith input registry').ruleReports := by
    rw [ruleReports_analyzeWith, ruleReports_analyzeWith]
    exact h.map _
  have hany : (analyzeWith input registry).ruleReports.any
        (fun r => decide (r.status = .noEvidence))
      = (analyzeWith input registry').ruleReports.any
        (fun r => decide (r.status = .noEvidence)) := hreports.any_eq
  have hstage : (analyzeWith input registry).stage = (analyzeWith input registry').stage := rfl
  unfold Diagnosis.verdict Diagnosis.topCause
  rw [hstage, hany]
  generalize (analyzeWith input registry).candidateCauses = causes at hkeys
  generalize (analyzeWith input registry').candidateCauses = causes' at hkeys
  cases causes with
  | nil =>
      obtain rfl : causes' = [] := List.map_eq_nil_iff.mp hkeys.symm
      rfl
  | cons cause rest =>
      cases causes' with
      | nil => cases hkeys
      | cons cause' rest' =>
          have hconfidence : cause.confidence = cause'.confidence := (List.cons.inj hkeys).1
          simp only [List.head?_cons, hconfidence]

/-- **Assembly.**  For any registry, the candidates are the stable ranking of the matches
and the reports are one a rule, in registration order; a permutation of the registry
changes neither the verdict nor the candidates but for their order; and the verdict
agrees with the limitation on the outcome. -/
theorem analyzeWith_assembled (input : AnalysisInput) (registry : List Rule) :
    Ranking.IsRanking CandidateCause.confidence (matchedCauses input registry)
        (analyzeWith input registry).candidateCauses ∧
      List.Forall₂ (ReportsOn (failureContext input)) registry
        (analyzeWith input registry).ruleReports ∧
      (∀ registry', registry.Perm registry' →
        (analyzeWith input registry').verdict = (analyzeWith input registry).verdict ∧
          (analyzeWith input registry').candidateCauses.Perm
            (analyzeWith input registry).candidateCauses) ∧
      (∀ o ∈ outcomeOpenings, (analyzeWith input registry).verdict = o.2 ↔
        (analyzeWith input registry).States o.1) ∧
      ((∀ o ∈ outcomeOpenings, ¬ (analyzeWith input registry).States o.1) →
        ∃ k, (analyzeWith input registry).verdict = .explained k ∧
          IsGreatest
            {k | ∃ c ∈ (analyzeWith input registry).candidateCauses, c.confidence = k} k) := by
  refine ⟨isRanking_candidateCauses input registry, ?_, ?_, states_iff input registry, ?_⟩
  · rw [ruleReports_analyzeWith, List.forall₂_map_right_iff, List.forall₂_same]
    exact fun rule _ => reportsOn_report _ rule
  · intro registry' hperm
    refine ⟨(verdict_perm hperm).symm, ?_⟩
    exact (isRanking_candidateCauses input registry').perm_of_perm
      (isRanking_candidateCauses input registry) (hperm.symm.filterMap _)
  · intro hnone
    obtain ⟨k, hk⟩ := (verdict_explained_iff (analyzeWith input registry)).mpr
      (fun o ho hverdict => hnone o ho ((states_iff input registry o ho).mp hverdict))
    exact ⟨k, hk, isGreatest_of_explained hk⟩

end Assembly

/-- `cid(5)` fails with its own error 9, without a spec. -/
def plainErrorInput : AnalysisInput :=
  sorobanFailure .trapped []
    (some [call none (cid 5) "f", err (cid 5) (.contract 9) "failing with contract error",
      hostFnFailed (.contract 9)])

set_option maxRecDepth 20000 in
/-- Two rules in either order give one verdict, and the match is what explains it. -/
theorem analyzeWith_assembled_swapped :
    let _ : Strkey := Strkey.standard
    (analyzeWith plainErrorInput [contractDefinedError, contractTrap]).verdict
        = (analyzeWith plainErrorInput [contractTrap, contractDefinedError]).verdict ∧
      ∃ k, (analyzeWith plainErrorInput [contractTrap, contractDefinedError]).verdict
        = .explained k := by
  intro _
  obtain ⟨-, -, hperm, hstates, hexplained⟩ :=
    analyzeWith_assembled plainErrorInput [contractTrap, contractDefinedError]
  refine ⟨(hperm _ (List.Perm.swap _ _ _)).1, ?_⟩
  have hverdict : (analyzeWith plainErrorInput [contractTrap, contractDefinedError]).verdict
      = .explained .likely := by decide
  obtain ⟨k, hk, -⟩ := hexplained (by
    intro o ho hstated
    rw [← hstates o ho, hverdict] at hstated
    revert o
    rw [forall_outcomeOpenings]
    decide)
  exact ⟨k, hk⟩

end Observatory
