import Observatory.Properties.Terminal

/-!
# Confidence, and what it rests on

Rules never see each other's answers, so that a failure is confirmed once only has
to follow from what each rule asks for.  A confirmed rule pins down the stage and,
on a trap, the type of the error the invocation ended with (`failureKind`), which
tells all rules apart but the two on authorization entries.

* `confirmed_once` — at most one candidate is confirmed, exactly when not both of
  those are.
* `likely_ended` — what a candidate above Possible says about the error the
  invocation ended with.
-/

namespace Observatory

/-- The stage of a failure and, on a trap, the type of the error it ended with. -/
inductive FailureKind where
  | archived
  | resourceLimit
  | resourceFee
  | contractError
  | auth
  | storage
  | other
  deriving DecidableEq

/-- The kind of error that ended an invocation. -/
def terminalKind : Option ScError → FailureKind
  | some (.contract _) => .contractError
  | some (.auth _) => .auth
  | some (.storage _) => .storage
  | _ => .other

section Certainty

variable [Strkey]

/-- The kind of a failure. -/
def failureKind (input : AnalysisInput) : FailureKind :=
  match (TransactionModel.fromInput input).stage with
  | some .stateArchival => .archived
  | some .resourceLimit => .resourceLimit
  | some .resourceFee => .resourceFee
  | some .contractExecution => terminalKind (rawTerminal input.diagnosticEvents)
  | _ => .other

/-! ## Confirmed at most once -/

/-- A confirmed result-code rule is at its own stage. -/
theorem stage_of_confirms_codeRule {input : AnalysisInput} {wanted : FailureStage}
    {code : String} {causeClass : CauseClass} {summary remediation ruleId : String}
    {more : TransactionModel → List Evidence} {c : CandidateCause}
    (h : codeRule wanted code causeClass summary remediation ruleId more (failureContext input)
      = .matched c) : (TransactionModel.fromInput input).stage = some wanted :=
  (codeRule_matched h).1

/-- A result-code rule for another stage does not match on a trap. -/
theorem not_matched_codeRule {input : AnalysisInput} {wanted : FailureStage}
    {code : String} {causeClass : CauseClass} {summary remediation ruleId : String}
    {more : TransactionModel → List Evidence} {c : CandidateCause}
    (hwanted : wanted ≠ .contractExecution)
    (hstage : (TransactionModel.fromInput input).stage = some .contractExecution) :
    codeRule wanted code causeClass summary remediation ruleId more (failureContext input)
      ≠ .matched c := by
  intro h
  have hsame := (stage_of_confirms_codeRule h).symm.trans hstage
  exact hwanted (Option.some.inj hsame)

theorem failureKind_archivedEntry {input : AnalysisInput} (h : Confirms archivedEntry input) :
    failureKind input = .archived := by
  obtain ⟨c, hmatch, -⟩ := h
  unfold failureKind
  rw [stage_of_confirms_codeRule hmatch]

theorem failureKind_resourceLimitExceeded {input : AnalysisInput}
    (h : Confirms resourceLimitExceeded input) : failureKind input = .resourceLimit := by
  obtain ⟨c, hmatch, -⟩ := h
  unfold failureKind
  rw [stage_of_confirms_codeRule hmatch]

theorem failureKind_insufficientResourceFee {input : AnalysisInput}
    (h : Confirms insufficientResourceFee input) : failureKind input = .resourceFee := by
  obtain ⟨c, hmatch, -⟩ := h
  obtain ⟨summary, remediation, hcode⟩ := insufficientResourceFee_matched hmatch
  unfold failureKind
  rw [stage_of_confirms_codeRule hcode]

theorem failureKind_contractDefinedError {input : AnalysisInput}
    (h : Confirms contractDefinedError input) : failureKind input = .contractError := by
  obtain ⟨c, hmatch, -⟩ := h
  obtain ⟨hstage, -, terminal, code, report, hterminal, herror, -⟩ :=
    contractDefinedError_matched hmatch
  have hmodel : (TransactionModel.fromInput input).stage = some .contractExecution := hstage
  unfold failureKind
  rw [hmodel, rawTerminal_of_model hterminal, herror]
  rfl

/-- A trap that ended with the error of an event. -/
theorem failureKind_of_trapped {input : AnalysisInput} {error : ScError}
    (htrapped : Trapped input) (hended : rawTerminal input.diagnosticEvents = some error) :
    failureKind input = terminalKind (some error) := by
  unfold failureKind
  rw [htrapped.1, hended]

theorem failureKind_footprintEntryMissing {input : AnalysisInput}
    (h : Confirms footprintEntryMissing input) : failureKind input = .storage := by
  obtain ⟨htrapped, s, hfirst, hended, -⟩ := confirms_footprintEntryMissing.mp h
  have hviolation : s.isViolation = true := List.find?_some hfirst
  rw [failureKind_of_trapped htrapped hended]
  unfold RawError.isViolation at hviolation
  cases herror : s.error <;> simp_all [ScError.isStorage, terminalKind]

theorem failureKind_invalidAuthorizationEntry {input : AnalysisInput}
    (h : Confirms invalidAuthorizationEntry input) : failureKind input = .auth := by
  obtain ⟨htrapped, s, hfirst, hended, -⟩ := confirms_invalidAuthorizationEntry.mp h
  have hinvalid : s.isInvalidEntry = true := List.find?_some hfirst
  rw [failureKind_of_trapped htrapped hended]
  unfold RawError.isInvalidEntry at hinvalid
  cases herror : s.error <;> simp_all [ScError.isAuth, terminalKind]

theorem failureKind_missingAuthorizationEntry {input : AnalysisInput}
    (h : Confirms missingAuthorizationEntry input) : failureKind input = .auth := by
  obtain ⟨htrapped, s, hfirst, hended, -⟩ := confirms_missingAuthorizationEntry.mp h
  have hunauthorized : s.isUnauthorized = true := List.find?_some hfirst
  unfold RawError.isUnauthorized at hunauthorized
  rw [Bool.and_eq_true, beq_iff_eq] at hunauthorized
  rw [failureKind_of_trapped htrapped hended, hunauthorized.1]
  rfl

/-- A contract trap is never confirmed. -/
theorem not_confirms_contractTrap (input : AnalysisInput) : ¬ Confirms contractTrap input := by
  rintro ⟨c, hmatch, hconfirmed⟩
  obtain ⟨-, -, terminal, code, x, -, -, -, rfl⟩ := contractTrap_matched hmatch
  cases hconfirmed

/-- The confirmed candidates of a diagnosis. -/
def Diagnosis.confirmedCauses (d : Diagnosis) : List CandidateCause :=
  d.candidateCauses.filter (fun c => c.confidence == .confirmed)

/-- There are as many confirmed candidates as rules that confirm. -/
theorem length_confirmedCauses (input : AnalysisInput) (registry : List Rule) :
    (analyzeWith input registry).confirmedCauses.length
      = registry.countP (fun rule => decide (Confirms rule input)) := by
  unfold Diagnosis.confirmedCauses
  rw [candidateCauses_analyzeWith, ranked,
    ((List.perm_insertionSort _ _).filter _).length_eq, List.filter_filterMap,
    List.length_filterMap_eq_countP]
  apply List.countP_congr
  intro rule _
  rw [decide_eq_true_eq, Confirms]
  cases rule.evaluate (failureContext input) <;> simp [RuleOutcome.candidate, Option.filter_some]

/-- An expired signature and an unauthorized call, both of which ended the invocation and
are borne out by the envelope. -/
def BothAuth (input : AnalysisInput) : Prop :=
  Trapped input ∧
    FirstPasses input.diagnosticEvents RawError.isInvalidEntry (ExpiredFor input) ∧
    FirstPasses input.diagnosticEvents RawError.isUnauthorized (NoEntryFor input)

theorem bothAuth_iff {input : AnalysisInput} : BothAuth input ↔
    Confirms invalidAuthorizationEntry input ∧ Confirms missingAuthorizationEntry input := by
  rw [confirms_invalidAuthorizationEntry, confirms_missingAuthorizationEntry, BothAuth]
  refine ⟨?_, ?_⟩
  · rintro ⟨htrapped, hinvalid, hmissing⟩
    exact ⟨⟨htrapped, hinvalid⟩, htrapped, hmissing⟩
  · rintro ⟨⟨htrapped, hinvalid⟩, -, hmissing⟩
    exact ⟨htrapped, hinvalid, hmissing⟩

/-- **Confirmed once.**  At most one candidate is confirmed, unless an expired signature
and an unauthorized call both are. -/
theorem confirmed_once (input : AnalysisInput) :
    (analyze input).confirmedCauses.length ≤ 1 ↔ ¬ BothAuth input := by
  have harchived := @failureKind_archivedEntry _ input
  have hlimit := @failureKind_resourceLimitExceeded _ input
  have hfee := @failureKind_insufficientResourceFee _ input
  have hcontract := @failureKind_contractDefinedError _ input
  have hfootprint := @failureKind_footprintEntryMissing _ input
  have hinvalid := @failureKind_invalidAuthorizationEntry _ input
  have hmissing := @failureKind_missingAuthorizationEntry _ input
  have htrap := not_confirms_contractTrap input
  show (analyzeWith input builtin).confirmedCauses.length ≤ 1 ↔ _
  rw [length_confirmedCauses, bothAuth_iff]
  unfold builtin
  simp only [List.countP_cons, List.countP_nil, decide_eq_true_eq, htrap, if_false]
  -- the kind of the failure leaves one rule, or the two on authorization entries
  cases hkind : failureKind input <;> simp only [hkind, reduceCtorEq, imp_false] at * <;>
    simp only [*, if_false] <;> grind

/-! ## The error a candidate is built on -/

/-- The first error event of a kind. -/
def firstError (input : AnalysisInput) (recognised : RawError → Bool) : Option RawError :=
  (input.diagnosticEvents.filterMap DiagnosticEvent.rawError).find? recognised

/-- An error event reporting an `unreachable` trap with this error. -/
def RawError.isTrap (error : ScError) (s : RawError) : Bool :=
  s.error == error && s.message.any (fun m => containsText m unreachableMarker)

/-- The error a candidate of a class is built on: that of the first event its rule
recognises, or the code the resolver reports as the terminal one. -/
def builtOn (input : AnalysisInput) : CauseClass → Option ScError
  | .contractDefinedError =>
      ((failureContext input).contractErrors.find? (fun r => r.terminal)).map
        (fun r => .contract r.code)
  | .invalidAuthorizationEntry =>
      (firstError input RawError.isInvalidEntry).map RawError.error
  | .missingAuthorizationEntry =>
      (firstError input RawError.isUnauthorized).map RawError.error
  | .footprintEntryMissing => (firstError input RawError.isViolation).map RawError.error
  | .contractTrap =>
      (rawTerminal input.diagnosticEvents).bind
        (fun t => (firstError input (RawError.isTrap t)).map RawError.error)
  | _ => none

/-- The invocation ended with the error a candidate is built on. -/
def EndedWith (input : AnalysisInput) (c : CandidateCause) : Prop :=
  ∃ error, rawTerminal input.diagnosticEvents = some error ∧
    builtOn input c.causeClass = some error

/-- The first error event a rule recognises, when it ended the invocation. -/
theorem firstError_error {input : AnalysisInput} {recognised : RawError → Bool}
    {p : ErrorEvent → Bool} {x : ErrorEvent} (hp : ∀ x, p x = recognised x.toRaw)
    (hfind : (TransactionModel.fromInput input).diagnostics.errors.find? p = some x) :
    (firstError input recognised).map RawError.error = some x.error := by
  have hfirst : firstError input recognised = some x.toRaw :=
    (first_iff hp).mpr ⟨x, hfind, rfl⟩
  rw [hfirst]
  rfl

theorem endedWith_contractDefinedError {input : AnalysisInput} {c : CandidateCause}
    (h : contractDefinedError.evaluate (failureContext input) = .matched c) :
    c.causeClass = .contractDefinedError ∧ EndedWith input c := by
  obtain ⟨-, -, terminal, code, report, hterminal, herror, hreport, hflag, hcode, rfl⟩ :=
    contractDefinedError_matched h
  refine ⟨rfl, .contract code, by rw [rawTerminal_of_model hterminal, herror], ?_⟩
  show ((failureContext input).contractErrors.find? (fun r => r.terminal)).map _ = _
  cases hfind : (failureContext input).contractErrors.find? (fun r => r.terminal) with
  | none =>
      have hnone := List.find?_eq_none.mp hfind report hreport
      exact absurd hflag hnone
  | some first =>
      -- every report flagged as terminal is on the terminal code
      have hterminalCode : (TransactionModel.fromInput input).terminalCode = some code := by
        have hmodel : (TransactionModel.fromInput input).diagnostics.terminalError
          = some terminal := hterminal
        rw [TransactionModel.terminalCode, hmodel, Option.bind_some, herror]
        rfl
      have hfirst : first.terminal = true := List.find?_some hfind
      rw [mem_resolveContractErrors (List.mem_of_find?_eq_some hfind)] at hfirst
      have hsame : some first.code = (TransactionModel.fromInput input).terminalCode :=
        beq_iff_eq.mp hfirst
      rw [hterminalCode] at hsame
      rw [Option.map_some, Option.some.inj hsame]

theorem endedWith_contractTrap {input : AnalysisInput} {c : CandidateCause}
    (h : contractTrap.evaluate (failureContext input) = .matched c) :
    c.causeClass = .contractTrap ∧ EndedWith input c := by
  obtain ⟨-, -, terminal, code, x, hterminal, -, hfind, rfl⟩ := contractTrap_matched h
  have hraw := rawTerminal_of_model hterminal
  have herror : x.error = terminal.error := by
    have htrap : x.isTrap terminal.error = true := List.find?_some hfind
    unfold ErrorEvent.isTrap at htrap
    rw [Bool.and_eq_true, beq_iff_eq] at htrap
    exact htrap.1
  refine ⟨rfl, terminal.error, hraw, ?_⟩
  show (rawTerminal input.diagnosticEvents).bind _ = _
  rw [hraw, Option.bind_some, ← herror]
  exact firstError_error (p := ErrorEvent.isTrap x.error) (fun _ => rfl)
    (by rw [herror]; exact hfind)

omit [Strkey] in
/-- Above Possible, an expired signature or a reused nonce ended the invocation. -/
theorem ended_of_expiredConfidence {ended corroborated : Bool}
    (h : .likely ≤ expiredConfidence ended corroborated) : ended = true := by
  revert h
  cases ended <;> cases corroborated <;> decide

omit [Strkey] in
theorem ended_of_nonceConfidence {ended hasEntry : Bool}
    (h : .likely ≤ nonceConfidence ended hasEntry) : ended = true := by
  revert h
  cases ended <;> cases hasEntry <;> decide

/-- A footprint violation that was found ended the invocation as well. -/
theorem ended_of_footprintFinding {footprint : Footprint} {x : ErrorEvent} {ended : Bool}
    (h : .likely ≤ (footprintFinding footprint x ended).confidence) : ended = true := by
  have hpossible : ¬ Confidence.likely ≤ .possible := by decide
  cases ended with
  | true => rfl
  | false =>
      unfold footprintFinding at h
      split at h
      · next address key hkey =>
        simp only at h
        split at h
        · exact absurd h hpossible
        · exact absurd h hpossible
      · exact absurd h hpossible

theorem endedWith_invalidAuthorizationEntry {input : AnalysisInput} {c : CandidateCause}
    (h : invalidAuthorizationEntry.evaluate (failureContext input) = .matched c)
    (hlikely : .likely ≤ c.confidence) :
    c.causeClass = .invalidAuthorizationEntry ∧ EndedWith input c := by
  obtain ⟨-, -, soroban, x, message, failure, -, hfind, rfl⟩ :=
    invalidAuthorizationEntry_matched h
  obtain ⟨y, hy, hrecognised⟩ := Scan.findSome?_filter_eq_some.mp hfind
  obtain ⟨rfl, -, -⟩ := recognise_eq_some.mp hrecognised
  have hclass : (invalidAuthCandidate (failureContext input).model soroban x message
      failure).causeClass = .invalidAuthorizationEntry := by cases failure <;> rfl
  have hended : (endedBy (TransactionModel.fromInput input) x).isSome = true := by
    cases failure with
    | signatureExpired => exact ended_of_expiredConfidence hlikely
    | nonceReused => exact ended_of_nonceConfidence hlikely
  refine ⟨hclass, x.error, endedBy_iff.mp hended, ?_⟩
  rw [hclass]
  exact firstError_error (by
    intro x
    unfold RawError.isInvalidEntry ErrorEvent.recognise ErrorEvent.toRaw
    cases x.message <;> simp) hy

theorem endedWith_footprintEntryMissing {input : AnalysisInput} {c : CandidateCause}
    (h : footprintEntryMissing.evaluate (failureContext input) = .matched c)
    (hlikely : .likely ≤ c.confidence) :
    c.causeClass = .footprintEntryMissing ∧ EndedWith input c := by
  obtain ⟨-, -, soroban, x, -, hfind, rfl⟩ := footprintEntryMissing_matched h
  have hended : (endedBy (TransactionModel.fromInput input) x).isSome = true :=
    ended_of_footprintFinding hlikely
  exact ⟨rfl, x.error, endedBy_iff.mp hended,
    firstError_error (p := ErrorEvent.isViolation) (fun _ => rfl) hfind⟩

/-- A missing entry is confirmed when its error ended the invocation and names an
address, and likely otherwise. -/
theorem endedWith_missingAuthorizationEntry {input : AnalysisInput} {c : CandidateCause}
    (h : missingAuthorizationEntry.evaluate (failureContext input) = .matched c) :
    c.causeClass = .missingAuthorizationEntry ∧
      (c.confidence = .confirmed ∧ EndedWith input c ∨ c.confidence = .likely) := by
  obtain ⟨-, -, soroban, x, -, hfind, -, -, rfl⟩ := missingAuthorizationEntry_matched h
  refine ⟨rfl, ?_⟩
  by_cases hconfirmed : (missingAuthCandidate (failureContext input).model soroban x).confidence
      = .confirmed
  · obtain ⟨hended, -⟩ := missingAuthCandidate_confirmed.mp hconfirmed
    exact Or.inl ⟨hconfirmed, x.error, endedBy_iff.mp hended,
      firstError_error (p := ErrorEvent.isUnauthorized) (fun _ => rfl) hfind⟩
  · right
    unfold missingAuthCandidate at hconfirmed ⊢
    dsimp only at hconfirmed ⊢
    split
    · next hboth => exact absurd (if_pos hboth) hconfirmed
    · rfl

/-- **Above Possible.**  On a trap, a candidate above Possible is built on the error the
invocation ended with, but for a missing entry that is only likely. -/
theorem likely_ended (input : AnalysisInput)
    (hstage : (analyze input).stage = some .contractExecution) :
    ∀ c ∈ (analyze input).candidateCauses, .likely ≤ c.confidence →
      EndedWith input c ∨
        c.causeClass = .missingAuthorizationEntry ∧ c.confidence = .likely := by
  intro c hc hlikely
  have hmodel : (TransactionModel.fromInput input).stage = some .contractExecution := hstage
  obtain ⟨rule, hrule, hmatch⟩ := mem_candidateCauses.mp hc
  revert hmatch
  revert rule
  simp only [builtin, List.forall_mem_cons]
  refine ⟨?_, ?_, ?_, ?_, ?_, ?_, ?_, ?_, by simp⟩
  · intro h
    exact absurd h (not_matched_codeRule (by decide) hmodel)
  · intro h
    exact absurd h (not_matched_codeRule (by decide) hmodel)
  · intro h
    obtain ⟨summary, remediation, hcode⟩ := insufficientResourceFee_matched h
    exact absurd hcode (not_matched_codeRule (by decide) hmodel)
  · intro h
    exact Or.inl (endedWith_contractDefinedError h).2
  · intro h
    exact Or.inl (endedWith_invalidAuthorizationEntry h hlikely).2
  · intro h
    exact Or.inl (endedWith_footprintEntryMissing h hlikely).2
  · intro h
    exact Or.inl (endedWith_contractTrap h).2
  · intro h
    obtain ⟨hclass, ⟨-, hended⟩ | hl⟩ := endedWith_missingAuthorizationEntry h
    · exact Or.inl hended
    · exact Or.inr ⟨hclass, hl⟩

end Certainty

/-- An expired signature reported with the code of an unauthorized call, and an
unauthorized call; the invocation ends with that code. -/
def twoAuthFailures : AnalysisInput :=
  { signedInput with
    diagnosticEvents :=
      [call none (cid 5) "f",
        authError (cid 5) .invalidAction "signature has expired"
          [.address (.contract (cid 7)), .u32 100, .u32 90],
        unauthorizedEvent (.contract (cid 8)), hostFnFailed (.auth .invalidAction)] }

set_option maxRecDepth 20000 in
/-- Both authorization rules confirm the expired signature. -/
theorem confirmed_twice :
    (@analyze Strkey.standard twoAuthFailures).confirmedCauses.map CandidateCause.causeClass
        = [.invalidAuthorizationEntry, .missingAuthorizationEntry] ∧
      ¬ (@analyze Strkey.standard twoAuthFailures).confirmedCauses.length ≤ 1 := by
  let _ : Strkey := Strkey.standard
  decide

/-- An unauthorized call the contract caught; the budget ran out later. -/
def caughtUnauthorized : AnalysisInput :=
  { signedInput with
    diagnosticEvents :=
      [call none (cid 5) "f", unauthorizedEvent (.contract (cid 8)),
        hostFnFailed (.budget .exceededLimit)] }

set_option maxRecDepth 20000 in
/-- The caught error is the only candidate, and likely. -/
theorem likely_caught :
    let _ : Strkey := Strkey.standard
    (analyze caughtUnauthorized).stage = some .contractExecution ∧
      (analyze caughtUnauthorized).verdict = .explained .likely ∧
      ∃ c ∈ (analyze caughtUnauthorized).candidateCauses,
        .likely ≤ c.confidence ∧ ¬ EndedWith caughtUnauthorized c := by
  intro _
  have hcandidate : ∃ c ∈ (analyze caughtUnauthorized).candidateCauses,
      .likely ≤ c.confidence ∧ builtOn caughtUnauthorized c.causeClass
        = some (.auth .invalidAction) := by decide
  have hterminal : rawTerminal caughtUnauthorized.diagnosticEvents
      = some (.budget .exceededLimit) := by decide
  refine ⟨by decide, by decide, ?_⟩
  obtain ⟨c, hc, hlikely, hbuilt⟩ := hcandidate
  refine ⟨c, hc, hlikely, ?_⟩
  rintro ⟨error, hended, hon⟩
  rw [hterminal] at hended
  rw [hbuilt] at hon
  obtain rfl := Option.some.inj hended
  cases hon

set_option maxRecDepth 20000 in
/-- An unauthorized call that did end the invocation. -/
theorem likely_ended_unauthorized :
    let _ : Strkey := Strkey.standard
    ∃ c ∈ (analyze twoAuthFailures).candidateCauses,
      c.causeClass = .missingAuthorizationEntry ∧ EndedWith twoAuthFailures c := by
  intro _
  have hcandidate : ∃ c ∈ (analyze twoAuthFailures).candidateCauses,
      c.causeClass = .missingAuthorizationEntry ∧ c.confidence = .confirmed := by decide
  obtain ⟨c, hc, hclass, hconfirmed⟩ := hcandidate
  refine ⟨c, hc, hclass, ?_⟩
  have hlikely : .likely ≤ c.confidence := by
    rw [hconfirmed]
    decide
  rcases likely_ended twoAuthFailures (by decide) c hc hlikely with hended | ⟨-, hl⟩
  · exact hended
  · rw [hconfirmed] at hl
    cases hl

end Observatory
