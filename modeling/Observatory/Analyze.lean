import Observatory.Rules.ContractError
import Observatory.Rules.ContractTrap
import Observatory.Rules.ResultCode

/-!
# The analyser

`analyze_with` (`lib.rs`) builds the model, resolves the contract errors, runs
every rule of a registry in order, ranks the candidates, and states what could
not be established.  `analyze` does so with the rules of `builtin`.

The loop over the rules keeps two accumulators; `foldl_runRule` says that these
are the candidates and the reports of the single rules, and
`mem_candidateCauses` that a candidate of the diagnosis is the match of a rule.
-/

namespace Observatory

section Analyze

variable [Strkey]

/-- `RuleRegistry::builtin`: the rules shipped with the crate, in evaluation order. -/
def builtin : List Rule :=
  [archivedEntry, resourceLimitExceeded, insufficientResourceFee, contractDefinedError,
    invalidAuthorizationEntry, footprintEntryMissing, contractTrap, missingAuthorizationEntry]

/-- What the rules are given for an input. -/
def failureContext (input : AnalysisInput) : FailureContext :=
  let model := TransactionModel.fromInput input
  { input
    model
    stage := model.stage.getD .unknown
    contractErrors := resolveContractErrors model input.contractSpecs }

/-- The report on one rule. -/
def Rule.report (rule : Rule) (ctx : FailureContext) : RuleReport :=
  ⟨rule.id, (rule.evaluate ctx).status, (rule.evaluate ctx).reason⟩

/-- The body of the loop over the rules. -/
def runRule (ctx : FailureContext) (acc : List CandidateCause × List RuleReport) (rule : Rule) :
    List CandidateCause × List RuleReport :=
  match rule.evaluate ctx with
  | .matched cause => (acc.1 ++ [cause], acc.2 ++ [⟨rule.id, .matched, none⟩])
  | .noEvidence reason => (acc.1, acc.2 ++ [⟨rule.id, .noEvidence, some reason⟩])
  | .notApplicable reason => (acc.1, acc.2 ++ [⟨rule.id, .notApplicable, some reason⟩])

/-- Candidates by confidence, strongest first. -/
def ranked (causes : List CandidateCause) : List CandidateCause :=
  causes.insertionSort (fun a b => b.confidence ≤ a.confidence)

/-- The limitation on the outcome of the rules. -/
def outcomeLimitation (stage : Option FailureStage) (causes : List CandidateCause)
    (reports : List RuleReport) : List String :=
  match stage with
  | none => ["The transaction succeeded; there is no failure to analyse."]
  | some stage =>
      if causes.isEmpty then
        if reports.any (fun r => decide (r.status = .noEvidence)) then
          ["No rule could establish a cause: the evidence each applicable rule needs is absent " ++
            "or inconclusive. `rule_reports` states what each one lacked."]
        else
          [s!"No implemented rule covers failures at stage `{stage}`; the cause is reported as " ++
            "unsupported rather than guessed."]
      else []

/-- The limitation on contract errors without a name. -/
def unnamedLimitation (reports : List ContractErrorReport) : List String :=
  let unnamed := (reports.filter (fun r => r.resolution.name.isNone)).length
  if unnamed > 0 then
    [s!"{unnamed} contract error code(s) could not be named; each report in `contract_errors` " ++
      "states why."]
  else []

/-- The limitation on missing diagnostic events. -/
def diagnosticsLimitation (enabled : Bool) : List String :=
  if enabled then []
  else ["Diagnostic events were not available from the source. Their absence carries no " ++
    "information: the node may simply not emit them."]

/-- Analyse a transaction against a rule registry. -/
def analyzeWith (input : AnalysisInput) (registry : List Rule) : Diagnosis :=
  let ctx := failureContext input
  let stage := ctx.model.stage
  let run := registry.foldl (runRule ctx) ([], [])
  { transactionHash := input.transactionHash
    stage
    candidateCauses := ranked run.1
    contractErrors := ctx.contractErrors
    ruleReports := run.2
    limitations := outcomeLimitation stage (ranked run.1) run.2
      ++ unnamedLimitation ctx.contractErrors ++ diagnosticsLimitation input.diagnosticsEnabled
    rulesEvaluated := registry.length }

/-- Analyse a transaction with the built-in rules. -/
def analyze (input : AnalysisInput) : Diagnosis := analyzeWith input builtin

/-! ## The loop over the rules -/

omit [Strkey] in
/-- The loop collects the candidates and the reports of the single rules. -/
theorem foldl_runRule (ctx : FailureContext) (registry : List Rule)
    (acc : List CandidateCause × List RuleReport) :
    registry.foldl (runRule ctx) acc
      = (acc.1 ++ registry.filterMap (fun rule => (rule.evaluate ctx).candidate),
          acc.2 ++ registry.map (fun rule => rule.report ctx)) := by
  induction registry generalizing acc with
  | nil => simp
  | cons rule registry ih =>
      rw [List.foldl_cons, ih, runRule, List.map_cons, Rule.report]
      cases h : rule.evaluate ctx with
      | matched cause =>
          simp [h, RuleOutcome.candidate, RuleOutcome.status, RuleOutcome.reason]
      | noEvidence reason =>
          simp [h, RuleOutcome.candidate, RuleOutcome.status, RuleOutcome.reason]
      | notApplicable reason =>
          simp [h, RuleOutcome.candidate, RuleOutcome.status, RuleOutcome.reason]

theorem candidateCauses_analyzeWith (input : AnalysisInput) (registry : List Rule) :
    (analyzeWith input registry).candidateCauses
      = ranked (registry.filterMap
          (fun rule => (rule.evaluate (failureContext input)).candidate)) := by
  show ranked (registry.foldl (runRule (failureContext input)) ([], [])).1 = _
  rw [foldl_runRule]
  rfl

theorem ruleReports_analyzeWith (input : AnalysisInput) (registry : List Rule) :
    (analyzeWith input registry).ruleReports
      = registry.map (fun rule => rule.report (failureContext input)) := by
  show (registry.foldl (runRule (failureContext input)) ([], [])).2 = _
  rw [foldl_runRule]
  rfl

/-- **Candidates come from rules.**  A candidate of a diagnosis is what some rule of
the registry matched with. -/
theorem mem_candidateCauses {input : AnalysisInput} {registry : List Rule} {c : CandidateCause} :
    c ∈ (analyzeWith input registry).candidateCauses ↔
      ∃ rule ∈ registry, rule.evaluate (failureContext input) = .matched c := by
  rw [candidateCauses_analyzeWith, ranked, List.mem_insertionSort, List.mem_filterMap]
  simp only [RuleOutcome.candidate_eq_some]

/-- **What a diagnosis depends on.**  Two inputs are diagnosed alike when every rule
answers alike on them and the parts copied into the diagnosis agree. -/
theorem analyzeWith_congr {input input' : AnalysisInput} {registry : List Rule}
    (hrules : ∀ rule ∈ registry,
      rule.evaluate (failureContext input) = rule.evaluate (failureContext input'))
    (hhash : input.transactionHash = input'.transactionHash)
    (hstage : (failureContext input).model.stage = (failureContext input').model.stage)
    (herrors : (failureContext input).contractErrors = (failureContext input').contractErrors)
    (henabled : input.diagnosticsEnabled = input'.diagnosticsEnabled) :
    analyzeWith input registry = analyzeWith input' registry := by
  have hcauses : registry.filterMap (fun rule => (rule.evaluate (failureContext input)).candidate)
      = registry.filterMap (fun rule => (rule.evaluate (failureContext input')).candidate) := by
    apply List.filterMap_congr
    intro rule hrule
    rw [hrules rule hrule]
  have hreports : registry.map (fun rule => rule.report (failureContext input))
      = registry.map (fun rule => rule.report (failureContext input')) := by
    apply List.map_congr_left
    intro rule hrule
    rw [Rule.report, Rule.report, hrules rule hrule]
  unfold analyzeWith
  simp only [foldl_runRule, List.nil_append, hcauses, hreports, hhash, hstage, herrors, henabled]

/-- No rule matched exactly when there is no candidate. -/
theorem candidateCauses_eq_nil {input : AnalysisInput} {registry : List Rule} :
    (analyzeWith input registry).candidateCauses = [] ↔
      ∀ rule ∈ registry, (rule.evaluate (failureContext input)).status ≠ .matched := by
  rw [List.eq_nil_iff_forall_not_mem]
  constructor
  · intro h rule hrule hstatus
    obtain ⟨c, ho⟩ := RuleOutcome.status_eq_matched.mp hstatus
    exact h c (mem_candidateCauses.mpr ⟨rule, hrule, ho⟩)
  · intro h c hc
    obtain ⟨rule, hrule, ho⟩ := mem_candidateCauses.mp hc
    exact h rule hrule (RuleOutcome.status_eq_matched.mpr ⟨c, ho⟩)

end Analyze

end Observatory
