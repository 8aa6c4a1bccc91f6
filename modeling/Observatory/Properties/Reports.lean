import Observatory.Lib.Ranking
import Observatory.Testutil

/-!
# The reports on contract errors

`resolve_contract_errors` reports every contract error code of a transaction, each
once, the terminal one first and the others by first appearance, and cites the
events that carry it.

* `contractErrorCodes_eq` — the codes, in order.
* `ReportsComplete` — what the list of reports has to be, and
  `resolveContractErrors_complete`.
* `exists_terminalReport` — the report `contract_defined_error` looks for is there.
-/

namespace Observatory

/-! ## The codes -/

theorem contractCode_eq_some {error : ScError} {code : UInt32} :
    error.contractCode = some code ↔ error = .contract code := by
  cases error <;> simp [ScError.contractCode]

namespace TransactionModel

/-- The codes the error events carry, once for each event. -/
def raisedCodes (model : TransactionModel) : List UInt32 :=
  model.diagnostics.errors.filterMap (fun x => x.error.contractCode)

/-- An error event carries this code. -/
def Raises (model : TransactionModel) (code : UInt32) : Prop :=
  ∃ x ∈ model.diagnostics.errors, x.error = .contract code

/-- The invocation as a whole failed with this code. -/
def EndedWith (model : TransactionModel) (code : UInt32) : Prop :=
  ∃ t, model.diagnostics.terminalError = some t ∧ t.error = .contract code

theorem mem_raisedCodes {model : TransactionModel} {code : UInt32} :
    code ∈ model.raisedCodes ↔ model.Raises code := by
  unfold raisedCodes Raises
  rw [List.mem_filterMap]
  simp only [contractCode_eq_some]

theorem terminalCode_eq_some {model : TransactionModel} {code : UInt32} :
    model.terminalCode = some code ↔ model.EndedWith code := by
  unfold terminalCode EndedWith
  rw [Option.bind_eq_some_iff]
  simp only [contractCode_eq_some]

end TransactionModel

/-- **The codes.**  The terminal one, and then the others by first appearance. -/
theorem contractErrorCodes_eq (model : TransactionModel) :
    contractErrorCodes model = model.terminalCode.toList
      ++ (Scan.distinct model.raisedCodes).filter (fun c => some c != model.terminalCode) := by
  have hraised : (model.diagnostics.errors.filterMap (fun x => x.error.contractCode)).foldl
      Scan.pushNew [] = Scan.distinct model.raisedCodes := rfl
  unfold contractErrorCodes
  rw [hraised]
  simp only [Ranking.insertionSort_flag (fun c => some c != model.terminalCode)]
  cases hterminal : model.terminalCode with
  | none => simp
  | some code =>
      simp only [Option.toList_some, bne, Bool.not_not, Option.some_beq_some]
      rw [Scan.filter_beq_pushNew (Scan.nodup_distinct _) code]
      congr 1
      exact Scan.filter_bne_pushNew _ code

theorem nodup_contractErrorCodes (model : TransactionModel) : (contractErrorCodes model).Nodup := by
  rw [contractErrorCodes_eq, List.nodup_append]
  refine ⟨?_, (Scan.nodup_distinct _).filter _, ?_⟩
  · cases model.terminalCode <;> simp
  · intro a ha b hb
    rintro rfl
    have hterminal := Option.mem_toList.mp ha
    have hother := (List.mem_filter.mp hb).2
    rw [bne_iff_ne] at hother
    exact hother hterminal.symm

theorem mem_contractErrorCodes {model : TransactionModel} {code : UInt32} :
    code ∈ contractErrorCodes model ↔ model.Raises code ∨ model.EndedWith code := by
  rw [contractErrorCodes_eq, List.mem_append, Option.mem_toList,
    TransactionModel.terminalCode_eq_some, List.mem_filter, Scan.mem_distinct,
    TransactionModel.mem_raisedCodes, bne_iff_ne]
  constructor
  · rintro (hended | ⟨hraised, -⟩)
    · exact Or.inr hended
    · exact Or.inl hraised
  · rintro (hraised | hended)
    · by_cases hterminal : some code = model.terminalCode
      · exact Or.inl (TransactionModel.terminalCode_eq_some.mp hterminal.symm)
      · exact Or.inr ⟨hraised, hterminal⟩
    · exact Or.inl hended

/-! ## The reports -/

/-- The indexes of the events that carry a code: the error events, and the event that
ended the invocation. -/
def TransactionModel.carriers (model : TransactionModel) (code : UInt32) : List UInt32 :=
  (model.diagnostics.errors.filter (fun x => x.error == .contract code)).map
      (fun x => x.event.index)
    ++ (model.diagnostics.terminalError.toList.filter (fun t => t.error == .contract code)).map
      TerminalError.eventIndex

/-- What the reports on a model's contract errors have to be. -/
structure ReportsComplete (model : TransactionModel) (reports : List ContractErrorReport) :
    Prop where
  /-- No code is reported twice. -/
  distinct : (reports.map ContractErrorReport.code).Nodup
  /-- The codes reported are those carried by an error event or by the terminal error. -/
  carried : ∀ code, code ∈ reports.map ContractErrorReport.code ↔
    model.Raises code ∨ model.EndedWith code
  /-- The report marked terminal is the one on the terminal error. -/
  terminal : ∀ report ∈ reports, report.terminal = true ↔ model.EndedWith report.code
  /-- There is one exactly when the terminal error is a contract error. -/
  exactlyOne : (∃! report, report ∈ reports ∧ report.terminal = true) ↔
    ∃ code, model.EndedWith code
  /-- It comes first. -/
  first : ∀ report ∈ reports, report.terminal = true → reports.head? = some report
  /-- The others follow in order of first appearance. -/
  ordered : ((reports.filter (fun r => !r.terminal)).map ContractErrorReport.code).Pairwise
    (fun a b => model.raisedCodes.idxOf a < model.raisedCodes.idxOf b)
  /-- A report cites the events that carry its code, and there are some. -/
  cited : ∀ report ∈ reports, report.eventIndexes ≠ [] ∧
    report.eventIndexes = model.carriers report.code

section Reports

variable {model : TransactionModel} {specs : ContractId → Option SpecAvailability}

theorem map_code_resolveContractErrors :
    (resolveContractErrors model specs).map ContractErrorReport.code
      = contractErrorCodes model := by
  unfold resolveContractErrors
  rw [List.map_map]
  exact List.map_id _

theorem terminal_of_mem {report : ContractErrorReport}
    (h : report ∈ resolveContractErrors model specs) :
    report.terminal = true ↔ model.EndedWith report.code := by
  rw [mem_resolveContractErrors h, ← TransactionModel.terminalCode_eq_some]
  simp only [contractErrorReport, beq_iff_eq]
  exact eq_comm

/-- Two terminal reports are the same one. -/
theorem terminal_unique {report report' : ContractErrorReport}
    (h : report ∈ resolveContractErrors model specs) (ht : report.terminal = true)
    (h' : report' ∈ resolveContractErrors model specs) (ht' : report'.terminal = true) :
    report = report' := by
  have hcode : some report.code = some report'.code := by
    rw [← TransactionModel.terminalCode_eq_some.mpr ((terminal_of_mem h).mp ht),
      ← TransactionModel.terminalCode_eq_some.mpr ((terminal_of_mem h').mp ht')]
  rw [mem_resolveContractErrors h, mem_resolveContractErrors h', Option.some.inj hcode]

/-- The terminal report stands first. -/
theorem head?_of_endedWith {code : UInt32} (h : model.EndedWith code) :
    (resolveContractErrors model specs).head? = some (contractErrorReport model specs code) := by
  unfold resolveContractErrors
  rw [contractErrorCodes_eq, TransactionModel.terminalCode_eq_some.mpr h]
  rfl

/-- **The terminal report** is there when the invocation ended with a contract error. -/
theorem exists_terminalReport (specs : ContractId → Option SpecAvailability) {code : UInt32}
    (h : model.EndedWith code) :
    ∃ report ∈ resolveContractErrors model specs, report.terminal = true ∧
      report.code = code := by
  have hmem : contractErrorReport model specs code ∈ resolveContractErrors model specs :=
    List.mem_of_head? (head?_of_endedWith h)
  exact ⟨_, hmem, (terminal_of_mem hmem).mpr h, rfl⟩

theorem eventIndexes_contractErrorReport (code : UInt32) :
    (contractErrorReport model specs code).eventIndexes = model.carriers code := by
  unfold contractErrorReport TransactionModel.carriers
  cases model.diagnostics.terminalError with
  | none => rfl
  | some t => by_cases h : t.error = .contract code <;> simp [h]

/-- A code that is carried has an event that carries it. -/
theorem carriers_ne_nil {code : UInt32} (h : model.Raises code ∨ model.EndedWith code) :
    model.carriers code ≠ [] := by
  unfold TransactionModel.carriers
  rcases h with ⟨x, hx, hcode⟩ | ⟨t, ht, hcode⟩
  · apply List.append_ne_nil_of_left_ne_nil
    have hmem : x ∈ model.diagnostics.errors.filter (fun x => x.error == .contract code) :=
      List.mem_filter.mpr ⟨hx, beq_iff_eq.mpr hcode⟩
    exact List.ne_nil_of_mem (List.mem_map_of_mem hmem)
  · apply List.append_ne_nil_of_right_ne_nil
    simp [ht, hcode]

/-- The reports that are not terminal, in order. -/
theorem map_code_filter_terminal :
    ((resolveContractErrors model specs).filter (fun r => !r.terminal)).map
        ContractErrorReport.code
      = (Scan.distinct model.raisedCodes).filter (fun c => some c != model.terminalCode) := by
  have hcodes : ((resolveContractErrors model specs).filter (fun r => !r.terminal)).map
      ContractErrorReport.code
        = (contractErrorCodes model).filter (fun c => some c != model.terminalCode) := by
    unfold resolveContractErrors
    rw [List.filter_map, List.map_map]
    exact List.map_id _
  rw [hcodes, contractErrorCodes_eq, List.filter_append, List.filter_filter]
  cases model.terminalCode <;> simp

/-- **The reports** on contract errors are complete, distinct and correctly cited. -/
theorem reportsComplete (model : TransactionModel)
    (specs : ContractId → Option SpecAvailability) :
    ReportsComplete model (resolveContractErrors model specs) where
  distinct := by
    rw [map_code_resolveContractErrors]
    exact nodup_contractErrorCodes model
  carried code := by
    rw [map_code_resolveContractErrors]
    exact mem_contractErrorCodes
  terminal report h := terminal_of_mem h
  exactlyOne := by
    constructor
    · rintro ⟨report, ⟨hmem, ht⟩, -⟩
      exact ⟨report.code, (terminal_of_mem hmem).mp ht⟩
    · rintro ⟨code, h⟩
      obtain ⟨report, hmem, ht, -⟩ := exists_terminalReport specs h
      exact ⟨report, ⟨hmem, ht⟩, fun other hother => terminal_unique hother.1 hother.2 hmem ht⟩
  first report hmem ht := by
    rw [head?_of_endedWith ((terminal_of_mem hmem).mp ht), ← mem_resolveContractErrors hmem]
  ordered := by
    rw [map_code_filter_terminal]
    exact (Scan.firstAppearances_distinct model.raisedCodes).ordered.filter _
  cited report hmem := by
    have hcode : report.code ∈ (resolveContractErrors model specs).map ContractErrorReport.code :=
      List.mem_map_of_mem hmem
    rw [map_code_resolveContractErrors, mem_contractErrorCodes] at hcode
    have hindexes : report.eventIndexes = model.carriers report.code := by
      rw [mem_resolveContractErrors hmem]
      exact eventIndexes_contractErrorReport report.code
    rw [hindexes]
    exact ⟨carriers_ne_nil hcode, rfl⟩

end Reports

/-! ## The rule that takes its report -/

section Rule

variable [Strkey]

omit [Strkey] in
/-- The rule finds the terminal report of the code the invocation ended with. -/
theorem find?_terminalReport {model : TransactionModel}
    (specs : ContractId → Option SpecAvailability) {code : UInt32} (h : model.EndedWith code) :
    ∃ report, (resolveContractErrors model specs).find?
      (fun r => r.terminal && r.code == code) = some report := by
  obtain ⟨report, hmem, ht, hcode⟩ := exists_terminalReport specs h
  rw [← Option.isSome_iff_exists, List.find?_isSome]
  exact ⟨report, hmem, by rw [ht, hcode, beq_self_eq_true, Bool.and_self]⟩

/-- What the rule can miss is events, or an event that states the error. -/
theorem contractDefinedError_noEvidence {input : AnalysisInput} {reason : String}
    (h : contractDefinedError.evaluate (failureContext input) = .noEvidence reason) :
    reason = "diagnostic events were not available, and a contract-defined error is only " ++
        "visible in them" ∨
      reason = "no `host_fn_failed` event states which error ended the invocation" := by
  change contractDefinedErrorEvaluate (failureContext input) = _ at h
  unfold contractDefinedErrorEvaluate at h
  cases hgate : executionGate (failureContext input).model
      "a contract-defined error ends contract execution with a trap"
      ("diagnostic events were not available, and a contract-defined error is only visible in " ++
        "them") with
  | error o =>
      rw [hgate] at h
      obtain rfl : o = .noEvidence reason := h
      exact Or.inl (executionGate_noEvidence hgate)
  | ok _ =>
      rw [hgate] at h
      cases hterminal : (failureContext input).model.diagnostics.terminalError with
      | none =>
          simp only [behindGate, hterminal, RuleOutcome.noEvidence.injEq] at h
          exact Or.inr h.symm
      | some t =>
          simp only [behindGate, hterminal] at h
          split at h
          · next code hcode =>
            -- the resolver has reported on the terminal code
            have hended : (failureContext input).model.EndedWith code := ⟨t, hterminal, hcode⟩
            obtain ⟨report, hreport⟩ := find?_terminalReport input.contractSpecs hended
            have hfind : (failureContext input).contractErrors.find?
                (fun r => r.terminal && r.code == code) = some report := hreport
            rw [hfind] at h
            cases h
          · cases h

omit [Strkey] in
/-- The text of the answer for want of a report is none of these. -/
theorem noReport_ne {code : UInt32} {reason : String}
    (h : reason = "diagnostic events were not available, and a contract-defined error is only " ++
        "visible in them" ∨
      reason = "no `host_fn_failed` event states which error ended the invocation") :
    reason ≠ s!"no resolution report exists for the terminal error #{code}" := by
  have htake : (s!"no resolution report exists for the terminal error #{code}").toList.take 4
      = "no r".toList := by
    show ("no resolution report exists for the terminal error #" ++ toString code).toList.take 4 = _
    rw [String.toList_append, List.take_append_of_le_length (by decide)]
    decide
  rintro rfl
  rcases h with h | h
  · rw [h] at htake
    revert htake
    decide
  · rw [h] at htake
    revert htake
    decide

omit [Strkey] in
/-- An outcome that is reported as missing evidence is one. -/
theorem report_noEvidence {rule : Rule} {ctx : FailureContext} {id reason : String}
    (h : rule.report ctx = ⟨id, .noEvidence, some reason⟩) :
    rule.evaluate ctx = .noEvidence reason := by
  unfold Rule.report at h
  cases ho : rule.evaluate ctx with
  | matched c =>
      rw [ho] at h
      cases h
  | noEvidence other =>
      rw [ho] at h
      cases h
      rfl
  | notApplicable other =>
      rw [ho] at h
      cases h

/-- The built-in rules have identifiers of their own. -/
theorem nodup_builtin_ids : (builtin.map Rule.id).Nodup := by
  have hids : builtin.map Rule.id = ["archived_entry", "resource_limit_exceeded",
      "insufficient_resource_fee", "contract_defined_error", "invalid_authorization_entry",
      "footprint_entry_missing", "contract_trap", "missing_authorization_entry"] := rfl
  rw [hids]
  decide

/-- **Reports.**  For every model the reports are complete, distinct and correctly
cited, and so an analysis never answers that the report on the terminal error does
not exist. -/
theorem resolveContractErrors_complete :
    (∀ (model : TransactionModel) (specs : ContractId → Option SpecAvailability),
      ReportsComplete model (resolveContractErrors model specs)) ∧
    ∀ (input : AnalysisInput) (code : UInt32),
      ⟨"contract_defined_error", .noEvidence,
          some s!"no resolution report exists for the terminal error #{code}"⟩
        ∉ (analyze input).ruleReports := by
  refine ⟨reportsComplete, ?_⟩
  intro input code hmem
  rw [analyze, ruleReports_analyzeWith] at hmem
  obtain ⟨rule, hrule, hreport⟩ := List.mem_map.mp hmem
  have hid : rule.id = "contract_defined_error" := congrArg RuleReport.ruleId hreport
  obtain rfl : rule = contractDefinedError :=
    List.inj_on_of_nodup_map nodup_builtin_ids hrule (by simp [builtin]) hid
  exact noReport_ne (contractDefinedError_noEvidence (report_noEvidence hreport)) rfl

end Rule

end Observatory
