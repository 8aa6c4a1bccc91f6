import Observatory.Testutil

/-!
# Attribution under lost events

What losing diagnostic events does to the contract a terminal error is attributed
to.  `identify` trusts a sole emitter without asking for the host's origin
marker, so when the events of the contract that raised the error are lost, a
caller that re-emitted its code is left as the sole emitter.

* `EmittedBy`, `RaisedBy`, `OnlyOrigin` — who emitted a code, and who raised it,
  in terms of the raw events.
* `identify_unique` — attribution in those terms.
* `attribution_kept` — a confirmed attribution survives the lost events coming
  back exactly when no other contract is the only origin among all the events.
-/

namespace Observatory

/-- An error event of `c` carries this code. -/
def EmittedBy (raw : List DiagnosticEvent) (code : UInt32) (c : ContractId) : Prop :=
  ∃ r ∈ raw, ∃ message, eventKind r.topics r.data = .error (.contract code) message ∧
    r.contractId = some c

/-- An error event of `c` carries this code and the origin marker. -/
def RaisedBy (raw : List DiagnosticEvent) (code : UInt32) (c : ContractId) : Prop :=
  ∃ r ∈ raw, ∃ message, eventKind r.topics r.data = .error (.contract code) (some message) ∧
    startsWith message originMarker = true ∧ r.contractId = some c

/-- The origin marker comes with this code from `c`, and from no other contract. -/
def OnlyOrigin (raw : List DiagnosticEvent) (code : UInt32) (c : ContractId) : Prop :=
  RaisedBy raw code c ∧ ∀ d, RaisedBy raw code d → d = c

/-- `c` emitted this code, and no other contract did. -/
def OnlyEmitter (raw : List DiagnosticEvent) (code : UInt32) (c : ContractId) : Prop :=
  EmittedBy raw code c ∧ ∀ d, EmittedBy raw code d → d = c

/-! ## Attribution in terms of the raw events -/

theorem RaisedBy.emittedBy {raw : List DiagnosticEvent} {code : UInt32} {c : ContractId}
    (h : RaisedBy raw code c) : EmittedBy raw code c := by
  obtain ⟨r, hr, message, hkind, -, hc⟩ := h
  exact ⟨r, hr, some message, hkind, hc⟩

theorem EmittedBy.mono {kept raw : List DiagnosticEvent} {code : UInt32} {c : ContractId}
    (hsub : kept ⊆ raw) (h : EmittedBy kept code c) : EmittedBy raw code c := by
  obtain ⟨r, hr, rest⟩ := h
  exact ⟨r, hsub hr, rest⟩

theorem mem_emittersOf_fromEvents {raw : List DiagnosticEvent} {enabled : Bool} {code : UInt32}
    {c : ContractId} :
    c ∈ emittersOf code (Diagnostics.fromEvents raw enabled).errors ↔ EmittedBy raw code c := by
  rw [mem_emittersOf]
  constructor
  · rintro ⟨x, hx, herror, hc⟩
    obtain ⟨i, r, ⟨hr, hkind⟩, hevent⟩ := mem_errors_fromEvents.mp hx
    rw [herror] at hkind
    rw [hevent] at hc
    exact ⟨r, List.mem_of_getElem? hr, x.message, hkind, hc⟩
  · rintro ⟨r, hr, message, hkind, hc⟩
    obtain ⟨i, hi⟩ := List.getElem?_of_mem hr
    refine ⟨⟨DiagEvent.classify (u32OrMax i) r, .contract code, message⟩, ?_, rfl, hc⟩
    exact mem_errors_fromEvents.mpr ⟨i, r, ⟨hi, hkind⟩, rfl⟩

theorem isOrigin_eq_true {x : ErrorEvent} :
    x.isOrigin = true ↔ ∃ message, x.message = some message ∧
      startsWith message originMarker = true := by
  unfold ErrorEvent.isOrigin
  cases x.message with
  | none => simp
  | some message => simp

theorem mem_originsOf_fromEvents {raw : List DiagnosticEvent} {enabled : Bool} {code : UInt32}
    {c : ContractId} :
    c ∈ originsOf code (Diagnostics.fromEvents raw enabled).errors ↔ RaisedBy raw code c := by
  rw [mem_originsOf]
  constructor
  · rintro ⟨x, hx, horigin, herror, hc⟩
    obtain ⟨i, r, ⟨hr, hkind⟩, hevent⟩ := mem_errors_fromEvents.mp hx
    obtain ⟨message, hmessage, hmarker⟩ := isOrigin_eq_true.mp horigin
    rw [herror, hmessage] at hkind
    rw [hevent] at hc
    exact ⟨r, List.mem_of_getElem? hr, message, hkind, hmarker, hc⟩
  · rintro ⟨r, hr, message, hkind, hmarker, hc⟩
    obtain ⟨i, hi⟩ := List.getElem?_of_mem hr
    refine ⟨⟨DiagEvent.classify (u32OrMax i) r, .contract code, some message⟩, ?_, hmarker,
      rfl, hc⟩
    exact mem_errors_fromEvents.mpr ⟨i, r, ⟨hi, hkind⟩, rfl⟩

section Attribution

variable [Strkey]

/-- **Attribution.**  A contract is named when it is the only emitter of the code, or
when there are several and it is the only origin. -/
theorem identify_unique {input : AnalysisInput} {code : UInt32} {c : ContractId}
    {basis : IdentificationBasis} :
    identify (TransactionModel.fromInput input) code = .unique c basis ↔
      OnlyEmitter input.diagnosticEvents code c ∧ basis = .soleEmitter ∨
        (∀ d, ¬ OnlyEmitter input.diagnosticEvents code d) ∧
          OnlyOrigin input.diagnosticEvents code c ∧ basis = .originMarker := by
  have herrors : (TransactionModel.fromInput input).diagnostics.errors
      = (Diagnostics.fromEvents input.diagnosticEvents input.diagnosticsEnabled).errors := rfl
  have hemitters : ∀ d, Scan.distinct (emittersOf code
      (Diagnostics.fromEvents input.diagnosticEvents input.diagnosticsEnabled).errors) = [d] ↔
        OnlyEmitter input.diagnosticEvents code d := by
    intro d
    rw [Scan.distinct_eq_singleton]
    simp only [mem_emittersOf_fromEvents, OnlyEmitter]
  have horigins : Scan.distinct (originsOf code
      (Diagnostics.fromEvents input.diagnosticEvents input.diagnosticsEnabled).errors) = [c] ↔
        OnlyOrigin input.diagnosticEvents code c := by
    rw [Scan.distinct_eq_singleton]
    simp only [mem_originsOf_fromEvents, OnlyOrigin]
  rw [identify_eq, decideEmitter_eq_unique, herrors, hemitters, horigins]
  constructor
  · rintro (h | ⟨-, hnone, h⟩)
    · exact Or.inl h
    · exact Or.inr ⟨fun d hd => hnone d ((hemitters d).mpr hd), h⟩
  · rintro (h | ⟨hnone, h⟩)
    · exact Or.inl h
    · refine Or.inr ⟨?_, fun d hd => hnone d ((hemitters d).mp hd), h⟩
      -- the origin is itself an emitter
      have hmem : c ∈ emittersOf code
          (Diagnostics.fromEvents input.diagnosticEvents input.diagnosticsEnabled).errors :=
        mem_emittersOf_fromEvents.mpr h.1.1.emittedBy
      intro hnil
      rw [Scan.distinct_eq_nil] at hnil
      rw [hnil] at hmem
      exact List.not_mem_nil hmem

/-- An attributed contract emitted the code. -/
theorem emittedBy_of_identify {input : AnalysisInput} {code : UInt32} {c : ContractId}
    (h : (identify (TransactionModel.fromInput input) code).contract = some c) :
    EmittedBy input.diagnosticEvents code c := by
  obtain ⟨basis, hid⟩ := ContractIdentification.contract_eq_some.mp h
  rcases identify_unique.mp hid with ⟨⟨hemitted, -⟩, -⟩ | ⟨-, ⟨hraised, -⟩, -⟩
  · exact hemitted
  · exact hraised.emittedBy

/-! ## Lost events -/

/-- The diagnosis confirms a contract-defined error and attributes its terminal code
to `c`. -/
def ConfirmedFor (input : AnalysisInput) (code : UInt32) (c : ContractId) : Prop :=
  (∃ cause ∈ (analyze input).candidateCauses,
      cause.causeClass = .contractDefinedError ∧ cause.confidence = .confirmed) ∧
    ∃ report ∈ (analyze input).contractErrors, report.terminal = true ∧ report.code = code ∧
      report.identification.contract = some c

/-- The code is not attributed to a contract other than `c`. -/
def NotMoved (input : AnalysisInput) (code : UInt32) (c : ContractId) : Prop :=
  ∀ d basis, identify (TransactionModel.fromInput input) code = .unique d basis → d = c

/-- **Lost events.**  A code that is confirmed for `c` on some of the events is not
attributed to another contract on all of them exactly when no other contract is the
only origin of the code. -/
theorem attribution_kept (input : AnalysisInput) (kept : List DiagnosticEvent) (code : UInt32)
    (c : ContractId) (hkept : kept.Sublist input.diagnosticEvents)
    (hconfirmed : ConfirmedFor { input with diagnosticEvents := kept } code c) :
    NotMoved input code c ↔ ∀ d, OnlyOrigin input.diagnosticEvents code d → d = c := by
  obtain ⟨-, report, hreport, -, rfl, hcontract⟩ := hconfirmed
  rw [mem_resolveContractErrors hreport] at hcontract
  have hemitted : EmittedBy input.diagnosticEvents report.code c :=
    (emittedBy_of_identify hcontract).mono hkept.subset
  constructor
  · intro hstays d horigin
    by_contra hne
    -- both `c` and `d` emitted the code, so there is no sole emitter
    have hseveral : ∀ e, ¬ OnlyEmitter input.diagnosticEvents report.code e := by
      rintro e ⟨-, honly⟩
      have hc : c = e := honly c hemitted
      have hd : d = e := honly d horigin.1.emittedBy
      exact hne (hd.trans hc.symm)
    exact hne (hstays d .originMarker (identify_unique.mpr (Or.inr ⟨hseveral, horigin, rfl⟩)))
  · intro honly d basis hid
    rcases identify_unique.mp hid with ⟨⟨-, hsole⟩, -⟩ | ⟨-, horigin, -⟩
    · exact (hsole c hemitted).symm
    · exact honly d horigin

end Attribution

/-! ## An attribution that moves -/

/-- `cid(5)` calls `cid(6)`, which raises its error 9; `cid(5)` re-emits the code.  A
spec for `cid(5)`, from WASM in the footprint, declares 9 as well. -/
def reEmittedInput : AnalysisInput :=
  { sorobanFailure .trapped [codeKey (.fill 9)]
      (some [call none (cid 5) "f", call (some (cid 5)) (cid 6) "g",
        err (cid 6) (.contract 9) "failing with contract error",
        err (cid 5) (.contract 9) "contract call failed",
        hostFnFailed (.contract 9)]) with
    contractSpecs := fun c =>
      if c = cid 5 then some (errorSpec (some (.fill 9)) [("Boom", 9)]) else none }

/-- The same events without the one of the contract that raised the error. -/
def withoutOrigin : List DiagnosticEvent :=
  [call none (cid 5) "f", call (some (cid 5)) (cid 6) "g",
    err (cid 5) (.contract 9) "contract call failed", hostFnFailed (.contract 9)]

theorem withoutOrigin_sublist : withoutOrigin.Sublist reEmittedInput.diagnosticEvents := by
  decide

set_option maxRecDepth 20000 in
theorem confirmedFor_withoutOrigin :
    @ConfirmedFor Strkey.standard { reEmittedInput with diagnosticEvents := withoutOrigin } 9
      (cid 5) := by
  let _ : Strkey := Strkey.standard
  refine ⟨?_, ?_⟩
  · show ∃ cause ∈ (analyze _).candidateCauses, _
    decide
  · show ∃ report ∈ (analyze _).contractErrors, _
    decide

/-- Without the origin's event the error is confirmed as an error of `cid(5)`; with it,
the error is that of `cid(6)`. -/
theorem attribution_moves :
    withoutOrigin.Sublist reEmittedInput.diagnosticEvents ∧
      @ConfirmedFor Strkey.standard { reEmittedInput with diagnosticEvents := withoutOrigin } 9
        (cid 5) ∧
      @identify (@TransactionModel.fromInput Strkey.standard reEmittedInput) 9
        = .unique (cid 6) .originMarker ∧
      ¬ @NotMoved Strkey.standard reEmittedInput 9 (cid 5) := by
  let _ : Strkey := Strkey.standard
  have hid : identify (TransactionModel.fromInput reEmittedInput) 9
      = .unique (cid 6) .originMarker := by decide
  refine ⟨withoutOrigin_sublist, confirmedFor_withoutOrigin, hid, ?_⟩
  intro hstays
  have heq : cid 6 = cid 5 := hstays (cid 6) .originMarker hid
  revert heq
  decide

theorem attribution_kept_withoutOrigin :
    @NotMoved Strkey.standard reEmittedInput 9 (cid 5) ↔
      ∀ d, OnlyOrigin reEmittedInput.diagnosticEvents 9 d → d = cid 5 :=
  @attribution_kept Strkey.standard reEmittedInput withoutOrigin 9 (cid 5) withoutOrigin_sublist
    confirmedFor_withoutOrigin

end Observatory
