import Observatory.Properties.Attribution
import Observatory.Properties.Confirmed
import Observatory.Properties.Identification
import Observatory.Properties.Reports

/-!
# What "raised by contract C" points at

The evidence of a contract-defined error says which contract raised it and cites a
diagnostic event for that.  The contract comes from `identify`, which looks for the
origin marker; the event is the first one that carries the code, whoever emitted it.

* `raisedAt_eq` — the event cited is the first one that carries the code.
* `citesRaiser_iff` — it is one of the contract that is named exactly when the first
  event with the code is that contract's.
-/

namespace Observatory

/-- An error event carries the code for the first time at position `p`. -/
def FirstRaise (raw : List DiagnosticEvent) (code : UInt32) (p : Nat) (message : Option String)
    (r : DiagnosticEvent) : Prop :=
  RaisesAt raw p (.contract code) message r ∧
    ∀ q < p, ∀ message' r', ¬ RaisesAt raw q (.contract code) message' r'

/-- The code can be attributed: one contract alone emitted it, or did so with the marker. -/
def Attributable (raw : List DiagnosticEvent) (code : UInt32) : Prop :=
  (∃ c, OnlyEmitter raw code c) ∨ ∃ c, OnlyOrigin raw code c

/-! ## The event cited -/

/-- Events are numbered in order. -/
theorem sorted_classifyAll (raw : List DiagnosticEvent) :
    (classifyAll raw).Pairwise (fun a b => a.index ≤ b.index) := by
  rw [List.pairwise_iff_getElem]
  intro i j hi hj hij
  simp only [classifyAll, List.getElem_mapIdx, DiagEvent.classify]
  exact u32OrMax_mono (Nat.le_of_lt hij)

/-- The indexes of the error events with a code. -/
def raisedIndexes (raw : List DiagnosticEvent) (enabled : Bool) (code : UInt32) : List UInt32 :=
  ((Diagnostics.fromEvents raw enabled).errors.filter (fun x => x.error == .contract code)).map
    (fun x => x.event.index)

theorem mem_raisedIndexes {raw : List DiagnosticEvent} {enabled : Bool} {code i : UInt32} :
    i ∈ raisedIndexes raw enabled code ↔
      ∃ q message r, RaisesAt raw q (.contract code) message r ∧ u32OrMax q = i := by
  unfold raisedIndexes
  rw [List.mem_map]
  constructor
  · rintro ⟨x, hx, rfl⟩
    obtain ⟨hx, hcode⟩ := List.mem_filter.mp hx
    obtain ⟨q, r, hraises, hevent⟩ := mem_errors_fromEvents.mp hx
    rw [beq_iff_eq.mp hcode] at hraises
    exact ⟨q, x.message, r, hraises, by rw [hevent]; rfl⟩
  · rintro ⟨q, message, r, hraises, rfl⟩
    refine ⟨⟨DiagEvent.classify (u32OrMax q) r, .contract code, message⟩, ?_, rfl⟩
    exact List.mem_filter.mpr
      ⟨mem_errors_fromEvents.mpr ⟨q, r, hraises, rfl⟩, beq_self_eq_true _⟩

theorem sorted_raisedIndexes (raw : List DiagnosticEvent) (enabled : Bool) (code : UInt32) :
    (raisedIndexes raw enabled code).Pairwise (· ≤ ·) := by
  unfold raisedIndexes
  rw [List.pairwise_map]
  apply List.Pairwise.filter
  show ((classifyAll raw).filterMap DiagEvent.raised).Pairwise _
  rw [List.pairwise_filterMap]
  apply (sorted_classifyAll raw).imp
  intro a b hab x hx y hy
  obtain ⟨-, rfl⟩ := raised_eq_some.mp hx
  obtain ⟨-, rfl⟩ := raised_eq_some.mp hy
  exact hab

/-- An index shared with the terminal error is the last one there is. -/
theorem saturated_of_eq_terminal {raw : List DiagnosticEvent} {enabled : Bool} {code : UInt32}
    {p : Nat} {message : Option String} {r : DiagnosticEvent} {t : TerminalError}
    (hraises : RaisesAt raw p (.contract code) message r)
    (ht : (Diagnostics.fromEvents raw enabled).terminalError = some t)
    (heq : u32OrMax p = t.eventIndex) : UInt32.size - 1 ≤ p := by
  obtain ⟨pt, rt, hrt, hterminal, hindex⟩ := terminalError_index ht
  have hne : p ≠ pt := by
    rintro rfl
    obtain rfl : r = rt := Option.some.inj (hraises.1.symm.trans hrt)
    unfold DiagnosticEvent.terminal at hterminal
    rw [hraises.2] at hterminal
    cases hterminal
  have hnat : (u32OrMax p).toNat = (u32OrMax pt).toNat := by rw [heq, hindex]
  rw [toNat_u32OrMax_eq_min, toNat_u32OrMax_eq_min] at hnat
  omega

/-- **The event cited** for the raising of a code is the first one that carries it. -/
theorem raisedAt_eq {raw : List DiagnosticEvent} {enabled : Bool} {code : UInt32} {p : Nat}
    {message : Option String} {r : DiagnosticEvent} {report : ContractErrorReport}
    {t : TerminalError} (hfirst : FirstRaise raw code p message r)
    (ht : (Diagnostics.fromEvents raw enabled).terminalError = some t)
    (hindexes : report.eventIndexes = raisedIndexes raw enabled code ++ [t.eventIndex]) :
    raisedAt report t = u32OrMax p := by
  have hp : u32OrMax p ∈ raisedIndexes raw enabled code :=
    mem_raisedIndexes.mpr ⟨p, message, r, hfirst.1, rfl⟩
  have hleast : ∀ q message' r', RaisesAt raw q (.contract code) message' r' → p ≤ q := by
    intro q message' r' hraises
    by_contra hlt
    exact hfirst.2 q (Nat.lt_of_not_le hlt) message' r' hraises
  unfold raisedAt
  rw [hindexes, List.find?_append]
  by_cases heq : u32OrMax p = t.eventIndex
  · -- the first index is the last one there is, and so are all of them
    have hlast := saturated_of_eq_terminal hfirst.1 ht heq
    have hnone : (raisedIndexes raw enabled code).find? (fun i => i != t.eventIndex) = none := by
      rw [List.find?_eq_none]
      intro i hi
      obtain ⟨q, message', r', hraises, rfl⟩ := mem_raisedIndexes.mp hi
      have hle := hleast q message' r' hraises
      have hsame : u32OrMax q = u32OrMax p := by
        apply UInt32.toNat.inj
        rw [toNat_u32OrMax_eq_min, toNat_u32OrMax_eq_min]
        omega
      simp [hsame, heq]
    simp [hnone, heq]
  · have hfound : (raisedIndexes raw enabled code).find? (fun i => i != t.eventIndex)
        = some (u32OrMax p) := by
      refine Scan.find?_of_least (fun _ _ => UInt32.le_antisymm)
        (sorted_raisedIndexes raw enabled code) hp ?_ (by simpa using heq)
      intro i hi
      obtain ⟨q, message', r', hraises, rfl⟩ := mem_raisedIndexes.mp hi
      exact u32OrMax_mono (hleast q message' r' hraises)
    rw [hfound, Option.some_or, Option.getD_some]

/-! ## The item that says so -/

/-- How a text starts survives what is added to it. -/
theorem head?_append {s t : String} {c : Char} (h : s.toList.head? = some c) :
    (s ++ t).toList.head? = some c := by
  rw [String.toList_append, List.head?_append, h, Option.some_or]

section Items

variable [Strkey]

/-- The text that names the contract starts with "r", for "raised by". -/
theorem head?_identificationText (contract : ContractId) (basis : IdentificationBasis) :
    (identificationText (.unique contract basis)).toList.head? = some 'r' := by
  unfold identificationText
  exact head?_append (head?_append (head?_append rfl))

/-- What is said about the spec starts with another letter. -/
theorem head?_resolutionEvidence {code : UInt32} {resolution : ErrorResolution} {e : Evidence}
    (h : e ∈ resolutionEvidence code resolution) : e.observation.toList.head? ≠ some 'r' := by
  have ht : ∀ {s : String}, s.toList.head? = some 't' → s.toList.head? ≠ some 'r' := by
    intro s hs
    rw [hs]
    decide
  have hd : ∀ {s : String}, s.toList.head? = some 'd' → s.toList.head? ≠ some 'r' := by
    intro s hs
    rw [hs]
    decide
  cases resolution with
  | resolved contract enumName caseName doc provenance =>
      unfold resolutionEvidence at h
      rcases List.mem_cons.mp h with rfl | h
      · apply ht
        repeat apply head?_append
        rfl
      · split at h
        · cases h
        · obtain rfl := List.mem_singleton.mp h
          exact hd (head?_append (head?_append rfl))
  | codeNotInSpec contract provenance =>
      obtain rfl := List.mem_singleton.mp h
      exact ht (head?_append rfl)
  | ambiguousInSpec contract candidates =>
      obtain rfl := List.mem_singleton.mp h
      exact ht (head?_append (head?_append (head?_append rfl)))
  | specUnavailable contract reason =>
      obtain rfl := List.mem_singleton.mp h
      exact ht (head?_append rfl)
  | specVersionMismatch contract specWasmHash =>
      obtain rfl := List.mem_singleton.mp h
      exact ht (head?_append (head?_append (head?_append rfl)))
  | contractNotIdentified => cases h
  | notApplicable => cases h

/-- What is said about the other codes starts with "earlier". -/
theorem head?_otherEvidence {calls : List CallFrame} {other : ContractErrorReport} {e : Evidence}
    (h : e ∈ otherEvidence calls other) : e.observation.toList.head? = some 'e' := by
  unfold otherEvidence at h
  simp only at h
  split at h
  · cases h
  · obtain rfl := List.mem_singleton.mp h
    simp only
    split
    · repeat apply head?_append
      rfl
    · repeat apply head?_append
      rfl

/-- **The item** that says which contract raised the error is the one on the report. -/
theorem eq_of_identificationText {ctx : FailureContext} {t : TerminalError} {code : UInt32}
    {report : ContractErrorReport} {e : Evidence} {contract : ContractId}
    {basis : IdentificationBasis}
    (he : e ∈ (contractErrorCandidate ctx t code report).evidence)
    (htext : e.observation = identificationText (.unique contract basis)) :
    e = ⟨.diagnosticEvent (raisedAt report t), identificationText report.identification⟩ := by
  have hr : e.observation.toList.head? = some 'r' := by
    rw [htext]
    exact head?_identificationText contract basis
  simp only [contractErrorCandidate, List.mem_append, List.mem_cons, List.not_mem_nil, or_false,
    List.mem_flatMap] at he
  rcases he with ((rfl | rfl) | hspec) | ⟨other, -, hother⟩
  · have hquote : (s!"`host_fn_failed` reports the invocation ended with Error(Contract, #{code})"
        ).toList.head? = some '`' := by
      repeat apply head?_append
      rfl
    rw [hquote] at hr
    cases hr
  · rfl
  · exact absurd hr (head?_resolutionEvidence hspec)
  · rw [head?_otherEvidence hother] at hr
    cases hr

end Items

/-! ## When it is an event of the contract -/

section Raised

variable [Strkey]

/-- The evidence of a contract-defined error that is attributed to a contract has an item
that says so, and what such an item cites is an error event of that contract. -/
def CitesRaiser (input : AnalysisInput) : Prop :=
  ∀ cause report contract basis,
    contractDefinedError.evaluate (failureContext input) = .matched cause →
    report ∈ (failureContext input).contractErrors → report.terminal = true →
    report.identification = .unique contract basis →
    (∃ e ∈ cause.evidence, e.observation = identificationText (.unique contract basis)) ∧
    ∀ e ∈ cause.evidence, e.observation = identificationText (.unique contract basis) →
      ∃ i message r, e.source = .diagnosticEvent i ∧
        RaisesAt input.diagnosticEvents i.toNat (.contract report.code) message r ∧
        r.contractId = some contract ∧ (basis = .originMarker → marked message = true)

/-- The first event with the terminal code is one the code can be attributed by: it has an
index of its own, it names a contract, and where several contracts emitted the code it has
the origin marker. -/
def RaiserFirst (input : AnalysisInput) : Prop :=
  ∀ code p message r, TrappedWith input (.contract code) →
    Attributable input.diagnosticEvents code →
    FirstRaise input.diagnosticEvents code p message r →
    p < UInt32.size ∧ r.contractId.isSome = true ∧
      ((∀ c, ¬ OnlyEmitter input.diagnosticEvents code c) → marked message = true)

/-- A code that can be attributed is attributed to one contract. -/
theorem identify_of_attributable {input : AnalysisInput} {code : UInt32}
    (h : Attributable input.diagnosticEvents code) :
    ∃ c basis, identify (TransactionModel.fromInput input) code = .unique c basis := by
  by_cases hsole : ∃ c, OnlyEmitter input.diagnosticEvents code c
  · obtain ⟨c, hc⟩ := hsole
    exact ⟨c, .soleEmitter, identify_unique.mpr (Or.inl ⟨hc, rfl⟩)⟩
  · rcases h with hc | ⟨c, hc⟩
    · exact absurd hc hsole
    · exact ⟨c, .originMarker,
        identify_unique.mpr (Or.inr ⟨fun d hd => hsole ⟨d, hd⟩, hc, rfl⟩)⟩

omit [Strkey] in
/-- A code that was emitted was emitted for a first time. -/
theorem exists_firstRaise {raw : List DiagnosticEvent} {code : UInt32} {c : ContractId}
    (h : EmittedBy raw code c) : ∃ p message r, FirstRaise raw code p message r := by
  classical
  have hex : ∃ p, ∃ message r, RaisesAt raw p (.contract code) message r := by
    obtain ⟨r, hr, message, hkind, -⟩ := h
    obtain ⟨p, hp⟩ := List.getElem?_of_mem hr
    exact ⟨p, message, r, hp, hkind⟩
  obtain ⟨message, r, hraises⟩ := Nat.find_spec hex
  refine ⟨Nat.find hex, message, r, hraises, ?_⟩
  intro q hq message' r' hearlier
  exact Nat.find_min hex hq ⟨message', r', hearlier⟩

/-- The rule matches on a trap that ended with a contract error, with the report on it. -/
theorem contractDefinedError_matches {input : AnalysisInput} {code : UInt32}
    (h : TrappedWith input (.contract code)) :
    ∃ t, (TransactionModel.fromInput input).diagnostics.terminalError = some t ∧
      t.error = .contract code ∧
      contractDefinedError.evaluate (failureContext input) = .matched
        (contractErrorCandidate (failureContext input) t code
          (contractErrorReport (TransactionModel.fromInput input) input.contractSpecs code)) := by
  obtain ⟨hstage, havail, hraw⟩ := h
  rw [← map_terminalError, Option.map_eq_some_iff] at hraw
  obtain ⟨t, hterminal, hcode⟩ := hraw
  refine ⟨t, hterminal, hcode, ?_⟩
  have hended : (TransactionModel.fromInput input).EndedWith code := ⟨t, hterminal, hcode⟩
  obtain ⟨report, hfind⟩ := find?_terminalReport input.contractSpecs hended
  have hcodes := List.find?_some hfind
  rw [Bool.and_eq_true, beq_iff_eq] at hcodes
  have hreport := mem_resolveContractErrors (List.mem_of_find?_eq_some hfind)
  rw [hcodes.2] at hreport
  have hfind' : (failureContext input).contractErrors.find? (fun r => r.terminal && r.code == code)
      = some (contractErrorReport (TransactionModel.fromInput input) input.contractSpecs code) := by
    rw [← hreport]
    exact hfind
  show contractDefinedErrorEvaluate (failureContext input) = _
  unfold contractDefinedErrorEvaluate
  have hmodel : (failureContext input).model = TransactionModel.fromInput input := rfl
  rw [hmodel, executionGate_ok.mpr ⟨hstage, havail⟩]
  simp only [behindGate, hterminal, hcode, hfind']

/-- A terminal report is on the error the invocation ended with. -/
theorem rawTerminal_of_report {input : AnalysisInput} {report : ContractErrorReport}
    (hmem : report ∈ (failureContext input).contractErrors) (ht : report.terminal = true) :
    rawTerminal input.diagnosticEvents = some (.contract report.code) ∧
      report = contractErrorReport (TransactionModel.fromInput input) input.contractSpecs
        report.code := by
  obtain ⟨t, hterminal, hcode⟩ := (terminal_of_mem hmem).mp ht
  refine ⟨?_, mem_resolveContractErrors hmem⟩
  rw [rawTerminal_of_model hterminal, hcode]

/-- The event cited by the item is the first one with the code. -/
theorem cited_eq {input : AnalysisInput} {code : UInt32} {p : Nat} {message : Option String}
    {r : DiagnosticEvent} {t : TerminalError}
    (hterminal : (TransactionModel.fromInput input).diagnostics.terminalError = some t)
    (hcode : t.error = .contract code)
    (hfirst : FirstRaise input.diagnosticEvents code p message r) :
    raisedAt (contractErrorReport (TransactionModel.fromInput input) input.contractSpecs code) t
      = u32OrMax p := by
  refine raisedAt_eq hfirst hterminal ?_
  rw [eventIndexes_contractErrorReport]
  unfold TransactionModel.carriers
  rw [hterminal]
  simp [hcode]
  rfl

omit [Strkey] in
/-- The index of the first event with a code leads back to it when it does not saturate. -/
theorem FirstRaise.eq_of_index {raw : List DiagnosticEvent} {code : UInt32} {p : Nat}
    {message message' : Option String} {r r' : DiagnosticEvent}
    (hfirst : FirstRaise raw code p message r)
    (hraises : RaisesAt raw (u32OrMax p).toNat (.contract code) message' r') :
    p < UInt32.size ∧ r' = r ∧ message' = message := by
  have hlt : p < UInt32.size := by
    by_contra hge
    have hpos : 0 < UInt32.size := by decide
    have hbefore : (u32OrMax p).toNat < p := by
      rw [toNat_u32OrMax_eq_min]
      omega
    exact hfirst.2 _ hbefore message' r' hraises
  rw [toNat_u32OrMax hlt] at hraises
  obtain rfl : r = r' := Option.some.inj (hfirst.1.1.symm.trans hraises.1)
  have hkind := hfirst.1.2.symm.trans hraises.2
  simp only [EventKind.error.injEq, true_and] at hkind
  exact ⟨hlt, rfl, hkind.symm⟩

/-- What is cited by the item is the first event with the code. -/
theorem raiserFirst_of_cites {input : AnalysisInput} (hcites : CitesRaiser input) :
    RaiserFirst input := by
  intro code p message r htrapped hattributable hfirst
  obtain ⟨c, basis, hid⟩ := identify_of_attributable hattributable
  obtain ⟨t, hterminal, hcode, hmatched⟩ := contractDefinedError_matches htrapped
  have hended : (TransactionModel.fromInput input).EndedWith code := ⟨t, hterminal, hcode⟩
  have hmem : contractErrorReport (TransactionModel.fromInput input) input.contractSpecs code
      ∈ (failureContext input).contractErrors := List.mem_of_head? (head?_of_endedWith hended)
  obtain ⟨⟨e, he, htext⟩, hitem⟩ :=
    hcites _ _ c basis hmatched hmem ((terminal_of_mem hmem).mpr hended) hid
  obtain ⟨i, message', r', hsource, hraises, hc, hmarked⟩ := hitem e he htext
  rw [eq_of_identificationText he htext, cited_eq hterminal hcode hfirst] at hsource
  obtain rfl := EvidenceSource.diagnosticEvent.inj hsource
  obtain ⟨hlt, rfl, rfl⟩ := hfirst.eq_of_index hraises
  refine ⟨hlt, by rw [hc]; rfl, ?_⟩
  intro hseveral
  apply hmarked
  rcases identify_unique.mp hid with ⟨hsole, -⟩ | ⟨-, -, hbasis⟩
  · exact absurd hsole (hseveral c)
  · exact hbasis

/-- The first event with the code is one of the contract the code is attributed to. -/
theorem raisedBy_first {input : AnalysisInput} {code : UInt32} {p : Nat} {message : Option String}
    {r : DiagnosticEvent} {c : ContractId} {basis : IdentificationBasis}
    (hid : identify (TransactionModel.fromInput input) code = .unique c basis)
    (hfirst : FirstRaise input.diagnosticEvents code p message r)
    (hnamed : r.contractId.isSome = true)
    (hmarked : (∀ c, ¬ OnlyEmitter input.diagnosticEvents code c) → marked message = true) :
    r.contractId = some c ∧ (basis = .originMarker → marked message = true) := by
  obtain ⟨d, hd⟩ := Option.isSome_iff_exists.mp hnamed
  have hmem : r ∈ input.diagnosticEvents := List.mem_of_getElem? hfirst.1.1
  rcases identify_unique.mp hid with ⟨⟨-, honly⟩, rfl⟩ | ⟨hseveral, ⟨-, honly⟩, rfl⟩
  · obtain rfl := honly d ⟨r, hmem, message, hfirst.1.2, hd⟩
    refine ⟨hd, ?_⟩
    intro hbasis
    cases hbasis
  · obtain ⟨m, rfl, hm⟩ := marked_eq_true.mp (hmarked hseveral)
    obtain rfl := honly d ⟨r, hmem, m, hfirst.1.2, hm, hd⟩
    exact ⟨hd, fun _ => hmarked hseveral⟩

/-- Where the raiser is first, the item cites an event of that contract. -/
theorem cites_of_raiserFirst {input : AnalysisInput} (h : RaiserFirst input) :
    CitesRaiser input := by
  intro cause report c basis hmatched hmem ht hidentified
  obtain ⟨hraw, hreport⟩ := rawTerminal_of_report hmem ht
  obtain ⟨hstage, havail, -⟩ := contractDefinedError_matched hmatched
  have htrapped : TrappedWith input (.contract report.code) := ⟨hstage, havail, hraw⟩
  obtain ⟨t, hterminal, hcode, hmatched'⟩ := contractDefinedError_matches htrapped
  rw [hmatched] at hmatched'
  obtain rfl := RuleOutcome.matched.inj hmatched'
  have hid : identify (TransactionModel.fromInput input) report.code = .unique c basis := by
    rw [hreport] at hidentified
    exact hidentified
  have hemitted : EmittedBy input.diagnosticEvents report.code c :=
    emittedBy_of_identify (ContractIdentification.contract_eq_some.mpr ⟨basis, hid⟩)
  obtain ⟨p, message, r, hfirst⟩ := exists_firstRaise hemitted
  have hattributable : Attributable input.diagnosticEvents report.code := by
    rcases identify_unique.mp hid with ⟨hsole, -⟩ | ⟨-, horigin, -⟩
    · exact Or.inl ⟨c, hsole⟩
    · exact Or.inr ⟨c, horigin⟩
  obtain ⟨hlt, hnamed, hmarked⟩ := h _ _ _ _ htrapped hattributable hfirst
  refine ⟨⟨_, List.mem_append_left _ (List.mem_append_left _
    (List.mem_cons_of_mem _ List.mem_cons_self)), ?_⟩, ?_⟩
  · exact congrArg identificationText hid
  · intro e he htext
    have hitem := eq_of_identificationText he htext
    rw [cited_eq hterminal hcode hfirst] at hitem
    obtain ⟨hc, hbasis⟩ := raisedBy_first hid hfirst hnamed hmarked
    refine ⟨u32OrMax p, message, r, by rw [hitem], ?_, hc, hbasis⟩
    rw [toNat_u32OrMax hlt]
    exact hfirst.1

/-- **What is cited.**  The item that says a contract raised the error cites an event of
that contract exactly when the first event with the terminal code is one the attribution
rests on. -/
theorem citesRaiser_iff (input : AnalysisInput) : CitesRaiser input ↔ RaiserFirst input :=
  ⟨raiserFirst_of_cites, cites_of_raiserFirst⟩

end Raised

/-! ## An item that cites another contract -/

/-- `cid(5)` re-emits code 3 before the event of `cid(6)`, which raised it. -/
def reEmittedFirst : AnalysisInput :=
  sorobanFailure .trapped []
    (some [call none (cid 5) "f", call (some (cid 5)) (cid 6) "g",
      err (cid 5) (.contract 3) "contract call failed",
      err (cid 6) (.contract 3) "failing with contract error", hostFnFailed (.contract 3)])

/-- The error is said to be raised by `cid(6)`, with the event of `cid(5)` for it. -/
theorem citesRaiser_fails : ¬ @CitesRaiser Strkey.standard reEmittedFirst := by
  let _ : Strkey := Strkey.standard
  intro hcites
  have hid : identify (TransactionModel.fromInput reEmittedFirst) 3
      = .unique (cid 6) .originMarker := by decide
  have htrapped : TrappedWith reEmittedFirst (.contract 3) := ⟨by decide, by decide, by decide⟩
  rcases identify_unique.mp hid with ⟨-, hbasis⟩ | ⟨hseveral, horigin, -⟩
  · cases hbasis
  · have hfirst : FirstRaise reEmittedFirst.diagnosticEvents 3 2 (some "contract call failed")
        (err (cid 5) (.contract 3) "contract call failed") := by
      refine ⟨⟨rfl, by decide⟩, ?_⟩
      have houter : eventKind (call none (cid 5) "f").topics (call none (cid 5) "f").data
          = .fnCall (cid 5) "f" := by decide
      have hinner : eventKind (call (some (cid 5)) (cid 6) "g").topics
          (call (some (cid 5)) (cid 6) "g").data = .fnCall (cid 6) "g" := by decide
      rintro q hq message' r' ⟨hr', hkind⟩
      obtain rfl | rfl : q = 0 ∨ q = 1 := by omega
      · obtain rfl := Option.some.inj hr'
        rw [houter] at hkind
        cases hkind
      · obtain rfl := Option.some.inj hr'
        rw [hinner] at hkind
        cases hkind
    obtain ⟨-, -, hmarked⟩ :=
      raiserFirst_of_cites hcites 3 2 _ _ htrapped (Or.inr ⟨cid 6, horigin⟩) hfirst
    have hmarker := hmarked hseveral
    revert hmarker
    decide

end Observatory
