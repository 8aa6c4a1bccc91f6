import Observatory.Properties.Confirmed

/-!
# Citations resolve

The evidence of a candidate points into the input by position: at an event, an
operation result, an authorization entry or a footprint entry.  The positions are
handed out in six places of the code; `analyze_wellCited` says that every one of
them can be followed back, and that the footprint entries cited for a conflict are
all the entries that declare the reported key, each once.
-/

namespace Observatory

/-- Fewer than `UInt32.size`, which is `2 ^ 32`, of everything that is numbered. -/
structure Numbered (input : AnalysisInput) : Prop where
  /-- The events. -/
  events : input.diagnosticEvents.length < UInt32.size
  /-- The authorization entries. -/
  auth : (envelopeAuth input.envelope).length < UInt32.size
  /-- The footprint keys. -/
  keys : ∀ data, sorobanTransactionData input.envelope = some data →
    data.footprint.readOnly.length + data.footprint.readWrite.length < UInt32.size
  /-- The operation results. -/
  results : (effectiveResults input.result).length < UInt32.size

/-! ## What a citation points at -/

/-- One list of the envelope's footprint. -/
def footprintKeys (envelope : TransactionEnvelope) (readWrite : Bool) : List LedgerKey :=
  match sorobanTransactionData envelope with
  | some data => if readWrite then data.footprint.readWrite else data.footprint.readOnly
  | none => []

/-- The event a candidate cites first. -/
def citedEvent (input : AnalysisInput) (c : CandidateCause) : Option DiagnosticEvent :=
  match c.evidence.head? with
  | some ⟨.diagnosticEvent i, _⟩ => input.diagnosticEvents[i.toNat]?
  | _ => none

/-- The contract and key a footprint candidate reports. -/
def reportedKey (input : AnalysisInput) (c : CandidateCause) : Option (ScAddress × ScVal) :=
  if c.causeClass = .footprintEntryMissing then
    (citedEvent input c).bind (fun r => accessedKey r.data)
  else none

/-- The footprint entry at this position declares the reported contract and key. -/
def DeclaresReported (input : AnalysisInput) (c : CandidateCause) (readWrite : Bool)
    (i : UInt32) : Prop :=
  ∃ address key k, reportedKey input c = some (address, key) ∧
    (footprintKeys input.envelope readWrite)[i.toNat]? = some k ∧
    (k.declares address key).isSome = true

/-- The artefact a citation of a candidate points at exists. -/
def Resolves (input : AnalysisInput) (c : CandidateCause) : EvidenceSource → Prop
  | .diagnosticEvent i => i.toNat < input.diagnosticEvents.length
  | .operationResult i => ∃ op, (effectiveResults input.result)[i.toNat]? = some op ∧
      ¬ op.IsSuccess
  | .authorizationEntry i => ∃ entry credentials r,
      (envelopeAuth input.envelope)[i.toNat]? = some entry ∧
      entry.credentials.addressCredentials = some credentials ∧
      citedEvent input c = some r ∧ eventAddress r.data = some credentials.address
  | .footprintEntry readWrite i => DeclaresReported input c readWrite i
  | .transactionResult | .sorobanResources | .contractSpec | .footprint | .observedResources =>
      True

/-- The footprint entries a candidate cites, in order. -/
def footprintCitations (c : CandidateCause) : List (Bool × UInt32) :=
  c.evidence.filterMap (fun e => match e.source with
    | .footprintEntry readWrite i => some (readWrite, i)
    | _ => none)

section Citations

variable [Strkey]

/-- A candidate with evidence, advice and a registered rule, whose citations resolve. -/
structure WellCited (input : AnalysisInput) (c : CandidateCause) : Prop where
  /-- There is evidence. -/
  evidence : c.evidence ≠ []
  /-- There is a remediation. -/
  remediation : c.remediation.isSome = true
  /-- The rule is one of the built-in ones. -/
  ruleId : c.ruleId ∈ builtin.map Rule.id
  /-- Every citation points at something. -/
  resolves : ∀ e ∈ c.evidence, Resolves input c e.source
  /-- No footprint entry is cited twice. -/
  nodup : (footprintCitations c).Nodup
  /-- The footprint entries cited are those that declare the reported key. -/
  footprint : ∀ readWrite i,
    (readWrite, i) ∈ footprintCitations c ↔ DeclaresReported input c readWrite i

/-! ## Positions -/

omit [Strkey] in
/-- The event behind an error event of a model. -/
theorem event_at {input : AnalysisInput} (hsize : Numbered input) {raw : List DiagnosticEvent}
    (hraw : raw = input.diagnosticEvents) {enabled : Bool} {x : ErrorEvent}
    (hx : x ∈ (Diagnostics.fromEvents raw enabled).errors) :
    ∃ r, raw[x.event.index.toNat]? = some r ∧ r.data = x.event.data := by
  subst hraw
  obtain ⟨i, r, ⟨hr, -⟩, hevent⟩ := mem_errors_fromEvents.mp hx
  have hlt : i < UInt32.size :=
    Nat.lt_trans (List.getElem?_eq_some_iff.mp hr).1 hsize.events
  refine ⟨r, ?_, by rw [hevent]; rfl⟩
  have hindex : x.event.index = u32OrMax i := by rw [hevent]; rfl
  rw [hindex, toNat_u32OrMax hlt, hr]

omit [Strkey] in
/-- The index of an error event is below the number of events. -/
theorem errorIndex_lt {raw : List DiagnosticEvent} {enabled : Bool} {x : ErrorEvent}
    (hx : x ∈ (Diagnostics.fromEvents raw enabled).errors) :
    x.event.index.toNat < raw.length := by
  obtain ⟨i, r, ⟨hr, -⟩, hevent⟩ := mem_errors_fromEvents.mp hx
  have hmem : x.event ∈ classifyAll raw := mem_classifyAll.mpr ⟨i, r, hr, hevent.symm⟩
  exact index_lt_of_mem hmem

omit [Strkey] in
theorem terminalIndex_lt {raw : List DiagnosticEvent} {enabled : Bool} {t : TerminalError}
    (ht : (Diagnostics.fromEvents raw enabled).terminalError = some t) :
    t.eventIndex.toNat < raw.length := by
  obtain ⟨i, r, hr, -, hindex⟩ := terminalError_index ht
  rw [hindex]
  exact Nat.lt_of_le_of_lt (toNat_u32OrMax_le i) (List.getElem?_eq_some_iff.mp hr).1

/-- The index of the terminal error an event is compared with. -/
theorem endedByIndex_lt {input : AnalysisInput} {x : ErrorEvent} {t : TerminalError}
    (h : endedBy (TransactionModel.fromInput input) x = some t) :
    t.eventIndex.toNat < input.diagnosticEvents.length := by
  apply @terminalIndex_lt input.diagnosticEvents input.diagnosticsEnabled _
  exact (Option.filter_eq_some_iff.mp h).1

/-- The events a report names exist. -/
theorem eventIndexes_lt {input : AnalysisInput} {report : ContractErrorReport}
    (h : report ∈ (failureContext input).contractErrors) :
    ∀ i ∈ report.eventIndexes, i.toNat < input.diagnosticEvents.length := by
  intro i hi
  rw [mem_resolveContractErrors h] at hi
  simp only [contractErrorReport, List.mem_append, List.mem_map, List.mem_filter] at hi
  rcases hi with ⟨x, ⟨hx, -⟩, rfl⟩ | hterminal
  · exact errorIndex_lt hx
  · cases ht : (TransactionModel.fromInput input).diagnostics.terminalError with
    | none => simp [ht] at hterminal
    | some t =>
        have hlt : t.eventIndex.toNat < input.diagnosticEvents.length := terminalIndex_lt ht
        simp only [ht] at hterminal
        split at hterminal
        · rw [List.mem_singleton.mp hterminal]
          exact hlt
        · cases hterminal

/-- The position of the entry found for an address. -/
theorem entry_at {input : AnalysisInput} (hsize : Numbered input) {soroban : SorobanData}
    {address : ScAddress} {e : AuthEntry}
    (hsoroban : (TransactionModel.fromInput input).soroban = some soroban)
    (h : entryFor soroban.auth address = some e) :
    ∃ entry credentials, (envelopeAuth input.envelope)[e.index.toNat]? = some entry ∧
      entry.credentials.addressCredentials = some credentials ∧
      credentials.address = address := by
  obtain ⟨data, -, -, hauth⟩ := TransactionModel.fromInput_soroban hsoroban
  have hmem : e ∈ soroban.auth := List.mem_of_find?_eq_some h
  have hfor : e.isFor address = true := List.find?_some h
  rw [hauth] at hmem
  obtain ⟨i, entry, hi, rfl⟩ := Scan.mem_mapIdx_iff.mp hmem
  obtain ⟨credentials, hcredentials, haddress⟩ := isFor_fromXdr.mp hfor
  have hlt : i < UInt32.size := Nat.lt_trans (List.getElem?_eq_some_iff.mp hi).1 hsize.auth
  refine ⟨entry, credentials, ?_, hcredentials, haddress⟩
  show (envelopeAuth input.envelope)[(u32OrMax i).toNat]? = some entry
  rw [toNat_u32OrMax hlt, hi]

/-- The position of the failing operation. -/
theorem operation_at {input : AnalysisInput} (hsize : Numbered input) {stage : FailureStage}
    {op : FailedOperation} (hstage : (TransactionModel.fromInput input).stage = some stage)
    (hop : (TransactionModel.fromInput input).outcome.failedOperation = some op) :
    ∃ r, (effectiveResults input.result)[op.index.toNat]? = some r ∧ ¬ r.IsSuccess := by
  have hfailed : (Outcome.classify input.result).failedOperation = some op := hop
  rcases Outcome.classify_failed hstage with ⟨hnone, -⟩ | ⟨i, r, ⟨hi, hr, -⟩, hsome, -⟩
  · rw [hnone] at hfailed
    cases hfailed
  · rw [hsome] at hfailed
    obtain rfl := Option.some.inj hfailed
    have hlt : i < UInt32.size := Nat.lt_trans (List.getElem?_eq_some_iff.mp hi).1 hsize.results
    refine ⟨r, ?_, hr⟩
    show (effectiveResults input.result)[(u32OrMax i).toNat]? = some r
    rw [toNat_u32OrMax hlt, hi]

/-- A candidate of another class than the footprint's cites no footprint entry. -/
theorem wellCited_of_class {input : AnalysisInput} {c : CandidateCause}
    (hclass : c.causeClass ≠ .footprintEntryMissing) (hevidence : c.evidence ≠ [])
    (hremediation : c.remediation.isSome = true) (hrule : c.ruleId ∈ builtin.map Rule.id)
    (hresolves : ∀ e ∈ c.evidence, Resolves input c e.source) : WellCited input c := by
  have hnone : ∀ readWrite i, ¬ DeclaresReported input c readWrite i := by
    rintro readWrite i ⟨address, key, k, hkey, -⟩
    rw [reportedKey, if_neg hclass] at hkey
    cases hkey
  have hcitations : footprintCitations c = [] := by
    unfold footprintCitations
    rw [List.filterMap_eq_nil_iff]
    intro e he
    cases hsource : e.source with
    | footprintEntry readWrite i =>
        have hresolved := hresolves e he
        rw [hsource] at hresolved
        exact absurd hresolved (hnone readWrite i)
    | _ => rfl
  refine ⟨hevidence, hremediation, hrule, hresolves, ?_, ?_⟩
  · rw [hcitations]
    exact List.nodup_nil
  · intro readWrite i
    rw [hcitations]
    simp [hnone readWrite i]

/-! ## The rules, one by one -/

theorem wellCited_codeRule {input : AnalysisInput} (hsize : Numbered input)
    {wanted : FailureStage} {code : String} {causeClass : CauseClass}
    {summary remediation ruleId : String} {more : TransactionModel → List Evidence}
    {c : CandidateCause} (hclass : causeClass ≠ .footprintEntryMissing)
    (hrule : ruleId ∈ builtin.map Rule.id)
    (hmore : ∀ e ∈ more (TransactionModel.fromInput input),
      e.source = .sorobanResources ∨ e.source = .observedResources)
    (h : codeRule wanted code causeClass summary remediation ruleId more (failureContext input)
      = .matched c) : WellCited input c := by
  obtain ⟨hstage, op, hop, -, e, hsource, rfl⟩ := codeRule_matched h
  apply wellCited_of_class hclass (List.cons_ne_nil _ _) rfl hrule
  intro e' he'
  rcases List.mem_cons.mp he' with rfl | hmem
  · rw [hsource]
    exact operation_at hsize hstage hop
  · rcases hmore e' hmem with hs | hs
    · rw [hs]
      trivial
    · rw [hs]
      trivial

theorem wellCited_contractDefinedError {input : AnalysisInput} {c : CandidateCause}
    (h : contractDefinedError.evaluate (failureContext input) = .matched c) :
    WellCited input c := by
  obtain ⟨-, -, terminal, n, report, hterminal, -, hreport, -, -, rfl⟩ :=
    contractDefinedError_matched h
  have hlast : terminal.eventIndex.toNat < input.diagnosticEvents.length :=
    terminalIndex_lt hterminal
  refine wellCited_of_class (by simp [contractErrorCandidate]) (List.cons_ne_nil _ _) rfl ?_ ?_
  · simp [builtin, contractDefinedError, contractErrorCandidate]
  intro e he
  simp only [contractErrorCandidate, List.cons_append, List.nil_append, List.mem_cons,
    List.mem_append, List.mem_flatMap] at he
  rcases he with rfl | rfl | hres | ⟨other, hother, he⟩
  · exact hlast
  · show (raisedAt report terminal).toNat < _
    unfold raisedAt
    cases hfind : report.eventIndexes.find? (fun i => i != terminal.eventIndex) with
    | none => exact hlast
    | some i => exact eventIndexes_lt hreport i (List.mem_of_find?_eq_some hfind)
  · have hspec : ∀ e ∈ resolutionEvidence n report.resolution, e.source = .contractSpec := by
      cases report.resolution with
      | resolved contract enumName caseName doc provenance =>
          by_cases hdoc : doc.isEmpty = true <;> simp [resolutionEvidence, hdoc]
      | _ => simp [resolutionEvidence]
    rw [hspec e hres]
    trivial
  · unfold otherEvidence at he
    cases hhead : other.eventIndexes.head? with
    | none => simp [hhead] at he
    | some first =>
        simp only [hhead, List.mem_singleton] at he
        rw [he]
        exact eventIndexes_lt (List.mem_filter.mp hother).1 first (List.mem_of_head? hhead)

theorem wellCited_contractTrap {input : AnalysisInput} {c : CandidateCause}
    (h : contractTrap.evaluate (failureContext input) = .matched c) : WellCited input c := by
  obtain ⟨-, -, terminal, code, x, hterminal, -, hfind, rfl⟩ := contractTrap_matched h
  refine wellCited_of_class (by simp [trapCandidate]) (List.cons_ne_nil _ _) rfl ?_ ?_
  · simp [builtin, contractTrap, trapCandidate]
  intro e he
  simp only [trapCandidate, List.mem_cons, List.not_mem_nil, or_false] at he
  rcases he with rfl | rfl
  · exact terminalIndex_lt hterminal
  · exact errorIndex_lt (List.mem_of_find?_eq_some hfind)

/-- Whether the invocation ended with an error event is cited at an event. -/
theorem resolves_endedByEvidence {input : AnalysisInput} {c : CandidateCause} {x : ErrorEvent}
    (hx : x ∈ (TransactionModel.fromInput input).diagnostics.errors) :
    Resolves input c
      (endedByEvidence (endedBy (TransactionModel.fromInput input) x) x).source := by
  cases hended : endedBy (TransactionModel.fromInput input) x with
  | none => exact errorIndex_lt hx
  | some t => exact endedByIndex_lt hended

/-- The entry for the address of the event a candidate cites first. -/
theorem resolves_authorizationEntry {input : AnalysisInput} (hsize : Numbered input)
    {c : CandidateCause} {soroban : SorobanData} {x : ErrorEvent} {e : AuthEntry}
    {observation : String} {more : List Evidence}
    (hx : x ∈ (TransactionModel.fromInput input).diagnostics.errors)
    (hfirst : c.evidence = ⟨.diagnosticEvent x.event.index, observation⟩ :: more)
    (hsoroban : (TransactionModel.fromInput input).soroban = some soroban)
    (hentry : (eventAddress x.event.data).bind (entryFor soroban.auth) = some e) :
    Resolves input c (.authorizationEntry e.index) := by
  obtain ⟨address, haddress, hfor⟩ := Option.bind_eq_some_iff.mp hentry
  obtain ⟨entry, credentials, hat, hcredentials, rfl⟩ := entry_at hsize hsoroban hfor
  obtain ⟨r, hr, hdata⟩ := event_at hsize rfl hx
  refine ⟨entry, credentials, r, hat, hcredentials, ?_, by rw [hdata, haddress]⟩
  unfold citedEvent
  rw [hfirst]
  exact hr

/-- What is said about the entry for the address of the event a candidate cites first. -/
theorem resolves_entryEvidence {input : AnalysisInput} (hsize : Numbered input)
    {c : CandidateCause} {soroban : SorobanData} {x : ErrorEvent} {observation : String}
    {more : List Evidence} (hx : x ∈ (TransactionModel.fromInput input).diagnostics.errors)
    (hsoroban : (TransactionModel.fromInput input).soroban = some soroban)
    (hfirst : c.evidence = ⟨.diagnosticEvent x.event.index, observation⟩ :: more) :
    ∀ e ∈ entryEvidence ((eventAddress x.event.data).bind (entryFor soroban.auth)) x,
      Resolves input c e.source := by
  intro e he
  unfold entryEvidence at he
  cases hentry : (eventAddress x.event.data).bind (entryFor soroban.auth) with
  | none =>
      have hevent : x.event.index.toNat < input.diagnosticEvents.length := errorIndex_lt hx
      simp only [hentry, List.mem_singleton] at he
      rw [he]
      exact hevent
  | some entry =>
      have hres : Resolves input c (.authorizationEntry entry.index) :=
        resolves_authorizationEntry hsize hx hfirst hsoroban hentry
      cases hcred : entry.credentials with
      | sourceAccount => simp [hentry, hcred] at he
      | address a nonce expiry variant =>
          simp only [hentry, hcred, List.mem_singleton] at he
          rw [he]
          exact hres

/-- What is said about the ledgers of that event, and about the entry's own. -/
theorem resolves_expiryEvidence {input : AnalysisInput} (hsize : Numbered input)
    {c : CandidateCause} {soroban : SorobanData} {x : ErrorEvent} {observation : String}
    {more : List Evidence} (hx : x ∈ (TransactionModel.fromInput input).diagnostics.errors)
    (hsoroban : (TransactionModel.fromInput input).soroban = some soroban)
    (hfirst : c.evidence = ⟨.diagnosticEvent x.event.index, observation⟩ :: more) :
    ∀ e ∈ expiryEvidence ((eventAddress x.event.data).bind (entryFor soroban.auth))
      (eventLedgers x.event.data) x, Resolves input c e.source := by
  intro e he
  rcases List.mem_append.mp he with hledgers | hagrees
  · cases hl : eventLedgers x.event.data with
    | none => simp [hl] at hledgers
    | some ledgers =>
        have hevent : x.event.index.toNat < input.diagnosticEvents.length := errorIndex_lt hx
        simp only [hl, List.mem_singleton] at hledgers
        rw [hledgers]
        exact hevent
  · split at hagrees
    · next entry _ hentry =>
      rw [List.mem_singleton.mp hagrees]
      exact resolves_authorizationEntry hsize hx hfirst hsoroban hentry
    · cases hagrees

theorem wellCited_invalidAuthorizationEntry {input : AnalysisInput} (hsize : Numbered input)
    {c : CandidateCause}
    (h : invalidAuthorizationEntry.evaluate (failureContext input) = .matched c) :
    WellCited input c := by
  obtain ⟨-, -, soroban, x, message, failure, hsoroban, hfind, rfl⟩ :=
    invalidAuthorizationEntry_matched h
  obtain ⟨y, hy, hrecognised⟩ := List.exists_of_findSome?_eq_some hfind
  obtain ⟨rfl, -, -⟩ := recognise_eq_some.mp hrecognised
  have hx : x ∈ (TransactionModel.fromInput input).diagnostics.errors :=
    (List.mem_filter.mp hy).1
  have hevent : x.event.index.toNat < input.diagnosticEvents.length := errorIndex_lt hx
  cases failure with
  | signatureExpired =>
      refine wellCited_of_class (by simp [invalidAuthCandidate])
        (by simp [invalidAuthCandidate]) rfl ?_ ?_
      · simp [builtin, invalidAuthorizationEntry, invalidAuthCandidate]
      intro e he
      simp only [invalidAuthCandidate, List.cons_append, List.nil_append, List.mem_cons,
        List.mem_append] at he
      rcases he with rfl | rfl | hentry | hledgers
      · exact hevent
      · exact resolves_endedByEvidence hx
      · exact resolves_entryEvidence hsize hx hsoroban rfl e hentry
      · exact resolves_expiryEvidence hsize hx hsoroban rfl e hledgers
  | nonceReused =>
      refine wellCited_of_class (by simp [invalidAuthCandidate])
        (by simp [invalidAuthCandidate]) rfl ?_ ?_
      · simp [builtin, invalidAuthorizationEntry, invalidAuthCandidate]
      intro e he
      simp only [invalidAuthCandidate, List.cons_append, List.nil_append, List.mem_cons] at he
      rcases he with rfl | rfl | hentry
      · exact hevent
      · exact resolves_endedByEvidence hx
      · exact resolves_entryEvidence hsize hx hsoroban rfl e hentry

theorem wellCited_missingAuthorizationEntry {input : AnalysisInput} {c : CandidateCause}
    (h : missingAuthorizationEntry.evaluate (failureContext input) = .matched c) :
    WellCited input c := by
  obtain ⟨-, -, soroban, x, -, hfind, -, -, rfl⟩ := missingAuthorizationEntry_matched h
  have hx : x ∈ (TransactionModel.fromInput input).diagnostics.errors :=
    List.mem_of_find?_eq_some hfind
  refine wellCited_of_class (by simp [missingAuthCandidate]) (by simp [missingAuthCandidate])
    rfl ?_ ?_
  · simp [builtin, missingAuthorizationEntry, missingAuthCandidate]
  intro e he
  simp only [missingAuthCandidate, List.cons_append, List.nil_append, List.mem_cons] at he
  rcases he with rfl | rfl | he
  · exact errorIndex_lt hx
  · exact resolves_endedByEvidence hx
  · split at he
    · rw [List.mem_singleton.mp he]
      exact errorIndex_lt hx
    · cases he

/-! ## Footprint entries -/

/-- The entries a footprint candidate cites are those that declare the key its event
reports. -/
theorem footprintCitations_candidate (model : TransactionModel) (soroban : SorobanData)
    (x : ErrorEvent) :
    footprintCitations (footprintCandidate model soroban x)
      = match accessedKey x.event.data with
        | some (address, key) =>
            (soroban.footprint.declared address key).map (fun d => (d.readWrite, d.index))
        | none => [] := by
  have hfinding : footprintCitations (footprintCandidate model soroban x)
      = (footprintFinding soroban.footprint x (endedBy model x).isSome).evidence.filterMap
          (fun e => match e.source with
            | .footprintEntry readWrite i => some (readWrite, i)
            | _ => none) := by
    unfold footprintCitations footprintCandidate
    cases endedBy model x <;> rfl
  rw [hfinding, footprintFinding]
  cases hkey : accessedKey x.event.data with
  | none => rfl
  | some reported =>
      obtain ⟨address, key⟩ := reported
      by_cases hempty : (soroban.footprint.declared address key).isEmpty = true
      · simp only [hempty, if_true]
        rw [List.isEmpty_iff.mp hempty]
        rfl
      · simp only [hempty, Bool.false_eq_true, if_false, conflictingFinding]
        rw [List.filterMap_map, ← List.filterMap_eq_map]
        rfl

/-- What a footprint candidate cites: events, the footprint, and entries of it. -/
theorem source_footprintCandidate {input : AnalysisInput} {soroban : SorobanData}
    {x : ErrorEvent} (hx : x ∈ (TransactionModel.fromInput input).diagnostics.errors) :
    ∀ e ∈ (footprintCandidate (TransactionModel.fromInput input) soroban x).evidence,
      (∃ i, e.source = .diagnosticEvent i ∧ i.toNat < input.diagnosticEvents.length) ∨
        e.source = .footprint ∨ ∃ readWrite i, e.source = .footprintEntry readWrite i := by
  have hevent : x.event.index.toNat < input.diagnosticEvents.length := errorIndex_lt hx
  intro e he
  simp only [footprintCandidate, List.cons_append, List.nil_append, List.mem_cons] at he
  rcases he with rfl | he | he
  · exact Or.inl ⟨_, rfl, hevent⟩
  · cases hended : endedBy (TransactionModel.fromInput input) x with
    | none =>
        rw [hended] at he
        exact Or.inl ⟨_, by rw [he], hevent⟩
    | some t =>
        rw [hended] at he
        exact Or.inl ⟨_, by rw [he], endedByIndex_lt hended⟩
  · unfold footprintFinding at he
    split at he
    · simp only at he
      split at he
      · rw [List.mem_singleton.mp he]
        exact Or.inr (Or.inl rfl)
      · obtain ⟨d, -, rfl⟩ := List.mem_map.mp he
        exact Or.inr (Or.inr ⟨_, _, rfl⟩)
    · rw [List.mem_singleton.mp he]
      exact Or.inl ⟨_, rfl, hevent⟩

/-- An entry is cited exactly when it stands in the envelope's footprint and declares the
key. -/
theorem mem_declared {input : AnalysisInput} (hsize : Numbered input) {soroban : SorobanData}
    {address : ScAddress} {key : ScVal} {readWrite : Bool} {i : UInt32}
    (hsoroban : (TransactionModel.fromInput input).soroban = some soroban) :
    (readWrite, i) ∈ (soroban.footprint.declared address key).map
        (fun d => (d.readWrite, d.index)) ↔
      ∃ k, (footprintKeys input.envelope readWrite)[i.toNat]? = some k ∧
        (k.declares address key).isSome = true := by
  obtain ⟨data, hdata, hfootprint, -⟩ := TransactionModel.fromInput_soroban hsoroban
  have hlen := hsize.keys data hdata
  have hkeys : footprintKeys input.envelope readWrite
      = if readWrite then data.footprint.readWrite else data.footprint.readOnly := by
    unfold footprintKeys
    rw [hdata]
  rw [hkeys, hfootprint, List.mem_map]
  simp only [Footprint.declared, List.mem_append, or_and_right, exists_or]
  cases readWrite with
  | false =>
      have honly : data.footprint.readOnly.length < UInt32.size := by omega
      rw [or_iff_left (not_mem_declaredIn (by decide))]
      exact mem_declaredIn_iff honly
  | true =>
      have hwrite : data.footprint.readWrite.length < UInt32.size := by omega
      rw [or_iff_right (not_mem_declaredIn (by decide))]
      exact mem_declaredIn_iff hwrite

/-- The key a footprint candidate reports is the one of its event. -/
theorem reportedKey_candidate {input : AnalysisInput} (hsize : Numbered input)
    {soroban : SorobanData} {x : ErrorEvent}
    (hx : x ∈ (TransactionModel.fromInput input).diagnostics.errors) :
    reportedKey input (footprintCandidate (TransactionModel.fromInput input) soroban x)
      = accessedKey x.event.data := by
  obtain ⟨r, hr, hdata⟩ := event_at hsize rfl hx
  have hcited : citedEvent input
      (footprintCandidate (TransactionModel.fromInput input) soroban x) = some r := hr
  have hclass : (footprintCandidate (TransactionModel.fromInput input) soroban x).causeClass
      = .footprintEntryMissing := rfl
  rw [reportedKey, if_pos hclass, hcited, Option.bind_some, hdata]

/-- The cited entries are those that declare the reported key. -/
theorem mem_footprintCitations {input : AnalysisInput} (hsize : Numbered input)
    {soroban : SorobanData} {x : ErrorEvent} {readWrite : Bool} {i : UInt32}
    (hsoroban : (TransactionModel.fromInput input).soroban = some soroban)
    (hx : x ∈ (TransactionModel.fromInput input).diagnostics.errors) :
    (readWrite, i) ∈ footprintCitations
        (footprintCandidate (TransactionModel.fromInput input) soroban x) ↔
      DeclaresReported input (footprintCandidate (TransactionModel.fromInput input) soroban x)
        readWrite i := by
  rw [footprintCitations_candidate, DeclaresReported, reportedKey_candidate hsize hx]
  cases accessedKey x.event.data with
  | none => simp
  | some reported =>
      obtain ⟨address, key⟩ := reported
      simp only [Option.some.injEq, Prod.mk.injEq]
      rw [mem_declared hsize hsoroban]
      constructor
      · rintro ⟨k, hk⟩
        exact ⟨address, key, k, ⟨rfl, rfl⟩, hk⟩
      · rintro ⟨a, b, k, ⟨rfl, rfl⟩, hk⟩
        exact ⟨k, hk⟩

/-- No entry of the footprint is cited twice. -/
theorem nodup_footprintCitations {input : AnalysisInput} (hsize : Numbered input)
    {soroban : SorobanData} (x : ErrorEvent)
    (hsoroban : (TransactionModel.fromInput input).soroban = some soroban) :
    (footprintCitations
      (footprintCandidate (TransactionModel.fromInput input) soroban x)).Nodup := by
  obtain ⟨data, hdata, hfootprint, -⟩ := TransactionModel.fromInput_soroban hsoroban
  rw [footprintCitations_candidate]
  cases accessedKey x.event.data with
  | none => exact List.nodup_nil
  | some reported =>
      apply nodup_declared
      rw [hfootprint]
      exact hsize.keys data hdata

theorem wellCited_footprintEntryMissing {input : AnalysisInput} (hsize : Numbered input)
    {c : CandidateCause}
    (h : footprintEntryMissing.evaluate (failureContext input) = .matched c) :
    WellCited input c := by
  obtain ⟨-, -, soroban, x, hsoroban, hfind, rfl⟩ := footprintEntryMissing_matched h
  have hx : x ∈ (TransactionModel.fromInput input).diagnostics.errors :=
    List.mem_of_find?_eq_some hfind
  refine ⟨by simp [footprintCandidate], rfl, ?_, ?_, nodup_footprintCitations hsize x hsoroban,
    fun _ _ => mem_footprintCitations hsize hsoroban hx⟩
  · simp [builtin, footprintEntryMissing, footprintCandidate]
  · intro e he
    rcases source_footprintCandidate hx e he with ⟨i, hi, hlt⟩ | hi | ⟨readWrite, i, hi⟩
    · rw [hi]
      exact hlt
    · rw [hi]
      trivial
    · have hcited : (readWrite, i) ∈ footprintCitations
          (footprintCandidate (TransactionModel.fromInput input) soroban x) :=
        List.mem_filterMap.mpr ⟨e, he, by rw [hi]⟩
      rw [hi]
      exact (mem_footprintCitations hsize hsoroban hx).mp hcited

/-- **Citations resolve.**  Every candidate has evidence, a remediation and a registered
rule, and everything it cites exists. -/
theorem analyze_wellCited (input : AnalysisInput) (hsize : Numbered input) (c : CandidateCause)
    (hc : c ∈ (analyze input).candidateCauses) : WellCited input c := by
  obtain ⟨rule, hrule, hmatch⟩ := mem_candidateCauses.mp hc
  revert hmatch
  revert rule
  simp only [builtin, List.forall_mem_cons]
  refine ⟨?_, ?_, ?_, ?_, ?_, ?_, ?_, ?_, by simp⟩
  · intro h
    refine wellCited_codeRule hsize (by decide) ?_ ?_ h
    · simp [builtin, archivedEntry]
    · exact fun e he => Or.inl (source_archivedEvidence e he)
  · intro h
    refine wellCited_codeRule hsize (by decide) ?_ source_resourceLimitEvidence h
    simp [builtin, resourceLimitExceeded]
  · intro h
    obtain ⟨summary, remediation, h⟩ := insufficientResourceFee_matched h
    refine wellCited_codeRule hsize (by decide) ?_ source_resourceFeeEvidence h
    have hid : insufficientResourceFee.id = "insufficient_resource_fee" := rfl
    simp [builtin, hid]
  · exact wellCited_contractDefinedError
  · exact wellCited_invalidAuthorizationEntry hsize
  · exact wellCited_footprintEntryMissing hsize
  · exact wellCited_contractTrap
  · exact wellCited_missingAuthorizationEntry

end Citations

/-- A violation on a key the footprint declares. -/
def conflictInput : AnalysisInput :=
  sorobanFailure .trapped [codeKey (.fill 9), dataKey (cid 5) (.u32 1)]
    (some [call none (cid 5) "f", footprintViolation (cid 5) (.u32 1),
      hostFnFailed (.storage .exceededLimit)])

theorem conflictInput_numbered : Numbered conflictInput where
  events := by decide
  auth := by decide
  keys := by
    rintro data ⟨⟩
    decide
  results := by decide

set_option maxRecDepth 20000 in
theorem analyze_wellCited_conflict :
    ∃ c ∈ (@analyze Strkey.standard conflictInput).candidateCauses,
      footprintCitations c = [(true, 1)] ∧ @WellCited Strkey.standard conflictInput c := by
  let _ : Strkey := Strkey.standard
  have h : ∃ c ∈ (analyze conflictInput).candidateCauses,
      footprintCitations c = [(true, 1)] := by decide
  obtain ⟨c, hc, hcited⟩ := h
  exact ⟨c, hc, hcited, analyze_wellCited conflictInput conflictInput_numbered c hc⟩

end Observatory
