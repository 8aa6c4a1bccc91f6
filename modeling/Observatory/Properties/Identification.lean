import Observatory.Testutil

/-!
# Attribution is robust to re-emission and order

`identify` looks at nothing but the emissions of a code: the error events that
carry it and name a contract.  Which contract it answers is decided by the set of
contracts among them and the set of those with the origin marker, so neither
callers that re-emit the code nor the order of events move a unique answer; only
the order of the candidates of an ambiguous one is that of the events.

* `emissions` — the emissions of a code, and `identify_eq_decide`, which says that
  `identify` depends on them alone.
* `Emitted` and `EmittedMarked` — who emitted a code, and who did so with the
  origin marker, and what each arm of the decision says about them.
-/

namespace Observatory

/-! ## Emissions -/

/-- What an error event carrying `code` says about who raised it: the contract that
emitted it, and the host's message. -/
def ErrorEvent.emission (code : UInt32) (x : ErrorEvent) : Option (ContractId × Option String) :=
  if x.error = .contract code then x.event.contract.map (fun c => (c, x.message)) else none

/-- The message is the one of a contract raising its own error. -/
def marked (message : Option String) : Bool := message.any (fun m => startsWith m originMarker)

namespace TransactionModel

/-- The emissions of a code, in order. -/
def emissions (model : TransactionModel) (code : UInt32) : List (ContractId × Option String) :=
  model.diagnostics.errors.filterMap (ErrorEvent.emission code)

/-- An error event of `c` carries this code. -/
def Emitted (model : TransactionModel) (code : UInt32) (c : ContractId) : Prop :=
  ∃ e ∈ model.diagnostics.events, ∃ message,
    e.kind = .error (.contract code) message ∧ e.contract = some c

/-- An error event of `c` carries this code and the origin marker. -/
def EmittedMarked (model : TransactionModel) (code : UInt32) (c : ContractId) : Prop :=
  ∃ e ∈ model.diagnostics.events, ∃ message,
    e.kind = .error (.contract code) (some message) ∧
      startsWith message originMarker = true ∧ e.contract = some c

end TransactionModel

theorem emission_eq_some {code : UInt32} {x : ErrorEvent} {c : ContractId}
    {message : Option String} :
    x.emission code = some (c, message) ↔
      x.error = .contract code ∧ x.event.contract = some c ∧ x.message = message := by
  unfold ErrorEvent.emission
  by_cases hcode : x.error = .contract code
  · simp [hcode]
  · simp [hcode]

/-- An emission is an error event that carries the code and names a contract. -/
theorem mem_emissions {model : TransactionModel} {code : UInt32} {c : ContractId}
    {message : Option String} :
    (c, message) ∈ model.emissions code ↔
      ∃ e ∈ model.diagnostics.events,
        e.kind = .error (.contract code) message ∧ e.contract = some c := by
  unfold TransactionModel.emissions Diagnostics.errors
  rw [List.filterMap_filterMap, List.mem_filterMap]
  constructor
  · rintro ⟨e, he, h⟩
    obtain ⟨x, hx, hemission⟩ := Option.bind_eq_some_iff.mp h
    obtain ⟨hkind, rfl⟩ := raised_eq_some.mp hx
    obtain ⟨hcode, hc, rfl⟩ := emission_eq_some.mp hemission
    exact ⟨x.event, he, by rw [hkind, hcode], hc⟩
  · rintro ⟨e, he, hkind, hc⟩
    refine ⟨e, he, Option.bind_eq_some_iff.mpr ⟨⟨e, .contract code, message⟩, ?_, ?_⟩⟩
    · exact raised_eq_some.mpr ⟨hkind, rfl⟩
    · exact emission_eq_some.mpr ⟨rfl, hc, rfl⟩

/-- The contracts `identify` collects are those of the emissions. -/
theorem emittersOf_errors (model : TransactionModel) (code : UInt32) :
    emittersOf code model.diagnostics.errors = (model.emissions code).map Prod.fst := by
  unfold emittersOf TransactionModel.emissions
  rw [List.map_filterMap]
  apply List.filterMap_congr
  intro x _
  unfold ErrorEvent.emission
  cases x.event.contract with
  | none => simp
  | some c => by_cases hcode : x.error = .contract code <;> simp [hcode]

/-- The origins of a code are those of its emissions with the marker. -/
theorem originsOf_errors (model : TransactionModel) (code : UInt32) :
    originsOf code model.diagnostics.errors
      = ((model.emissions code).filter (fun p => marked p.2)).map Prod.fst := by
  unfold originsOf emittersOf TransactionModel.emissions
  rw [List.filterMap_filter, List.filter_filterMap, List.map_filterMap]
  apply List.filterMap_congr
  intro x _
  have horigin : x.isOrigin = marked x.message := rfl
  unfold ErrorEvent.emission
  rw [horigin]
  cases x.event.contract with
  | none => simp
  | some c =>
      by_cases hcode : x.error = .contract code
      · cases hmarked : marked x.message <;> simp [hcode, hmarked, Option.filter]
      · simp [hcode]

/-! ## The decision on them -/

/-- The contracts of a list of emissions, and those with the origin marker. -/
def decideEmissions (emissions : List (ContractId × Option String)) : ContractIdentification :=
  decideEmitter (Scan.distinct (emissions.map Prod.fst))
    (Scan.distinct ((emissions.filter (fun p => marked p.2)).map Prod.fst))

/-- **What identification depends on**: the emissions of the code. -/
theorem identify_eq_decide (model : TransactionModel) (code : UInt32) :
    identify model code = decideEmissions (model.emissions code) := by
  rw [identify_eq, emittersOf_errors, originsOf_errors]
  rfl

theorem mem_emitters {model : TransactionModel} {code : UInt32} {c : ContractId} :
    c ∈ (model.emissions code).map Prod.fst ↔ model.Emitted code c := by
  rw [List.mem_map]
  constructor
  · rintro ⟨⟨d, message⟩, hmem, rfl⟩
    obtain ⟨e, he, hkind, hc⟩ := mem_emissions.mp hmem
    exact ⟨e, he, message, hkind, hc⟩
  · rintro ⟨e, he, message, hkind, hc⟩
    exact ⟨(c, message), mem_emissions.mpr ⟨e, he, hkind, hc⟩, rfl⟩

theorem marked_eq_true {message : Option String} :
    marked message = true ↔ ∃ m, message = some m ∧ startsWith m originMarker = true := by
  unfold marked
  cases message with
  | none => simp
  | some m => simp

theorem mem_origins {model : TransactionModel} {code : UInt32} {c : ContractId} :
    c ∈ ((model.emissions code).filter (fun p => marked p.2)).map Prod.fst ↔
      model.EmittedMarked code c := by
  rw [List.mem_map]
  constructor
  · rintro ⟨⟨d, message⟩, hmem, rfl⟩
    obtain ⟨hmem, hmarked⟩ := List.mem_filter.mp hmem
    obtain ⟨e, he, hkind, hc⟩ := mem_emissions.mp hmem
    obtain ⟨m, rfl, hm⟩ := marked_eq_true.mp hmarked
    exact ⟨e, he, m, hkind, hm, hc⟩
  · rintro ⟨e, he, m, hkind, hm, hc⟩
    refine ⟨(c, some m), List.mem_filter.mpr ⟨?_, ?_⟩, rfl⟩
    · exact mem_emissions.mpr ⟨e, he, hkind, hc⟩
    · exact marked_eq_true.mpr ⟨m, rfl, hm⟩

theorem TransactionModel.EmittedMarked.emitted {model : TransactionModel} {code : UInt32}
    {c : ContractId} (h : model.EmittedMarked code c) : model.Emitted code c := by
  obtain ⟨e, he, message, hkind, -, hc⟩ := h
  exact ⟨e, he, some message, hkind, hc⟩

theorem decideEmitter_eq_unidentified {emitters origins : List ContractId} :
    decideEmitter emitters origins = .unidentified ↔ emitters = [] := by
  unfold decideEmitter
  split <;> simp_all

/-- Two candidates, and no single origin among them. -/
theorem decideEmitter_eq_ambiguous {emitters origins candidates : List ContractId} :
    decideEmitter emitters origins = .ambiguous candidates ↔
      emitters = candidates ∧ emitters ≠ [] ∧ (∀ c, emitters ≠ [c]) ∧ ∀ c, origins ≠ [c] := by
  unfold decideEmitter
  split <;> simp_all

/-- **Unidentified** when nobody emitted the code under a contract's name. -/
theorem identify_eq_unidentified {model : TransactionModel} {code : UInt32} :
    identify model code = .unidentified ↔ ∀ c, ¬ model.Emitted code c := by
  rw [identify_eq_decide, decideEmissions, decideEmitter_eq_unidentified, Scan.distinct_eq_nil,
    List.eq_nil_iff_forall_not_mem]
  exact forall_congr' fun c => not_congr mem_emitters

/-- **A single origin** is found, whoever else emitted the code. -/
theorem identify_of_origin {model : TransactionModel} {code : UInt32} {c : ContractId}
    (h : model.EmittedMarked code c) (honly : ∀ d, model.EmittedMarked code d → d = c) :
    ∃ basis, identify model code = .unique c basis := by
  have horigins : Scan.distinct
      (((model.emissions code).filter (fun p => marked p.2)).map Prod.fst) = [c] := by
    rw [Scan.distinct_eq_singleton]
    exact ⟨mem_origins.mpr h, fun d hd => honly d (mem_origins.mp hd)⟩
  have hc : c ∈ Scan.distinct ((model.emissions code).map Prod.fst) :=
    Scan.mem_distinct.mpr (mem_emitters.mpr h.emitted)
  rw [identify_eq_decide, decideEmissions, horigins]
  by_cases hsole : ∃ d, Scan.distinct ((model.emissions code).map Prod.fst) = [d]
  · obtain ⟨d, hd⟩ := hsole
    rw [hd] at hc ⊢
    obtain rfl := List.mem_singleton.mp hc
    exact ⟨.soleEmitter, decideEmitter_eq_unique.mpr (Or.inl ⟨rfl, rfl⟩)⟩
  · refine ⟨.originMarker, decideEmitter_eq_unique.mpr (Or.inr ⟨?_, ?_, rfl, rfl⟩)⟩
    · exact List.ne_nil_of_mem hc
    · exact fun d hd => hsole ⟨d, hd⟩

/-- **Several contracts** and not one origin among them: all of them are listed. -/
theorem identify_of_several {model : TransactionModel} {code : UInt32} {c d : ContractId}
    (hne : c ≠ d) (hc : model.Emitted code c) (hd : model.Emitted code d)
    (horigin : ¬ ∃! o, model.EmittedMarked code o) :
    ∃ candidates, identify model code = .ambiguous candidates ∧
      Scan.FirstAppearances ((model.emissions code).map Prod.fst) candidates := by
  have hc' := Scan.mem_distinct.mpr (mem_emitters.mpr hc)
  have hd' := Scan.mem_distinct.mpr (mem_emitters.mpr hd)
  refine ⟨_, ?_, Scan.firstAppearances_distinct _⟩
  rw [identify_eq_decide, decideEmissions, decideEmitter_eq_ambiguous]
  refine ⟨rfl, List.ne_nil_of_mem hc', ?_, ?_⟩
  · intro x hx
    rw [hx, List.mem_singleton] at hc' hd'
    exact hne (hc'.trans hd'.symm)
  · intro o ho
    obtain ⟨hmem, honly⟩ := Scan.distinct_eq_singleton.mp ho
    exact horigin ⟨o, mem_origins.mp hmem, fun x hx => honly x (mem_origins.mpr hx)⟩

/-- **Order.**  A unique answer does not depend on the order of the emissions. -/
theorem decideEmissions_perm {emissions emissions' : List (ContractId × Option String)}
    (h : emissions'.Perm emissions) {c : ContractId} {basis : IdentificationBasis}
    (hunique : decideEmissions emissions = .unique c basis) :
    decideEmissions emissions' = .unique c basis := by
  have hemitters := Scan.distinct_perm (h.map Prod.fst)
  have horigins := Scan.distinct_perm ((h.filter (fun p => marked p.2)).map Prod.fst)
  unfold decideEmissions at hunique ⊢
  rw [decideEmitter_eq_unique] at hunique ⊢
  rcases hunique with ⟨hsole, rfl⟩ | ⟨hnil, hseveral, horigin, rfl⟩
  · rw [hsole, List.perm_singleton] at hemitters
    exact Or.inl ⟨hemitters, rfl⟩
  · rw [horigin, List.perm_singleton] at horigins
    refine Or.inr ⟨?_, ?_, horigins, rfl⟩
    · intro hnil'
      rw [hnil'] at hemitters
      exact hnil hemitters.symm.eq_nil
    · intro d hd
      rw [hd] at hemitters
      exact hseveral d (List.perm_singleton.mp hemitters.symm)

/-! ## The law -/

/-- **Origin attribution.**  Nobody named means unidentified; a single contract with
the origin marker is found whoever re-emits the code; several contracts without a
single origin are all listed, each once, in order of first appearance.  The answer
depends on the emissions of the code alone, and a unique one not on their order. -/
theorem identify_robust (model : TransactionModel) (code : UInt32) :
    (identify model code = .unidentified ↔ ∀ c, ¬ model.Emitted code c) ∧
    (∀ c, model.EmittedMarked code c → (∀ d, model.EmittedMarked code d → d = c) →
      ∃ basis, identify model code = .unique c basis) ∧
    (∀ c d, c ≠ d → model.Emitted code c → model.Emitted code d →
      (¬ ∃! o, model.EmittedMarked code o) →
      ∃ candidates, identify model code = .ambiguous candidates ∧
        Scan.FirstAppearances ((model.emissions code).map Prod.fst) candidates) ∧
    (∀ model' : TransactionModel, model'.emissions code = model.emissions code →
      identify model' code = identify model code) ∧
    ∀ (model' : TransactionModel) (c : ContractId) (basis : IdentificationBasis),
      (model'.emissions code).Perm (model.emissions code) →
      identify model code = .unique c basis → identify model' code = .unique c basis := by
  refine ⟨identify_eq_unidentified, fun c => identify_of_origin, fun c d => identify_of_several,
    ?_, ?_⟩
  · intro model' h
    rw [identify_eq_decide, identify_eq_decide, h]
  · intro model' c basis h hunique
    rw [identify_eq_decide] at hunique ⊢
    exact decideEmissions_perm h hunique

end Observatory
