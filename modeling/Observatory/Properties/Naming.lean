import Observatory.Contract.Resolve

/-!
# Names and the order of the error enums

A spec may declare a code in several error enums.  Where the cases have one name, the
lookup answers with it, and takes the enum and the doc from the first enum in order;
where they have several, it lists them all.

* `caseFor` and `head?_casesFor` — the case the lookup takes first.
* `SameUpToOrder`, `SameName` — what a reordering may change.
* `resolve_reorder` — a reordering keeps the name, and it keeps everything exactly when
  the enums that declare the code agree.
-/

namespace Observatory

/-! ## The lookup -/

/-- The first case of an enum with the given value. -/
def ErrorEnum.caseFor (en : ErrorEnum) (code : UInt32) : Option ErrorCase :=
  en.cases.find? (fun c => c.value == code)

/-- The first case with the given value is that of the first enum that has one. -/
theorem head?_casesFor (spec : ContractSpec) (code : UInt32) :
    (spec.casesFor code).head?
      = spec.errorEnums.findSome? (fun en => (en.caseFor code).map (fun c => (en, c))) := by
  unfold ContractSpec.casesFor
  rw [List.head?_filter, List.find?_flatMap]
  congr 1
  funext en
  rw [List.find?_map]
  rfl

/-- All cases with this value have one name. -/
def ContractSpec.OneName (spec : ContractSpec) (code : UInt32) : Prop :=
  ∀ p ∈ spec.casesFor code, ∀ q ∈ spec.casesFor code, p.2.name = q.2.name

theorem lookup_of_nil {spec : ContractSpec} {code : UInt32} (h : spec.casesFor code = []) :
    spec.lookup code = .notFound := by
  unfold ContractSpec.lookup
  rw [h]

/-- Cases of one name: the first one is found. -/
theorem lookup_of_oneName {spec : ContractSpec} {code : UInt32} {en : ErrorEnum} {case : ErrorCase}
    (hhead : (spec.casesFor code).head? = some (en, case)) (hone : spec.OneName code) :
    spec.lookup code = .found en case := by
  obtain ⟨rest, hcases⟩ := List.head?_eq_some_iff.mp hhead
  have hfirst : (en, case) ∈ spec.casesFor code := List.mem_of_head? hhead
  have hall : rest.all (fun p => p.2.name == case.name) = true := by
    rw [List.all_eq_true]
    intro p hp
    rw [beq_iff_eq]
    exact hone p (by rw [hcases]; exact List.mem_cons_of_mem _ hp) _ hfirst
  unfold ContractSpec.lookup
  simp only [hcases, hall, if_true]

/-- Cases of several names: all of them are listed. -/
theorem lookup_of_several {spec : ContractSpec} {code : UInt32} (hone : ¬ spec.OneName code) :
    spec.lookup code = .conflicting (spec.casesFor code) := by
  unfold ContractSpec.lookup
  split
  · next hnil =>
    exfalso
    apply hone
    intro p hp
    rw [hnil] at hp
    cases hp
  · next en case rest hcases =>
    split
    · next hall =>
      exfalso
      apply hone
      have hname : ∀ p ∈ spec.casesFor code, p.2.name = case.name := by
        intro p hp
        rw [hcases] at hp
        rcases List.mem_cons.mp hp with rfl | hp
        · rfl
        · exact beq_iff_eq.mp (List.all_eq_true.mp hall p hp)
      intro p hp q hq
      rw [hname p hp, hname q hq]
    · rw [hcases]

/-! ## Reordering the enums -/

/-- The spec with its enums in this order. -/
def ContractSpec.withEnums (spec : ContractSpec) (enums : List ErrorEnum) : ContractSpec :=
  { spec with errorEnums := enums }

section Reorder

variable {spec : ContractSpec} {enums : List ErrorEnum} {code : UInt32}

/-- A reordering reorders the cases. -/
theorem casesFor_perm (h : enums.Perm spec.errorEnums) :
    ((spec.withEnums enums).casesFor code).Perm (spec.casesFor code) :=
  (h.flatMap_right _).filter _

theorem oneName_withEnums (h : enums.Perm spec.errorEnums) :
    (spec.withEnums enums).OneName code ↔ spec.OneName code := by
  unfold ContractSpec.OneName
  simp only [(casesFor_perm h).mem_iff]

end Reorder

/-- The same resolution, up to the order of the candidates of an ambiguous one. -/
inductive SameUpToOrder : ErrorResolution → ErrorResolution → Prop where
  | refl (resolution : ErrorResolution) : SameUpToOrder resolution resolution
  | candidates {contract : ContractId} {candidates candidates' : List (String × String)}
      (h : candidates'.Perm candidates) :
      SameUpToOrder (.ambiguousInSpec contract candidates) (.ambiguousInSpec contract candidates')

/-- A name has no candidates to put in another order. -/
theorem eq_of_sameUpToOrder {contract : ContractId} {enumName caseName doc : String}
    {provenance : SpecProvenance} {resolution : ErrorResolution}
    (h : SameUpToOrder (.resolved contract enumName caseName doc provenance) resolution) :
    resolution = .resolved contract enumName caseName doc provenance := by
  cases h
  rfl

/-- The same resolution, up to that order and the enum and the doc of a name. -/
inductive SameName : ErrorResolution → ErrorResolution → Prop where
  | same {resolution resolution' : ErrorResolution} (h : SameUpToOrder resolution resolution') :
      SameName resolution resolution'
  | declared {contract : ContractId} {enumName enumName' caseName doc doc' : String}
      {provenance : SpecProvenance} :
      SameName (.resolved contract enumName caseName doc provenance)
        (.resolved contract enumName' caseName doc' provenance)

section Resolve

variable {code : UInt32} {contract : ContractId} {spec : ContractSpec}
  {loaded : Option (List Hash)} {enums : List ErrorEnum}

/-- What a spec is answered with: by its code, and by the cases it has for the error code. -/
inductive Answers (code : UInt32) (contract : ContractId) (spec : ContractSpec)
    (loaded : Option (List Hash)) : ErrorResolution → Prop where
  /-- The spec is for other code. -/
  | mismatch {hash : Hash} (hp : provenanceOf spec.wasmHash loaded = .error hash) :
      Answers code contract spec loaded (.specVersionMismatch contract hash)
  /-- There is no case. -/
  | missing {provenance : SpecProvenance} (hp : provenanceOf spec.wasmHash loaded = .ok provenance)
      (hnil : spec.casesFor code = []) :
      Answers code contract spec loaded (.codeNotInSpec contract provenance)
  /-- All cases have one name. -/
  | named {provenance : SpecProvenance} {en : ErrorEnum} {case : ErrorCase}
      (hp : provenanceOf spec.wasmHash loaded = .ok provenance) (hone : spec.OneName code)
      (hhead : (spec.casesFor code).head? = some (en, case)) :
      Answers code contract spec loaded (.resolved contract en.name case.name case.doc provenance)
  /-- They have several. -/
  | several {provenance : SpecProvenance} (hp : provenanceOf spec.wasmHash loaded = .ok provenance)
      (hone : ¬ spec.OneName code) :
      Answers code contract spec loaded
        (.ambiguousInSpec contract ((spec.casesFor code).map (fun p => (p.1.name, p.2.name))))

theorem Answers.eq {resolution : ErrorResolution}
    (h : Answers code contract spec loaded resolution) :
    resolveFrom code contract spec loaded = resolution := by
  unfold resolveFrom
  cases h with
  | mismatch hp => simp only [hp]
  | missing hp hnil => simp only [hp, lookup_of_nil hnil]
  | named hp hone hhead => simp only [hp, lookup_of_oneName hhead hone]
  | several hp hone => simp only [hp, lookup_of_several hone]

/-- Every spec has an answer, and it is what is resolved. -/
theorem answers_resolveFrom :
    Answers code contract spec loaded (resolveFrom code contract spec loaded) := by
  cases hp : provenanceOf spec.wasmHash loaded with
  | error hash =>
      rw [(Answers.mismatch hp : Answers code contract spec loaded _).eq]
      exact .mismatch hp
  | ok provenance =>
      by_cases hone : spec.OneName code
      · cases hcases : spec.casesFor code with
        | nil =>
            rw [(Answers.missing hp hcases).eq]
            exact .missing hp hcases
        | cons p rest =>
            have hhead : (spec.casesFor code).head? = some p := by
              rw [hcases]
              rfl
            rw [(Answers.named hp hone hhead).eq]
            exact .named hp hone hhead
      · rw [(Answers.several hp hone).eq]
        exact .several hp hone

/-- **A reordering keeps the name.** -/
theorem Answers.reorder {resolution : ErrorResolution}
    (hanswers : Answers code contract spec loaded resolution) (h : enums.Perm spec.errorEnums) :
    ∃ resolution', SameName resolution resolution' ∧
      Answers code contract (spec.withEnums enums) loaded resolution' := by
  have hperm : ((spec.withEnums enums).casesFor code).Perm (spec.casesFor code) := casesFor_perm h
  cases hanswers with
  | mismatch hp => exact ⟨_, .same (.refl _), .mismatch hp⟩
  | missing hp hnil =>
      rw [hnil] at hperm
      exact ⟨_, .same (.refl _), .missing hp hperm.eq_nil⟩
  | @named _ en case hp hone hhead =>
      have hmem : (en, case) ∈ (spec.withEnums enums).casesFor code :=
        hperm.mem_iff.mpr (List.mem_of_head? hhead)
      have hone' : (spec.withEnums enums).OneName code := (oneName_withEnums h).mpr hone
      obtain ⟨q, rest, hcases⟩ := List.exists_cons_of_ne_nil (List.ne_nil_of_mem hmem)
      have hname : case.name = q.2.name :=
        hone' _ hmem q (by rw [hcases]; exact List.mem_cons_self)
      rw [hname]
      exact ⟨_, .declared, .named hp hone' (by rw [hcases]; rfl)⟩
  | several hp hone =>
      have hone' : ¬ (spec.withEnums enums).OneName code :=
        fun h' => hone ((oneName_withEnums h).mp h')
      exact ⟨_, .same (.candidates (hperm.map _)), .several hp hone'⟩

theorem resolveFrom_reorder (h : enums.Perm spec.errorEnums) :
    SameName (resolveFrom code contract spec loaded)
      (resolveFrom code contract (spec.withEnums enums) loaded) := by
  obtain ⟨resolution, hsame, hanswers⟩ := answers_resolveFrom.reorder h
  rw [hanswers.eq]
  exact hsame

/-- A name comes from the first case with the code, where all of them have that name. -/
theorem head?_of_resolveFrom {c : ContractId} {enumName caseName doc : String}
    {provenance : SpecProvenance}
    (h : resolveFrom code contract spec loaded = .resolved c enumName caseName doc provenance) :
    c = contract ∧ provenanceOf spec.wasmHash loaded = .ok provenance ∧ spec.OneName code ∧
      ∃ en case, (spec.casesFor code).head? = some (en, case) ∧ en.name = enumName ∧
        case.name = caseName ∧ case.doc = doc := by
  have hanswers : Answers code contract spec loaded _ := answers_resolveFrom
  rw [h] at hanswers
  cases hanswers with
  | named hp hone hhead => exact ⟨rfl, hp, hone, _, _, hhead, rfl, rfl, rfl⟩

/-- The enums that declare the code have one name, and their first cases with it one doc. -/
def ContractSpec.EnumsAgree (spec : ContractSpec) (code : UInt32) : Prop :=
  ∀ en ∈ spec.errorEnums, ∀ en' ∈ spec.errorEnums, ∀ c c', en.caseFor code = some c →
    en'.caseFor code = some c' → en.name = en'.name ∧ c.doc = c'.doc

/-- The case found first is one of an enum of the spec. -/
theorem caseFor_of_head? {spec : ContractSpec} {en : ErrorEnum} {case : ErrorCase}
    (h : (spec.casesFor code).head? = some (en, case)) :
    en ∈ spec.errorEnums ∧ en.caseFor code = some case := by
  rw [head?_casesFor] at h
  obtain ⟨en', hen', hmap⟩ := List.exists_of_findSome?_eq_some h
  obtain ⟨c, hc, heq⟩ := Option.map_eq_some_iff.mp hmap
  obtain ⟨rfl, rfl⟩ := Prod.mk.inj heq
  exact ⟨hen', hc⟩

/-- An enum that declares the code and is put first names it. -/
theorem head?_casesFor_cons {en : ErrorEnum} {case : ErrorCase} (rest : List ErrorEnum)
    (h : en.caseFor code = some case) :
    ((spec.withEnums (en :: rest)).casesFor code).head? = some (en, case) := by
  rw [head?_casesFor]
  simp [ContractSpec.withEnums, h]

/-- Every enum that declares the code can be put first, and then names it. -/
theorem eq_of_unchanged {c : ContractId} {enumName caseName doc : String}
    {provenance : SpecProvenance}
    (hsame : ∀ enums, enums.Perm spec.errorEnums →
      SameUpToOrder (resolveFrom code contract spec loaded)
        (resolveFrom code contract (spec.withEnums enums) loaded))
    (hres : resolveFrom code contract spec loaded
      = .resolved c enumName caseName doc provenance) :
    ∀ en ∈ spec.errorEnums, ∀ case, en.caseFor code = some case →
      en.name = enumName ∧ case.doc = doc := by
  intro en hen case hcase
  obtain ⟨-, hp, hone, -⟩ := head?_of_resolveFrom hres
  have hperm : (en :: spec.errorEnums.erase en).Perm spec.errorEnums :=
    (List.perm_cons_erase hen).symm
  have hone' : (spec.withEnums (en :: spec.errorEnums.erase en)).OneName code :=
    (oneName_withEnums hperm).mpr hone
  have hanswers : Answers code contract (spec.withEnums (en :: spec.errorEnums.erase en)) loaded
      (.resolved contract en.name case.name case.doc provenance) :=
    .named hp hone' (head?_casesFor_cons _ hcase)
  have hkept := hsame _ hperm
  rw [hres, hanswers.eq] at hkept
  have heq := eq_of_sameUpToOrder hkept
  simp only [ErrorResolution.resolved.injEq] at heq
  exact ⟨heq.2.1, heq.2.2.2.1⟩

/-- **Enum and doc.**  A resolution is kept by every reordering exactly when it is no name,
or the enums that declare the code agree. -/
theorem resolveFrom_unchanged_iff :
    (∀ enums, enums.Perm spec.errorEnums →
      SameUpToOrder (resolveFrom code contract spec loaded)
        (resolveFrom code contract (spec.withEnums enums) loaded)) ↔
      ((resolveFrom code contract spec loaded).name.isSome = true → spec.EnumsAgree code) := by
  constructor
  · intro hsame hsome
    obtain ⟨c, enumName, caseName, doc, provenance, hres⟩ : ∃ c enumName caseName doc provenance,
        resolveFrom code contract spec loaded
          = .resolved c enumName caseName doc provenance := by
      cases hres : resolveFrom code contract spec loaded with
      | resolved c enumName caseName doc provenance => exact ⟨_, _, _, _, _, rfl⟩
      | _ =>
          rw [hres] at hsome
          cases hsome
    have hfirst := eq_of_unchanged hsame hres
    intro en hen en' hen' c c' hc hc'
    rw [(hfirst en hen c hc).1, (hfirst en' hen' c' hc').1, (hfirst en hen c hc).2,
      (hfirst en' hen' c' hc').2]
    exact ⟨rfl, rfl⟩
  · intro hagree enums hperm
    have hname : SameName (resolveFrom code contract spec loaded)
        (resolveFrom code contract (spec.withEnums enums) loaded) := resolveFrom_reorder hperm
    generalize hr : resolveFrom code contract spec loaded = r at hname hagree ⊢
    generalize hr' : resolveFrom code contract (spec.withEnums enums) loaded = r' at hname ⊢
    cases hname with
    | same h => exact h
    | declared =>
        obtain ⟨-, -, -, en, case, hhead, rfl, -, rfl⟩ := head?_of_resolveFrom hr
        obtain ⟨-, -, -, en', case', hhead', rfl, -, rfl⟩ := head?_of_resolveFrom hr'
        obtain ⟨hen, hcase⟩ := caseFor_of_head? hhead
        obtain ⟨hen', hcase'⟩ := caseFor_of_head? hhead'
        obtain ⟨hnames, hdocs⟩ :=
          hagree rfl en hen en' (hperm.mem_iff.mp hen') case case' hcase hcase'
        rw [hnames, hdocs]
        exact .refl _

/-- An ambiguous resolution lists every case with the code. -/
theorem candidates_of_resolveFrom {c : ContractId} {candidates : List (String × String)}
    (h : resolveFrom code contract spec loaded = .ambiguousInSpec c candidates) :
    c = contract ∧ candidates = (spec.casesFor code).map (fun p => (p.1.name, p.2.name)) := by
  have hanswers : Answers code contract spec loaded _ := answers_resolveFrom
  rw [h] at hanswers
  cases hanswers with
  | several hp hone => exact ⟨rfl, rfl⟩

end Resolve

/-! ## The law -/

/-- The specs, with this one for the contract. -/
def withSpec (specs : ContractId → Option SpecAvailability) (contract : ContractId)
    (spec : ContractSpec) : ContractId → Option SpecAvailability :=
  fun c => if c = contract then some (.available spec) else specs c

section Law

variable {code : UInt32} {identification : ContractIdentification}
  {specs : ContractId → Option SpecAvailability} {loaded : Option (List Hash)}
  {contract : ContractId} {spec : ContractSpec}

/-- The identified contract's code is named from its spec. -/
theorem resolve_withSpec (h : identification.contract = some contract) :
    resolve (.contract code) identification (withSpec specs contract spec) loaded
      = resolveFrom code contract spec loaded := by
  simp [resolve, withSpec, h]

/-- The spec of another contract is not looked at. -/
theorem resolve_withSpec_of_ne (h : identification.contract ≠ some contract) :
    resolve (.contract code) identification (withSpec specs contract spec) loaded
      = resolve (.contract code) identification specs loaded := by
  unfold resolve
  cases hc : identification.contract with
  | none => rfl
  | some c =>
      have hne : c ≠ contract := by
        rintro rfl
        exact h hc
      simp [withSpec, hne]

end Law

/-- Where a name is read from: the first enum that declares the code, and its first case
with it; every case with the code has the name. -/
def NamedBy (spec : ContractSpec) (code : UInt32) (enumName caseName doc : String) : Prop :=
  (∃ before en after case, spec.errorEnums = before ++ en :: after ∧
    (∀ en' ∈ before, en'.caseFor code = none) ∧ en.caseFor code = some case ∧
    en.name = enumName ∧ case.name = caseName ∧ case.doc = doc) ∧
  ∀ en ∈ spec.errorEnums, ∀ case ∈ en.cases, case.value = code → case.name = caseName

theorem namedBy_of_resolveFrom {code : UInt32} {contract c : ContractId} {spec : ContractSpec}
    {loaded : Option (List Hash)} {enumName caseName doc : String} {provenance : SpecProvenance}
    (h : resolveFrom code contract spec loaded = .resolved c enumName caseName doc provenance) :
    NamedBy spec code enumName caseName doc := by
  obtain ⟨-, -, hone, en, case, hhead, rfl, rfl, rfl⟩ := head?_of_resolveFrom h
  refine ⟨?_, ?_⟩
  · rw [head?_casesFor, List.findSome?_eq_some_iff] at hhead
    obtain ⟨before, en', after, hsplit, hcase, hnone⟩ := hhead
    obtain ⟨case', hcase', heq⟩ := Option.map_eq_some_iff.mp hcase
    obtain ⟨rfl, rfl⟩ := Prod.mk.inj heq
    exact ⟨before, en', after, case', hsplit,
      fun e he => Option.map_eq_none_iff.mp (hnone e he), hcase', rfl, rfl, rfl⟩
  · intro en' hen' case' hcase' hvalue
    exact hone (en', case') (mem_casesFor.mpr ⟨hen', hcase', hvalue⟩) _ (List.mem_of_head? hhead)

/-- The names of the cases for a code are those of the declared cases with its value. -/
theorem mem_casesFor_map {spec : ContractSpec} {code : UInt32} {enumName caseName : String} :
    (enumName, caseName) ∈ (spec.casesFor code).map (fun p => (p.1.name, p.2.name)) ↔
      ∃ en ∈ spec.errorEnums, ∃ case ∈ en.cases,
        case.value = code ∧ en.name = enumName ∧ case.name = caseName := by
  simp only [List.mem_map, Prod.exists, mem_casesFor, Prod.mk.injEq]
  constructor
  · rintro ⟨en, case, ⟨hen, hcase, hvalue⟩, rfl, rfl⟩
    exact ⟨en, hen, case, hcase, hvalue, rfl, rfl⟩
  · rintro ⟨en, hen, case, hcase, hvalue, rfl, rfl⟩
    exact ⟨en, case, ⟨hen, hcase, hvalue⟩, rfl, rfl⟩

/-- **Declaration order.**  Reordering the error enums of a spec keeps a resolution up to
the order of the candidates of an ambiguous one and the enum and the doc of a name.  It
keeps these as well exactly when the enums that declare the code agree on them.  A name is
that of every case with the code, and the candidates are all of them. -/
theorem resolve_reorder (code : UInt32) (identification : ContractIdentification)
    (specs : ContractId → Option SpecAvailability) (loaded : Option (List Hash))
    (contract : ContractId) (spec : ContractSpec) :
    (∀ enums, enums.Perm spec.errorEnums →
      SameName (resolve (.contract code) identification (withSpec specs contract spec) loaded)
        (resolve (.contract code) identification
          (withSpec specs contract (spec.withEnums enums)) loaded)) ∧
    ((∀ enums, enums.Perm spec.errorEnums →
      SameUpToOrder (resolve (.contract code) identification (withSpec specs contract spec) loaded)
        (resolve (.contract code) identification
          (withSpec specs contract (spec.withEnums enums)) loaded)) ↔
      (identification.contract = some contract →
        (resolve (.contract code) identification (withSpec specs contract spec)
          loaded).name.isSome = true → spec.EnumsAgree code)) ∧
    (identification.contract = some contract → ∀ c enumName caseName doc provenance,
      resolve (.contract code) identification (withSpec specs contract spec) loaded
        = .resolved c enumName caseName doc provenance →
      NamedBy spec code enumName caseName doc) ∧
    (identification.contract = some contract → ∀ c candidates,
      resolve (.contract code) identification (withSpec specs contract spec) loaded
        = .ambiguousInSpec c candidates →
      candidates = (spec.casesFor code).map (fun p => (p.1.name, p.2.name)) ∧
      ∀ enumName caseName, (enumName, caseName) ∈ candidates ↔
        ∃ en ∈ spec.errorEnums, ∃ case ∈ en.cases,
          case.value = code ∧ en.name = enumName ∧ case.name = caseName) := by
  by_cases hc : identification.contract = some contract
  · simp only [resolve_withSpec hc, hc, true_imp_iff]
    refine ⟨fun enums => resolveFrom_reorder, resolveFrom_unchanged_iff, ?_, ?_⟩
    · intro c enumName caseName doc provenance h
      exact namedBy_of_resolveFrom h
    · intro c candidates h
      obtain rfl := (candidates_of_resolveFrom h).2
      exact ⟨rfl, fun enumName caseName => mem_casesFor_map⟩
  · simp only [resolve_withSpec_of_ne hc, hc, false_imp_iff, iff_true, and_true]
    exact ⟨fun _ _ => .same (.refl _), fun _ _ => .refl _⟩

/-! ## A name declared twice -/

/-- Two enums that declare 1 as `Paused`. -/
def twicePaused : ContractSpec :=
  { wasmHash := none
    errorEnums := [⟨"A", "", "", [⟨"Paused", 1, ""⟩]⟩, ⟨"B", "", "", [⟨"Paused", 1, ""⟩]⟩]
    entryCount := 2 }

/-- The other way round, the name is read from the other enum. -/
theorem resolve_reorder_enum :
    twicePaused.errorEnums.reverse.Perm twicePaused.errorEnums ∧
      ¬ SameUpToOrder
        (resolve (.contract 1) (.unique ⟨.fill 5⟩ .soleEmitter)
          (withSpec (fun _ => none) ⟨.fill 5⟩ twicePaused) none)
        (resolve (.contract 1) (.unique ⟨.fill 5⟩ .soleEmitter)
          (withSpec (fun _ => none) ⟨.fill 5⟩
            (twicePaused.withEnums twicePaused.errorEnums.reverse)) none) := by
  have hbefore : resolve (.contract 1) (.unique ⟨.fill 5⟩ .soleEmitter)
      (withSpec (fun _ => none) ⟨.fill 5⟩ twicePaused) none
        = .resolved ⟨.fill 5⟩ "A" "Paused" "" .unverified := by decide
  have hafter : resolve (.contract 1) (.unique ⟨.fill 5⟩ .soleEmitter)
      (withSpec (fun _ => none) ⟨.fill 5⟩
        (twicePaused.withEnums twicePaused.errorEnums.reverse)) none
        = .resolved ⟨.fill 5⟩ "B" "Paused" "" .unverified := by decide
  refine ⟨List.reverse_perm _, ?_⟩
  rw [hbefore, hafter]
  intro h
  have heq := eq_of_sameUpToOrder h
  revert heq
  decide

end Observatory
