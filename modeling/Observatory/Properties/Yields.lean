import Observatory.Properties.Reporting
import Observatory.Properties.Selection

/-!
# Projected yields

The report projects how many records a round would accept from the order of one trial.  The
order is random and the loop never takes a record back, so a trial need not reach the best
selection; it never falls below half of it.

* `Allowed` — a selection the protocol allows.
* `NearBest` — a yield that some selection has, and no selection more than doubles.
* `rounds_nearBest` — the yield of any rounds with cumulative caps is near best.
* `projectedYield_nearBest` — the projection of one round.
* `twoRounds_nearBest` — the projection of two rounds.
-/

namespace Observatory

/-! ## Selections and yields -/

/-- A selection the protocol allows: some of the records, one for a code cluster, three for a
submitter. -/
structure Allowed (recs selected : List PilotRecord) : Prop where
  nodup : selected.Nodup
  subset : ∀ r ∈ selected, r ∈ recs
  codes : ∀ code, selected.countP (fun r => r.codeCluster = some code) ≤ 1
  submitters : ∀ s, selected.countP (fun r => r.submitterCluster = s) ≤ 3

/-- Some selection has this yield, and none has more than double. -/
structure NearBest (recs : List PilotRecord) (n : ℕ) : Prop where
  attained : ∃ selected, Allowed recs selected ∧ selected.length = n
  half : ∀ selected, Allowed recs selected → selected.length ≤ 2 * n

variable {recs : List PilotRecord}

/-- For what is near the best only the set of the records matters. -/
theorem NearBest.congr {recs' : List PilotRecord} {n : ℕ} (h : NearBest recs n)
    (hmem : ∀ r, r ∈ recs' ↔ r ∈ recs) : NearBest recs' n := by
  obtain ⟨selected, hallowed, hlength⟩ := h.attained
  refine ⟨⟨selected, ⟨hallowed.nodup, fun r hr => (hmem r).mpr (hallowed.subset r hr),
    hallowed.codes, hallowed.submitters⟩, hlength⟩, fun selected h' => h.half selected ?_⟩
  exact ⟨h'.nodup, fun r hr => (hmem r).mp (h'.subset r hr), h'.codes, h'.submitters⟩

/-- An allowed selection keeps to the caps. -/
theorem Allowed.within {selected : List PilotRecord} (h : Allowed recs selected)
    (heligible : ∀ r ∈ recs, r.codeCluster.isSome) : Quota.Within quotas selected := by
  intro cap hcap k
  rcases List.mem_cons.mp hcap with rfl | hcap
  · cases k with
    | some code => exact h.codes code
    | none =>
        have hnone : codeCap.used selected none = 0 := by
          refine List.countP_eq_zero.mpr fun r hr hkey => ?_
          have hsome := heligible r (h.subset r hr)
          rw [show r.codeCluster = none from of_decide_eq_true hkey] at hsome
          exact absurd hsome (by simp)
        rw [hnone]
        exact Nat.zero_le _
  · obtain rfl := List.mem_singleton.mp hcap
    cases k with
    | some s => simpa [Quota.Cap.used, submitterCap, Caps.submitterLimit] using h.submitters s
    | none => simp [Quota.Cap.used, submitterCap]

theorem allowed_of_within {selected : List PilotRecord} (hnodup : selected.Nodup)
    (hsubset : ∀ r ∈ selected, r ∈ recs) (h : Quota.Within quotas selected) :
    Allowed recs selected where
  nodup := hnodup
  subset := hsubset
  codes code := h codeCap List.mem_cons_self (some code)
  submitters s := by
    have hused := h submitterCap (List.mem_cons_of_mem _ (List.mem_singleton_self _)) (some s)
    simpa [Quota.Cap.used, submitterCap, Caps.submitterLimit] using hused

/-- The greedy selection is near the best, in whatever order it goes. -/
theorem nearBest_greedy (hnodup : recs.Nodup) (heligible : ∀ r ∈ recs, r.codeCluster.isSome)
    {walked : List PilotRecord} (hperm : walked.Perm recs) :
    NearBest recs (Quota.greedy quotas [] walked).length := by
  have hwalked : walked.Nodup := hperm.nodup_iff.mpr hnodup
  have hsublist : (Quota.greedy quotas [] walked).Sublist walked := Quota.greedy_sublist walked
  refine ⟨⟨_, allowed_of_within (hwalked.sublist hsublist)
    (fun r hr => hperm.subset (hsublist.subset hr)) ?_, rfl⟩, fun selected h => ?_⟩
  · have hwithin : Quota.Within quotas ([] ++ Quota.greedy quotas [] walked) :=
      Quota.within_nil.append_greedy walked
    rwa [List.nil_append] at hwithin
  · have hwithin : Quota.Within quotas ([] ++ selected) := h.within heligible
    have hcaps : quotas ≠ [] := List.cons_ne_nil _ _
    exact Quota.length_le_of_within hcaps hwalked h.nodup
      (fun r hr => hperm.symm.subset (h.subset r hr)) hwithin

/-! ## Rounds -/

theorem perm_of_ordered {l walked : List PilotRecord} {trial : UInt64}
    (h : ordered l trial = some walked) : walked.Perm l := by
  have hkeyed : ∀ (l : List PilotRecord) pairs, l.mapM (keyed trial) = some pairs →
      pairs.map Prod.snd = l := by
    intro l
    induction l with
    | nil =>
        rintro pairs hpairs
        obtain rfl := Option.some.inj hpairs
        rfl
    | cons r l ih =>
        intro pairs hpairs
        rw [List.mapM_cons] at hpairs
        obtain ⟨pair, hpair, hrest⟩ := Option.bind_eq_some_iff.mp hpairs
        obtain ⟨later, hlater, hcons⟩ := Option.bind_eq_some_iff.mp hrest
        obtain rfl := Option.some.inj hcons
        obtain ⟨key, -, rfl⟩ := Option.map_eq_some_iff.mp hpair
        rw [List.map_cons, ih later hlater]
  unfold ordered at h
  split at h
  · rw [Option.some.inj h]
  · obtain ⟨pairs, hpairs, rfl⟩ := Option.map_eq_some_iff.mp h
    have hsort := (List.perm_insertionSort (fun p q : (ℕ ×ₗ String) × PilotRecord => p.1 ≤ q.1)
      pairs).map Prod.snd
    rwa [hkeyed l pairs hpairs] at hsort

/-- A round that does not panic makes the greedy selection. -/
theorem selection_greedy {l : List PilotRecord} (hl : ∀ r ∈ l, r.codeCluster.isSome)
    {trial : UInt64} {caps caps' : Caps} {before taken : List PilotRecord}
    (hrepresents : Represents caps before) (h : caps.selection l trial = some (caps', taken)) :
    ∃ walked, walked.Perm l ∧ taken = Quota.greedy quotas before walked ∧
      Represents caps' (before ++ taken) := by
  obtain ⟨walked, hordered, hwalk⟩ := Option.bind_eq_some_iff.mp h
  have hperm := perm_of_ordered hordered
  obtain ⟨caps'', hgreedy, hrepresents'⟩ :=
    walk_spec (fun r hr => hl r (hperm.subset hr)) hrepresents
  obtain ⟨rfl, rfl⟩ := Prod.mk.inj (Option.some.inj (hwalk.symm.trans hgreedy))
  exact ⟨walked, hperm, rfl, hrepresents'⟩

/-- Rounds are one greedy selection, round after round. -/
theorem rounds_greedy {rounds : List (List PilotRecord × UInt64)}
    (hrounds : ∀ r ∈ rounds.flatMap Prod.fst, r.codeCluster.isSome) {caps caps' : Caps}
    {before : List PilotRecord} (hrepresents : Represents caps before)
    {picks : List (List PilotRecord)} (h : caps.rounds rounds = some (caps', picks)) :
    ∃ walked, walked.Perm (rounds.flatMap Prod.fst) ∧
      picks.flatten = Quota.greedy quotas before walked := by
  induction rounds generalizing caps before picks with
  | nil =>
      obtain ⟨-, rfl⟩ := Prod.mk.inj (Option.some.inj h)
      exact ⟨[], List.Perm.refl _, rfl⟩
  | cons round later ih =>
      obtain ⟨candidates, trial⟩ := round
      rw [List.flatMap_cons] at hrounds ⊢
      rw [Caps.rounds] at h
      cases hselection : caps.selection candidates trial with
      | none =>
          rw [hselection] at h
          cases h
      | some p =>
          obtain ⟨caps₁, taken⟩ := p
          rw [hselection] at h
          obtain ⟨⟨caps₂, picks'⟩, hpicks, hpair⟩ := Option.map_eq_some_iff.mp h
          obtain ⟨rfl, rfl⟩ := Prod.mk.inj hpair
          obtain ⟨walked, hperm, htaken, h₁⟩ := selection_greedy
            (fun r hr => hrounds r (List.mem_append_left _ hr)) hrepresents hselection
          obtain ⟨walked', hperm', htail⟩ :=
            ih (fun r hr => hrounds r (List.mem_append_right _ hr)) h₁ hpicks
          refine ⟨walked ++ walked', hperm.append hperm', ?_⟩
          rw [Quota.greedy_append, List.flatten_cons, htail, htaken]

/-- **Rounds** with cumulative caps: all they accept is near the best of all their candidates. -/
theorem rounds_nearBest {rounds : List (List PilotRecord × UInt64)}
    (hnodup : (rounds.flatMap Prod.fst).Nodup)
    (hrounds : ∀ r ∈ rounds.flatMap Prod.fst, r.codeCluster.isSome) {caps : Caps}
    {picks : List (List PilotRecord)} (h : Caps.empty.rounds rounds = some (caps, picks)) :
    NearBest (rounds.flatMap Prod.fst) picks.flatten.length := by
  obtain ⟨walked, hperm, hpicks⟩ := rounds_greedy hrounds represents_empty h
  rw [hpicks]
  exact nearBest_greedy hnodup hrounds hperm

/-- The number accepted in one round is near the best of its records. -/
theorem select_nearBest (hnodup : recs.Nodup) (heligible : ∀ r ∈ recs, r.codeCluster.isSome)
    {trial : UInt64} {caps : Caps} {n : ℕ}
    (h : Caps.empty.select recs trial = some (caps, n)) : NearBest recs n := by
  obtain ⟨⟨caps', taken⟩, hselection, hpair⟩ := Option.map_eq_some_iff.mp h
  obtain ⟨rfl, rfl⟩ := Prod.mk.inj hpair
  obtain ⟨walked, hperm, rfl, -⟩ := selection_greedy heligible represents_empty hselection
  exact nearBest_greedy hnodup heligible hperm

/-! ## The projections of the report -/

/-- The records of distinct ledgers are those whose ledger is among them. -/
theorem ofLedgers_perm (hnodup : recs.Nodup) {ledgers : List UInt64} (hledgers : ledgers.Nodup) :
    (ofLedgers recs ledgers).Perm (recs.filter (fun r => r.ledger.toUInt64 ∈ ledgers)) := by
  have hof : ofLedgers recs ledgers
      = ledgers.flatMap (fun l => recs.filter (fun r => r.ledger.toUInt64 = l)) :=
    List.flatMap_congr fun l _ => ofLedger_eq recs l
  rw [hof]
  refine (List.perm_ext_iff_of_nodup ?_ (hnodup.filter _)).mpr fun r => ?_
  · refine List.nodup_flatMap.mpr ⟨fun l _ => hnodup.filter _, hledgers.imp fun hne => ?_⟩
    intro r hr hr'
    exact hne ((of_decide_eq_true (List.mem_filter.mp hr).2).symm.trans
      (of_decide_eq_true (List.mem_filter.mp hr').2))
  · simp only [List.mem_flatMap, List.mem_filter, decide_eq_true_eq]
    constructor
    · rintro ⟨l, hl, hr, rfl⟩
      exact ⟨hr, hl⟩
    · rintro ⟨hr, hl⟩
      exact ⟨_, hl, hr, rfl⟩

/-- The candidates of a trial are the records of `k` ledgers. -/
theorem candidates_spec (hnodup : recs.Nodup) {read : List UInt64} (hread : read.Nodup) {k : ℕ}
    (hk : k ≤ read.length) (trial : UInt64) :
    ∃ ledgers : List UInt64, ledgers.Nodup ∧ ledgers.length = k ∧ ledgers.Subperm read ∧
      (candidates recs read k trial).Perm
        (recs.filter (fun r => r.ledger.toUInt64 ∈ ledgers)) := by
  obtain ⟨draw, state, hcandidates⟩ : ∃ (draw : UInt64 → ℕ × UInt64) (state : UInt64),
      candidates recs read k trial = ofLedgers recs (Sampling.sample draw k state read) :=
    ⟨_, _, rfl⟩
  have hdrawn : (Sampling.sample draw k state read).Nodup := Sampling.nodup_sample hread k state
  rw [hcandidates]
  exact ⟨_, hdrawn, Sampling.length_sample hk state, Sampling.sample_subperm k state read,
    ofLedgers_perm hnodup hdrawn⟩

section Reports

variable [Strkey] {decoders : Decoders} {disk : Disk}
  {only : Option (UInt64 × UInt64)} {loaded : Loaded}

/-- The eligible records of a census have a code cluster and are of ledgers that were read. -/
theorem Produced.eligible (h : Produced decoders disk) (hload : load disk only = some loaded) :
    (Observatory.eligible loaded.records).Nodup ∧
      (∀ r ∈ Observatory.eligible loaded.records, r.codeCluster.isSome) ∧
      ∀ r ∈ Observatory.eligible loaded.records, r.ledger.toUInt64 ∈ loaded.read := by
  obtain ⟨-, -, hrecords⟩ := load_eq_some hload
  have hformed := h.formed hload
  refine ⟨?_, fun r hr => isSome_of_eligible (fun r hr => (hformed r hr).2) hr,
    fun r hr => (hformed r (List.mem_filter.mp hr).1).1⟩
  rw [hrecords]
  exact (List.Nodup.of_map _ (Grouping.nodup_map_firsts _ _ _)).filter _

/-- The one failure of the one ledger is eligible. -/
theorem eligible_oneLedger (account : AccountParser) :
    Observatory.eligible [failedFiveRecord account] = [failedFiveRecord account] := by
  have hexclusion : exclusion (failedFiveRecord account) = none := rfl
  simp [Observatory.eligible, hexclusion]

/-- **The projected yield of a round.**  Of the report over the files of a census, each trial is
about the eligible records of `k` ledgers that were read, and its yield is near their best; a
trial over all ledgers is near the best of all eligible records. -/
theorem projectedYield_nearBest (h : Produced decoders disk)
    (hload : load disk only = some loaded) {k : ℕ} (hk : k ≤ loaded.read.length) {trial : UInt64}
    {n : ℕ} (hn : projectedYield (eligible loaded.records) loaded.read k trial = some n) :
    ∃ ledgers : List UInt64, ledgers.Nodup ∧ ledgers.length = k ∧ (∀ l ∈ ledgers, l ∈ loaded.read) ∧
      NearBest ((eligible loaded.records).filter (fun r => r.ledger.toUInt64 ∈ ledgers)) n ∧
      (k = loaded.read.length → NearBest (eligible loaded.records) n) := by
  obtain ⟨hnodup, heligible, hread⟩ := h.eligible hload
  obtain ⟨⟨caps, yield⟩, hselect, rfl⟩ := Option.map_eq_some_iff.mp hn
  have hnodupRead : loaded.read.Nodup := Grouping.nodup_ascending _
  obtain ⟨ledgers, hledgers, hlength, hdrawn, hperm⟩ := candidates_spec hnodup hnodupRead hk trial
  have hnear := select_nearBest (hperm.nodup_iff.mpr (hnodup.filter _))
    (fun r hr => heligible r (List.mem_filter.mp (hperm.subset hr)).1) hselect
  refine ⟨ledgers, hledgers, hlength, hdrawn.subset,
    hnear.congr fun r => hperm.symm.mem_iff, fun hall => hnear.congr fun r => ?_⟩
  have hevery : ledgers.Perm loaded.read :=
    hdrawn.perm_of_length_le (Nat.le_of_eq (hall.symm.trans hlength.symm))
  rw [hperm.mem_iff, List.mem_filter, decide_eq_true_eq, hevery.mem_iff]
  exact ⟨fun hr => ⟨hr, hread r hr⟩, fun hr => hr.1⟩

theorem projectedYield_oneLedger (account : AccountParser) :
    projectedYield (eligible [failedFiveRecord account]) [5] 1 0 = some 1 := by
  rw [eligible_oneLedger]
  rfl

end Reports

/-- A trial over the one ledger accepts its failure. -/
theorem yield_oneLedger :
    NearBest (eligible [@failedFiveRecord Strkey.standard Strkey.parseAccount]) 1 := by
  obtain ⟨ledgers, -, -, -, -, hall⟩ := @projectedYield_nearBest Strkey.standard _ _ none _
    (@Reached.produced Strkey.standard _ _ _
      (@reached_oneLedger Strkey.standard Strkey.contractParser Strkey.parseAccount))
    (@load_oneLedger Strkey.standard Strkey.parseAccount) 1 (Nat.le_refl 1) 0 1
    (@projectedYield_oneLedger Strkey.standard Strkey.parseAccount)
  exact hall rfl

section Reports

variable [Strkey] {decoders : Decoders} {disk : Disk}
  {only : Option (UInt64 × UInt64)} {loaded : Loaded}

/-- **The projected yield of two rounds** with cumulative caps: the first is near the best of the
records before the split, and both together are near the best of all eligible records. -/
theorem twoRounds_nearBest (h : Produced decoders disk)
    (hload : load disk only = some loaded) {split trial : UInt64} {first second : ℕ}
    (hrounds : twoRounds (eligible loaded.records) split trial = some (first, second)) :
    NearBest (splitAt (eligible loaded.records) split).1 first ∧
      NearBest (eligible loaded.records) (first + second) := by
  obtain ⟨hnodup, heligible, -⟩ := h.eligible hload
  obtain ⟨⟨caps₁, n₁⟩, hfirst, hrest⟩ := Option.bind_eq_some_iff.mp hrounds
  obtain ⟨⟨caps₂, n₂⟩, hsecond, hpair⟩ := Option.bind_eq_some_iff.mp hrest
  obtain ⟨rfl, rfl⟩ := Prod.mk.inj (Option.some.inj hpair)
  refine ⟨select_nearBest (hnodup.filter _)
    (fun r hr => heligible r (List.mem_filter.mp hr).1) hfirst, ?_⟩
  obtain ⟨⟨caps₁', taken₁⟩, hselection₁, hcaps₁⟩ := Option.map_eq_some_iff.mp hfirst
  obtain ⟨rfl, rfl⟩ := Prod.mk.inj hcaps₁
  obtain ⟨⟨caps₂', taken₂⟩, hselection₂, hcaps₂⟩ := Option.map_eq_some_iff.mp hsecond
  obtain ⟨rfl, rfl⟩ := Prod.mk.inj hcaps₂
  let rounds := [((splitAt (eligible loaded.records) split).1, trial),
    ((splitAt (eligible loaded.records) split).2, trial)]
  have hrun : Caps.empty.rounds rounds = some (caps₂', [taken₁, taken₂]) := by
    simp only [rounds, Caps.rounds, hselection₁, hselection₂, Option.map_some]
  have hperm : (rounds.flatMap Prod.fst).Perm (eligible loaded.records) := by
    have hsplit : (eligible loaded.records).filter (fun r => split ≤ r.ledger.toUInt64)
        = (eligible loaded.records).filter (fun r => !decide (r.ledger.toUInt64 < split)) := by
      refine List.filter_congr fun r _ => ?_
      rw [← decide_not, decide_eq_decide]
      exact UInt64.not_lt.symm
    show (_ ++ (_ ++ [])).Perm _
    rw [List.append_nil, splitAt, hsplit]
    exact List.filter_append_perm _ _
  have hnear := rounds_nearBest (hperm.nodup_iff.mpr hnodup)
    (fun r hr => heligible r (hperm.subset hr)) hrun
  simpa using hnear.congr fun r => hperm.symm.mem_iff

theorem twoRounds_oneLedger (account : AccountParser) :
    twoRounds (eligible [failedFiveRecord account]) 5 0 = some (0, 1) := by
  rw [eligible_oneLedger]
  rfl

end Reports

/-- The second round accepts the one failure of the one ledger. -/
theorem twoYields_oneLedger :
    NearBest (eligible [@failedFiveRecord Strkey.standard Strkey.parseAccount]) (0 + 1) :=
  (@twoRounds_nearBest Strkey.standard _ _ none _
    (@Reached.produced Strkey.standard _ _ _
      (@reached_oneLedger Strkey.standard Strkey.contractParser Strkey.parseAccount))
    (@load_oneLedger Strkey.standard Strkey.parseAccount) 5 0 0 1
    (@twoRounds_oneLedger Strkey.standard Strkey.parseAccount)).2

end Observatory
