import Observatory.Census.PilotReport
import Observatory.Lib.Quota
import Observatory.Lib.Ranking
import Observatory.Properties.HashCodec

/-!
# Capped selection

The report selects records round after round under caps that are carried along.

* `quotas` — the caps of the protocol.
* `walk_spec` — the loop is the greedy selection under them.
* `ordered_perm` — the candidates of a round come in one order, however they are listed.
* `rounds_capped` — the caps hold over any number of rounds.
-/

namespace Observatory

/-! ## The order of a round -/

/-- Candidates as the protocol has them: eligible, with hashes of their own. -/
structure Candidates (candidates : List PilotRecord) : Prop where
  eligible : ∀ r ∈ candidates, r.codeCluster.isSome
  hashes : ∀ r ∈ candidates, Hex32.IsHash r.transactionHash
  distinct : (candidates.map PilotRecord.transactionHash).Nodup

theorem Candidates.perm {l l' : List PilotRecord} (h : Candidates l) (hperm : l'.Perm l) :
    Candidates l' where
  eligible r hr := h.eligible r (hperm.subset hr)
  hashes r hr := h.hashes r (hperm.subset hr)
  distinct := (hperm.map _).nodup_iff.mpr h.distinct

theorem Candidates.nodup {l : List PilotRecord} (h : Candidates l) : l.Nodup :=
  List.Nodup.of_map _ h.distinct

/-- A hash has an order key: it can be cut after sixteen bytes. -/
theorem exists_orderKey {hash : String} (h : Hex32.IsHash hash) (trial : UInt64) :
    ∃ k, orderKey hash trial = some k := by
  have hascii : ∀ c ∈ hash.toList, c.toNat < 128 := fun c hc => Hex32.isHexDigit_lt (h.digits c hc)
  have hlt : 16 < (Utf8.bytes hash).length := by
    rw [Utf8.bytes_eq_map hascii, List.length_map, h.length_eq]
    decide
  have hsmall : (Utf8.bytes hash)[16] < 0x80 :=
    Utf8.forall_bytes_lt.mpr hascii _ (List.getElem_mem hlt)
  have hboundary : Utf8.isCharBoundary (Utf8.bytes hash) 16 = true := by
    rw [Utf8.isCharBoundary, List.getElem?_eq_getElem hlt]
    simp [hsmall]
  unfold orderKey
  dsimp only
  rw [if_pos hboundary]
  exact ⟨_, rfl⟩

/-- Where a candidate comes in a trial. -/
def rank (trial : UInt64) (r : PilotRecord) : ℕ ×ₗ String :=
  toLex (((orderKey r.transactionHash trial).getD 0).toNat, r.transactionHash)

theorem keyed_eq {r : PilotRecord} (h : Hex32.IsHash r.transactionHash) (trial : UInt64) :
    keyed trial r = some (rank trial r, r) := by
  obtain ⟨k, hk⟩ := exists_orderKey h trial
  rw [keyed, rank, hk]
  rfl

theorem mapM_keyed {l : List PilotRecord} (h : ∀ r ∈ l, Hex32.IsHash r.transactionHash)
    (trial : UInt64) : l.mapM (keyed trial) = some (l.map (fun r => (rank trial r, r))) := by
  induction l with
  | nil => rfl
  | cons r l ih =>
      rw [List.mapM_cons, keyed_eq (h r List.mem_cons_self),
        ih (fun r' hr' => h r' (List.mem_cons_of_mem _ hr'))]
      rfl

/-- The candidates are put in order of their ranks. -/
theorem ordered_eq {l : List PilotRecord} (h : Candidates l) (trial : UInt64) :
    ordered l trial = some (l.insertionSort (fun a b => rank trial a ≤ rank trial b)) := by
  unfold ordered
  split
  · next hshort =>
    have hsorted : l.Pairwise (fun a b => rank trial a ≤ rank trial b) := by
      rcases l with _ | ⟨r, _ | ⟨r', l⟩⟩
      · exact .nil
      · exact List.pairwise_singleton _ r
      · exact absurd hshort (by simp)
    rw [hsorted.insertionSort_eq]
  · rw [mapM_keyed h.hashes, Option.map_some]
    have hsort := List.map_insertionSort (fun a b => rank trial a ≤ rank trial b)
      (fun p q : (ℕ ×ₗ String) × PilotRecord => p.1 ≤ q.1) (fun r => (rank trial r, r)) l
      (fun _ _ _ _ => Iff.rfl)
    rw [← hsort, List.map_map]
    exact congrArg some (List.map_id _)

/-- **One order.**  However the candidates are listed, they are walked in the same order. -/
theorem ordered_perm {l l' : List PilotRecord} (h : Candidates l) (hperm : l'.Perm l)
    (trial : UInt64) : ordered l' trial = ordered l trial := by
  rw [ordered_eq h, ordered_eq (h.perm hperm)]
  refine congrArg some (Ranking.insertionSort_eq_of_perm hperm.symm ?_).symm
  intro a ha b hb hrank
  have hhash : a.transactionHash = b.transactionHash := congrArg (fun p => (ofLex p).2) hrank
  exact List.inj_on_of_nodup_map h.distinct ha hb hhash

/-! ## The caps -/

/-- One accepted record for a code cluster. -/
def codeCap : Quota.Cap PilotRecord (Option String) := ⟨PilotRecord.codeCluster, 1⟩

/-- Three accepted records for a submitter. -/
def submitterCap : Quota.Cap PilotRecord (Option String) :=
  ⟨fun r => some r.submitterCluster, Caps.submitterLimit⟩

/-- The caps of the protocol. -/
def quotas : List (Quota.Cap PilotRecord (Option String)) := [codeCap, submitterCap]

/-- The caps are full for a record. -/
def AtCap (accepted : List PilotRecord) (r : PilotRecord) : Prop :=
  (∃ a ∈ accepted, a.codeCluster = r.codeCluster) ∨
    3 ≤ accepted.countP (fun a => a.submitterCluster = r.submitterCluster)

theorem exists_full_iff {accepted : List PilotRecord} {r : PilotRecord} :
    (∃ cap ∈ quotas, cap.Full accepted r) ↔ AtCap accepted r := by
  have hcode : codeCap.Full accepted r ↔ ∃ a ∈ accepted, a.codeCluster = r.codeCluster := by
    show 1 ≤ accepted.countP (fun a => a.codeCluster = r.codeCluster) ↔ _
    rw [Nat.one_le_iff_ne_zero, ← Nat.pos_iff_ne_zero, List.countP_pos_iff]
    simp only [decide_eq_true_eq]
  have hsubmitter : submitterCap.Full accepted r ↔
      3 ≤ accepted.countP (fun a => a.submitterCluster = r.submitterCluster) := by
    show 3 ≤ accepted.countP (fun a => some a.submitterCluster = some r.submitterCluster) ↔ _
    simp only [Option.some.injEq]
  unfold quotas AtCap
  rw [List.exists_mem_cons_iff, List.exists_mem_cons_iff, hcode, hsubmitter]
  simp

/-- The state of the loop says what is accepted. -/
structure Represents (caps : Caps) (accepted : List PilotRecord) : Prop where
  codes : ∀ code, code ∈ caps.codes ↔ ∃ a ∈ accepted, a.codeCluster = some code
  submitters : ∀ s, caps.submitters s = accepted.countP (fun a => a.submitterCluster = s)

theorem represents_empty : Represents .empty [] where
  codes code := by simp [Caps.empty]
  submitters s := rfl

theorem Represents.accept {caps : Caps} {accepted : List PilotRecord} (h : Represents caps accepted)
    {r : PilotRecord} {code : String} (hcode : r.codeCluster = some code) :
    Represents (caps.accept code r.submitterCluster) (accepted ++ [r]) where
  codes c := by
    show c ∈ insert code caps.codes ↔ _
    rw [Finset.mem_insert, h.codes c]
    constructor
    · rintro (rfl | ⟨a, ha, hc⟩)
      · exact ⟨r, List.mem_append_right _ (List.mem_singleton_self r), hcode⟩
      · exact ⟨a, List.mem_append_left _ ha, hc⟩
    · rintro ⟨a, ha, hc⟩
      rcases List.mem_append.mp ha with ha | ha
      · exact .inr ⟨a, ha, hc⟩
      · rw [List.mem_singleton.mp ha, hcode] at hc
        exact .inl (Option.some.inj hc).symm
  submitters s := by
    show Function.update caps.submitters r.submitterCluster _ s = _
    rw [List.countP_append, List.countP_singleton, Function.update_apply, h.submitters,
      h.submitters]
    by_cases hs : s = r.submitterCluster
    · subst hs
      simp
    · have hs' : r.submitterCluster ≠ s := fun heq => hs heq.symm
      simp [hs, hs']

/-- **The body of the loop**: a record is turned down when a cap is full, and then changes no cap;
otherwise it is accepted. -/
theorem consider_spec {caps : Caps} {accepted : List PilotRecord} (h : Represents caps accepted)
    {r : PilotRecord} (hr : r.codeCluster.isSome) :
    AtCap accepted r ∧ caps.consider r = some (caps, false) ∨
      ¬ AtCap accepted r ∧ ∃ caps', caps.consider r = some (caps', true) ∧
        Represents caps' (accepted ++ [r]) := by
  obtain ⟨code, hcode⟩ := Option.isSome_iff_exists.mp hr
  have hfull : AtCap accepted r ↔ code ∈ caps.codes ∨ 3 ≤ caps.submitters r.submitterCluster := by
    rw [AtCap, h.codes, h.submitters, hcode]
  unfold Caps.consider
  rw [hcode, hfull]
  dsimp only
  by_cases hmem : code ∈ caps.codes
  · exact .inl ⟨.inl hmem, if_pos hmem⟩
  · by_cases hlimit : 3 ≤ caps.submitters r.submitterCluster
    · exact .inl ⟨.inr hlimit, by rw [if_neg hmem]; exact if_pos hlimit⟩
    · refine .inr ⟨not_or.mpr ⟨hmem, hlimit⟩, _, ?_, h.accept hcode⟩
      rw [if_neg hmem]
      exact if_neg hlimit

/-- **The loop** is the greedy selection under the caps. -/
theorem walk_spec {l : List PilotRecord} (hl : ∀ r ∈ l, r.codeCluster.isSome) {caps : Caps}
    {accepted : List PilotRecord} (h : Represents caps accepted) :
    ∃ caps', caps.walk l = some (caps', Quota.greedy quotas accepted l) ∧
      Represents caps' (accepted ++ Quota.greedy quotas accepted l) := by
  induction l generalizing caps accepted with
  | nil =>
      refine ⟨caps, rfl, ?_⟩
      rw [Quota.greedy, List.append_nil]
      exact h
  | cons r l ih =>
      have hrest : ∀ r' ∈ l, r'.codeCluster.isSome := fun r' hr' =>
        hl r' (List.mem_cons_of_mem _ hr')
      rw [Quota.greedy, Caps.walk]
      rcases consider_spec h (hl r List.mem_cons_self) with
        ⟨hfull, hconsider⟩ | ⟨hroom, caps₁, hconsider, h₁⟩
      · obtain ⟨caps', hwalk, h'⟩ := ih hrest h
        rw [if_pos (exists_full_iff.mpr hfull), hconsider]
        dsimp only
        rw [hwalk]
        exact ⟨caps', rfl, h'⟩
      · obtain ⟨caps', hwalk, h'⟩ := ih hrest h₁
        rw [if_neg (fun hfull => hroom (exists_full_iff.mp hfull)), hconsider]
        dsimp only
        rw [hwalk]
        rw [List.append_assoc, List.singleton_append] at h'
        exact ⟨caps', rfl, h'⟩

/-! ## Rounds -/

/-- A round of selection behind records accepted before. -/
theorem selection_spec {l : List PilotRecord} (hl : Candidates l) (trial : UInt64) {caps : Caps}
    {accepted : List PilotRecord} (h : Represents caps accepted) :
    ∃ caps' walked, ordered l trial = some walked ∧ walked.Perm l ∧
      caps.selection l trial = some (caps', Quota.greedy quotas accepted walked) ∧
      Represents caps' (accepted ++ Quota.greedy quotas accepted walked) := by
  have hordered := ordered_eq hl trial
  have hperm : (l.insertionSort (fun a b => rank trial a ≤ rank trial b)).Perm l :=
    List.perm_insertionSort _ l
  obtain ⟨caps', hwalk, h'⟩ := walk_spec (fun r hr => hl.eligible r (hperm.subset hr)) h
  refine ⟨caps', _, hordered, hperm, ?_, h'⟩
  rw [Caps.selection, hordered, Option.bind_some, hwalk]

/-- What the protocol asks of a round that begins with some records accepted. -/
structure RoundLaw (before : List PilotRecord) (caps caps' : Caps)
    (candidates : List PilotRecord) (trial : UInt64) (taken : List PilotRecord) : Prop where
  /-- However the candidates are listed, the same ones are accepted. -/
  order_free : ∀ listed, listed.Perm candidates →
    caps.selection listed trial = some (caps', taken)
  /-- One that is not accepted finds a cap full when it is reached, and changes no cap. -/
  rejected : ∀ r ∈ candidates, r ∉ taken → ∃ pre post caps₀ sofar,
    ordered candidates trial = some (pre ++ r :: post) ∧ caps.walk pre = some (caps₀, sofar) ∧
      AtCap (before ++ sofar) r ∧ caps₀.consider r = some (caps₀, false)

theorem exists_roundLaw {candidates : List PilotRecord} (hl : Candidates candidates)
    (trial : UInt64) {caps : Caps} {before : List PilotRecord} (h : Represents caps before) :
    ∃ caps' taken, caps.selection candidates trial = some (caps', taken) ∧
      RoundLaw before caps caps' candidates trial taken := by
  obtain ⟨caps', walked, hordered, hperm, hselection, -⟩ := selection_spec hl trial h
  refine ⟨caps', _, hselection, ?_, ?_⟩
  · intro listed hlisted
    rw [← hselection, Caps.selection, Caps.selection, ordered_perm hl hlisted]
  · intro r hr hnot
    obtain ⟨pre, post, rfl⟩ := List.append_of_mem (hperm.symm.subset hr)
    have hnodup : (pre ++ r :: post).Nodup := hperm.nodup_iff.mpr hl.nodup
    have helig : ∀ a ∈ pre ++ r :: post, a.codeCluster.isSome := fun a ha =>
      hl.eligible a (hperm.subset ha)
    obtain ⟨caps₀, hwalk, h₀⟩ := walk_spec (fun a ha => helig a (List.mem_append_left _ ha)) h
    have hfull : AtCap (before ++ Quota.greedy quotas before pre) r := by
      rw [← exists_full_iff]
      by_contra hroom
      exact hnot ((Quota.mem_greedy_iff hnodup).mpr hroom)
    refine ⟨pre, post, caps₀, _, hordered, hwalk, hfull, ?_⟩
    rcases consider_spec h₀ (hl.eligible r hr) with ⟨-, hconsider⟩ | ⟨hroom, -⟩
    · exact hconsider
    · exact absurd hfull hroom

/-- Rounds behind records accepted before; the caps keep holding. -/
theorem rounds_spec {rounds : List (List PilotRecord × UInt64)}
    (hrounds : ∀ round ∈ rounds, Candidates round.1) {caps : Caps} {accepted : List PilotRecord}
    (h : Represents caps accepted) (hwithin : Quota.Within quotas accepted) :
    ∃ caps' picks, caps.rounds rounds = some (caps', picks) ∧
      Represents caps' (accepted ++ picks.flatten) ∧
      Quota.Within quotas (accepted ++ picks.flatten) := by
  induction rounds generalizing caps accepted with
  | nil =>
      refine ⟨caps, [], rfl, ?_, ?_⟩
      · rwa [List.flatten_nil, List.append_nil]
      · rwa [List.flatten_nil, List.append_nil]
  | cons round later ih =>
      obtain ⟨candidates, trial⟩ := round
      obtain ⟨caps₁, walked, -, -, hselection, h₁⟩ :=
        selection_spec (hrounds _ List.mem_cons_self) trial h
      obtain ⟨caps', picks, hlater, h', hwithin'⟩ :=
        ih (fun round hround => hrounds round (List.mem_cons_of_mem _ hround)) h₁
          (hwithin.append_greedy walked)
      refine ⟨caps', Quota.greedy quotas accepted walked :: picks, ?_, ?_, ?_⟩
      · rw [Caps.rounds, hselection]
        dsimp only
        rw [hlater]
        rfl
      · rwa [List.flatten_cons, ← List.append_assoc]
      · rwa [List.flatten_cons, ← List.append_assoc]

/-- Rounds behind other rounds select from the caps these left. -/
theorem rounds_append {earlier later : List (List PilotRecord × UInt64)} {caps caps₀ caps₁ : Caps}
    {before after : List (List PilotRecord)} (h : caps.rounds earlier = some (caps₀, before))
    (h' : caps₀.rounds later = some (caps₁, after)) :
    caps.rounds (earlier ++ later) = some (caps₁, before ++ after) := by
  induction earlier generalizing caps before with
  | nil =>
      obtain ⟨rfl, rfl⟩ := Prod.mk.inj (Option.some.inj h)
      exact h'
  | cons round earlier ih =>
      obtain ⟨candidates, trial⟩ := round
      rw [Caps.rounds] at h
      cases hselection : caps.selection candidates trial with
      | none =>
          rw [hselection] at h
          cases h
      | some p =>
          rw [hselection] at h
          obtain ⟨⟨caps₂, picks⟩, hpicks, hpair⟩ := Option.map_eq_some_iff.mp h
          obtain ⟨rfl, rfl⟩ := Prod.mk.inj hpair
          rw [List.cons_append, Caps.rounds, hselection]
          dsimp only
          rw [ih hpicks]
          rfl

/-- **A round of a run** keeps to its law, with the caps and the picks of the rounds before. -/
theorem rounds_at {earlier later : List (List PilotRecord × UInt64)}
    {candidates : List PilotRecord} {trial : UInt64}
    (h : ∀ round ∈ earlier ++ (candidates, trial) :: later, Candidates round.1) {caps : Caps}
    {picks : List (List PilotRecord)}
    (hpicks : Caps.empty.rounds (earlier ++ (candidates, trial) :: later) = some (caps, picks)) :
    ∃ caps₀ before caps₁ taken after, Caps.empty.rounds earlier = some (caps₀, before) ∧
      picks = before ++ taken :: after ∧
      caps₀.select candidates trial = some (caps₁, taken.length) ∧
      RoundLaw before.flatten caps₀ caps₁ candidates trial taken := by
  have hround : Candidates candidates :=
    h (candidates, trial) (List.mem_append_right _ List.mem_cons_self)
  have hlater : ∀ round ∈ later, Candidates round.1 := fun round hmem =>
    h round (List.mem_append_right _ (List.mem_cons_of_mem _ hmem))
  obtain ⟨caps₀, before, hbefore, h₀, hwithin₀⟩ := rounds_spec
    (fun round hmem => h round (List.mem_append_left _ hmem)) represents_empty Quota.within_nil
  rw [List.nil_append] at h₀ hwithin₀
  obtain ⟨caps₁, taken, hselection, hlaw⟩ := exists_roundLaw hround trial h₀
  obtain ⟨caps₁', walked, -, -, hselection', h₁⟩ := selection_spec hround trial h₀
  obtain ⟨rfl, rfl⟩ := Prod.mk.inj (Option.some.inj (hselection'.symm.trans hselection))
  obtain ⟨caps₂, after, hafter, -, -⟩ := rounds_spec hlater h₁ (hwithin₀.append_greedy walked)
  have htail : caps₀.rounds ((candidates, trial) :: later)
      = some (caps₂, Quota.greedy quotas before.flatten walked :: after) := by
    rw [Caps.rounds, hselection]
    dsimp only
    rw [hafter]
    rfl
  have hall := rounds_append hbefore htail
  rw [hpicks] at hall
  obtain ⟨rfl, rfl⟩ := Prod.mk.inj (Option.some.inj hall)
  refine ⟨caps₀, before, _, _, after, hbefore, rfl, ?_, hlaw⟩
  rw [Caps.select, hselection]
  rfl

/-- **Capped selection.**  Over any number of rounds of candidates at most one record of a code
cluster is accepted and at most three of a submitter, and every round keeps to its law. -/
theorem rounds_capped (rounds : List (List PilotRecord × UInt64))
    (h : ∀ round ∈ rounds, Candidates round.1) :
    ∃ caps picks, Caps.empty.rounds rounds = some (caps, picks) ∧
      (∀ code, picks.flatten.countP (fun r => r.codeCluster = some code) ≤ 1) ∧
      (∀ submitter, picks.flatten.countP (fun r => r.submitterCluster = submitter) ≤ 3) ∧
      ∀ earlier candidates trial later, rounds = earlier ++ (candidates, trial) :: later →
        ∃ caps₀ before caps₁ taken after, Caps.empty.rounds earlier = some (caps₀, before) ∧
          picks = before ++ taken :: after ∧
          caps₀.select candidates trial = some (caps₁, taken.length) ∧
          RoundLaw before.flatten caps₀ caps₁ candidates trial taken := by
  obtain ⟨caps, picks, hpicks, -, hwithin⟩ := rounds_spec h represents_empty Quota.within_nil
  refine ⟨caps, picks, hpicks, ?_, ?_, ?_⟩
  · intro code
    exact hwithin codeCap List.mem_cons_self (some code)
  · intro submitter
    have hused := hwithin submitterCap (List.mem_cons_of_mem _ List.mem_cons_self) (some submitter)
    simpa [Quota.Cap.used, submitterCap, Caps.submitterLimit] using hused
  · rintro earlier candidates trial later rfl
    exact rounds_at h hpicks

/-- An eligible record with a hash, a code cluster and a submitter. -/
def eligibleRecord (hash : Hash) (code submitter : String) : PilotRecord where
  transactionHash := Hex32.serialize hash
  innerTransactionHash := none
  ledger := 1
  feeBumped := false
  operationCount := 1
  diagnosticEventCount := 1
  submitterCluster := submitter
  rootContractId := some "C"
  instanceLookup := some "found"
  codeCluster := some code
  codeUnresolvedReason := none
  terminalError := none

theorem candidates_eligibleRecord {l : List (Hash × String × String)}
    (h : (l.map Prod.fst).Nodup) :
    Candidates (l.map (fun p => eligibleRecord p.1 p.2.1 p.2.2)) where
  eligible r hr := by
    obtain ⟨p, -, rfl⟩ := List.mem_map.mp hr
    rfl
  hashes r hr := by
    obtain ⟨p, -, rfl⟩ := List.mem_map.mp hr
    exact Hex32.isHash_serialize p.1
  distinct := by
    have hmap : (l.map (fun p => eligibleRecord p.1 p.2.1 p.2.2)).map PilotRecord.transactionHash
        = (l.map Prod.fst).map Hex32.serialize := by
      rw [List.map_map, List.map_map]
      rfl
    rw [hmap]
    exact h.map Hex32.serialize_injective

/-- Two rounds in which three records share a code and all share a submitter. -/
theorem rounds_capped_two :
    let first := [(Hash.fill 1, "wasm:a", "G"), (Hash.fill 2, "wasm:a", "G")].map
      (fun p => eligibleRecord p.1 p.2.1 p.2.2)
    let second := [(Hash.fill 3, "wasm:a", "G"), (Hash.fill 4, "wasm:b", "G")].map
      (fun p => eligibleRecord p.1 p.2.1 p.2.2)
    ∃ caps picks, Caps.empty.rounds [(first, 0), (second, 0)] = some (caps, picks) ∧
      picks.flatten.countP (fun r => r.codeCluster = some "wasm:a") ≤ 1 ∧
      picks.flatten.countP (fun r => r.submitterCluster = "G") ≤ 3 := by
  intro first second
  have hrounds : ∀ round ∈ [(first, (0 : UInt64)), (second, 0)], Candidates round.1 := by
    intro round hround
    rcases List.mem_cons.mp hround with rfl | hround
    · exact candidates_eligibleRecord (by decide)
    · rw [List.mem_singleton.mp hround]
      exact candidates_eligibleRecord (by decide)
  obtain ⟨caps, picks, hrun, hcode, hsubmitter, -⟩ :=
    rounds_capped [(first, 0), (second, 0)] hrounds
  exact ⟨caps, picks, hrun, hcode "wasm:a", hsubmitter "G"⟩

end Observatory
