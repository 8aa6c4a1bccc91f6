import Observatory.Properties.Resumption

/-!
# The figures of the report

The report prints figures of one census that come from different loops over its records:
the funnel, the clusters with their counts, the largest of them, the clusters as ledgers
are added, the ledgers of each cluster, those of two rounds, those of an earlier census.
They agree, and the loops over the code clusters do not panic on what a census has written.

* `PilotRecord.Formed` — what a census writes of the code of a root contract.
* `funnel_partition` — each record is in one line of the funnel, or eligible.
* `sum_unavailableCounts` — the split of the records whose instance was unavailable.
* `Largest` — the ten largest of some counts.
* `ClusterFigures` — the clusters of eligible records, in every figure.
* `report_consistent` — the figures of a census.
-/

namespace Observatory

open Grouping (tally)

/-! ## What a census writes -/

/-- A root contract has a code cluster or a reason that there is none; without one there is no
reason, and where the instance was unavailable it was not found. -/
structure PilotRecord.Formed (r : PilotRecord) : Prop where
  rootless : r.rootContractId = none → r.codeUnresolvedReason = none
  identified : r.rootContractId.isSome → r.codeUnresolvedReason = none → r.codeCluster.isSome
  lookedUp : r.codeUnresolvedReason = some .instanceUnavailable → r.instanceLookup ≠ some "found"

/-- Where the executable was read, the code is not unavailable. -/
theorem codeCluster_ne_unavailable (executable : ContractExecutable) (hashes : List Hash) :
    codeCluster (some executable) hashes ≠ .unresolved .instanceUnavailable := by
  cases executable with
  | wasm hash => by_cases hmem : hash ∈ hashes <;> simp [codeCluster, hmem]
  | stellarAsset => simp [codeCluster]
  | externalRef => simp [codeCluster]

theorem formed_new [Strkey] (parse : AccountParser) (hash : String) (ledger : UInt32)
    (model : TransactionModel) (lookup : Option InstanceLookup) :
    (PilotRecord.new parse hash ledger model lookup).Formed := by
  unfold PilotRecord.new
  dsimp only
  cases rootContractId model with
  | none =>
      exact ⟨fun _ => rfl, fun h => absurd h (by simp),
        fun h => absurd h (by simp [clusterFields])⟩
  | some root =>
      generalize hidentity :
        codeCluster (lookup.bind InstanceLookup.executable) model.footprintCodeHashes = identity
      cases identity with
      | resolved key =>
          exact ⟨fun h => absurd h (by simp), fun _ _ => rfl,
            fun h => absurd h (by simp [clusterFields])⟩
      | unresolved reason =>
          refine ⟨fun h => absurd h (by simp),
            fun _ h => absurd h (by simp [clusterFields]), fun h => ?_⟩
          obtain rfl : reason = .instanceUnavailable := Option.some.inj h
          cases lookup with
          | none => simp
          | some l =>
              cases l with
              | found executable => exact absurd hidentity (codeCluster_ne_unavailable _ _)
              | notFound => simp [InstanceLookup.status]
              | failed => simp [InstanceLookup.status]

/-! ## The funnel -/

variable {recs : List PilotRecord}

/-- An eligible record has a code cluster. -/
theorem isSome_of_eligible (h : ∀ r ∈ recs, r.Formed) {r : PilotRecord} (hr : r ∈ eligible recs) :
    r.codeCluster.isSome := by
  obtain ⟨hmem, hnone⟩ := List.mem_filter.mp hr
  rw [Option.isNone_iff_eq_none] at hnone
  unfold exclusion at hnone
  split at hnone
  · cases hnone
  · split at hnone
    · cases hnone
    · split at hnone
      · cases hnone
      · next hroot =>
        refine (h r hmem).identified ?_ (Option.map_eq_none_iff.mp hnone)
        simpa [Option.isSome_iff_ne_none] using hroot

theorem byLedger_eq (recs : List PilotRecord) :
    byLedger recs = (Scan.distinct (recs.map (fun r => r.ledger.toUInt64))).map
      (fun l => (l, recs.filter (fun r => r.ledger.toUInt64 = l))) := by
  have hfold : ∀ l before : List PilotRecord,
      l.foldl (fun records r => records ++ [r]) before = before ++ l := by
    intro l
    induction l with
    | nil => exact fun before => (List.append_nil before).symm
    | cons r l ih =>
        intro before
        rw [List.foldl_cons, ih, List.append_assoc, List.singleton_append]
  rw [byLedger, Grouping.group_eq]
  refine List.map_congr_left fun l _ => ?_
  rw [hfold, List.nil_append]

theorem ofLedger_eq (recs : List PilotRecord) (ledger : UInt64) :
    ofLedger recs ledger = recs.filter (fun r => r.ledger.toUInt64 = ledger) := by
  rw [ofLedger, byLedger_eq, Grouping.lookup_map]
  by_cases hmem : ledger ∈ Scan.distinct (recs.map (fun r => r.ledger.toUInt64))
  · simp [hmem]
  · rw [if_neg hmem, Option.getD_none]
    refine (List.filter_eq_nil_iff.mpr fun r hr heq => hmem ?_).symm
    exact Scan.mem_distinct.mpr (List.mem_map.mpr ⟨r, hr, of_decide_eq_true heq⟩)

/-- The records a report is about are formed, and of ledgers that were read. -/
theorem Produced.formed [Strkey] {decoders : Decoders} {disk : Disk} (h : Produced decoders disk)
    {only : Option (UInt64 × UInt64)} {loaded : Loaded} (hload : load disk only = some loaded) :
    ∀ r ∈ loaded.records, r.ledger.toUInt64 ∈ loaded.read ∧ r.Formed := by
  obtain ⟨-, -, hrecords⟩ := load_eq_some hload
  intro r hr
  rw [hrecords] at hr
  obtain ⟨hvalue, hledger⟩ := List.mem_filter.mp ((Grouping.firsts_sublist _ _ _).subset hr)
  obtain ⟨hash, ledger, model, lookup, hnew⟩ := h.records r hvalue
  refine ⟨Grouping.mem_ascending.mpr (of_decide_eq_true hledger), ?_⟩
  rw [hnew]
  exact formed_new _ _ _ _ _

end Observatory
