import Observatory.Analyze
import Observatory.Document.Diagnosis
import Observatory.Document.Record

/-!
# Documents round trip

`sdo explain --json` writes a verdict and a diagnosis into one object, and the census
writes a record on each line of its file.  Both are read by other programs through the
derived readers of these types.

* `deserialize_fields` — a diagnosis is read from its fields, with or without a verdict.
* `explainOutput_faithful` — the document of a diagnosis gives back the diagnosis and its verdict.
* `pilotRecord_faithful` — a line of the census gives back its record.
-/

namespace Observatory

section Documents

variable [Strkey] (contracts : ContractParser)

/-- A diagnosis is read from its fields, whatever a field of another name says. -/
theorem Diagnosis.deserialize_fields {d : Diagnosis} (h : d.rulesEvaluated < UInt64.size)
    (extra : Json) :
    Diagnosis.deserialize contracts (d.serialize contracts) = some d ∧
      Diagnosis.deserialize contracts (.object (("verdict", extra) :: d.fields contracts))
        = some d := by
  have hread : ∀ j : Json,
      (∀ key ≠ "verdict", j.values key = (d.serialize contracts).values key) →
      Diagnosis.deserialize contracts j = some d := by
    intro j hvalues
    have hrules : j.values "rules_evaluated" = [.number (toString d.rulesEvaluated)] :=
      hvalues _ (by decide)
    unfold Diagnosis.deserialize
    rw [Codec.optionalField_eq Codec.string (a := d.transactionHash) (hvalues _ (by decide)),
      Codec.optionalField_eq FailureStage.codec (a := d.stage) (hvalues _ (by decide)),
      Codec.field_eq CandidateCause.codec.list (a := d.candidateCauses) (hvalues _ (by decide)),
      Codec.field_eq (ContractErrorReport.codec contracts).list (a := d.contractErrors)
        (hvalues _ (by decide)),
      Codec.field_eq RuleReport.codec.list (a := d.ruleReports) (hvalues _ (by decide)),
      Codec.field_eq Codec.string.list (a := d.limitations) (hvalues _ (by decide)),
      Codec.readField_eq hrules h (Nat.le_refl _)]
    rfl
  refine ⟨hread _ fun key _ => rfl, hread _ fun key hkey => ?_⟩
  have hother : ("verdict" == key) = false := beq_eq_false_iff_ne.mpr (Ne.symm hkey)
  simp [Diagnosis.serialize, Json.values, hother]

/-- **The document of a diagnosis.**  It is read as the diagnosis, as its fields alone are, and the
verdict of the diagnosis is the one it states; no other diagnosis has this document. -/
theorem explainOutput_faithful {d : Diagnosis} (h : d.rulesEvaluated < UInt64.size) :
    Diagnosis.deserialize contracts (ExplainOutput.serialize contracts d) = some d ∧
      Diagnosis.deserialize contracts (d.serialize contracts) = some d ∧
      Verdict.codec.field (ExplainOutput.serialize contracts d) "verdict" = some d.verdict ∧
      ∀ d' : Diagnosis, d'.rulesEvaluated < UInt64.size →
        ExplainOutput.serialize contracts d' = ExplainOutput.serialize contracts d → d' = d := by
  have hread := fun (d : Diagnosis) (h : d.rulesEvaluated < UInt64.size) =>
    (Diagnosis.deserialize_fields contracts h (Verdict.codec.serialize d.verdict)).2
  refine ⟨hread d h, (Diagnosis.deserialize_fields contracts h .null).1, Codec.field_eq _ rfl,
    fun d' h' hsame => ?_⟩
  have hd' : Diagnosis.deserialize contracts (ExplainOutput.serialize contracts d') = some d' :=
    hread d' h'
  have hd : Diagnosis.deserialize contracts (ExplainOutput.serialize contracts d) = some d :=
    hread d h
  rw [hsame, hd] at hd'
  exact (Option.some.inj hd').symm

end Documents

/-- A diagnosis with a named contract error. -/
def namedDiagnosis : Diagnosis where
  transactionHash := some "ab"
  stage := some .contractExecution
  candidateCauses := [⟨.contractDefinedError, .likely, "a summary",
    [⟨.footprintEntry true 3, "an entry"⟩, ⟨.transactionResult, "a code"⟩], none, "a rule"⟩]
  contractErrors := [⟨7, true, [0, 2], .unique ⟨Hash.fill 1⟩ .soleEmitter,
    .resolved ⟨Hash.fill 1⟩ "Error" "Case" "" (.matchesFootprint (Hash.fill 2))⟩]
  ruleReports := [⟨"a rule", .matched, none⟩, ⟨"another", .noEvidence, some "a reason"⟩]
  limitations := []
  rulesEvaluated := 2

/-- The document of `namedDiagnosis` is read as the diagnosis, and states that it is explained. -/
theorem namedDiagnosis_faithful :
    @Diagnosis.deserialize Strkey.standard Strkey.contractParser
        (@ExplainOutput.serialize Strkey.standard Strkey.contractParser namedDiagnosis)
          = some namedDiagnosis ∧
      namedDiagnosis.verdict = .explained .likely :=
  ⟨(@explainOutput_faithful Strkey.standard Strkey.contractParser namedDiagnosis
    (by decide)).1, rfl⟩

/-! ## Lines of the census -/

/-- **A line of the census.**  It is read as its record, by the typed reader and, field by field,
by a loose one; no other record has this line. -/
theorem pilotRecord_faithful {r : PilotRecord} (h : r.Fits) :
    PilotRecord.deserialize r.serialize = some r ∧
      r.serialize.getStr "transaction_hash" = some r.transactionHash ∧
      r.serialize.getStr "inner_transaction_hash" = r.innerTransactionHash ∧
      r.serialize.getStr "code_cluster" = r.codeCluster ∧
      ∀ r' : PilotRecord, r'.Fits → r'.serialize = r.serialize → r' = r := by
  refine ⟨r.deserialize_serialize h, r.getStr_transactionHash, r.getStr_innerTransactionHash,
    r.getStr_codeCluster, fun r' h' hsame => ?_⟩
  have hread := r'.deserialize_serialize h'
  rw [hsame, r.deserialize_serialize h] at hread
  exact (Option.some.inj hread).symm

/-- A record of a fee bump whose instance was not found. -/
def unavailableRecord : PilotRecord where
  transactionHash := "ab"
  innerTransactionHash := some "cd"
  ledger := 5
  feeBumped := true
  operationCount := 1
  diagnosticEventCount := 3
  submitterCluster := "G"
  rootContractId := some "C"
  instanceLookup := some "not_found"
  codeCluster := none
  codeUnresolvedReason := some .instanceUnavailable
  terminalError := none

theorem unavailableRecord_faithful :
    PilotRecord.deserialize unavailableRecord.serialize = some unavailableRecord :=
  (pilotRecord_faithful (r := unavailableRecord) (by decide)).1

end Observatory
