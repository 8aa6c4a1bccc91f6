import Mathlib.Order.Defs.LinearOrder
import Observatory.Contract.Resolve

/-!
# Diagnoses

The output of the analyser (`diagnosis.rs`) and the rule interface
(`rule.rs`).  A diagnosis never asserts a single verdict: it carries ranked
candidate causes, each with a confidence and the evidence that supports it.
-/

namespace Observatory

/-- How strongly the evidence supports a candidate cause. -/
inductive Confidence where
  /-- Consistent with the evidence, but other causes explain it equally well. -/
  | possible
  /-- The evidence points here, but a confirming signal is absent. -/
  | likely
  /-- The result code or diagnostic events state this cause directly. -/
  | confirmed
  deriving DecidableEq

namespace Confidence

/-- The position of a confidence, from the weakest on. -/
def rank : Confidence → Nat
  | .possible => 0
  | .likely => 1
  | .confirmed => 2

theorem rank_injective : Function.Injective rank := by
  intro a b h
  cases a <;> cases b <;> first | rfl | cases h

instance : LE Confidence := ⟨fun a b => a.rank ≤ b.rank⟩

instance : LT Confidence := ⟨fun a b => a.rank < b.rank⟩

instance (a b : Confidence) : Decidable (a ≤ b) := inferInstanceAs (Decidable (a.rank ≤ b.rank))

instance (a b : Confidence) : Decidable (a < b) := inferInstanceAs (Decidable (a.rank < b.rank))

/-- Confidences are ordered from the weakest to the strongest. -/
instance : LinearOrder Confidence where
  le_refl a := Nat.le_refl a.rank
  le_trans _ _ _ := Nat.le_trans
  le_antisymm _ _ hab hba := rank_injective (Nat.le_antisymm hab hba)
  le_total a b := Nat.le_total a.rank b.rank
  lt_iff_le_not_ge _ _ := Nat.lt_iff_le_and_not_ge
  toDecidableLE := inferInstance
  toDecidableEq := inferInstance
  toDecidableLT := inferInstance

end Confidence

/-- The stable identifier of a confidence. -/
def Confidence.id : Confidence → String
  | .possible => "possible"
  | .likely => "likely"
  | .confirmed => "confirmed"

/-- Where a piece of supporting evidence was found. -/
inductive EvidenceSource where
  /-- The transaction result code. -/
  | transactionResult
  /-- The operation result at this index. -/
  | operationResult (index : UInt32)
  /-- The diagnostic event at this index of the event list. -/
  | diagnosticEvent (index : UInt32)
  /-- The authorization entry at this index of the envelope. -/
  | authorizationEntry (index : UInt32)
  /-- An entry of the declared read-only or read-write footprint. -/
  | footprintEntry (readWrite : Bool) (index : UInt32)
  /-- The declared Soroban resources. -/
  | sorobanResources
  /-- The contract spec fetched for the invoked contract. -/
  | contractSpec
  /-- The declared footprint as a whole. -/
  | footprint
  /-- Resource consumption or fees reported by the host. -/
  | observedResources
  deriving DecidableEq

/-- A single piece of evidence supporting (or qualifying) a candidate cause. -/
structure Evidence where
  /-- Where in the transaction it was found. -/
  source : EvidenceSource
  /-- A short factual statement of what was observed. -/
  observation : String
  deriving DecidableEq

/-- One candidate explanation for the failure. -/
structure CandidateCause where
  /-- The class of cause being claimed. -/
  causeClass : CauseClass
  /-- How strongly the evidence supports it. -/
  confidence : Confidence
  /-- One-sentence summary of the claim. -/
  summary : String
  /-- The evidence supporting the claim. -/
  evidence : List Evidence
  /-- What the developer should check or change next, if known. -/
  remediation : Option String
  /-- Identifier of the rule that produced this candidate. -/
  ruleId : String
  deriving DecidableEq

/-- How one rule concluded, without the candidate itself. -/
inductive RuleStatus where
  | matched
  | noEvidence
  | notApplicable
  deriving DecidableEq

/-- The outcome of one rule. -/
structure RuleReport where
  /-- The rule's stable identifier. -/
  ruleId : String
  /-- How it concluded. -/
  status : RuleStatus
  /-- Why it did not match; absent when it matched. -/
  reason : Option String
  deriving DecidableEq

/-- The overall answer a diagnosis gives. -/
inductive Verdict where
  /-- The transaction succeeded. -/
  | notAFailure
  /-- At least one rule produced a cause; this is the top cause's confidence. -/
  | explained (confidence : Confidence)
  /-- Some rule could apply, but none found enough evidence. -/
  | insufficientEvidence
  /-- No implemented rule concerns this kind of failure. -/
  | unsupported
  deriving DecidableEq

/-- The result of analysing a transaction. -/
structure Diagnosis where
  /-- The transaction hash, hex-encoded, if it was supplied. -/
  transactionHash : Option String
  /-- Where execution stopped; absent when the transaction succeeded. -/
  stage : Option FailureStage
  /-- Candidate causes, most plausible first. -/
  candidateCauses : List CandidateCause
  /-- Every contract error code seen in the diagnostic events. -/
  contractErrors : List ContractErrorReport
  /-- Every evaluated rule's outcome, in evaluation order. -/
  ruleReports : List RuleReport
  /-- Facts the analyser could not establish. -/
  limitations : List String
  /-- Number of rules that were evaluated. -/
  rulesEvaluated : Nat
  deriving DecidableEq

namespace Diagnosis

/-- The highest-ranked candidate cause. -/
def topCause (d : Diagnosis) : Option CandidateCause := d.candidateCauses.head?

/-- The overall answer. -/
def verdict (d : Diagnosis) : Verdict :=
  if d.stage.isNone then .notAFailure
  else match d.topCause with
    | some top => .explained top.confidence
    | none =>
        if d.ruleReports.any (fun r => decide (r.status = .noEvidence)) then .insufficientEvidence
        else .unsupported

end Diagnosis

/-! ## Rules -/

/-- What a rule is given when it is asked to explain a failure. -/
structure FailureContext where
  /-- The decoded transaction artifacts, verbatim. -/
  input : AnalysisInput
  /-- The canonical model. -/
  model : TransactionModel
  /-- The stage observed from the result. -/
  stage : FailureStage
  /-- Contract errors seen in the diagnostic events. -/
  contractErrors : List ContractErrorReport

/-- What a rule concluded. -/
inductive RuleOutcome where
  /-- The rule does not concern this transaction. -/
  | notApplicable (reason : String)
  /-- The rule could concern it, but the evidence it needs is absent or inconclusive. -/
  | noEvidence (reason : String)
  /-- The evidence supports a candidate cause. -/
  | matched (cause : CandidateCause)
  deriving DecidableEq

namespace RuleOutcome

/-- The candidate cause, if the rule matched. -/
def candidate : RuleOutcome → Option CandidateCause
  | .matched cause => some cause
  | _ => none

/-- How the rule concluded. -/
def status : RuleOutcome → RuleStatus
  | .notApplicable _ => .notApplicable
  | .noEvidence _ => .noEvidence
  | .matched _ => .matched

/-- Why the rule did not match. -/
def reason : RuleOutcome → Option String
  | .notApplicable reason => some reason
  | .noEvidence reason => some reason
  | .matched _ => none

theorem status_eq_matched {o : RuleOutcome} : o.status = .matched ↔ ∃ c, o = .matched c := by
  cases o <;> simp [status]

theorem candidate_eq_some {o : RuleOutcome} {c : CandidateCause} :
    o.candidate = some c ↔ o = .matched c := by
  cases o <;> simp [candidate]

theorem candidate_eq_none {o : RuleOutcome} : o.candidate = none ↔ o.status ≠ .matched := by
  cases o <;> simp [candidate, status]

end RuleOutcome

/-- A single explanation strategy. -/
structure Rule where
  /-- Stable identifier. -/
  id : String
  /-- One-line description of what the rule detects. -/
  description : String
  /-- Decide whether the rule explains the failure. -/
  evaluate : FailureContext → RuleOutcome

end Observatory
