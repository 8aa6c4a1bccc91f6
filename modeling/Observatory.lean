import Observatory.Lib.Utf8
import Observatory.Lib.Scan
import Observatory.Lib.Unwind
import Observatory.Lib.Nesting
import Observatory.Lib.Ranking
import Observatory.Lib.Reading
import Observatory.Lib.Leb128
import Observatory.Lib.Memo
import Observatory.Lib.Radix
import Observatory.Lib.Quota
import Observatory.Lib.Grouping
import Observatory.Lib.Journal
import Observatory.Lib.Sampling
import Observatory.Lib.Framing
import Observatory.Xdr.Value
import Observatory.Xdr.Strkey
import Observatory.Xdr.Transaction
import Observatory.Xdr.Ledger
import Observatory.Xdr.Result
import Observatory.Taxonomy
import Observatory.Contract.Wasm
import Observatory.Contract.Spec
import Observatory.Input
import Observatory.Model.Label
import Observatory.Model.Events
import Observatory.Model.CallTree
import Observatory.Model.CallRun
import Observatory.Model.Diagnostics
import Observatory.Model.HostTrace
import Observatory.Model.Envelope
import Observatory.Model.Soroban
import Observatory.Model.Outcome
import Observatory.Model.Transaction
import Observatory.Contract.Resolve
import Observatory.Contract.Hex32
import Observatory.Diagnosis
import Observatory.Document.Codec
import Observatory.Document.Diagnosis
import Observatory.Rules.Gate
import Observatory.Rules.ResultCode
import Observatory.Rules.ContractError
import Observatory.Rules.Auth
import Observatory.Rules.Footprint
import Observatory.Rules.ContractTrap
import Observatory.Analyze
import Observatory.Testutil
import Observatory.Properties.Classification
import Observatory.Properties.Stages
import Observatory.Properties.FeeBump
import Observatory.Properties.Confirmed
import Observatory.Properties.Attribution
import Observatory.Properties.Provenance
import Observatory.Properties.Terminal
import Observatory.Properties.Citations
import Observatory.Rpc.Json
import Observatory.Rpc.Decode
import Observatory.Rpc.Contract
import Observatory.Rpc.Client
import Observatory.Rpc.Fixture
import Observatory.Rpc.Cluster
import Observatory.Document.Record
import Observatory.Render
import Observatory.Explain
import Observatory.Census.PilotReport
import Observatory.Census.Survey
import Observatory.Census.Count
import Observatory.Census.Run
import Observatory.Census.Summary
import Observatory.Census.Assumptions
import Observatory.Probe.ResultCodes
import Observatory.Probe.Report
import Observatory.Probe.Scan
import Observatory.Probe.Capture
import Observatory.Properties.Decoding
import Observatory.Properties.Interference
import Observatory.Properties.Assembly
import Observatory.Properties.Certainty
import Observatory.Properties.Authorization
import Observatory.Properties.EntryOrder
import Observatory.Properties.Identification
import Observatory.Properties.Reports
import Observatory.Properties.Raised
import Observatory.Properties.Trap
import Observatory.Properties.Naming
import Observatory.Properties.Callers
import Observatory.Properties.Failures
import Observatory.Properties.Returned
import Observatory.Properties.Sections
import Observatory.Properties.SpecSections
import Observatory.Properties.Fetching
import Observatory.Properties.Caching
import Observatory.Properties.Probing
import Observatory.Properties.Numbers
import Observatory.Properties.Labels
import Observatory.Properties.HashCodec
import Observatory.Properties.Clusters
import Observatory.Properties.Selection
import Observatory.Properties.LedgerReads
import Observatory.Properties.Documents
import Observatory.Properties.Accounting
import Observatory.Properties.Instances
import Observatory.Properties.Resumption
import Observatory.Properties.Completion
import Observatory.Properties.Reporting
import Observatory.Properties.Replay
import Observatory.Properties.Rendering
import Observatory.Properties.Yields
import Observatory.Properties.Window
import Observatory.Properties.Scanning
import Observatory.Properties.Exclusions
import Observatory.Properties.Captures
import Observatory.Properties.PagedReads
import Observatory.Properties.Archive
import Observatory.Properties.Assumptions
