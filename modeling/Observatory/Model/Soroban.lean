import Observatory.Lib.Scan
import Observatory.Model.Envelope

/-!
# Soroban transaction data

Authorization, footprint and resources (`model/soroban.rs`).  What the submitter
declared and what the host reports having used are separate types.
-/

namespace Observatory

/-! ## Authorization entries -/

/-- Who is authorizing an invocation. -/
inductive AuthCredentials where
  | sourceAccount
  | address (address : ScAddress) (nonce : Int64) (signatureExpirationLedger : UInt32)
      (variant : String)
  deriving DecidableEq

/-- One authorization entry of the invoke operation. -/
structure AuthEntry where
  /-- Zero-based index within the operation's auth entries. -/
  index : UInt32
  /-- Who is authorizing. -/
  credentials : AuthCredentials
  /-- The contract the root invocation calls, when it is a contract call. -/
  rootContract : Option ScAddress
  /-- The root function name, when it is a contract call. -/
  rootFunction : Option String
  /-- Number of sub-invocations nested under the root. -/
  subInvocations : Nat
  /-- The entry verbatim. -/
  raw : SorobanAuthorizationEntry

/-- The credentials of an entry, with the three address arms merged. -/
def AuthCredentials.fromXdr (credentials : SorobanCredentials) : AuthCredentials :=
  match credentials with
  | .sourceAccount => .sourceAccount
  | .address c | .addressV2 c | .addressWithDelegates c =>
      .address c.address c.nonce c.signatureExpirationLedger credentials.name

/-- `AuthEntry::from_xdr`. -/
def AuthEntry.fromXdr (index : UInt32) (e : SorobanAuthorizationEntry) : AuthEntry :=
  let root := match e.rootInvocation.function with
    | .contractFn args => (some args.contractAddress, some args.functionName.toUtf8StringLossy)
    | _ => (none, none)
  { index
    credentials := AuthCredentials.fromXdr e.credentials
    rootContract := root.1
    rootFunction := root.2
    subInvocations := e.rootInvocation.subInvocations.length
    raw := e }

/-! ## Footprint -/

/-- The ledger keys a transaction declared it would touch. -/
structure Footprint where
  /-- Keys that may only be read. -/
  readOnly : List LedgerKey
  /-- Keys that may be read and written. -/
  readWrite : List LedgerKey

/-- The WASM hash a key names, when it is a `ContractCode` key. -/
def LedgerKey.codeHash : LedgerKey → Option Hash
  | .contractCode hash => some hash
  | _ => none

/-- WASM hashes of every `ContractCode` entry in the footprint. -/
def Footprint.contractCodeHashes (f : Footprint) : List Hash :=
  (f.readOnly ++ f.readWrite).filterMap LedgerKey.codeHash

/-! ## Resources -/

/-- Resource limits and fee declared by the submitter. -/
structure DeclaredResources where
  /-- CPU instruction limit. -/
  instructions : UInt32
  /-- Disk read byte limit. -/
  diskReadBytes : UInt32
  /-- Write byte limit. -/
  writeBytes : UInt32
  /-- Maximum resource fee, in stroops. -/
  resourceFee : Int64
  /-- Read-write footprint indexes marked for automatic restoration. -/
  archivedEntryIndexes : List UInt32

/-- Everything from the Soroban side of the transaction. -/
structure SorobanData where
  /-- The extension arm: 0 or 1. -/
  dataVersion : UInt32
  /-- Authorization entries of the invoke operation, in order. -/
  auth : List AuthEntry
  /-- Declared footprint. -/
  footprint : Footprint
  /-- Declared limits and resource fee. -/
  declared : DeclaredResources

/-- The authorization entries of an operation, when it is an invocation. -/
def OperationBody.authEntries : OperationBody → Option (List SorobanAuthorizationEntry)
  | .invokeHostFunction _ auth => some auth
  | _ => none

/-- `SorobanData::from_xdr`. -/
def SorobanData.fromXdr (data : SorobanTransactionData) (operations : List Operation)
    (rawOps : List Xdr.Operation) : SorobanData :=
  let ext : UInt32 × List UInt32 := match data.ext with
    | .v0 => (0, [])
    | .v1 archived => (1, archived)
  let entries := (operations.filter (fun op => op.kind.isInvoke)).filterMap
    (fun op => rawOps[op.index.toNat]? >>= fun raw => raw.body.authEntries)
  { dataVersion := ext.1
    auth := entries.flatten.mapIdx (fun i e => AuthEntry.fromXdr (u32OrMax i) e)
    footprint := ⟨data.footprint.readOnly, data.footprint.readWrite⟩
    declared :=
      { instructions := data.instructions
        diskReadBytes := data.diskReadBytes
        writeBytes := data.writeBytes
        resourceFee := data.resourceFee
        archivedEntryIndexes := ext.2 } }

/-- Fees actually charged. -/
structure ChargedFees where
  /-- Non-refundable resource fee, in stroops. -/
  nonRefundable : Int64
  /-- Refundable resource fee, in stroops. -/
  refundable : Int64
  /-- Rent fee, in stroops. -/
  rent : Int64

/-- What the host reports having consumed. -/
structure ObservedResources where
  /-- Every `core_metrics` value reported, in order; a later value of a metric
  replaces an earlier one. -/
  coreMetrics : List (String × UInt64)
  /-- Fees charged, from the metadata. -/
  feesCharged : Option ChargedFees

/-- The value of a metric. -/
def ObservedResources.get (o : ObservedResources) (name : String) : Option UInt64 :=
  (o.coreMetrics.reverse.find? (fun p => p.1 == name)).map Prod.snd

/-- CPU instructions consumed (`cpu_insn`). -/
def ObservedResources.cpuInstructions (o : ObservedResources) : Option UInt64 := o.get "cpu_insn"

/-- Memory bytes consumed (`mem_byte`). -/
def ObservedResources.memoryBytes (o : ObservedResources) : Option UInt64 := o.get "mem_byte"

/-- Read the charged fees out of V3 or V4 transaction metadata. -/
def feesCharged (txMeta : Option TransactionMeta) : Option ChargedFees := do
  let ext ← match ← txMeta with
    | .v3 sorobanMeta => (← sorobanMeta).ext
    | .v4 sorobanMeta _ => sorobanMeta
    | _ => none
  match ext with
  | .v1 nonRefundable refundable rent => some ⟨nonRefundable, refundable, rent⟩
  | .v0 => none

/-! ## Entries of the envelope -/

/-- The Soroban data an envelope carries, if any. -/
def sorobanTransactionData : TransactionEnvelope → Option SorobanTransactionData
  | .tx tx | .txFeeBump ⟨_, _, tx⟩ =>
      match tx.ext with
      | .v1 data => some data
      | .v0 => none
  | .txV0 _ => none

/-- The operations of the (inner) transaction. -/
def envelopeOperations : TransactionEnvelope → List Xdr.Operation
  | .tx tx | .txFeeBump ⟨_, _, tx⟩ => tx.operations.items
  | .txV0 tx => tx.operations.items

/-- The authorization entries of the (inner) transaction's invocations, in order. -/
def envelopeAuth (envelope : TransactionEnvelope) : List SorobanAuthorizationEntry :=
  ((envelopeOperations envelope).filterMap (fun op => op.body.authEntries)).flatten

theorem isInvoke_kind (body : OperationBody) :
    (kind body).isInvoke = body.authEntries.isSome := by
  cases body <;> rfl

theorem envelopeOperations_length_le (envelope : TransactionEnvelope) :
    (envelopeOperations envelope).length ≤ 100 := by
  cases envelope with
  | tx tx => exact tx.operations.length_le
  | txFeeBump tx => exact tx.innerTx.operations.length_le
  | txV0 tx => exact tx.operations.length_le

section Extraction

variable [Strkey]

/-- Looking every invocation up again by its index finds the invocations
themselves: the bound on the number of operations keeps the indexes exact. -/
theorem fromXdr_auth {rawOps : List Xdr.Operation} (hlen : rawOps.length ≤ 100)
    (data : SorobanTransactionData) :
    (SorobanData.fromXdr data (operations rawOps) rawOps).auth
      = (rawOps.filterMap (fun op => op.body.authEntries)).flatten.mapIdx
          (fun i e => AuthEntry.fromXdr (u32OrMax i) e) := by
  have hentries : ((operations rawOps).filter (fun op => op.kind.isInvoke)).filterMap
      (fun op => rawOps[op.index.toNat]? >>= fun raw => raw.body.authEntries)
        = rawOps.filterMap (fun op => op.body.authEntries) := by
    rw [List.filterMap_filter, operations]
    apply Scan.filterMap_mapIdx
    intro i op hop
    have hi : i < UInt32.size := by
      have hpos : i < rawOps.length := (List.getElem?_eq_some_iff.mp hop).1
      have hsize : 100 < UInt32.size := by decide
      omega
    simp only [toNat_u32OrMax hi, hop, isInvoke_kind]
    cases hauth : op.body.authEntries <;> simp [hauth]
  simp only [SorobanData.fromXdr, hentries]

end Extraction

end Observatory
