import Observatory.Xdr.Value

/-!
# XDR transactions

Envelopes, diagnostic events and metadata, reduced to what the analyser reads:
sequence numbers, memos, preconditions and signatures play no part in a
diagnosis and are left out, and so are the bodies of classic operations beyond
their type.
-/

namespace Observatory

/-! ## Ledger keys -/

/-- How long a contract-data entry lives. -/
inductive ContractDataDurability where
  | temporary | persistent
  deriving DecidableEq

/-- The XDR name of a durability. -/
def ContractDataDurability.name : ContractDataDurability → String
  | .temporary => "Temporary"
  | .persistent => "Persistent"

/-- A contract-data key. -/
structure LedgerKeyContractData where
  /-- The contract the entry belongs to. -/
  contract : ScAddress
  /-- The key. -/
  key : ScVal
  /-- Its durability. -/
  durability : ContractDataDurability
  deriving DecidableEq

/-- A ledger key.  The arms no rule looks into carry nothing. -/
inductive LedgerKey where
  | account | trustline | offer | data | claimableBalance | liquidityPool
  | contractData (d : LedgerKeyContractData)
  | contractCode (hash : Hash)
  | configSetting | ttl
  deriving DecidableEq

/-! ## Authorization entries -/

/-- A contract call as submitted. -/
structure InvokeContractArgs where
  /-- The contract called. -/
  contractAddress : ScAddress
  /-- The function called. -/
  functionName : StringM
  /-- The arguments. -/
  args : List ScVal

/-- The credentials of an address. -/
structure SorobanAddressCredentials where
  /-- The authorizing address. -/
  address : ScAddress
  /-- Replay-protection nonce. -/
  nonce : Int64
  /-- Last ledger at which the signature is valid. -/
  signatureExpirationLedger : UInt32

/-- Who authorizes an invocation. -/
inductive SorobanCredentials where
  | sourceAccount
  | address (c : SorobanAddressCredentials)
  | addressV2 (c : SorobanAddressCredentials)
  | addressWithDelegates (addressCredentials : SorobanAddressCredentials)

/-- The XDR name of a credentials arm. -/
def SorobanCredentials.name : SorobanCredentials → String
  | .sourceAccount => "SourceAccount"
  | .address _ => "Address"
  | .addressV2 _ => "AddressV2"
  | .addressWithDelegates _ => "AddressWithDelegates"

/-- What an invocation is authorized to do. -/
inductive SorobanAuthorizedFunction where
  | contractFn (args : InvokeContractArgs)
  | createContractHostFn
  | createContractV2HostFn

/-- An authorized invocation and those nested under it. -/
inductive SorobanAuthorizedInvocation where
  | mk (function : SorobanAuthorizedFunction) (subInvocations : List SorobanAuthorizedInvocation)

/-- The function of an invocation. -/
def SorobanAuthorizedInvocation.function : SorobanAuthorizedInvocation → SorobanAuthorizedFunction
  | .mk function _ => function

/-- The invocations nested under one. -/
def SorobanAuthorizedInvocation.subInvocations :
    SorobanAuthorizedInvocation → List SorobanAuthorizedInvocation
  | .mk _ subInvocations => subInvocations

/-- An authorization entry of the envelope. -/
structure SorobanAuthorizationEntry where
  /-- Who authorizes. -/
  credentials : SorobanCredentials
  /-- What is authorized. -/
  rootInvocation : SorobanAuthorizedInvocation

/-! ## Operations -/

/-- The classic (non-Soroban) operation types. -/
inductive ClassicOperation where
  | createAccount | payment | pathPaymentStrictReceive | manageSellOffer
  | createPassiveSellOffer | setOptions | changeTrust | allowTrust | accountMerge
  | inflation | manageData | bumpSequence | manageBuyOffer | pathPaymentStrictSend
  | createClaimableBalance | claimClaimableBalance | beginSponsoringFutureReserves
  | endSponsoringFutureReserves | revokeSponsorship | clawback | clawbackClaimableBalance
  | setTrustLineFlags | liquidityPoolDeposit | liquidityPoolWithdraw
  deriving DecidableEq

/-- The XDR name of a classic operation type. -/
def ClassicOperation.name : ClassicOperation → String
  | .createAccount => "CreateAccount"
  | .payment => "Payment"
  | .pathPaymentStrictReceive => "PathPaymentStrictReceive"
  | .manageSellOffer => "ManageSellOffer"
  | .createPassiveSellOffer => "CreatePassiveSellOffer"
  | .setOptions => "SetOptions"
  | .changeTrust => "ChangeTrust"
  | .allowTrust => "AllowTrust"
  | .accountMerge => "AccountMerge"
  | .inflation => "Inflation"
  | .manageData => "ManageData"
  | .bumpSequence => "BumpSequence"
  | .manageBuyOffer => "ManageBuyOffer"
  | .pathPaymentStrictSend => "PathPaymentStrictSend"
  | .createClaimableBalance => "CreateClaimableBalance"
  | .claimClaimableBalance => "ClaimClaimableBalance"
  | .beginSponsoringFutureReserves => "BeginSponsoringFutureReserves"
  | .endSponsoringFutureReserves => "EndSponsoringFutureReserves"
  | .revokeSponsorship => "RevokeSponsorship"
  | .clawback => "Clawback"
  | .clawbackClaimableBalance => "ClawbackClaimableBalance"
  | .setTrustLineFlags => "SetTrustLineFlags"
  | .liquidityPoolDeposit => "LiquidityPoolDeposit"
  | .liquidityPoolWithdraw => "LiquidityPoolWithdraw"

/-- A host function. -/
inductive HostFunction where
  | invokeContract (args : InvokeContractArgs)
  | createContract
  | uploadContractWasm
  | createContractV2

/-- The XDR name of a host function. -/
def HostFunction.name : HostFunction → String
  | .invokeContract _ => "InvokeContract"
  | .createContract => "CreateContract"
  | .uploadContractWasm => "UploadContractWasm"
  | .createContractV2 => "CreateContractV2"

/-- What an operation does. -/
inductive OperationBody where
  | invokeHostFunction (hostFunction : HostFunction) (auth : List SorobanAuthorizationEntry)
  | extendFootprintTtl (extendTo : UInt32)
  | restoreFootprint
  | classic (type : ClassicOperation)

namespace Xdr

/-- An operation of a transaction. -/
structure Operation where
  /-- Operation-level source account, if set. -/
  sourceAccount : Option MuxedAccount
  /-- What the operation does. -/
  body : OperationBody

/-- The operations of a transaction: `VecM<Operation, 100>`. -/
structure Operations where
  /-- The operations, in order. -/
  items : List Operation
  /-- The protocol's bound on their number. -/
  length_le : items.length ≤ 100

end Xdr

/-! ## Soroban transaction data -/

/-- The ledger keys a transaction declares. -/
structure LedgerFootprint where
  /-- Keys it may read. -/
  readOnly : List LedgerKey
  /-- Keys it may read and write. -/
  readWrite : List LedgerKey

/-- The extension of the Soroban data. -/
inductive SorobanTransactionDataExt where
  | v0
  | v1 (archivedSorobanEntries : List UInt32)

/-- The Soroban data of a transaction. -/
structure SorobanTransactionData where
  /-- The extension. -/
  ext : SorobanTransactionDataExt
  /-- The declared footprint. -/
  footprint : LedgerFootprint
  /-- CPU instruction limit. -/
  instructions : UInt32
  /-- Disk read byte limit. -/
  diskReadBytes : UInt32
  /-- Write byte limit. -/
  writeBytes : UInt32
  /-- Maximum resource fee, in stroops. -/
  resourceFee : Int64

/-- The extension of a transaction, which carries its Soroban data. -/
inductive TransactionExt where
  | v0
  | v1 (data : SorobanTransactionData)

/-! ## Envelopes -/

/-- A V1 transaction. -/
structure Transaction where
  /-- The account whose sequence number it uses. -/
  sourceAccount : MuxedAccount
  /-- The fee offered, in stroops. -/
  fee : UInt32
  /-- The operations. -/
  operations : Xdr.Operations
  /-- The extension. -/
  ext : TransactionExt

/-- A legacy V0 transaction. -/
structure TransactionV0 where
  /-- The key of its source account. -/
  sourceAccountEd25519 : Uint256
  /-- The fee offered, in stroops. -/
  fee : UInt32
  /-- The operations. -/
  operations : Xdr.Operations

/-- A fee bump around a V1 transaction. -/
structure FeeBumpTransaction where
  /-- The account paying for the bump. -/
  feeSource : MuxedAccount
  /-- The fee of the wrapper, in stroops. -/
  fee : Int64
  /-- The wrapped transaction. -/
  innerTx : Transaction

/-- A transaction envelope. -/
inductive TransactionEnvelope where
  | txV0 (tx : TransactionV0)
  | tx (tx : Transaction)
  | txFeeBump (tx : FeeBumpTransaction)

/-! ## Diagnostic events -/

/-- The raw type of a contract event. -/
inductive ContractEventType where
  | system | contract | diagnostic
  deriving DecidableEq

/-- A diagnostic event.  Its body has a single XDR arm, `V0`, inlined here. -/
structure DiagnosticEvent where
  /-- The raw `inSuccessfulContractCall` flag. -/
  inSuccessfulContractCall : Bool
  /-- The contract whose frame emitted the event, if any. -/
  contractId : Option ContractId
  /-- The raw event type. -/
  type : ContractEventType
  /-- The topics. -/
  topics : List ScVal
  /-- The data. -/
  data : ScVal
  deriving DecidableEq

/-! ## Metadata -/

/-- The fee extension of the Soroban metadata. -/
inductive SorobanTransactionMetaExt where
  | v0
  | v1 (totalNonRefundableResourceFeeCharged totalRefundableResourceFeeCharged
      rentFeeCharged : Int64)

/-- The Soroban part of V3 metadata, which holds the diagnostic events. -/
structure SorobanTransactionMeta where
  /-- The fee extension. -/
  ext : SorobanTransactionMetaExt
  /-- The diagnostic events. -/
  diagnosticEvents : List DiagnosticEvent

/-- Transaction metadata.  The arms before V3 carry nothing the analyser reads. -/
inductive TransactionMeta where
  | v0 | v1 | v2
  | v3 (sorobanMeta : Option SorobanTransactionMeta)
  | v4 (sorobanMeta : Option SorobanTransactionMetaExt) (diagnosticEvents : List DiagnosticEvent)

end Observatory
