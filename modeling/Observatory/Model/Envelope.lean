import Observatory.Xdr.Transaction
import Observatory.Xdr.Strkey

/-!
# Envelopes

`TransactionEnvelope` to fee bump, inner transaction and operations
(`model/envelope.rs`).  A fee-bump envelope wraps an ordinary V1 transaction;
it is unwrapped once, here.
-/

namespace Observatory

/-- The fee-bump wrapper of an envelope. -/
structure FeeBump where
  /-- The account paying for the bump, as a strkey. -/
  feeSource : String
  /-- The fee offered by the wrapper, in stroops. -/
  fee : Int64

/-- A contract invocation, as submitted. -/
structure Invocation where
  /-- The contract being called. -/
  contract : ScAddress
  /-- The function name. -/
  function : String
  /-- The arguments, undecoded. -/
  args : List ScVal

/-- `Invocation::from_args`. -/
def Invocation.fromArgs (a : InvokeContractArgs) : Invocation :=
  ⟨a.contractAddress, a.functionName.toUtf8StringLossy, a.args⟩

/-- What an operation does, reduced to what diagnosis needs. -/
inductive OperationKind where
  | invokeHostFunction (hostFunction : String) (invocation : Option Invocation)
  | extendFootprintTtl (extendTo : UInt32)
  | restoreFootprint
  | classic (name : String)

/-- Whether this is one of the three Soroban operation types. -/
def OperationKind.isSoroban : OperationKind → Bool
  | .classic _ => false
  | _ => true

/-- Whether this is an `InvokeHostFunction` operation. -/
def OperationKind.isInvoke : OperationKind → Bool
  | .invokeHostFunction _ _ => true
  | _ => false

/-- One operation of the (inner) transaction. -/
structure Operation where
  /-- Zero-based index within the transaction. -/
  index : UInt32
  /-- Operation-level source account override, as a strkey. -/
  sourceAccount : Option String
  /-- What the operation does. -/
  kind : OperationKind

/-- The envelope reduced to its inner transaction. -/
structure UnwrappedEnvelope where
  /-- The wrapper, if there is one. -/
  feeBump : Option FeeBump
  /-- The source account of the inner transaction, as a strkey. -/
  sourceAccount : String
  /-- The fee of the inner transaction. -/
  fee : UInt32
  /-- The operations of the inner transaction. -/
  operations : Xdr.Operations
  /-- The inner transaction's extension; a V0 envelope has none. -/
  ext : Option TransactionExt

/-- The reduced kind of an operation body. -/
def kind : OperationBody → OperationKind
  | .invokeHostFunction hostFunction _ =>
      .invokeHostFunction hostFunction.name
        (match hostFunction with
          | .invokeContract args => some (Invocation.fromArgs args)
          | _ => none)
  | .extendFootprintTtl extendTo => .extendFootprintTtl extendTo
  | .restoreFootprint => .restoreFootprint
  | .classic type => .classic type.name

section Unwrap

variable [Strkey]

/-- `unwrap`: the envelope reduced to its inner transaction. -/
def unwrap : TransactionEnvelope → UnwrappedEnvelope
  | .tx e => fromTx e none
  | .txFeeBump e => fromTx e.innerTx (some ⟨e.feeSource.display, e.fee⟩)
  | .txV0 e =>
      { feeBump := none
        sourceAccount := Strkey.ed25519 e.sourceAccountEd25519
        fee := e.fee
        operations := e.operations
        ext := none }
where
  /-- The part both V1 paths share. -/
  fromTx (tx : Transaction) (feeBump : Option FeeBump) : UnwrappedEnvelope :=
    { feeBump
      sourceAccount := tx.sourceAccount.display
      fee := tx.fee
      operations := tx.operations
      ext := some tx.ext }

/-- `operations`: the operations with their positions. -/
def operations (ops : List Xdr.Operation) : List Operation :=
  ops.mapIdx (fun i op =>
    { index := u32OrMax i
      sourceAccount := op.sourceAccount.map MuxedAccount.display
      kind := kind op.body })

end Unwrap

end Observatory
