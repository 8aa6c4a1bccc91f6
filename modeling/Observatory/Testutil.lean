import Observatory.Analyze

/-!
# Builders

The builders of synthetic events and inputs the repository's own tests use
(`testutil.rs`).  Concrete cases elsewhere are built from these.
-/

namespace Observatory

/-- The contract whose id repeats one byte. -/
def cid (n : UInt8) : ContractId := ⟨.fill n⟩

/-- A diagnostic event. -/
def ev (contract : Option ContractId) (topics : List ScVal) (data : ScVal) : DiagnosticEvent :=
  { inSuccessfulContractCall := false
    contractId := contract
    type := .diagnostic
    topics
    data }

/-- A text value. -/
def text (s : String) : ScVal := .string (.ofAscii s)

/-- A `fn_call` event. -/
def call (caller : Option ContractId) (callee : ContractId) (function : String) :
    DiagnosticEvent :=
  ev caller [sym "fn_call", .bytes callee.hash.toBytesM, sym function] .void

/-- An `error` event with a bare message. -/
def err (emitter : ContractId) (e : ScError) (message : String) : DiagnosticEvent :=
  ev (some emitter) [sym "error", .error e] (text message)

/-- An `Error(Auth, code)` event: data `[message, extra…]`. -/
def authError (emitter : ContractId) (code : ScErrorCode) (message : String)
    (extra : List ScVal) : DiagnosticEvent :=
  ev (some emitter) [sym "error", .error (.auth code)] (.vecOf (text message :: extra))

/-- A `host_fn_failed` event. -/
def hostFnFailed (e : ScError) : DiagnosticEvent :=
  ev none [sym "host_fn_failed", .error e] .void

/-- The host's footprint-violation event: data `[message, address, key]`. -/
def footprintViolation (contract : ContractId) (key : ScVal) : DiagnosticEvent :=
  ev (some contract) [sym "error", .error (.storage .exceededLimit)]
    (.vecOf [text "trying to access contract data key outside of the footprint",
      .address (.contract contract), key])

/-- The call `cid(5)::f`. -/
def invocationArgs : InvokeContractArgs := ⟨.contract (cid 5), .ofAscii "f", []⟩

/-- An address-credential authorization entry for `cid(5)::f`. -/
def addressAuth (address : ScAddress) (nonce : Int64) (expiry : UInt32) :
    SorobanAuthorizationEntry :=
  ⟨.address ⟨address, nonce, expiry⟩, .mk (.contractFn invocationArgs) []⟩

/-- A persistent contract-data key. -/
def dataKey (contract : ContractId) (key : ScVal) : LedgerKey :=
  .contractData ⟨.contract contract, key, .persistent⟩

/-- A contract-code key. -/
def codeKey (hash : Hash) : LedgerKey := .contractCode hash

/-- A spec with one error enum, read from the given WASM. -/
def errorSpec (wasmHash : Option Hash) (cases : List (String × UInt32)) : SpecAvailability :=
  .available
    { wasmHash
      errorEnums := [⟨"Error", "", "", cases.map (fun p => ⟨p.1, p.2, ""⟩)⟩]
      entryCount := 1 }

/-- A plain Soroban transaction invoking `cid(5)::f` whose single operation failed
with `result`; `events` is absent when the source emitted none at all. -/
def sorobanFailureWithAuth (result : InvokeHostFunctionResult) (footprint : List LedgerKey)
    (auth : List SorobanAuthorizationEntry) (events : Option (List DiagnosticEvent)) :
    AnalysisInput :=
  let tx : Transaction :=
    { sourceAccount := .ed25519 (.fill 1)
      fee := 400
      operations := ⟨[⟨none, .invokeHostFunction (.invokeContract invocationArgs) auth⟩], by simp⟩
      ext := .v1
        { ext := .v0
          footprint := ⟨[], footprint⟩
          instructions := 1000
          diskReadBytes := 10
          writeBytes := 20
          resourceFee := 300 } }
  let input := AnalysisInput.builder (.tx tx)
    ⟨350, .txFailed [.opInner (.invokeHostFunction result)]⟩
  match events with
  | some events => input.withDiagnosticEvents events
  | none => input

/-- `sorobanFailureWithAuth` without authorization entries. -/
def sorobanFailure (result : InvokeHostFunctionResult) (footprint : List LedgerKey)
    (events : Option (List DiagnosticEvent)) : AnalysisInput :=
  sorobanFailureWithAuth result footprint [] events

end Observatory
