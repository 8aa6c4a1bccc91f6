import Observatory.Lib.Utf8

/-!
# XDR values

The value types of `stellar-xdr` the analyser reads: hashes, identifiers,
addresses, host errors and contract values (`ScVal`).  Byte strings stay byte
strings, because two different ones may render as the same text; the code reads
them as text through `to_utf8_string_lossy`.

`Vec` and `Map` hold an `Option` in the XDR.  Here the absent case is an arm of
its own (`vecNone`, `mapNone`), which keeps the three types mutually inductive
and their equality decidable by evaluation.
-/

namespace Observatory

/-- A 32-byte hash. -/
structure Hash where
  /-- The bytes. -/
  bytes : List UInt8
  /-- There are exactly 32 of them. -/
  length_eq : bytes.length = 32
  deriving DecidableEq

namespace Hash

/-- `<[u8; 32]>::try_from(slice)`. -/
def tryFrom (slice : List UInt8) : Option Hash :=
  if h : slice.length = 32 then some ⟨slice, h⟩ else none

/-- The hash `[b; 32]`. -/
def fill (b : UInt8) : Hash := ⟨List.replicate 32 b, List.length_replicate⟩

@[simp] theorem tryFrom_bytes (h : Hash) : tryFrom h.bytes = some h := by
  rw [tryFrom, dif_pos h.length_eq]

end Hash

/-- An Ed25519 public key (`Uint256`). -/
abbrev Uint256 := Hash

/-- A contract identifier. -/
structure ContractId where
  /-- The hash it wraps. -/
  hash : Hash
  deriving DecidableEq

/-- A public key together with a multiplexing id. -/
structure MuxedEd25519 where
  /-- The id. -/
  id : UInt64
  /-- The key. -/
  ed25519 : Uint256
  deriving DecidableEq

/-- A transaction's account: plain, or muxed over a key. -/
inductive MuxedAccount where
  | ed25519 (key : Uint256)
  | muxedEd25519 (account : MuxedEd25519)
  deriving DecidableEq

/-- An address as contracts see it. -/
inductive ScAddress where
  | account (key : Uint256)
  | contract (id : ContractId)
  | muxedAccount (account : MuxedEd25519)
  | claimableBalance (id : Hash)
  | liquidityPool (id : Hash)
  deriving DecidableEq

/-! ## Host errors -/

/-- The code carried by every host error except contract-defined ones. -/
inductive ScErrorCode where
  | arithDomain | indexBounds | invalidInput | missingValue | existingValue
  | exceededLimit | invalidAction | internalError | unexpectedType | unexpectedSize
  deriving DecidableEq

/-- The XDR name of an error code. -/
def ScErrorCode.name : ScErrorCode → String
  | .arithDomain => "ArithDomain"
  | .indexBounds => "IndexBounds"
  | .invalidInput => "InvalidInput"
  | .missingValue => "MissingValue"
  | .existingValue => "ExistingValue"
  | .exceededLimit => "ExceededLimit"
  | .invalidAction => "InvalidAction"
  | .internalError => "InternalError"
  | .unexpectedType => "UnexpectedType"
  | .unexpectedSize => "UnexpectedSize"

/-- A host error. -/
inductive ScError where
  | contract (code : UInt32)
  | wasmVm (code : ScErrorCode)
  | context (code : ScErrorCode)
  | storage (code : ScErrorCode)
  | object (code : ScErrorCode)
  | crypto (code : ScErrorCode)
  | events (code : ScErrorCode)
  | budget (code : ScErrorCode)
  | value (code : ScErrorCode)
  | auth (code : ScErrorCode)
  deriving DecidableEq

/-- The XDR name of an error's arm. -/
def ScError.name : ScError → String
  | .contract _ => "Contract"
  | .wasmVm _ => "WasmVm"
  | .context _ => "Context"
  | .storage _ => "Storage"
  | .object _ => "Object"
  | .crypto _ => "Crypto"
  | .events _ => "Events"
  | .budget _ => "Budget"
  | .value _ => "Value"
  | .auth _ => "Auth"

/-! ## Contract values -/

/-- A byte string of the XDR (`StringM`). -/
structure StringM where
  /-- The bytes, in no particular encoding. -/
  bytes : List UInt8
  deriving DecidableEq

/-- The bytes read as text. -/
def StringM.toUtf8StringLossy (s : StringM) : String := Utf8.lossy s.bytes

/-- The byte string spelling an ASCII text. -/
def StringM.ofAscii (s : String) : StringM := ⟨Utf8.ascii s⟩

/-- The bytes of a value (`BytesM`); their number is a `u32`. -/
structure BytesM where
  /-- The bytes. -/
  bytes : List UInt8
  /-- There are at most `u32::MAX` of them. -/
  length_lt : bytes.length < UInt32.size
  deriving DecidableEq

/-- The bytes of a hash as a value's. -/
def Hash.toBytesM (h : Hash) : BytesM := ⟨h.bytes, by rw [h.length_eq]; decide⟩

/-- What a contract instance runs. -/
inductive ContractExecutable where
  | wasm (hash : Hash)
  | stellarAsset
  | externalRef (executableOwner : ScAddress) (tag : StringM)
  deriving DecidableEq

/-- The XDR name of an executable's arm. -/
def ContractExecutable.name : ContractExecutable → String
  | .wasm _ => "Wasm"
  | .stellarAsset => "StellarAsset"
  | .externalRef .. => "ExternalRef"

mutual

/-- A contract value. -/
inductive ScVal where
  | bool (b : Bool)
  | void
  | error (e : ScError)
  | u32 (n : UInt32)
  | i32 (n : Int32)
  | u64 (n : UInt64)
  | i64 (n : Int64)
  | timepoint (n : UInt64)
  | duration (n : UInt64)
  | u128 (hi lo : UInt64)
  | i128 (hi : Int64) (lo : UInt64)
  | u256 (hiHi hiLo loHi loLo : UInt64)
  | i256 (hiHi : Int64) (hiLo loHi loLo : UInt64)
  | bytes (b : BytesM)
  | string (s : StringM)
  | symbol (s : StringM)
  | vecNone
  | vec (items : ScVec)
  | mapNone
  | map (entries : ScMap)
  | address (a : ScAddress)
  | contractInstance (executable : ContractExecutable)
  | contractInstanceStorage (executable : ContractExecutable) (storage : ScMap)
  | ledgerKeyContractInstance
  | ledgerKeyNonce (nonce : Int64)
  | executableTag (tag : StringM)

/-- The items of a `Vec` value. -/
inductive ScVec where
  | nil
  | cons (head : ScVal) (tail : ScVec)

/-- The entries of a `Map` value, in order. -/
inductive ScMap where
  | nil
  | cons (key val : ScVal) (tail : ScMap)

end

deriving instance DecidableEq for ScVal, ScVec, ScMap

/-- The items as a list. -/
def ScVec.toList : ScVec → List ScVal
  | .nil => []
  | .cons head tail => head :: tail.toList

/-- The items of a list as a `Vec` body. -/
def ScVec.ofList : List ScVal → ScVec
  | [] => .nil
  | head :: tail => .cons head (ofList tail)

/-- The entries as a list of pairs. -/
def ScMap.toList : ScMap → List (ScVal × ScVal)
  | .nil => []
  | .cons key val tail => (key, val) :: tail.toList

/-- The XDR name of a value's arm. -/
def ScVal.name : ScVal → String
  | .bool _ => "Bool"
  | .void => "Void"
  | .error _ => "Error"
  | .u32 _ => "U32"
  | .i32 _ => "I32"
  | .u64 _ => "U64"
  | .i64 _ => "I64"
  | .timepoint _ => "Timepoint"
  | .duration _ => "Duration"
  | .u128 .. => "U128"
  | .i128 .. => "I128"
  | .u256 .. => "U256"
  | .i256 .. => "I256"
  | .bytes _ => "Bytes"
  | .string _ => "String"
  | .symbol _ => "Symbol"
  | .vecNone | .vec _ => "Vec"
  | .mapNone | .map _ => "Map"
  | .address _ => "Address"
  | .contractInstance _ | .contractInstanceStorage .. => "ContractInstance"
  | .ledgerKeyContractInstance => "LedgerKeyContractInstance"
  | .ledgerKeyNonce _ => "LedgerKeyNonce"
  | .executableTag _ => "ExecutableTag"

/-- A symbol spelled in ASCII, such as an event's first topic. -/
def sym (s : String) : ScVal := .symbol (.ofAscii s)

/-- A `Vec` value with the given items. -/
def ScVal.vecOf (items : List ScVal) : ScVal := .vec (.ofList items)

/-! ## Machine integers -/

/-- `u32::try_from(i).unwrap_or(u32::MAX)`. -/
def u32OrMax (i : Nat) : UInt32 :=
  if h : i < UInt32.size then UInt32.ofNatLT i h else UInt32.ofNatLT (UInt32.size - 1) (by decide)

theorem toNat_u32OrMax {i : Nat} (h : i < UInt32.size) : (u32OrMax i).toNat = i := by
  rw [u32OrMax, dif_pos h, UInt32.toNat_ofNatLT]

/-- A position past the last index is recorded as the last index. -/
theorem toNat_u32OrMax_eq_min (i : Nat) : (u32OrMax i).toNat = min i (UInt32.size - 1) := by
  rw [u32OrMax]
  split
  · rw [UInt32.toNat_ofNatLT]
    omega
  · rw [UInt32.toNat_ofNatLT]
    omega

theorem u32OrMax_mono {i j : Nat} (h : i ≤ j) : u32OrMax i ≤ u32OrMax j := by
  rw [UInt32.le_iff_toNat_le, toNat_u32OrMax_eq_min, toNat_u32OrMax_eq_min]
  omega

theorem u32OrMax_inj {i j : Nat} (hi : i < UInt32.size) (hj : j < UInt32.size)
    (h : u32OrMax i = u32OrMax j) : i = j := by
  rw [← toNat_u32OrMax hi, ← toNat_u32OrMax hj, h]

theorem toNat_u32OrMax_le (i : Nat) : (u32OrMax i).toNat ≤ i := by
  rw [u32OrMax]
  split
  · exact Nat.le_of_eq (UInt32.toNat_ofNatLT ..)
  · rename_i h
    rw [UInt32.toNat_ofNatLT]
    omega

end Observatory
