import Observatory.Xdr.Transaction

/-!
# XDR ledger entries and contract specs

The entries of the ledger a contract is read from, the entries of the spec in
its code, and the limits under which XDR is decoded.
-/

namespace Observatory

/-- Decode limits. -/
structure Limits where
  /-- Maximum nesting depth. -/
  depth : UInt32
  /-- Maximum number of bytes. -/
  len : Nat
  deriving DecidableEq

/-! ## Ledger entries -/

/-- A contract-data entry. -/
structure ContractDataEntry where
  /-- The contract it belongs to. -/
  contract : ScAddress
  /-- Its key. -/
  key : ScVal
  /-- Its durability. -/
  durability : ContractDataDurability
  /-- Its value. -/
  val : ScVal
  deriving DecidableEq

/-- A contract-code entry. -/
structure ContractCodeEntry where
  /-- The hash it is stored under. -/
  hash : Hash
  /-- The WASM. -/
  code : List UInt8
  deriving DecidableEq

/-- The data of a ledger entry.  The arms nothing looks into carry nothing. -/
inductive LedgerEntryData where
  | account | trustline | offer | data | claimableBalance | liquidityPool
  | contractData (d : ContractDataEntry)
  | contractCode (c : ContractCodeEntry)
  | configSetting | ttl
  deriving DecidableEq

/-- The XDR name of an entry's arm. -/
def LedgerEntryData.name : LedgerEntryData → String
  | .account => "Account"
  | .trustline => "Trustline"
  | .offer => "Offer"
  | .data => "Data"
  | .claimableBalance => "ClaimableBalance"
  | .liquidityPool => "LiquidityPool"
  | .contractData _ => "ContractData"
  | .contractCode _ => "ContractCode"
  | .configSetting => "ConfigSetting"
  | .ttl => "Ttl"

/-! ## Spec entries -/

/-- One case of an error enum in a spec. -/
structure ScSpecUdtErrorEnumCaseV0 where
  /-- The doc comment. -/
  doc : StringM
  /-- The case name. -/
  name : StringM
  /-- Its value. -/
  value : UInt32

/-- An error enum in a spec. -/
structure ScSpecUdtErrorEnumV0 where
  /-- The doc comment. -/
  doc : StringM
  /-- The library it came from. -/
  lib : StringM
  /-- The enum name. -/
  name : StringM
  /-- Its cases. -/
  cases : List ScSpecUdtErrorEnumCaseV0

/-- An entry of a spec.  The arms nothing looks into carry nothing. -/
inductive ScSpecEntry where
  | functionV0 | udtStructV0 | udtUnionV0 | udtEnumV0
  | udtErrorEnumV0 (e : ScSpecUdtErrorEnumV0)
  | eventV0

end Observatory
