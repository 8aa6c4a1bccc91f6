import Observatory.Xdr.Strkey

/-!
# Labels

How errors and values are rendered in evidence texts (`error_label`,
`value_label` in `model/events.rs`, and `hex` in `rules/mod.rs`).  Values come
from untrusted transaction data, so the rendering is bounded in depth, width and
text length.
-/

namespace Observatory

/-- The lowercase hexadecimal digit of a number below 16. -/
def hexDigit (n : Nat) : Char := "0123456789abcdef".toList.getD n '0'

/-- Lowercase hex. -/
def hex (bytes : List UInt8) : String :=
  String.ofList (bytes.flatMap (fun b => [hexDigit (b.toNat / 16), hexDigit (b.toNat % 16)]))

/-- Render an error the way the host and CLI print it. -/
def errorLabel (error : ScError) : String :=
  match error with
  | .contract n => s!"Error(Contract, #{n})"
  | .wasmVm c | .context c | .storage c | .object c | .crypto c | .events c | .budget c
  | .value c | .auth c => s!"Error({error.name}, {c.name})"

/-- Nesting depth past which a container is elided. -/
def labelMaxDepth : Nat := 3

/-- Number of items of one container that are rendered. -/
def labelMaxItems : Nat := 8

/-- Number of characters of a text that are rendered. -/
def labelMaxText : Nat := 64

/-- A text cut to `labelMaxText` characters. -/
def clipped (s : String) : String :=
  if s.toList.length ≤ labelMaxText then s
  else String.ofList (s.toList.take labelMaxText) ++ "…"

/-- A byte string by its first eight bytes and its length. -/
def bytesLabel (b : List UInt8) : String :=
  "0x" ++ hex (b.take 8) ++ (if b.length > 8 then "…" else "") ++ s!" ({b.length} bytes)"

/-- The separator in front of the item at position `i`. -/
def itemSeparator (i : Nat) : String := if i > 0 then ", " else ""

section Values

variable [Strkey]

mutual

/-- `write_value`, at a given nesting depth. -/
def writeValue (depth : Nat) : ScVal → String
  | .bool b => if b then "true" else "false"
  | .void => "void"
  | .u32 n => toString n
  | .i32 n => toString n
  | .u64 n => toString n
  | .i64 n => toString n
  | .symbol s => clipped s.toUtf8StringLossy
  | .string s => "\"" ++ clipped s.toUtf8StringLossy ++ "\""
  | .bytes b => bytesLabel b.bytes
  | .address a => a.display
  | .error e => errorLabel e
  | .vec items =>
      if depth < labelMaxDepth then "vec[" ++ writeItems depth 0 items ++ "]" else "vec[…]"
  | .map entries =>
      if depth < labelMaxDepth then "map\x7b" ++ writeEntries depth 0 entries ++ "\x7d"
      else "map\x7b…\x7d"
  | .timepoint n => "<" ++ (ScVal.timepoint n).name ++ ">"
  | .duration n => "<" ++ (ScVal.duration n).name ++ ">"
  | .u128 hi lo => "<" ++ (ScVal.u128 hi lo).name ++ ">"
  | .i128 hi lo => "<" ++ (ScVal.i128 hi lo).name ++ ">"
  | .u256 a b c d => "<" ++ (ScVal.u256 a b c d).name ++ ">"
  | .i256 a b c d => "<" ++ (ScVal.i256 a b c d).name ++ ">"
  | .vecNone => "<" ++ ScVal.vecNone.name ++ ">"
  | .mapNone => "<" ++ ScVal.mapNone.name ++ ">"
  | .contractInstance e => "<" ++ (ScVal.contractInstance e).name ++ ">"
  | .contractInstanceStorage e s => "<" ++ (ScVal.contractInstanceStorage e s).name ++ ">"
  | .ledgerKeyContractInstance => "<" ++ ScVal.ledgerKeyContractInstance.name ++ ">"
  | .ledgerKeyNonce n => "<" ++ (ScVal.ledgerKeyNonce n).name ++ ">"
  | .executableTag tag => "<" ++ (ScVal.executableTag tag).name ++ ">"

/-- The items of a container from position `i` on. -/
def writeItems (depth i : Nat) : ScVec → String
  | .nil => ""
  | .cons head tail =>
      if i < labelMaxItems then
        itemSeparator i ++ writeValue (depth + 1) head ++ writeItems depth (i + 1) tail
      else ", …"

/-- The entries of a map from position `i` on. -/
def writeEntries (depth i : Nat) : ScMap → String
  | .nil => ""
  | .cons key val tail =>
      if i < labelMaxItems then
        itemSeparator i ++ writeValue (depth + 1) key ++ ": " ++ writeValue (depth + 1) val
          ++ writeEntries depth (i + 1) tail
      else ", …"

end

/-- Render a value compactly for evidence text. -/
def valueLabel (v : ScVal) : String := writeValue 0 v

end Values

end Observatory
