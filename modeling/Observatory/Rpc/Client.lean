import Mathlib.Algebra.Group.Nat.Defs
import Observatory.Rpc.Contract

/-!
# The client

How an endpoint is called, and what is made of its answers (`client.rs`, with the errors of
`error.rs`).  What comes back for a request is a parameter.

* `Endpoint.call` — the result of a call, or what went wrong.
* `Endpoint.fetchTransaction` — a transaction, decoded.
* `Endpoint.client` — the ledger entries of an endpoint.
-/

namespace Observatory

/-- Something went wrong talking to an endpoint. -/
inductive RpcError where
  /-- The HTTP request failed. -/
  | transport (error : String)
  /-- The response was not valid JSON-RPC. -/
  | badResponse (error : String)
  /-- The endpoint returned an error member. -/
  | rpc (code : Int) (message : String)
  /-- The response arrived but could not be decoded. -/
  | decode (error : DecodeError)

/-- The text of an error. -/
def RpcError.text : RpcError → String
  | .transport e => "transport error: " ++ e
  | .badResponse e => "malformed response: " ++ e
  | .rpc code message => s!"rpc error {code}: {message}"
  | .decode e => e.text

/-- `Value::as_i64`. -/
def Json.asI64 (j : Json) : Option Int :=
  match j with
  | .number literal =>
      match literal.toList with
      | '-' :: digits =>
          ((Json.number (String.ofList digits)).asU64).bind (fun n =>
            if 0 < n.toNat ∧ n.toNat ≤ 2 ^ 63 then some (-n.toNat) else none)
      | _ => j.asU64.bind (fun n => if n.toNat < 2 ^ 63 then some n.toNat else none)
  | _ => none

/-- An endpoint, by the JSON it sends back for a request body. -/
structure Endpoint where
  post : Json → Except RpcError Json

/-- `to_xdr_base64` on a ledger key. -/
abbrev KeyEncoder : Type := LedgerKey → String

namespace Endpoint

variable (endpoint : Endpoint)

/-- Issue a call, returning the `result` member. -/
def call (method : String) (params : Json) : Except RpcError Json := do
  let value ← endpoint.post (.object [("jsonrpc", .string "2.0"), ("id", .number "1"),
    ("method", .string method), ("params", params)])
  match value.get "error" with
  | some err => .error (.rpc (((err.get "code").bind Json.asI64).getD 0)
      ((err.getStr "message").getD "<no message>"))
  | none =>
      match value.get "result" with
      | some result => .ok result
      | none => .error (.badResponse "response had neither `result` nor `error`")

/-- The result for a transaction. -/
def getTransaction (txHash : String) : Except RpcError Json :=
  endpoint.call "getTransaction" (.object [("hash", .string txHash)])

/-- Fetch a transaction and decode it. -/
def fetchTransaction (decoder : XdrDecoder) (txHash : String) :
    Except RpcError DecodedTransaction := do
  let result ← endpoint.getTransaction txHash
  (decodeGetTransaction decoder txHash result).mapError .decode

/-- The endpoint's ledger entries. -/
def client (encode : KeyEncoder) : RpcClient where
  getLedgerEntries key :=
    (endpoint.call "getLedgerEntries" (.object [("keys", .array [.string (encode key)])])).mapError
      RpcError.text

end Endpoint

end Observatory
