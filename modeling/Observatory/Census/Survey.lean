import Observatory.Rpc.Json

/-!
# The census

How the census reads one ledger (`examples/survey_failures.rs`): requests under the
protocol's retry procedure, and the loop over the pages of the ledger.  What the
endpoints answer is a parameter, as are the times at which they answer it: the `n`-th
attempt of the run is the `n`-th answer.
-/

namespace Observatory

/-- `RpcClient::call` on an endpoint, by attempt, method and parameters: a result, or the text of
an error. -/
abbrev ClientCall : Type := Nat → String → Json → Except String Json

/-- The collection provider, and the fallback tried when it gives up. -/
structure Rpc where
  primary : ClientCall
  fallback : Option ClientCall

namespace Rpc

/-- One attempt on the fallback, behind `t` attempts. -/
def callFallback (rpc : Rpc) (method : String) (params : Json) (t : Nat) : Option Json × Nat :=
  match rpc.fallback with
  | none => (none, t)
  | some fallback =>
      match fallback t method params with
      | .ok v => (some v, t + 1)
      | .error _ => (none, t + 1)

/-- At most `n` attempts on the primary, then the fallback. -/
def attempts (rpc : Rpc) (method : String) (params : Json) : Nat → Nat → Option Json × Nat
  | 0, t => rpc.callFallback method params t
  | n + 1, t =>
      match rpc.primary t method params with
      | .ok v => (some v, t + 1)
      | .error _ => rpc.attempts method params n (t + 1)

/-- One call under the retry procedure, behind `t` attempts: four attempts on the primary, then
one on the fallback.  The number of attempts made is returned with the result. -/
def call (rpc : Rpc) (method : String) (params : Json) (t : Nat) : Option Json × Nat :=
  rpc.attempts method params 4 t

end Rpc

/-- Every transaction of one ledger, and the cursor the read ended on. -/
structure LedgerRead where
  transactions : List Json
  finalCursor : Option String

/-- What the loop asks for: a ledger from its start, or what comes behind a cursor. -/
inductive PageRequest where
  | startLedger (ledger : UInt64)
  | cursor (c : String)

/-- The parameters of the request. -/
def PageRequest.params : PageRequest → Json
  | .startLedger ledger =>
      .object [("startLedger", .number (toString ledger)),
        ("pagination", .object [("limit", .number "200")])]
  | .cursor c => .object [("pagination", .object [("cursor", .string c), ("limit", .number "200")])]

/-- The ledger of a transaction. -/
def Json.ledger (tx : Json) : Option UInt64 := (tx.get "ledger").bind Json.asU64

/-- The transactions of an answer; none if it has no array of them. -/
def Json.page (result : Json) : List Json := ((result.get "transactions").bind Json.asArray).getD []

/-- The request of a pass: the start of the ledger without a cursor, else behind the cursor. -/
def nextRequest (ledger : UInt64) : Option String → PageRequest
  | none => .startLedger ledger
  | some c => .cursor c

/-- The loop behind `t` attempts, with the transactions read so far.  The result is absent when
the passes run out. -/
def wholeLedgerLoop (rpc : Rpc) (ledger : UInt64) :
    Nat → List Json → Option String → Nat → Option (Option LedgerRead)
  | 0, _, _, _ => none
  | n + 1, out, cursor, t =>
      match rpc.call "getTransactions" (nextRequest ledger cursor).params t with
      | (none, _) => some none
      | (some result, t') =>
          let page := result.page
          let finalCursor := result.getStr "cursor"
          let reachedNextLedger := page.any (fun tx => tx.ledger.getD 0 > ledger)
          let out := out ++ page.filter (fun tx => tx.ledger = some ledger)
          if reachedNextLedger ∨ page = [] then some (some ⟨out, finalCursor⟩)
          else
            match finalCursor with
            -- the window ends here, and the ledger may go on behind it
            | none => some none
            | some c => wholeLedgerLoop rpc ledger n out (some c) t'

/-- Read every transaction of one ledger, in at most `n` passes. -/
def wholeLedger (rpc : Rpc) (ledger : UInt64) (n : Nat) : Option (Option LedgerRead) :=
  wholeLedgerLoop rpc ledger n [] none 0

end Observatory
