import Observatory.Census.Run
import Observatory.Lib.Framing

/-!
# The checks of the protocol's assumptions

What the evaluation protocol takes for granted of providers and of a history archive, and the
tool that checks it (`examples/verify_protocol_assumptions.rs`).  What providers and archive
answer is a parameter, and so are the decoders of other crates; a check that says it was not run
is none.

* `ledgerTransactionHashes` — the transactions of a ledger, read in pages of any size.
* `archiveHash` — the hash an archive publishes for a ledger.
* `verifyAssumptions` — the checks, in order.
-/

namespace Observatory

/-! ## Headers and close metadata -/

/-- A ledger header, as far as it is looked into. -/
structure LedgerHeader where
  previousLedgerHash : Hash
  ledgerSeq : UInt32

/-- A header with its hash. -/
structure LedgerHeaderHistoryEntry where
  hash : Hash
  header : LedgerHeader

/-- What a ledger closed with: the hashes of its transactions. -/
inductive LedgerCloseMeta where
  | v0 (txProcessing : List Hash)
  | v1 (txProcessing : List Hash)
  | v2 (txProcessing : List Hash)

/-- The decoders of headers and close metadata. -/
structure HeaderDecoder where
  headerBase64 : String → Limits → Except String LedgerHeaderHistoryEntry
  header : List UInt8 → Limits → Except String LedgerHeaderHistoryEntry
  closeMeta : String → Limits → Except String LedgerCloseMeta

/-- Limits for raw bytes: the length bound is their number. -/
def limitsForBytes (bytes : List UInt8) : Limits := ⟨xdrDecodeDepth, bytes.length⟩

/-- The parameters of a page. -/
def PageRequest.sized (limit : UInt32) : PageRequest → Json
  | .startLedger ledger =>
      .object [("startLedger", .number (toString ledger)),
        ("pagination", .object [("limit", .number (toString limit))])]
  | .cursor c =>
      .object [("pagination", .object [("cursor", .string c), ("limit", .number (toString limit))])]

/-- The loop over the pages, at most `n` of them, behind `t` pages and the hashes on them. -/
def transactionHashesLoop (client : ClientCall) (ledger : UInt64) (limit : UInt32) :
    Nat → Nat → List String → Option String → Option (Option (List String))
  | 0, _, _, _ => none
  | n + 1, t, hashes, cursor =>
      match client t "getTransactions" ((nextRequest ledger cursor).sized limit) with
      | .error _ => some none
      | .ok result =>
          let page := result.page
          let pastLedger := page.any (fun tx => tx.ledger.getD 0 > ledger)
          let hashes := hashes ++ (page.filter (fun tx => tx.ledger = some ledger)).map Json.txHash
          if pastLedger ∨ page = [] then some (some (Grouping.ascending id hashes))
          else
            match result.getStr "cursor" with
            | none => some none
            | some c => transactionHashesLoop client ledger limit n (t + 1) hashes (some c)

/-- Every transaction hash of one ledger, in order; absent when `n` pages do not end it. -/
def ledgerTransactionHashes (client : ClientCall) (ledger : UInt64) (limit : UInt32) (n : Nat) :
    Option (Option (List String)) :=
  transactionHashesLoop client ledger limit n 0 [] none

/-- What an archive answers for a file. -/
inductive ArchiveAnswer where
  | unreachable (error : String)
  | notGzip (error : String)
  /-- What is compressed in it. -/
  | raw (bytes : List UInt8)

/-- The checkpoint a ledger belongs to. -/
def checkpointOf (ledger : UInt64) : UInt64 := ledger / 64 * 64 + 63

/-- A number in hexadecimal, with at least eight digits. -/
def paddedHex (n : Nat) : List Char :=
  let digits := Nat.toDigits 16 n
  List.replicate (8 - digits.length) '0' ++ digits

/-- The file of a checkpoint. -/
def archiveUrl (archive : String) (ledger : UInt64) : String :=
  let name := paddedHex (checkpointOf ledger).toNat
  archive ++ "/ledger/" ++ String.ofList (name.take 2) ++ "/"
    ++ String.ofList ((name.drop 2).take 2) ++ "/" ++ String.ofList ((name.drop 4).take 2)
    ++ "/ledger-" ++ String.ofList name ++ ".xdr.gz"

/-- What a record of the file is to the search for a ledger. -/
def visitRecord (decoder : HeaderDecoder) (url : String) (ledger : UInt64) (body : List UInt8) :
    Except String (Option String) :=
  match decoder.header body (limitsForBytes body) with
  | .error e => .error (url ++ ": record did not decode: " ++ e)
  | .ok entry =>
      if entry.header.ledgerSeq.toUInt64 = ledger then .ok (some (hex entry.hash.bytes))
      else .ok none

/-- The hash an archive publishes for a ledger, from its checkpoint file. -/
def archiveHash (decoder : HeaderDecoder) (fetch : String → ArchiveAnswer) (archive : String)
    (ledger : UInt64) : Except String String :=
  let url := archiveUrl archive ledger
  match fetch url with
  | .unreachable e => .error (url ++ ": " ++ e)
  | .notGzip e => .error (url ++ ": not gzip: " ++ e)
  | .raw bytes =>
      Framing.search (visitRecord decoder url ledger) (url ++ ": truncated record")
        (url ++ ": ledger " ++ toString ledger ++ " is not in its checkpoint file") bytes

/-! ## The checks -/

/-- One check, with what is printed of it. -/
structure Check where
  ok : Bool
  what : String
  detail : String

/-- When a provider is called. -/
inductive Moment where
  | health
  | seed
  /-- For a page of a target, read in pages of a size. -/
  | page (target : Nat) (limit : UInt32) (page : Nat)
  | closeMeta (target : Nat)

/-- A provider, by what it answers. -/
structure VerifiedProvider where
  url : String
  answer : Moment → String → Json → Except String Json

/-- The provider while a target is read. -/
def VerifiedProvider.pages (p : VerifiedProvider) (target : Nat) (limit : UInt32) : ClientCall :=
  fun page => p.answer (.page target limit page)

/-- How the tool ends. -/
inductive VerifyEnd where
  /-- No provider answered. -/
  | noProvider
  | ended (checks : List Check)

/-- The exit code is zero. -/
def VerifyEnd.success : VerifyEnd → Bool
  | .noProvider => false
  | .ended checks => checks.all Check.ok

end Observatory
