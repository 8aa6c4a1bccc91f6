import Mathlib.Data.List.Sort
import Mathlib.Data.String.Basic
import Observatory.Rpc.Contract
import Observatory.Xdr.Strkey

/-!
# Fixtures

Recorded responses on disk, in place of an endpoint (`fixture.rs`), and the tool that records
those of a contract (`examples/capture_contract.rs`).  A file that holds JSON is its value.

* `Fixture.load` — a recorded transaction, decoded.
* `FixtureContracts.source` — recorded contracts as a source of contracts.
* `captureContract` — the files that are recorded of a contract.
-/

namespace Observatory

/-- A file as it is read. -/
inductive RecordedFile where
  | absent
  /-- It is there, and reading it fails. -/
  | unreadable (error : String)
  /-- It is no JSON. -/
  | invalid (error : String)
  | json (value : Json)

/-- `Path::join` with a relative path. -/
def joinPath (base relative : String) : String :=
  if base.isEmpty ∨ base.endsWith "/" then base ++ relative else base ++ "/" ++ relative

/-! ## Transactions -/

/-- Something went wrong loading a fixture. -/
inductive FixtureError where
  | io (path source : String)
  | json (path source : String)
  | decode (error : DecodeError)

/-- The text of an error. -/
def FixtureError.text : FixtureError → String
  | .io path source => "could not read fixture at " ++ path ++ ": " ++ source
  | .json path source => "fixture at " ++ path ++ " is not valid JSON: " ++ source
  | .decode e => e.text

/-- A fixture directory, with its response file. -/
structure Fixture where
  dir : String
  response : RecordedFile

namespace Fixture

/-- The filename every fixture directory must contain. -/
def responseFile : String := "rpc-response.json"

/-- Read the recorded response without decoding it. -/
def loadRaw (fixture : Fixture) : Except FixtureError Json :=
  let path := joinPath fixture.dir responseFile
  match fixture.response with
  | .absent => .error (.io path "No such file or directory (os error 2)")
  | .unreadable e => .error (.io path e)
  | .invalid e => .error (.json path e)
  | .json value => .ok value

/-- Load a fixture and decode it; its hash is read from the response itself. -/
def load (decoder : XdrDecoder) (fixture : Fixture) : Except FixtureError DecodedTransaction := do
  let raw ← fixture.loadRaw
  let hash := (raw.getStr "txHash").getD ""
  (decodeGetTransaction decoder hash raw).mapError .decode

/-- A response that states its hash is decoded. -/
theorem load_json (decoder : XdrDecoder) (dir : String) {result : Json} {txHash : String}
    (h : result.getStr "txHash" = some txHash) :
    load decoder ⟨dir, .json result⟩
      = (decodeGetTransaction decoder txHash result).mapError .decode := by
  show (decodeGetTransaction decoder ((result.getStr "txHash").getD "") result).mapError
    FixtureError.decode = _
  rw [h, Option.getD_some]

end Fixture

/-! ## Contracts -/

/-- The directory of one contract. -/
structure ContractFixture where
  name : String
  /-- `instance.json` -/
  inst : RecordedFile
  /-- `code.json` -/
  code : RecordedFile

/-- Recorded contracts under a root directory. -/
structure FixtureContracts where
  root : String
  dirs : List ContractFixture
  /-- The error with which the root cannot be listed, if it cannot. -/
  listError : Option String

/-- The key of the first entry of a recording. -/
def recordedKey (recorded : Json) : Option String :=
  (((recorded.get "entries").bind Json.asArray).bind List.head?).bind (fun e => e.getStr "key")

namespace FixtureContracts

/-- `FixtureContractSource::read` -/
def read (path : String) : RecordedFile → Except SourceError Json
  | .absent => .error (.lookup (path ++ ": No such file or directory (os error 2)"))
  | .unreadable e => .error (.lookup (path ++ ": " ++ e))
  | .invalid e => .error (.malformed (path ++ ": " ++ e))
  | .json value => .ok value

/-- `Path::is_file` -/
def isFile : RecordedFile → Bool
  | .absent => false
  | _ => true

/-- A file of a contract. -/
def path (fixtures : FixtureContracts) (name file : String) : String :=
  joinPath (joinPath fixtures.root name) file

/-- The code in the first recording whose ledger key is this one. -/
def findCode (decoder : EntryDecoder) (fixtures : FixtureContracts) (wanted : String) :
    List ContractFixture → Except SourceError (List UInt8)
  | [] => .error (.notFound "contract code fixture")
  | d :: ds => do
      let recorded ← read (fixtures.path d.name "code.json") d.code
      if recordedKey recorded = some wanted then decodeCode decoder recorded
      else findCode decoder fixtures wanted ds

/-- `FixtureContractSource` -/
def source [Strkey] (decoder : EntryDecoder) (encode : LedgerKey → String)
    (fixtures : FixtureContracts) : ContractSource where
  contractExecutable contract :=
    match fixtures.dirs.find? (fun d => d.name = toString contract) with
    | none => .error (.notFound "contract instance fixture")
    | some d =>
        if isFile d.inst then do
          let recorded ← read (fixtures.path d.name "instance.json") d.inst
          decodeInstance decoder recorded
        else .error (.notFound "contract instance fixture")
  contractWasm wasmHash :=
    match fixtures.listError with
    | some e => .error (.lookup (fixtures.root ++ ": " ++ e))
    | none => findCode decoder fixtures (encode (Rpc.codeKey wasmHash))
        ((fixtures.dirs.filter (fun d => isFile d.code)).insertionSort
          (fun a b => a.name ≤ b.name))

end FixtureContracts

/-- What the capture tool writes of a contract: its instance, and its code if it has WASM. -/
def captureContract [Strkey] (decoder : EntryDecoder) (client : RpcClient)
    (contract : ContractId) : ContractFixture :=
  match client.contractInstanceEntry contract with
  | .error _ => ⟨toString contract, .absent, .absent⟩
  | .ok recorded =>
      match decodeInstance decoder recorded with
      | .ok (.wasm hash) =>
          match client.contractCodeEntry hash with
          | .ok code => ⟨toString contract, .json recorded, .json code⟩
          | .error _ => ⟨toString contract, .json recorded, .absent⟩
      | _ => ⟨toString contract, .json recorded, .absent⟩

end Observatory
