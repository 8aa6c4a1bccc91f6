import Mathlib.Data.List.DropRight
import Observatory.Model.Label
import Observatory.Model.Transaction

/-!
# Cluster keys

The keys by which transactions are deduplicated (`cluster.rs`): the code a
transaction's root contract ran, and the account that paid for it.  Both come
from the model and from the contract's instance entry, never from a diagnosis.
The parser of account strkeys is a parameter.

* `codeCluster`, `submitterCluster` — the keys.
* `PilotRecord.new` — what is recorded of a transaction.
* `terminalErrorKey_host` — how a host error is recorded.
-/

namespace Observatory

/-! ## Code -/

/-- Why a root contract's code identity could not be determined. -/
inductive UnresolvedCode where
  | instanceUnavailable
  | notInFootprint
  | unsupportedExecutable
  deriving DecidableEq

/-- The protocol's exclusion reason code. -/
def UnresolvedCode.reason : UnresolvedCode → String
  | .instanceUnavailable => "code_identity_instance_unavailable"
  | .notInFootprint => "code_identity_not_in_footprint"
  | .unsupportedExecutable => "code_identity_unsupported_executable"

/-- The identity of the code a transaction's root contract ran. -/
inductive CodeIdentity where
  | resolved (key : String)
  | unresolved (reason : UnresolvedCode)
  deriving DecidableEq

/-- The cluster key for the Stellar Asset Contract. -/
def stellarAssetCluster : String := "builtin:stellar-asset-contract"

/-- The cluster key for WASM with a hash. -/
def wasmCluster (hash : Hash) : String := "wasm:" ++ hex hash.bytes

/-- The code cluster of a root contract, from the executable in its instance entry and the
hashes in the transaction's footprint. -/
def codeCluster (inst : Option ContractExecutable) (footprintCodeHashes : List Hash) :
    CodeIdentity :=
  match inst with
  | none => .unresolved .instanceUnavailable
  | some (.wasm hash) =>
      if hash ∈ footprintCodeHashes then .resolved (wasmCluster hash)
      else .unresolved .notInFootprint
  | some .stellarAsset => .resolved stellarAssetCluster
  | some (.externalRef ..) => .unresolved .unsupportedExecutable

/-! ## Submitters -/

section Submitter

variable [Strkey] (parse : AccountParser)

/-- A muxed account strkey reduced to the account underneath; anything else is returned
unchanged. -/
def baseAccount (strkey : String) : String :=
  match parse strkey with
  | some (.muxedEd25519 m) => Strkey.ed25519 m.ed25519
  | _ => strkey

/-- The submitter cluster: the fee source of a fee bump, else the inner source account. -/
def submitterCluster (model : TransactionModel) : String :=
  let account := match model.feeBump with
    | some bump => bump.feeSource
    | none => model.sourceAccount
  baseAccount parse account

/-- The root contract a transaction invoked, as a strkey, if it invoked one. -/
def rootContractId (model : TransactionModel) : Option String :=
  match model.invocation with
  | some invocation =>
      match invocation.contract with
      | .contract id => some (toString id)
      | _ => none
  | none => none

end Submitter

/-! ## Terminal errors -/

/-- `str::trim_start_matches`, on a text of at most `n` characters. -/
def trimStartMatches (pattern : List Char) : Nat → List Char → List Char
  | 0, text => text
  | n + 1, text =>
      if pattern.isPrefixOf text then trimStartMatches pattern n (text.drop pattern.length)
      else text

/-- `str::replace`, on a text of at most `n` characters. -/
def replaceMatches (pattern replacement : List Char) : Nat → List Char → List Char
  | 0, text => text
  | _ + 1, [] => []
  | n + 1, c :: text =>
      if pattern.isPrefixOf (c :: text) then
        replacement ++ replaceMatches pattern replacement n ((c :: text).drop pattern.length)
      else c :: replaceMatches pattern replacement n text

/-- A rendered error without the `Error(…)` around it, its comma a slash. -/
def typeAndCode (label : String) : String :=
  let text := label.toList
  let trimmed := (trimStartMatches "Error(".toList text.length text).rdropWhile (fun c => c == ')')
  String.ofList (replaceMatches ", ".toList "/".toList trimmed.length trimmed)

/-- The terminal host error as its raw type and code. -/
def terminalErrorKey : ScError → String
  | .contract _ => "Contract"
  | other => typeAndCode (errorLabel other)

/-- The code an error of the host carries. -/
def ScError.code : ScError → Option ScErrorCode
  | .contract _ => none
  | .wasmVm c | .context c | .storage c | .object c | .crypto c | .events c | .budget c
  | .value c | .auth c => some c

theorem trimStartMatches_of_not {pattern text : List Char} (h : pattern.isPrefixOf text = false)
    (n : Nat) : trimStartMatches pattern n text = text := by
  cases n with
  | zero => rfl
  | succ n => rw [trimStartMatches, h, if_neg Bool.false_ne_true]

/-- Nothing is replaced where the pattern cannot start. -/
theorem replaceMatches_append {p : Char} {pattern replacement text rest : List Char}
    (h : ∀ c ∈ text, c ≠ p) (n : Nat) :
    replaceMatches (p :: pattern) replacement (text.length + n) (text ++ rest)
      = text ++ replaceMatches (p :: pattern) replacement n rest := by
  induction text with
  | nil => rw [List.length_nil, Nat.zero_add, List.nil_append, List.nil_append]
  | cons c text ih =>
      have hc : (p == c) = false := by
        rw [beq_eq_false_iff_ne]
        exact (h c List.mem_cons_self).symm
      have hlength : (c :: text).length + n = text.length + n + 1 := by
        rw [List.length_cons]
        omega
      rw [hlength, List.cons_append, replaceMatches, List.isPrefixOf, hc, Bool.false_and,
        if_neg Bool.false_ne_true, ih (fun d hd => h d (List.mem_cons_of_mem _ hd)),
        List.cons_append]

/-- The one separator of a text is replaced. -/
theorem replaceMatches_separator {p q : Char} {text rest : List Char} (replacement : List Char)
    (htext : ∀ c ∈ text, c ≠ p) (hrest : ∀ c ∈ rest, c ≠ p) :
    replaceMatches [p, q] replacement (text ++ ([p, q] ++ rest)).length (text ++ ([p, q] ++ rest))
      = text ++ (replacement ++ rest) := by
  have hend : replaceMatches [p, q] replacement (rest.length + 1) rest = rest := by
    have happend : replaceMatches [p, q] replacement (rest.length + 1) (rest ++ [])
        = rest ++ replaceMatches [p, q] replacement 1 [] := replaceMatches_append hrest 1
    rwa [List.append_nil, replaceMatches, List.append_nil] at happend
  have hlength : (text ++ ([p, q] ++ rest)).length = text.length + (rest.length + 1 + 1) := by
    simp
  have hprefix : [p, q].isPrefixOf (p :: q :: rest) = true :=
    List.isPrefixOf_iff_prefix.mpr ⟨rest, rfl⟩
  rw [hlength, replaceMatches_append htext]
  show text ++ replaceMatches [p, q] replacement (rest.length + 1 + 1) (p :: q :: rest) = _
  rw [replaceMatches, hprefix, if_pos rfl]
  show text ++ (replacement ++ replaceMatches [p, q] replacement (rest.length + 1) rest) = _
  rw [hend]

/-- The name of a code has no comma and does not end in a parenthesis. -/
theorem ScErrorCode.name_plain (c : ScErrorCode) :
    (∀ d ∈ c.name.toList, d ≠ ',') ∧ ∃ init last, c.name.toList = init ++ [last] ∧ last ≠ ')' := by
  have hplain : ',' ∉ c.name.toList ∧ ∃ last, c.name.toList.getLast? = some last ∧
      last ≠ ')' := by
    cases c <;> exact ⟨by decide, _, rfl, by decide⟩
  obtain ⟨hcomma, last, hlast, hne⟩ := hplain
  obtain ⟨init, hinit⟩ := List.getLast?_eq_some_iff.mp hlast
  exact ⟨fun d hd heq => hcomma (heq ▸ hd), init, last, hinit, hne⟩

/-- The name of a type has no comma and does not begin as `Error` does. -/
theorem ScError.name_plain (e : ScError) : (∀ d ∈ e.name.toList, d ≠ ',') ∧
    2 ≤ e.name.toList.length ∧ e.name.toList.take 2 ≠ "Er".toList := by
  have hplain : ',' ∉ e.name.toList ∧ 2 ≤ e.name.toList.length ∧
      e.name.toList.take 2 ≠ "Er".toList := by
    cases e <;> simp only [ScError.name] <;> decide
  exact ⟨fun d hd heq => hplain.1 (heq ▸ hd), hplain.2⟩

/-- A second `Error(` does not follow the first. -/
theorem ScError.isPrefixOf_name (e : ScError) (rest : List Char) :
    "Error(".toList.isPrefixOf (e.name.toList ++ rest) = false := by
  obtain ⟨-, hlength, htake⟩ := e.name_plain
  rw [Bool.eq_false_iff]
  intro h
  obtain ⟨after, hafter⟩ := List.isPrefixOf_iff_prefix.mp h
  have htwo := congrArg (List.take 2) hafter
  rw [List.take_append_of_le_length hlength] at htwo
  exact htake htwo.symm

/-- What is left of a rendered error. -/
theorem typeAndCode_label (e : ScError) (c : ScErrorCode) :
    typeAndCode ("Error(" ++ e.name ++ ", " ++ c.name ++ ")") = e.name ++ "/" ++ c.name := by
  obtain ⟨hcode, init, last, hname, hlast⟩ := c.name_plain
  have htext : ("Error(" ++ e.name ++ ", " ++ c.name ++ ")" : String).toList
      = "Error(".toList ++ (e.name.toList ++ ([',', ' '] ++ c.name.toList) ++ [')']) := by
    simp only [String.toList_append, List.append_assoc]
    rfl
  have hopened : trimStartMatches "Error(".toList
      ("Error(".toList ++ (e.name.toList ++ ([',', ' '] ++ c.name.toList) ++ [')'])).length
      ("Error(".toList ++ (e.name.toList ++ ([',', ' '] ++ c.name.toList) ++ [')']))
      = e.name.toList ++ ([',', ' '] ++ c.name.toList) ++ [')'] := by
    have hlength : ∀ rest, ("Error(".toList ++ rest).length = rest.length + 5 + 1 := by
      intro rest
      rw [List.length_append, Nat.add_comm]
      rfl
    rw [hlength, trimStartMatches,
      if_pos (List.isPrefixOf_iff_prefix.mpr (List.prefix_append _ _)), List.drop_left,
      List.append_assoc]
    exact trimStartMatches_of_not (e.isPrefixOf_name _) _
  have hclosed : (e.name.toList ++ ([',', ' '] ++ c.name.toList) ++ [')']).rdropWhile
      (fun c => c == ')') = e.name.toList ++ ([',', ' '] ++ c.name.toList) := by
    rw [List.rdropWhile_concat_pos _ _ _ (by rfl), hname, ← List.append_assoc,
      ← List.append_assoc, List.rdropWhile_concat_neg _ _ _ (by simpa using hlast)]
  unfold typeAndCode
  simp only [htext, hopened, hclosed]
  rw [show ", ".toList = [',', ' '] from rfl, replaceMatches_separator _ e.name_plain.1 hcode,
    String.ofList_append, String.ofList_append, String.ofList_toList, String.ofList_toList,
    String.ofList_toList, String.append_assoc]

/-- Every error of the host is recorded as its type and its code. -/
theorem terminalErrorKey_host {e : ScError} {c : ScErrorCode} (h : e.code = some c) :
    terminalErrorKey e = e.name ++ "/" ++ c.name := by
  rw [← typeAndCode_label]
  cases e with
  | contract n => cases h
  | _ c' =>
      obtain rfl : c' = c := Option.some.inj h
      rfl

/-! ## Records -/

/-- The outcome of reading a root contract's instance entry. -/
inductive InstanceLookup where
  | found (executable : ContractExecutable)
  | notFound
  | failed
  deriving DecidableEq

/-- The executable, if the entry was read. -/
def InstanceLookup.executable : InstanceLookup → Option ContractExecutable
  | .found executable => some executable
  | .notFound | .failed => none

/-- The status as written to the pilot's records. -/
def InstanceLookup.status : InstanceLookup → String
  | .found _ => "found"
  | .notFound => "not_found"
  | .failed => "failed"

/-- What the population pilot records of a transaction. -/
structure PilotRecord where
  /-- The transaction hash as reported by the endpoint. -/
  transactionHash : String
  /-- The inner transaction's hash, for a fee bump. -/
  innerTransactionHash : Option String
  /-- The ledger it was applied in. -/
  ledger : UInt32
  /-- Whether the envelope is a fee bump. -/
  feeBumped : Bool
  /-- Operations in the inner transaction. -/
  operationCount : Nat
  /-- Diagnostic events decoded. -/
  diagnosticEventCount : Nat
  /-- The submitter cluster. -/
  submitterCluster : String
  /-- The invoked contract, if the operation invoked one. -/
  rootContractId : Option String
  /-- How the instance lookup went; absent when there is no root contract. -/
  instanceLookup : Option String
  /-- The code cluster, when it resolves. -/
  codeCluster : Option String
  /-- Why the code cluster did not resolve, when it did not. -/
  codeUnresolvedReason : Option UnresolvedCode
  /-- The raw type and code of the terminal host error, if one was reported. -/
  terminalError : Option String
  deriving DecidableEq

/-- The code hashes of a model's footprint; none without Soroban data. -/
def TransactionModel.footprintCodeHashes (model : TransactionModel) : List Hash :=
  match model.soroban with
  | some soroban => soroban.footprint.contractCodeHashes
  | none => []

/-- The code cluster and the reason there is none, for a root contract if there is one. -/
def clusterFields (root : Option String) (identity : CodeIdentity) :
    Option String × Option UnresolvedCode :=
  match root with
  | none => (none, none)
  | some _ =>
      match identity with
      | .resolved key => (some key, none)
      | .unresolved reason => (none, some reason)

/-- A record of a decoded transaction and of the lookup of its root contract's instance. -/
def PilotRecord.new [Strkey] (parse : AccountParser) (transactionHash : String)
    (ledger : UInt32) (model : TransactionModel) (lookup : Option InstanceLookup) :
    PilotRecord :=
  let inst := lookup.bind InstanceLookup.executable
  let root := Observatory.rootContractId model
  let fields := clusterFields root (Observatory.codeCluster inst model.footprintCodeHashes)
  { transactionHash
    innerTransactionHash :=
      model.outcome.feeBump.map (fun bump => hex bump.innerTransactionHash.bytes)
    ledger
    feeBumped := model.isFeeBumped
    operationCount := model.operations.length
    diagnosticEventCount := model.diagnostics.events.length
    submitterCluster := Observatory.submitterCluster parse model
    rootContractId := root
    instanceLookup := root.bind (fun _ => lookup.map InstanceLookup.status)
    codeCluster := fields.1
    codeUnresolvedReason := fields.2
    terminalError := model.diagnostics.terminalError.map (fun t => terminalErrorKey t.error) }

end Observatory
