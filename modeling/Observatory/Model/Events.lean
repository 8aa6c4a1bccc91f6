import Observatory.Lib.Scan
import Observatory.Xdr.Transaction

/-!
# Diagnostic events

Classification of diagnostic events by their first topic (`classify` in
`model/events.rs`).  Unrecognised events are kept as `EventKind.other`, and every
event keeps its raw parts.

`eventKind` does not look at the index an event is given, and the lemmas about
it say which raw shape each kind comes from: `fn_call`, `fn_return`, `error`,
`host_fn_failed` and `log`.
-/

namespace Observatory

/-- What a diagnostic event says. -/
inductive EventKind where
  /-- A contract function was called. -/
  | fnCall (callee : ContractId) (function : String)
  /-- A contract function returned normally. -/
  | fnReturn (function : String)
  /-- An error was raised in the emitting frame. -/
  | error (error : ScError) (message : Option String)
  /-- The host function as a whole failed with this error. -/
  | hostFnFailed (error : ScError)
  /-- A log line. -/
  | log (message : Option String)
  /-- A resource metric reported by the host. -/
  | coreMetric (name : String) (value : Option UInt64)
  /-- Anything else. -/
  | other (name : Option String)
  deriving DecidableEq

/-- One diagnostic event, classified, with its raw parts retained. -/
structure DiagEvent where
  /-- Zero-based index in the diagnostic event list. -/
  index : UInt32
  /-- The contract whose frame emitted the event, if any. -/
  contract : Option ContractId
  /-- The raw `inSuccessfulContractCall` flag. -/
  inSuccessfulContractCall : Bool
  /-- The raw event type. -/
  eventType : ContractEventType
  /-- The classified meaning. -/
  kind : EventKind
  /-- Topics, verbatim. -/
  topics : List ScVal
  /-- Data, verbatim. -/
  data : ScVal
  deriving DecidableEq

/-- The text of a symbol. -/
def symbol : ScVal → Option String
  | .symbol s => some s.toUtf8StringLossy
  | _ => none

/-- The message in an `error` or `log` event's data: a bare string, or the first
element of a vector. -/
def message (data : ScVal) : Option String :=
  match data with
  | .string s => some s.toUtf8StringLossy
  | .vec v =>
      match v.toList.head? with
      | some (.string s) => some s.toUtf8StringLossy
      | _ => none
  | _ => none

/-- The kind of an event with the given topics and data. -/
def eventKind (topics : List ScVal) (data : ScVal) : EventKind :=
  let first : Option String := topics.head? >>= symbol
  let second : Option ScVal := topics[1]?
  let third : Option ScVal := topics[2]?
  match first, second, third with
  | some "fn_call", some (.bytes callee), some func =>
      match Hash.tryFrom callee.bytes, symbol func with
      | some id, some function => .fnCall ⟨id⟩ function
      | _, _ => .other first
  | some "fn_return", some func, _ =>
      match symbol func with
      | some function => .fnReturn function
      | none => .other first
  | some "error", some (.error error), _ => .error error (message data)
  | some "host_fn_failed", some (.error error), _ => .hostFnFailed error
  | some "log", _, _ => .log (message data)
  | some "core_metrics", some name, _ =>
      match symbol name with
      | some name => .coreMetric name (match data with | .u64 v => some v | _ => none)
      | none => .other first
  | _, _, _ => .other first

/-- `classify`: an event with its index and meaning. -/
def DiagEvent.classify (index : UInt32) (e : DiagnosticEvent) : DiagEvent :=
  { index
    contract := e.contractId
    inSuccessfulContractCall := e.inSuccessfulContractCall
    eventType := e.type
    kind := eventKind e.topics e.data
    topics := e.topics
    data := e.data }

/-- The classified events of a transaction, numbered in order. -/
def classifyAll (raw : List DiagnosticEvent) : List DiagEvent :=
  raw.mapIdx (fun i e => DiagEvent.classify (u32OrMax i) e)

/-! ## The shapes of the host's events -/

@[simp] theorem symbol_symbol (s : StringM) : symbol (.symbol s) = some s.toUtf8StringLossy := rfl

/-- A word in ASCII is read back as it was written. -/
theorem symbol_sym {word : String} (h : word.toList.all (fun c => c.toNat < 128) = true) :
    symbol (sym word) = some word := by
  have hascii : ∀ c ∈ word.toList, c.toNat < 128 := by simpa using h
  exact congrArg some (Utf8.lossy_ascii hascii)

@[simp] theorem symbol_sym_fnCall : symbol (sym "fn_call") = some "fn_call" :=
  symbol_sym rfl

@[simp] theorem symbol_sym_fnReturn : symbol (sym "fn_return") = some "fn_return" :=
  symbol_sym rfl

@[simp] theorem symbol_sym_error : symbol (sym "error") = some "error" :=
  symbol_sym rfl

@[simp] theorem symbol_sym_hostFnFailed : symbol (sym "host_fn_failed") = some "host_fn_failed" :=
  symbol_sym rfl

@[simp] theorem symbol_sym_log : symbol (sym "log") = some "log" :=
  symbol_sym rfl

@[simp] theorem eventKind_fnCall (callee : ContractId) (function : StringM)
    (more : List ScVal) (data : ScVal) :
    eventKind (sym "fn_call" :: .bytes callee.hash.toBytesM :: .symbol function :: more) data
      = .fnCall callee function.toUtf8StringLossy := by
  simp [eventKind, Hash.toBytesM]

@[simp] theorem eventKind_fnReturn (function : StringM) (more : List ScVal) (data : ScVal) :
    eventKind (sym "fn_return" :: .symbol function :: more) data
      = .fnReturn function.toUtf8StringLossy := by
  simp [eventKind]

@[simp] theorem eventKind_error (e : ScError) (more : List ScVal) (data : ScVal) :
    eventKind (sym "error" :: .error e :: more) data = .error e (message data) := by
  simp [eventKind]

@[simp] theorem eventKind_hostFnFailed (e : ScError) (more : List ScVal) (data : ScVal) :
    eventKind (sym "host_fn_failed" :: .error e :: more) data = .hostFnFailed e := by
  simp [eventKind]

@[simp] theorem eventKind_log (more : List ScVal) (data : ScVal) :
    eventKind (sym "log" :: more) data = .log (message data) := by
  simp [eventKind]

/-! ## Positions -/

/-- A classified event stands where its raw event stands. -/
theorem mem_classifyAll {raw : List DiagnosticEvent} {e : DiagEvent} :
    e ∈ classifyAll raw ↔ ∃ i r, raw[i]? = some r ∧ DiagEvent.classify (u32OrMax i) r = e :=
  Scan.mem_mapIdx_iff

/-- An index handed out is always below the number of events. -/
theorem index_lt_of_mem {raw : List DiagnosticEvent} {e : DiagEvent} (h : e ∈ classifyAll raw) :
    e.index.toNat < raw.length := by
  obtain ⟨i, r, hr, rfl⟩ := mem_classifyAll.mp h
  have hi := (List.getElem?_eq_some_iff.mp hr).1
  exact Nat.lt_of_le_of_lt (toNat_u32OrMax_le i) hi

end Observatory
