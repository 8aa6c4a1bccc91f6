import Observatory.Model.CallTree

/-!
# Diagnostic information

All diagnostic information of a transaction (`Diagnostics` in
`model/events.rs`): the classified events, the call tree, and the terminal error,
the first `host_fn_failed` event.

`rawTerminal` and `rawErrors` say what the terminal error and the error events
are in terms of the raw list, and `terminalError_fromEvents` and
`errors_fromEvents` connect them to the code.
-/

namespace Observatory

/-- Whether diagnostic events can be interpreted at all. -/
inductive DiagnosticAvailability where
  /-- The source was not known to emit them: an empty list carries no information. -/
  | notEmitted
  /-- The source emits them: an empty list means there were none. -/
  | emitted
  deriving DecidableEq

/-- All diagnostic information for a transaction. -/
structure Diagnostics where
  /-- Whether an empty list means anything. -/
  availability : DiagnosticAvailability
  /-- Every event, in order. -/
  events : List DiagEvent
  /-- The call tree in call order, flattened with depths. -/
  calls : List CallFrame
  /-- The terminal error, when a `host_fn_failed` event was present. -/
  terminalError : Option TerminalError

/-- The terminal error an event reports, if it is a `host_fn_failed` event. -/
def DiagEvent.terminal (e : DiagEvent) : Option TerminalError :=
  match e.kind with
  | .hostFnFailed error => some ⟨error, e.index⟩
  | _ => none

/-- An error event with what it carries. -/
structure ErrorEvent where
  /-- The event. -/
  event : DiagEvent
  /-- The error raised. -/
  error : ScError
  /-- The host's message, when the data carries one. -/
  message : Option String
  deriving DecidableEq

/-- The error an event reports, if it is an error event. -/
def DiagEvent.raised (e : DiagEvent) : Option ErrorEvent :=
  match e.kind with
  | .error error message => some ⟨e, error, message⟩
  | _ => none

/-- The metric an event reports, if it reports one. -/
def DiagEvent.metric (e : DiagEvent) : Option (String × UInt64) :=
  match e.kind with
  | .coreMetric name (some v) => some (name, v)
  | _ => none

namespace Diagnostics

/-- `from_events`. -/
def fromEvents (raw : List DiagnosticEvent) (enabled : Bool) : Diagnostics :=
  let events := classifyAll raw
  let terminalError := events.findSome? DiagEvent.terminal
  { availability := if enabled then .emitted else .notEmitted
    events
    calls := callTree events terminalError
    terminalError }

/-- Every `core_metrics` value, in order. -/
def coreMetrics (d : Diagnostics) : List (String × UInt64) := d.events.filterMap DiagEvent.metric

/-- Every error event, in order. -/
def errors (d : Diagnostics) : List ErrorEvent := d.events.filterMap DiagEvent.raised

/-- Number of events that are not `core_metrics`. -/
def executionEventCount (d : Diagnostics) : Nat :=
  (d.events.filter (fun e => match e.kind with
    | .coreMetric _ _ => false
    | _ => true)).length

end Diagnostics

/-! ## Error events of the raw list -/

/-- The event at position `i` raises this error. -/
def RaisesAt (raw : List DiagnosticEvent) (i : Nat) (error : ScError) (message : Option String)
    (r : DiagnosticEvent) : Prop :=
  raw[i]? = some r ∧ eventKind r.topics r.data = .error error message

/-- The terminal error of a raw event. -/
def DiagnosticEvent.terminal (r : DiagnosticEvent) : Option ScError :=
  match eventKind r.topics r.data with
  | .hostFnFailed error => some error
  | _ => none

/-- The error carried by the first `host_fn_failed` event of the raw list. -/
def rawTerminal (raw : List DiagnosticEvent) : Option ScError :=
  raw.findSome? DiagnosticEvent.terminal

theorem raised_eq_some {e : DiagEvent} {r : ErrorEvent} :
    e.raised = some r ↔ e.kind = .error r.error r.message ∧ r.event = e := by
  unfold DiagEvent.raised
  constructor
  · intro h
    split at h
    · obtain rfl := Option.some.inj h
      exact ⟨by assumption, rfl⟩
    · cases h
  · rintro ⟨hk, rfl⟩
    rw [hk]

/-- **Error events.**  Each one stands for an event of the raw list, at its index. -/
theorem mem_errors_fromEvents {raw : List DiagnosticEvent} {enabled : Bool} {x : ErrorEvent} :
    x ∈ (Diagnostics.fromEvents raw enabled).errors ↔
      ∃ i r, RaisesAt raw i x.error x.message r ∧ x.event = DiagEvent.classify (u32OrMax i) r := by
  rw [Diagnostics.errors, List.mem_filterMap]
  constructor
  · rintro ⟨e, he, hx⟩
    obtain ⟨i, r, hr, rfl⟩ := mem_classifyAll.mp he
    obtain ⟨hk, hev⟩ := raised_eq_some.mp hx
    exact ⟨i, r, ⟨hr, hk⟩, hev⟩
  · rintro ⟨i, r, ⟨hr, hk⟩, hev⟩
    refine ⟨DiagEvent.classify (u32OrMax i) r, mem_classifyAll.mpr ⟨i, r, hr, rfl⟩, ?_⟩
    exact raised_eq_some.mpr ⟨hk, hev⟩

/-- What an error event carries, apart from its index. -/
structure RawError where
  /-- The error raised. -/
  error : ScError
  /-- The host's message, when the data carries one. -/
  message : Option String
  /-- The contract that emitted the event. -/
  contract : Option ContractId
  /-- The event's data. -/
  data : ScVal
  deriving DecidableEq

/-- What a raw event carries, if it is an error event. -/
def DiagnosticEvent.rawError (r : DiagnosticEvent) : Option RawError :=
  match eventKind r.topics r.data with
  | .error error message => some ⟨error, message, r.contractId, r.data⟩
  | _ => none

/-- Forget the index of an error event. -/
def ErrorEvent.toRaw (x : ErrorEvent) : RawError :=
  ⟨x.error, x.message, x.event.contract, x.event.data⟩

/-- Apart from the indexes, the error events of a model are those of the raw list. -/
theorem map_toRaw_errors (raw : List DiagnosticEvent) (enabled : Bool) :
    (Diagnostics.fromEvents raw enabled).errors.map ErrorEvent.toRaw
      = raw.filterMap DiagnosticEvent.rawError := by
  show ((classifyAll raw).filterMap DiagEvent.raised).map ErrorEvent.toRaw = _
  rw [List.map_filterMap, classifyAll]
  apply Scan.filterMap_mapIdx
  rintro i r -
  unfold DiagEvent.raised DiagnosticEvent.rawError DiagEvent.classify
  cases eventKind r.topics r.data <;> rfl

/-- **The terminal error.**  It is the error of the first `host_fn_failed` event. -/
theorem terminalError_fromEvents (raw : List DiagnosticEvent) (enabled : Bool) :
    (Diagnostics.fromEvents raw enabled).terminalError.map TerminalError.error
      = rawTerminal raw := by
  have hone : ∀ (i : UInt32) (r : DiagnosticEvent),
      (DiagEvent.classify i r).terminal = r.terminal.map (fun error => ⟨error, i⟩) := by
    intro i r
    unfold DiagEvent.terminal DiagnosticEvent.terminal DiagEvent.classify
    cases eventKind r.topics r.data <;> rfl
  show ((classifyAll raw).findSome? DiagEvent.terminal).map TerminalError.error = _
  unfold classifyAll rawTerminal
  rw [List.mapIdx_eq_zipIdx_map, List.findSome?_map]
  have hzip : ∀ (l : List DiagnosticEvent) (k : Nat),
      ((l.zipIdx k).findSome? (fun p => (DiagEvent.classify (u32OrMax p.2) p.1).terminal)).map
        TerminalError.error = l.findSome? DiagnosticEvent.terminal := by
    intro l
    induction l with
    | nil => intro k; rfl
    | cons r l ih =>
        intro k
        rw [List.zipIdx_cons, List.findSome?_cons, List.findSome?_cons, hone]
        cases r.terminal with
        | none => exact ih (k + 1)
        | some error => rfl
  exact hzip raw 0

/-- The index recorded with the terminal error is that of a `host_fn_failed` event. -/
theorem terminalError_index {raw : List DiagnosticEvent} {enabled : Bool} {t : TerminalError}
    (h : (Diagnostics.fromEvents raw enabled).terminalError = some t) :
    ∃ i r, raw[i]? = some r ∧ r.terminal = some t.error ∧ t.eventIndex = u32OrMax i := by
  obtain ⟨e, he, ht⟩ := List.exists_of_findSome?_eq_some h
  obtain ⟨i, r, hr, rfl⟩ := mem_classifyAll.mp he
  unfold DiagEvent.terminal DiagEvent.classify at ht
  refine ⟨i, r, hr, ?_⟩
  unfold DiagnosticEvent.terminal
  cases hk : eventKind r.topics r.data with
  | hostFnFailed error =>
      rw [hk] at ht
      obtain rfl := Option.some.inj ht
      exact ⟨rfl, rfl⟩
  | _ => simp [hk] at ht

end Observatory
