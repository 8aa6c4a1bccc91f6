import Observatory.Lib.Unwind
import Observatory.Model.Events

/-!
# The call tree

Diagnostic events do not say which call made which.  `callTree` recovers it
from the emitters (`call_tree` in `model/events.rs`): it keeps the calls that
are still open on a stack, and an event from a contract further down ends every
call above it.

* `CallStack` — the frames found so far and the open calls, each of which
  refers to one of those frames.
* `callStep` — what one event does.
* `callTree` — a run over all events, and the end of the calls still open.

A step only adds frames and rewrites outcomes, so the contract of a frame never
changes once it is recorded (`contracts_callStep`).
-/

namespace Observatory

/-- How a contract call ended, as far as the events show. -/
inductive CallOutcome where
  /-- A `fn_return` was seen for this frame. -/
  | returned
  /-- The frame ended after raising this error, in the event with this index. -/
  | failed (error : ScError) (eventIndex : UInt32)
  /-- The events do not show how the frame ended. -/
  | unknown
  deriving DecidableEq

/-- One contract call, reconstructed from `fn_call` events. -/
structure CallFrame where
  /-- The `fn_call` event that opened this frame. -/
  eventIndex : UInt32
  /-- Nesting depth; 0 is the call made by the transaction itself. -/
  depth : UInt32
  /-- The contract called. -/
  contract : ContractId
  /-- The function called. -/
  function : String
  /-- How the frame ended. -/
  outcome : CallOutcome
  deriving DecidableEq

/-- The error the host function as a whole failed with. -/
structure TerminalError where
  /-- The error, from the `host_fn_failed` event. -/
  error : ScError
  /-- Index of the `host_fn_failed` event. -/
  eventIndex : UInt32
  deriving DecidableEq

/-- A call still open: its frame, and the last error it raised. -/
structure Open where
  /-- Position of the frame. -/
  frame : Nat
  /-- The last error raised, and the event that raised it. -/
  lastError : Option (ScError × UInt32)
  deriving DecidableEq

/-- The contract of the frame at a position. -/
def contractAt (frames : List CallFrame) (i : Nat) : Option ContractId :=
  (frames.map CallFrame.contract)[i]?

/-- Record how the frame at a position ended. -/
def setOutcome (frames : List CallFrame) (i : Nat) (outcome : CallOutcome) : List CallFrame :=
  frames.modify i (fun frame => { frame with outcome })

/-- How an open call ends when it does not return. -/
def Open.outcome (o : Open) : CallOutcome :=
  match o.lastError with
  | some (error, eventIndex) => .failed error eventIndex
  | none => .unknown

/-- `end`: close a call that did not return. -/
def endCall (frames : List CallFrame) (o : Open) : List CallFrame :=
  setOutcome frames o.frame o.outcome

/-- Close the innermost call, if there is one, as returned. -/
def returnCall (frames : List CallFrame) (top : Option Open) : List CallFrame :=
  match top with
  | some o => setOutcome frames o.frame .returned
  | none => frames

/-- An open call is a call into this contract. -/
def Open.runs (contract : ContractId) (frames : List CallFrame) (o : Open) : Bool :=
  decide (contractAt frames o.frame = some contract)

/-- An open call that raised nothing of its own takes the terminal error. -/
def Open.withTerminal (terminal : Option TerminalError) (o : Open) : Open :=
  if o.lastError.isNone then
    { o with lastError := terminal.map (fun t => (t.error, t.eventIndex)) }
  else o

/-- Close a call that is still open when the events end. -/
def endOpen (terminal : Option TerminalError) (frames : List CallFrame) (o : Open) :
    List CallFrame :=
  endCall frames (o.withTerminal terminal)

/-! ## What does not change when calls end -/

/-- What does not depend on the outcome of a frame is left alone when an outcome is recorded. -/
theorem map_setOutcome {Q : Type*} {q : CallFrame → Q}
    (hq : ∀ frame outcome, q { frame with outcome } = q frame) (frames : List CallFrame) (i : Nat)
    (outcome : CallOutcome) : (setOutcome frames i outcome).map q = frames.map q := by
  apply List.ext_getElem?
  intro j
  simp only [setOutcome, List.getElem?_map, List.getElem?_modify]
  cases frames[j]? with
  | none => rfl
  | some frame => by_cases h : i = j <;> simp [h, hq]

theorem map_returnCall {Q : Type*} {q : CallFrame → Q}
    (hq : ∀ frame outcome, q { frame with outcome } = q frame) (frames : List CallFrame)
    (top : Option Open) : (returnCall frames top).map q = frames.map q := by
  cases top with
  | none => rfl
  | some o => exact map_setOutcome hq ..

theorem map_endAll {Q : Type*} {q : CallFrame → Q}
    (hq : ∀ frame outcome, q { frame with outcome } = q frame) (frames : List CallFrame)
    (os : List Open) : (Unwind.closeAll endCall frames os).map q = frames.map q :=
  Unwind.closeAll_invariant (List.map q) (fun _ _ => map_setOutcome hq ..) frames os

@[simp] theorem length_setOutcome (frames : List CallFrame) (i : Nat) (outcome : CallOutcome) :
    (setOutcome frames i outcome).length = frames.length := List.length_modify ..

@[simp] theorem contracts_returnCall (frames : List CallFrame) (top : Option Open) :
    (returnCall frames top).map CallFrame.contract = frames.map CallFrame.contract :=
  map_returnCall (fun _ _ => rfl) ..

@[simp] theorem length_returnCall (frames : List CallFrame) (top : Option Open) :
    (returnCall frames top).length = frames.length := by
  cases top with
  | none => rfl
  | some o => exact length_setOutcome ..

@[simp] theorem contractAt_endCall (frames : List CallFrame) (o : Open) (i : Nat) :
    contractAt (endCall frames o) i = contractAt frames i := by
  rw [contractAt, endCall, map_setOutcome (fun _ _ => rfl), contractAt]

@[simp] theorem length_endCall (frames : List CallFrame) (o : Open) :
    (endCall frames o).length = frames.length := length_setOutcome ..

@[simp] theorem runs_endCall (contract : ContractId) (frames : List CallFrame) (o o' : Open) :
    Open.runs contract (endCall frames o) o' = Open.runs contract frames o' := by
  rw [Open.runs, contractAt_endCall, Open.runs]

@[simp] theorem length_endAll (frames : List CallFrame) (os : List Open) :
    (Unwind.closeAll endCall frames os).length = frames.length :=
  Unwind.closeAll_invariant List.length length_endCall frames os

@[simp] theorem withTerminal_none (o : Open) : o.withTerminal none = o := by
  obtain ⟨frame, lastError⟩ := o
  cases lastError <;> rfl

@[simp] theorem frame_withTerminal (terminal : Option TerminalError) (o : Open) :
    (o.withTerminal terminal).frame = o.frame := by
  unfold Open.withTerminal
  split <;> rfl

theorem Open.outcome_eq_failed {o : Open} {error : ScError} {eventIndex : UInt32} :
    o.outcome = .failed error eventIndex ↔ o.lastError = some (error, eventIndex) := by
  obtain ⟨frame, lastError⟩ := o
  cases lastError <;> simp [Open.outcome, Prod.ext_iff]

/-- Without a terminal error, a call left open ends like one that is unwound. -/
@[simp] theorem endOpen_none : endOpen none = endCall := by
  funext frames o
  rw [endOpen, withTerminal_none]

/-! ## The machine -/

/-- The frames found so far and the stack of open calls, innermost first. -/
structure CallStack where
  /-- The frames, in call order. -/
  frames : List CallFrame
  /-- The open calls. -/
  stack : List Open
  /-- Every open call refers to a frame. -/
  inBounds : ∀ o ∈ stack, o.frame < frames.length

namespace CallStack

/-- Nothing seen yet. -/
def empty : CallStack := ⟨[], [], by simp⟩

/-- End every open call. -/
def endAll (s : CallStack) : CallStack :=
  ⟨Unwind.closeAll endCall s.frames s.stack, [], by simp⟩

/-- End the calls above the innermost one into `contract`.  An emitter that is
not on the stack leaves it as it is. -/
def unwindTo (contract : ContractId) (s : CallStack) : CallStack :=
  if s.stack.any (Open.runs contract s.frames) then
    ⟨(Unwind.popUntil (Open.runs contract) endCall s.frames s.stack).1,
      (Unwind.popUntil (Open.runs contract) endCall s.frames s.stack).2, by
        intro o ho
        obtain ⟨popped, -, hframes, -⟩ :=
          Unwind.popUntil_split (runs_endCall contract) s.frames s.stack
        rw [hframes, length_endAll]
        exact s.inBounds o
          ((Unwind.popUntil_suffix (runs_endCall contract) s.frames s.stack).subset ho)⟩
  else s

/-- Open a call: add its frame and put it on top. -/
def push (eventIndex : UInt32) (contract : ContractId) (function : String) (s : CallStack) :
    CallStack :=
  { frames := s.frames ++
      [{ eventIndex, depth := u32OrMax s.stack.length, contract, function, outcome := .unknown }]
    stack := ⟨s.frames.length, none⟩ :: s.stack
    inBounds := by
      intro o ho
      rw [List.length_append, List.length_singleton]
      rcases List.mem_cons.mp ho with rfl | ho
      · exact Nat.lt_succ_self _
      · exact Nat.lt_succ_of_lt (s.inBounds o ho) }

/-- The innermost call returned. -/
def popReturned (s : CallStack) : CallStack :=
  ⟨returnCall s.frames s.stack.head?, s.stack.tail, by
    intro o ho
    rw [length_returnCall]
    exact s.inBounds o (List.mem_of_mem_tail ho)⟩

/-- Note an error in the innermost call, when that is a call into `contract`. -/
def raise (contract : ContractId) (error : ScError) (eventIndex : UInt32) (s : CallStack) :
    CallStack :=
  { frames := s.frames
    stack := s.stack.modifyHead (fun top =>
      if top.runs contract s.frames then { top with lastError := some (error, eventIndex) }
      else top)
    inBounds := by
      intro o ho
      cases hs : s.stack with
      | nil => simp [hs] at ho
      | cons top below =>
          have hin := s.inBounds
          rw [hs] at hin ho
          rw [List.modifyHead_cons] at ho
          rcases List.mem_cons.mp ho with rfl | ho
          · have htop := hin top List.mem_cons_self
            split <;> exact htop
          · exact hin o (List.mem_cons_of_mem _ ho) }

@[simp] theorem frames_push (i : UInt32) (c : ContractId) (f : String) (s : CallStack) :
    (s.push i c f).frames = s.frames ++ [⟨i, u32OrMax s.stack.length, c, f, .unknown⟩] := rfl

@[simp] theorem stack_push (i : UInt32) (c : ContractId) (f : String) (s : CallStack) :
    (s.push i c f).stack = ⟨s.frames.length, none⟩ :: s.stack := rfl

@[simp] theorem frames_popReturned (s : CallStack) :
    s.popReturned.frames = returnCall s.frames s.stack.head? := rfl

@[simp] theorem stack_popReturned (s : CallStack) : s.popReturned.stack = s.stack.tail := rfl

@[simp] theorem frames_raise (c : ContractId) (e : ScError) (i : UInt32) (s : CallStack) :
    (s.raise c e i).frames = s.frames := rfl

theorem stack_raise (c : ContractId) (e : ScError) (i : UInt32) (s : CallStack) :
    (s.raise c e i).stack = s.stack.modifyHead (fun top =>
      if top.runs c s.frames then { top with lastError := some (e, i) } else top) := rfl

end CallStack

/-- The body of `call_tree`'s loop. -/
def callStep (s : CallStack) (e : DiagEvent) : CallStack :=
  match e.kind, e.contract with
  | .fnCall callee function, some caller => (s.unwindTo caller).push e.index callee function
  -- the transaction's own call
  | .fnCall callee function, none => s.endAll.push e.index callee function
  | .fnReturn _, _ => s.popReturned
  | .error error _, some emitter => (s.unwindTo emitter).raise emitter error e.index
  | _, some emitter => s.unwindTo emitter
  | _, none => s

/-- `call_tree`. -/
def callTree (events : List DiagEvent) (terminal : Option TerminalError) : List CallFrame :=
  let s := events.foldl callStep .empty
  Unwind.closeAll (endOpen terminal) s.frames s.stack

/-! ## What a step keeps -/

/-- **What unwinding does.**  The calls above the innermost one into `contract`
are ended; when there is no such call nothing is. -/
theorem unwindTo_spec (contract : ContractId) (s : CallStack) :
    ∃ popped, s.stack = popped ++ (s.unwindTo contract).stack ∧
      (s.unwindTo contract).frames = Unwind.closeAll endCall s.frames popped ∧
      (∀ o ∈ popped, o.runs contract s.frames = false) ∧
      ((∃ top ∈ (s.unwindTo contract).stack.head?, top.runs contract s.frames = true) ∨
        popped = [] ∧ ∀ o ∈ s.stack, o.runs contract s.frames = false) := by
  unfold CallStack.unwindTo
  split
  · next h =>
    obtain ⟨popped, hstack, hframes, hpopped, hhead⟩ :=
      Unwind.popUntil_split (runs_endCall contract) s.frames s.stack
    refine ⟨popped, hstack, hframes, hpopped, Or.inl ?_⟩
    show ∃ top ∈ (Unwind.popUntil (Open.runs contract) endCall s.frames s.stack).2.head?,
      top.runs contract s.frames = true
    cases hrest : (Unwind.popUntil (Open.runs contract) endCall s.frames s.stack).2 with
    | nil =>
        obtain ⟨o, ho, hruns⟩ := List.any_eq_true.mp h
        rw [hrest, List.append_nil] at hstack
        rw [hstack] at ho
        rw [hpopped o ho] at hruns
        cases hruns
    | cons top below => exact ⟨top, rfl, hhead top (by rw [hrest]; rfl)⟩
  · next h =>
    refine ⟨[], rfl, rfl, by simp, Or.inr ⟨rfl, ?_⟩⟩
    simpa using h

theorem map_unwindTo {Q : Type*} {q : CallFrame → Q}
    (hq : ∀ frame outcome, q { frame with outcome } = q frame) (contract : ContractId)
    (s : CallStack) : (s.unwindTo contract).frames.map q = s.frames.map q := by
  obtain ⟨popped, -, hframes, -⟩ := unwindTo_spec contract s
  rw [hframes, map_endAll hq]

theorem contracts_unwindTo (contract : ContractId) (s : CallStack) :
    (s.unwindTo contract).frames.map CallFrame.contract = s.frames.map CallFrame.contract :=
  map_unwindTo (fun _ _ => rfl) contract s

/-- What is left open for a call made by this event to be nested in. -/
def CallStack.callers (s : CallStack) (e : DiagEvent) : CallStack :=
  match e.contract with
  | some caller => s.unwindTo caller
  | none => s.endAll

/-- The frame an event opens, if it reports a call. -/
def openedBy (s : CallStack) (e : DiagEvent) : Option CallFrame :=
  match e.kind with
  | .fnCall callee function =>
      some
        { eventIndex := e.index
          depth := u32OrMax (s.callers e).stack.length
          contract := callee
          function
          outcome := .unknown }
  | _ => none

/-- **What a step records.**  But for their outcomes the frames found so far stay as they
are, and a call adds its own at the end. -/
theorem map_callStep {Q : Type*} {q : CallFrame → Q}
    (hq : ∀ frame outcome, q { frame with outcome } = q frame) (s : CallStack) (e : DiagEvent) :
    (callStep s e).frames.map q = s.frames.map q ++ ((openedBy s e).map q).toList := by
  unfold callStep openedBy CallStack.callers
  cases e.contract with
  | none =>
      cases e.kind <;>
        simp [CallStack.endAll, map_endAll hq, map_returnCall hq]
  | some emitter =>
      cases e.kind <;> simp [map_unwindTo hq, map_returnCall hq]

/-- **A step never rewrites a contract.**  The contracts of the frames recorded
so far stay in place; a call adds its own at the end. -/
theorem contracts_callStep (s : CallStack) (e : DiagEvent) :
    s.frames.map CallFrame.contract <+: (callStep s e).frames.map CallFrame.contract := by
  rw [map_callStep (q := CallFrame.contract) (fun _ _ => rfl)]
  exact List.prefix_append ..

/-- A frame keeps its contract through a whole run. -/
theorem contractAt_foldl {events : List DiagEvent} {s : CallStack} {i : Nat} {c : ContractId}
    (h : contractAt s.frames i = some c) :
    contractAt (events.foldl callStep s).frames i = some c := by
  induction events generalizing s with
  | nil => exact h
  | cons e events ih =>
      apply ih
      obtain ⟨more, hmore⟩ := contracts_callStep s e
      have hi := (List.getElem?_eq_some_iff.mp h).1
      rw [contractAt, ← hmore, List.getElem?_append_left hi]
      exact h

end Observatory
