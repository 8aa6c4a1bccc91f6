import Observatory.Model.Diagnostics

/-!
# Host-shaped traces

What the call tree is for: the host executes a tree of calls and prints one
diagnostic event after the other, and `callTree` is to recover the tree.
`Execution` is the tree, `Execution.trace` what the host prints of it, and
`Execution.frames` what the call tree should say about it.

* `Body.HostShaped` — no contract is entered twice on a path, and a caller speaks
  up after a failed call before it returns.
* `Inside` — the state of the machine while one node executes: the frames above
  its own on the stack are calls that failed and have not been noticed yet.
* `inside_body` — the simulation: a node's body keeps the machine inside the node.
* `callTree_trace` — on a host-shaped execution the call tree is exact.
-/

namespace Observatory

/-! ## Executions -/

/-- The parts of an event that its meaning does not depend on. -/
structure Stamp where
  /-- The raw `inSuccessfulContractCall` flag. -/
  inSuccessfulContractCall : Bool
  /-- The raw event type. -/
  type : ContractEventType
  /-- Topics after the ones that say what happened. -/
  moreTopics : List ScVal
  /-- The data. -/
  data : ScVal

/-- What a call does, in order: raise errors, write log lines and make calls. -/
inductive Body where
  | done
  | error (error : ScError) (stamp : Stamp) (rest : Body)
  | log (stamp : Stamp) (rest : Body)
  /-- A call to `function` of `contract`, which does `body` and returns unless
  `returned` is absent. -/
  | call (contract : ContractId) (function : StringM) (stamp : Stamp) (body : Body)
      (returned : Option Stamp) (rest : Body)

/-- An execution: the transaction's own call. -/
structure Execution where
  /-- The contract called. -/
  contract : ContractId
  /-- The function called. -/
  function : StringM
  /-- The rest of the `fn_call` event. -/
  stamp : Stamp
  /-- What the call does. -/
  body : Body
  /-- The rest of the `fn_return` event, if the call returned. -/
  returned : Option Stamp

/-! ## What the host prints -/

/-- An event whose first topics are `topics`. -/
def Stamp.event (stamp : Stamp) (emitter : Option ContractId) (topics : List ScVal) :
    DiagnosticEvent :=
  { inSuccessfulContractCall := stamp.inSuccessfulContractCall
    contractId := emitter
    type := stamp.type
    topics := topics ++ stamp.moreTopics
    data := stamp.data }

/-- `fn_call`, emitted by the caller. -/
def Stamp.call (stamp : Stamp) (caller : Option ContractId) (callee : ContractId)
    (function : StringM) : DiagnosticEvent :=
  stamp.event caller [sym "fn_call", .bytes callee.hash.toBytesM, .symbol function]

/-- `fn_return`, emitted by the returning contract. -/
def Stamp.ret (stamp : Stamp) (contract : ContractId) (function : StringM) : DiagnosticEvent :=
  stamp.event (some contract) [sym "fn_return", .symbol function]

/-- `error`. -/
def Stamp.error (stamp : Stamp) (contract : ContractId) (error : ScError) : DiagnosticEvent :=
  stamp.event (some contract) [sym "error", .error error]

/-- `log`. -/
def Stamp.log (stamp : Stamp) (contract : ContractId) : DiagnosticEvent :=
  stamp.event (some contract) [sym "log"]

/-- `host_fn_failed`, which has no emitter. -/
def Stamp.hostFnFailed (stamp : Stamp) (error : ScError) : DiagnosticEvent :=
  stamp.event none [sym "host_fn_failed", .error error]

/-- The events of a body, executed by contract `own`. -/
def Body.events (own : ContractId) : Body → List DiagnosticEvent
  | .done => []
  | .error e stamp rest => stamp.error own e :: rest.events own
  | .log stamp rest => stamp.log own :: rest.events own
  | .call contract function stamp body returned rest =>
      stamp.call (some own) contract function ::
        (body.events contract ++
          ((returned.map (fun stamp => stamp.ret contract function)).toList ++ rest.events own))

/-- The events of an execution, up to the end of the transaction's own call. -/
def Execution.events (x : Execution) : List DiagnosticEvent :=
  x.stamp.call none x.contract x.function ::
    (x.body.events x.contract ++
      (x.returned.map (fun stamp => stamp.ret x.contract x.function)).toList)

/-- All events: those of the execution, and possibly a `host_fn_failed` event. -/
def Execution.trace (x : Execution) (terminal : Option (ScError × Stamp)) :
    List DiagnosticEvent :=
  x.events ++ (terminal.map (fun p => p.2.hostFnFailed p.1)).toList

/-! ## What the call tree should say -/

/-- The number of events of a body. -/
def Body.size : Body → Nat
  | .done => 0
  | .error _ _ rest => 1 + rest.size
  | .log _ rest => 1 + rest.size
  | .call _ _ _ body returned rest => 1 + (body.size + (returned.toList.length + rest.size))

/-- Nothing is left to do. -/
def Body.isDone : Body → Bool
  | .done => true
  | _ => false

/-- The last error a body raises itself, when its first event has index `i`. -/
def Body.lastError (i : Nat) : Body → Option (ScError × UInt32)
  | .done => none
  | .error e _ rest => (rest.lastError (i + 1)).or (some (e, u32OrMax i))
  | .log _ rest => rest.lastError (i + 1)
  | .call _ _ _ body returned rest =>
      rest.lastError (i + 1 + body.size + returned.toList.length)

/-- How a node ended: it returned, or failed with its own last error, or else
with the terminal error if that is still to be had. -/
def nodeOutcome (returned : Option Stamp) (lastError : Option (ScError × UInt32))
    (terminal : Option TerminalError) : CallOutcome :=
  if returned.isSome then .returned
  else match lastError, terminal with
    | some (error, eventIndex), _ => .failed error eventIndex
    | none, some t => .failed t.error t.eventIndex
    | none, none => .unknown

/-- The frames of the calls a body makes, in preorder, when its first event has
index `i` and its calls have depth `depth`.  `terminal` is the error for calls
that raised nothing themselves, and is there only as long as no caller emits an
event after them: neither a later part of a caller's body nor its return. -/
def Body.frames (terminal : Option TerminalError) (i depth : Nat) : Body → List CallFrame
  | .done => []
  | .error _ _ rest => rest.frames terminal (i + 1) depth
  | .log _ rest => rest.frames terminal (i + 1) depth
  | .call contract function _ body returned rest =>
      let silent := if returned.isNone && rest.isDone then terminal else none
      { eventIndex := u32OrMax i
        depth := u32OrMax depth
        contract
        function := function.toUtf8StringLossy
        outcome := nodeOutcome returned (body.lastError (i + 1)) silent } ::
        (body.frames silent (i + 1) (depth + 1) ++
          rest.frames terminal (i + 1 + body.size + returned.toList.length) depth)

/-- The frames of an execution, in preorder. -/
def Execution.frames (x : Execution) (terminal : Option TerminalError) : List CallFrame :=
  { eventIndex := 0
    depth := 0
    contract := x.contract
    function := x.function.toUtf8StringLossy
    outcome := nodeOutcome x.returned (x.body.lastError 1) terminal } ::
    x.body.frames (if x.returned.isNone then terminal else none) 1 1

/-! ## Host-shaped executions -/

/-- The last thing a body does is a call that fails. -/
def Body.endsInFailure : Body → Bool
  | .done => false
  | .error _ _ rest => rest.endsInFailure
  | .log _ rest => rest.endsInFailure
  | .call _ _ _ _ returned rest =>
      if rest.isDone then returned.isNone else rest.endsInFailure

theorem Body.endsInFailure_of_isDone {b : Body} (h : b.isDone = true) :
    b.endsInFailure = false := by
  cases b with
  | done => rfl
  | _ => cases h

/-- A body that does not end in a failure goes on after a call that fails. -/
theorem Body.goesOn_of_failedCall {contract : ContractId} {function : StringM} {stamp : Stamp}
    {body rest : Body}
    (h : (Body.call contract function stamp body none rest).endsInFailure = false) :
    rest.isDone = false ∧ rest.endsInFailure = false := by
  cases hdone : rest.isDone with
  | true => simp [Body.endsInFailure, hdone] at h
  | false => simpa [Body.endsInFailure, hdone] using h

theorem Body.endsInFailure_of_returnedCall {contract : ContractId} {function : StringM}
    {stamp ret : Stamp} {body rest : Body}
    (h : (Body.call contract function stamp body (some ret) rest).endsInFailure = false) :
    rest.endsInFailure = false := by
  cases hdone : rest.isDone with
  | true => exact Body.endsInFailure_of_isDone hdone
  | false => simpa [Body.endsInFailure, hdone] using h

/-- On the way down from `path`, no contract is entered twice, and a node that
returns has emitted something after its last failed call. -/
def Body.HostShaped (path : List ContractId) : Body → Prop
  | .done => True
  | .error _ _ rest => rest.HostShaped path
  | .log _ rest => rest.HostShaped path
  | .call contract _ _ body returned rest =>
      contract ∉ path ∧ body.HostShaped (contract :: path) ∧
        (returned.isSome → body.endsInFailure = false) ∧ rest.HostShaped path

/-- The conditions on an execution as a whole. -/
def Execution.HostShaped (x : Execution) : Prop :=
  x.body.HostShaped [x.contract] ∧ (x.returned.isSome → x.body.endsInFailure = false)

/-! ## Numbering -/

/-- The events of a list classified from index `i` on. -/
def classifyFrom (i : Nat) : List DiagnosticEvent → List DiagEvent
  | [] => []
  | r :: raw => DiagEvent.classify (u32OrMax i) r :: classifyFrom (i + 1) raw

theorem classifyAll_eq (raw : List DiagnosticEvent) : classifyAll raw = classifyFrom 0 raw := by
  have h : ∀ k, (raw.zipIdx k).map (fun p => DiagEvent.classify (u32OrMax p.2) p.1)
      = classifyFrom k raw := by
    induction raw with
    | nil => intro k; rfl
    | cons r raw ih =>
        intro k
        rw [List.zipIdx_cons, List.map_cons, ih, classifyFrom]
  rw [classifyAll, List.mapIdx_eq_zipIdx_map]
  exact h 0

theorem classifyFrom_append (i : Nat) (a b : List DiagnosticEvent) :
    classifyFrom i (a ++ b) = classifyFrom i a ++ classifyFrom (i + a.length) b := by
  induction a generalizing i with
  | nil => rfl
  | cons r a ih =>
      rw [List.cons_append, classifyFrom, classifyFrom, ih, List.length_cons, List.cons_append]
      congr 3
      omega

theorem Body.length_events (b : Body) (own : ContractId) : (b.events own).length = b.size := by
  induction b generalizing own with
  | done => rfl
  | error error stamp rest ih => rw [events, List.length_cons, ih, size, Nat.add_comm]
  | log stamp rest ih => rw [events, List.length_cons, ih, size, Nat.add_comm]
  | call contract function stamp body returned rest ihb ihr =>
      rw [events, List.length_cons, List.length_append, List.length_append, ihb, ihr, size]
      cases returned <;> simp <;> omega

/-! ## Steps on the host's events -/

@[simp] theorem callStep_call (s : CallStack) (i : UInt32) (stamp : Stamp)
    (caller callee : ContractId) (function : StringM) :
    callStep s (.classify i (stamp.call (some caller) callee function))
      = (s.unwindTo caller).push i callee function.toUtf8StringLossy := by
  simp [callStep, DiagEvent.classify, Stamp.call, Stamp.event]

@[simp] theorem callStep_rootCall (s : CallStack) (i : UInt32) (stamp : Stamp)
    (callee : ContractId) (function : StringM) :
    callStep s (.classify i (stamp.call none callee function))
      = s.endAll.push i callee function.toUtf8StringLossy := by
  simp [callStep, DiagEvent.classify, Stamp.call, Stamp.event]

@[simp] theorem callStep_ret (s : CallStack) (i : UInt32) (stamp : Stamp)
    (contract : ContractId) (function : StringM) :
    callStep s (.classify i (stamp.ret contract function)) = s.popReturned := by
  simp [callStep, DiagEvent.classify, Stamp.ret, Stamp.event]

@[simp] theorem callStep_error (s : CallStack) (i : UInt32) (stamp : Stamp)
    (contract : ContractId) (error : ScError) :
    callStep s (.classify i (stamp.error contract error))
      = (s.unwindTo contract).raise contract error i := by
  simp [callStep, DiagEvent.classify, Stamp.error, Stamp.event]

@[simp] theorem callStep_log (s : CallStack) (i : UInt32) (stamp : Stamp)
    (contract : ContractId) :
    callStep s (.classify i (stamp.log contract)) = s.unwindTo contract := by
  simp [callStep, DiagEvent.classify, Stamp.log, Stamp.event]

@[simp] theorem callStep_hostFnFailed (s : CallStack) (i : UInt32) (stamp : Stamp)
    (error : ScError) : callStep s (.classify i (stamp.hostFnFailed error)) = s := by
  simp [callStep, DiagEvent.classify, Stamp.hostFnFailed, Stamp.event]

/-! ## Inside a node -/

/-- The outcome of the frame behind `before` is rewritten in place. -/
theorem setOutcome_append (before after : List CallFrame) (frame : CallFrame)
    (outcome : CallOutcome) :
    setOutcome (before ++ frame :: after) before.length outcome
      = before ++ { frame with outcome } :: after := by
  induction before with
  | nil => rfl
  | cons head before ih =>
      rw [List.cons_append, List.length_cons, setOutcome, List.modify_succ_cons]
      exact congrArg (head :: ·) ih

theorem outcome_withTerminal (o : Open) (terminal : Option TerminalError) :
    (o.withTerminal terminal).outcome = nodeOutcome none o.lastError terminal := by
  obtain ⟨frame, lastError⟩ := o
  cases lastError <;> cases terminal <;> rfl

/-- Unwinding to the call below `junk`, none of which is a call into the same
contract. -/
theorem unwindTo_junk {s : CallStack} {contract : ContractId} {junk live : List Open} {op : Open}
    (hstack : s.stack = junk ++ op :: live)
    (hjunk : ∀ o ∈ junk, contractAt s.frames o.frame ≠ some contract)
    (hop : contractAt s.frames op.frame = some contract) :
    (s.unwindTo contract).stack = op :: live ∧
      (s.unwindTo contract).frames = Unwind.closeAll endCall s.frames junk := by
  have hruns : op.runs contract s.frames = true := decide_eq_true hop
  have hany : s.stack.any (Open.runs contract s.frames) = true := by
    rw [hstack, List.any_eq_true]
    exact ⟨op, by simp, hruns⟩
  have hpop : Unwind.popUntil (Open.runs contract) endCall s.frames s.stack
      = (Unwind.closeAll endCall s.frames junk, op :: live) := by
    rw [hstack, Unwind.popUntil_append (runs_endCall contract)
      (fun o ho => decide_eq_false (hjunk o ho))]
    apply Unwind.popUntil_of_stop
    rw [Unwind.closeAll_invariant (fun frames => op.runs contract frames)
      (fun frames o => runs_endCall contract frames o op)]
    exact hruns
  rw [CallStack.unwindTo, if_pos hany]
  exact ⟨congrArg Prod.snd hpop, congrArg Prod.fst hpop⟩

/-- The machine while a call into `own` executes, below the callers in `path`.
Its entry `op` lies on top of the callers' entries `live`, except for `junk`:
calls that failed and whose end the machine has not seen yet.  Were they ended
now, with `t` for those that raised nothing, the frames would be `frames t`. -/
structure Inside (own : ContractId) (path : List ContractId) (op : Open) (live : List Open)
    (frames : Option TerminalError → List CallFrame) (s : CallStack) (junk : List Open) :
    Prop where
  /-- The stack. -/
  stack_eq : s.stack = junk ++ op :: live
  /-- The frames, once the failed calls are ended. -/
  ended : ∀ t, Unwind.closeAll (endOpen t) s.frames junk = frames t
  /-- The node's own entry is a call into `own`. -/
  own_at : contractAt s.frames op.frame = some own
  /-- No failed call is mistaken for the node or one of its callers. -/
  foreign : ∀ o ∈ junk, ∀ c ∈ own :: path, contractAt s.frames o.frame ≠ some c

namespace Inside

variable {own contract : ContractId} {path : List ContractId} {op inner : Open}
  {live junk : List Open} {frames : Option TerminalError → List CallFrame} {s : CallStack}

theorem congr {frames' : Option TerminalError → List CallFrame}
    (h : Inside own path op live frames s junk) (hframes : ∀ t, frames t = frames' t) :
    Inside own path op live frames' s junk :=
  ⟨h.stack_eq, fun t => (h.ended t).trans (hframes t), h.own_at, h.foreign⟩

/-- An event from the node itself ends the failed calls above it. -/
theorem speak (h : Inside own path op live frames s junk) :
    Inside own path op live (fun _ => frames none) (s.unwindTo own) [] := by
  obtain ⟨hstack, hframes⟩ := unwindTo_junk h.stack_eq
    (fun o ho => h.foreign o ho own List.mem_cons_self) h.own_at
  refine ⟨hstack, ?_, ?_, by simp⟩
  · intro t
    rw [Unwind.closeAll_nil, hframes, ← h.ended none, endOpen_none]
  · rw [contractAt, contracts_unwindTo]
    exact h.own_at

/-- An error of the node's own is noted with its entry. -/
theorem raise (h : Inside own path op live frames s []) (error : ScError) (i : UInt32) :
    Inside own path { op with lastError := some (error, i) } live frames
      (s.raise own error i) [] := by
  refine ⟨?_, h.ended, h.own_at, by simp⟩
  have hruns : op.runs own s.frames = true := decide_eq_true h.own_at
  rw [CallStack.stack_raise, h.stack_eq, List.nil_append, List.modifyHead_cons, if_pos hruns]
  rfl

/-- A call puts a node inside the node. -/
theorem enter (h : Inside own path op live frames s []) (i : UInt32) (function : String) :
    Inside contract (own :: path) ⟨(frames none).length, none⟩ (op :: live)
      (fun t => frames t ++ [⟨i, u32OrMax (live.length + 1), contract, function, .unknown⟩])
      (s.push i contract function) [] := by
  have hframes : ∀ t, s.frames = frames t := h.ended
  have hstack : s.stack = op :: live := h.stack_eq
  refine ⟨?_, ?_, ?_, by simp⟩
  · rw [CallStack.stack_push, hstack, ← hframes none]
    rfl
  · intro t
    rw [Unwind.closeAll_nil, CallStack.frames_push, hstack, ← hframes t]
    rfl
  · rw [CallStack.frames_push, contractAt, hframes none, List.map_append,
      List.getElem?_append_right (by simp)]
    simp

/-- While the callee executes, the caller's frame stays where it is. -/
theorem own_at_callee (h : Inside own path op live frames s []) (i : UInt32)
    (callee : ContractId) (function : String) (events : List DiagEvent) :
    contractAt (events.foldl callStep (s.push i callee function)).frames op.frame
      = some own := by
  apply contractAt_foldl
  have hat := h.own_at
  have hlt := (List.getElem?_eq_some_iff.mp hat).1
  rw [CallStack.frames_push, contractAt, List.map_append, List.getElem?_append_left hlt]
  exact hat

/-- After a call that failed, the caller goes on with one more unnoticed failure. -/
theorem leave_failed (h : Inside contract (own :: path) inner (op :: live) frames s junk)
    (hown : contractAt s.frames op.frame = some own) (hfresh : contract ∉ own :: path) :
    Inside own path op live (fun t => endOpen t (frames t) inner) s (junk ++ [inner]) := by
  refine ⟨?_, ?_, hown, ?_⟩
  · rw [h.stack_eq, List.append_assoc, List.singleton_append]
  · intro t
    rw [Unwind.closeAll_append, h.ended t]
    rfl
  · intro o ho c hc
    rcases List.mem_append.mp ho with ho | ho
    · exact h.foreign o ho c (List.mem_cons_of_mem _ hc)
    · obtain rfl := List.mem_singleton.mp ho
      rw [h.own_at]
      intro heq
      obtain rfl := Option.some.inj heq
      exact hfresh hc

/-- After a call that returned, the caller goes on. -/
theorem leave_returned (h : Inside contract (own :: path) inner (op :: live) frames s [])
    (hown : contractAt s.frames op.frame = some own) :
    Inside own path op live (fun _ => setOutcome (frames none) inner.frame .returned)
      s.popReturned [] := by
  have hframes : s.frames = frames none := h.ended none
  have hstack : s.stack = inner :: op :: live := h.stack_eq
  refine ⟨?_, ?_, ?_, by simp⟩
  · rw [CallStack.stack_popReturned, hstack]
    rfl
  · intro t
    rw [Unwind.closeAll_nil, CallStack.frames_popReturned, hstack, hframes]
    rfl
  · rw [CallStack.frames_popReturned, contractAt, contracts_returnCall]
    exact hown

end Inside

/-! ## The simulation -/

/-- The frames found before a body, once the body has run: if it did anything
at all, the calls that had failed before were ended without the terminal error. -/
def Body.settle (b : Body) (frames : Option TerminalError → List CallFrame) :
    Option TerminalError → List CallFrame :=
  fun t => if b.isDone then frames t else frames none

theorem Body.settle_const (b : Body) (frames : List CallFrame) (t : Option TerminalError) :
    b.settle (fun _ => frames) t = frames := by
  unfold settle
  split <;> rfl

/-- Ending a call that failed, behind the frames of the calls it made. -/
theorem endOpen_frames (before after : List CallFrame) (frame : CallFrame) (o : Open)
    (ho : o.frame = before.length) (t : Option TerminalError) :
    endOpen t (before ++ frame :: after) o
      = before ++ { frame with outcome := nodeOutcome none o.lastError t } :: after := by
  rw [endOpen, endCall, outcome_withTerminal]
  have hframe : (o.withTerminal t).frame = before.length := by
    rw [← ho, Open.withTerminal]
    split <;> rfl
  rw [hframe, setOutcome_append]

/-- **The simulation.**  Executing a body keeps the machine inside its node,
adds the frames of the calls it makes, and leaves no unnoticed failure behind
unless the last thing it does is a call that fails. -/
theorem inside_body (b : Body) {own : ContractId} {path : List ContractId} {op : Open}
    {live junk : List Open} {frames : Option TerminalError → List CallFrame} {s : CallStack}
    {i : Nat} (h : Inside own path op live frames s junk) (hb : b.HostShaped (own :: path)) :
    ∃ junk', Inside own path { op with lastError := (b.lastError i).or op.lastError } live
        (fun t => b.settle frames t ++ b.frames t i (live.length + 1))
        ((classifyFrom i (b.events own)).foldl callStep s) junk' ∧
      (junk = [] ∨ b.isDone = false → b.endsInFailure = false → junk' = []) := by
  induction b generalizing own path op live junk frames s i with
  | done =>
      refine ⟨junk, h.congr (fun t => (List.append_nil _).symm), ?_⟩
      rintro (hjunk | hdone) -
      · exact hjunk
      · cases hdone
  | error e stamp rest ih =>
      obtain ⟨junk', h', hclean⟩ := ih (i := i + 1) (h.speak.raise e (u32OrMax i)) hb
      refine ⟨junk', ?_, fun _ hend => hclean (Or.inl rfl) hend⟩
      rw [Body.events, classifyFrom, List.foldl_cons, callStep_error]
      have hlast : ((Body.error e stamp rest).lastError i).or op.lastError
          = (rest.lastError (i + 1)).or (some (e, u32OrMax i)) := by
        rw [Body.lastError, Option.or_assoc, Option.some_or]
      rw [hlast]
      apply h'.congr
      intro t
      rw [Body.settle_const]
      rfl
  | log stamp rest ih =>
      obtain ⟨junk', h', hclean⟩ := ih (i := i + 1) h.speak hb
      refine ⟨junk', ?_, fun _ hend => hclean (Or.inl rfl) hend⟩
      rw [Body.events, classifyFrom, List.foldl_cons, callStep_log]
      apply h'.congr
      intro t
      rw [Body.settle_const]
      rfl
  | call contract function stamp body returned rest ihb ihr =>
      obtain ⟨hfresh, hbody, hreturn, hrest⟩ := hb
      -- the call itself, and the callee's body
      have hin : Inside contract _ _ _ _ _ _ :=
        h.speak.enter (u32OrMax i) function.toUtf8StringLossy
      obtain ⟨junk₁, h₁, hclean₁⟩ := ihb (i := i + 1) hin hbody
      have hown := h.speak.own_at_callee (u32OrMax i) contract
        function.toUtf8StringLossy (classifyFrom (i + 1) (body.events contract))
      rw [Body.events, classifyFrom, List.foldl_cons, callStep_call, classifyFrom_append,
        Body.length_events, List.foldl_append, classifyFrom_append, List.foldl_append]
      cases returned with
      | none =>
          obtain ⟨junk₂, h₂, hclean₂⟩ :=
            ihr (i := i + 1 + body.size + 0) (h₁.leave_failed hown hfresh) hrest
          refine ⟨junk₂, h₂.congr ?_, ?_⟩
          · intro t
            simp only [Body.settle_const, List.append_assoc, List.singleton_append,
              endOpen_frames, Option.or_none]
            rw [Body.frames, Body.settle, Body.settle]
            cases rest.isDone <;> simp [Body.isDone]
          · intro _ hend
            obtain ⟨hgoes, hrestEnd⟩ := Body.goesOn_of_failedCall hend
            exact hclean₂ (Or.inr hgoes) hrestEnd
      | some ret =>
          obtain rfl := hclean₁ (Or.inl rfl) (hreturn rfl)
          obtain ⟨junk₂, h₂, hclean₂⟩ :=
            ihr (i := i + 1 + body.size + 1) (h₁.leave_returned hown) hrest
          refine ⟨junk₂, ?_, ?_⟩
          · rw [Option.map_some, Option.toList_some, classifyFrom, classifyFrom, List.foldl_cons,
              List.foldl_nil, callStep_ret]
            apply h₂.congr
            intro t
            simp only [Body.settle_const, List.append_assoc, List.singleton_append,
              setOutcome_append]
            rw [Body.frames, Body.settle]
            simp [Body.isDone, nodeOutcome]
          · intro _ hend
            exact hclean₂ (Or.inl rfl) (Body.endsInFailure_of_returnedCall hend)

/-! ## Whole executions -/

theorem terminal_events (b : Body) (own : ContractId) (i : Nat) :
    ∀ e ∈ classifyFrom i (b.events own), e.terminal = none := by
  induction b generalizing own i with
  | done => simp [Body.events, classifyFrom]
  | error e stamp rest ih =>
      rw [Body.events, classifyFrom, List.forall_mem_cons]
      exact ⟨by simp [DiagEvent.terminal, DiagEvent.classify, Stamp.error, Stamp.event],
        ih own (i + 1)⟩
  | log stamp rest ih =>
      rw [Body.events, classifyFrom, List.forall_mem_cons]
      exact ⟨by simp [DiagEvent.terminal, DiagEvent.classify, Stamp.log, Stamp.event],
        ih own (i + 1)⟩
  | call contract function stamp body returned rest ihb ihr =>
      rw [Body.events, classifyFrom, List.forall_mem_cons, classifyFrom_append,
        classifyFrom_append, List.forall_mem_append, List.forall_mem_append]
      refine ⟨by simp [DiagEvent.terminal, DiagEvent.classify, Stamp.call, Stamp.event],
        ihb contract _, ?_, ihr own _⟩
      cases returned with
      | none => simp [classifyFrom]
      | some ret =>
          simp [classifyFrom, DiagEvent.terminal, DiagEvent.classify, Stamp.ret, Stamp.event]

/-- The terminal error an execution's trace reports is the one that was printed. -/
theorem terminalError_trace (x : Execution) (terminal : Option (ScError × Stamp))
    (enabled : Bool) :
    (Diagnostics.fromEvents (x.trace terminal) enabled).terminalError
      = terminal.map (fun p => ⟨p.1, u32OrMax x.events.length⟩) := by
  have hexec : (classifyFrom 0 x.events).findSome? DiagEvent.terminal = none := by
    rw [List.findSome?_eq_none_iff, Execution.events, classifyFrom, List.forall_mem_cons,
      classifyFrom_append, List.forall_mem_append]
    refine ⟨by simp [DiagEvent.terminal, DiagEvent.classify, Stamp.call, Stamp.event],
      terminal_events x.body x.contract _, ?_⟩
    cases x.returned with
    | none => simp [classifyFrom]
    | some ret =>
        simp [classifyFrom, DiagEvent.terminal, DiagEvent.classify, Stamp.ret, Stamp.event]
  show (classifyAll (x.trace terminal)).findSome? DiagEvent.terminal = _
  rw [classifyAll_eq, Execution.trace, classifyFrom_append, List.findSome?_append, hexec,
    Option.none_or, Nat.zero_add]
  cases terminal with
  | none => rfl
  | some p => simp [classifyFrom, DiagEvent.terminal, DiagEvent.classify, Stamp.hostFnFailed,
      Stamp.event]

/-- **The call tree is exact on host-shaped executions.**  It has the calls in
preorder, each with its depth, contract, function and `fn_call` index.  A call
that returned is `returned`; one that failed is `failed` with the last error it
raised, or with the terminal error if it raised none and no caller emitted an
event after it, or else `unknown`. -/
theorem callTree_trace (x : Execution) (hx : x.HostShaped)
    (terminal : Option (ScError × Stamp)) (enabled : Bool) :
    (Diagnostics.fromEvents (x.trace terminal) enabled).calls
      = x.frames (terminal.map (fun p => ⟨p.1, u32OrMax x.events.length⟩)) := by
  obtain ⟨hbody, hreturn⟩ := hx
  rw [← terminalError_trace x terminal enabled]
  show callTree (classifyAll (x.trace terminal))
    (Diagnostics.fromEvents (x.trace terminal) enabled).terminalError = _
  generalize (Diagnostics.fromEvents (x.trace terminal) enabled).terminalError = t
  -- `host_fn_failed` has no emitter and does nothing
  have hlast : (classifyFrom x.events.length
      (terminal.map (fun p => p.2.hostFnFailed p.1)).toList).foldl callStep
        ((classifyFrom 0 x.events).foldl callStep .empty)
      = (classifyFrom 0 x.events).foldl callStep .empty := by
    cases terminal with
    | none => rfl
    | some p => simp [classifyFrom]
  rw [callTree, classifyAll_eq, Execution.trace, classifyFrom_append, List.foldl_append,
    Nat.zero_add, hlast, Execution.events, classifyFrom, List.foldl_cons, callStep_rootCall,
    classifyFrom_append, List.foldl_append]
  have hroot : Inside x.contract [] ⟨0, none⟩ []
      (fun _ => [⟨0, 0, x.contract, x.function.toUtf8StringLossy, .unknown⟩])
      (CallStack.empty.endAll.push (u32OrMax 0) x.contract x.function.toUtf8StringLossy) [] :=
    ⟨rfl, fun _ => rfl, rfl, by simp⟩
  obtain ⟨junk, hin, hclean⟩ := inside_body x.body (i := 0 + 1) hroot hbody
  generalize (classifyFrom (0 + 1) (x.body.events x.contract)).foldl callStep
    (CallStack.empty.endAll.push (u32OrMax 0) x.contract x.function.toUtf8StringLossy) = s at hin ⊢
  cases hret : x.returned with
  | none =>
      show Unwind.closeAll (endOpen t) s.frames s.stack = _
      rw [hin.stack_eq, Unwind.closeAll_append, hin.ended, Body.settle_const,
        Unwind.closeAll_cons, Unwind.closeAll_nil, List.singleton_append]
      have hend := endOpen_frames [] (x.body.frames t 1 1)
        ⟨0, 0, x.contract, x.function.toUtf8StringLossy, .unknown⟩
        ⟨0, (x.body.lastError 1).or none⟩ rfl t
      rw [List.nil_append, List.nil_append, Option.or_none] at hend
      rw [Execution.frames, hret, Option.or_none]
      exact hend
  | some ret =>
      obtain rfl := hclean (Or.inl rfl) (hreturn (by rw [hret]; rfl))
      have hframes := hin.ended none
      rw [Unwind.closeAll_nil, Body.settle_const] at hframes
      rw [Option.map_some, Option.toList_some, classifyFrom, classifyFrom, List.foldl_cons,
        List.foldl_nil, callStep_ret, CallStack.stack_popReturned, CallStack.frames_popReturned,
        hin.stack_eq, hframes, Execution.frames, hret]
      rfl

/-- A calls B, B fails, A catches the failure and fails with an error of its own:
the shape of the recorded transactions. -/
def caughtFailure : Execution :=
  let stamp : Stamp := ⟨true, .diagnostic, [], .void⟩
  { contract := ⟨.fill 1⟩
    function := .ofAscii "harvest"
    stamp
    body := .call ⟨.fill 2⟩ (.ofAscii "harvest") stamp (.error (.contract 9) stamp .done) none
      (.error (.contract 9) stamp (.error (.contract 2) stamp .done))
    returned := none }

theorem callTree_trace_caughtFailure :
    caughtFailure.HostShaped ∧
      (Diagnostics.fromEvents
        (caughtFailure.trace (some (.contract 2, ⟨false, .diagnostic, [], .void⟩))) true).calls
      = [⟨0, 0, ⟨.fill 1⟩, "harvest", .failed (.contract 2) 4⟩,
          ⟨1, 1, ⟨.fill 2⟩, "harvest", .failed (.contract 9) 2⟩] := by
  have hshape : caughtFailure.HostShaped := by
    refine ⟨⟨?_, trivial, ?_, trivial⟩, ?_⟩
    · decide
    · intro h
      cases h
    · intro h
      cases h
  refine ⟨hshape, ?_⟩
  rw [callTree_trace caughtFailure hshape]
  decide

end Observatory
