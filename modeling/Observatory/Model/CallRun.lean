import Mathlib.Data.List.Induction
import Mathlib.Data.Nat.Init
import Observatory.Model.CallTree

/-!
# Runs of the call tree

What holds along a run of `callTree` over any list of events, however hostile.

* `frames_callTree` — there is one frame a `fn_call`, in order.
* `stateAt` — the machine before the event at a position.
* `ended_of_le` — a call that has ended stays so.
-/

namespace Observatory

/-! ## One frame a call -/

/-- What a frame records of its call: the event, the contract and the function. -/
def CallFrame.call (f : CallFrame) : UInt32 × ContractId × String :=
  (f.eventIndex, f.contract, f.function)

/-- The call a `fn_call` event reports. -/
def DiagEvent.call (e : DiagEvent) : Option (UInt32 × ContractId × String) :=
  match e.kind with
  | .fnCall callee function => some (e.index, callee, function)
  | _ => none

/-- A step adds a frame for a call, and no other. -/
theorem calls_callStep (s : CallStack) (e : DiagEvent) :
    (callStep s e).frames.map CallFrame.call
      = s.frames.map CallFrame.call ++ e.call.toList := by
  have hopened : (openedBy s e).map CallFrame.call = e.call := by
    unfold openedBy DiagEvent.call
    cases e.kind <;> rfl
  rw [map_callStep (q := CallFrame.call) (fun _ _ => rfl), hopened]

/-- A run adds a frame for each call, and no other. -/
theorem calls_foldl (events : List DiagEvent) (s : CallStack) :
    (events.foldl callStep s).frames.map CallFrame.call
      = s.frames.map CallFrame.call ++ events.filterMap DiagEvent.call := by
  induction events generalizing s with
  | nil => simp
  | cons e events ih =>
      rw [List.foldl_cons, ih, calls_callStep, List.append_assoc, List.filterMap_cons]
      cases e.call <;> rfl

/-- The end of a run leaves everything but outcomes alone. -/
theorem map_callTree {Q : Type*} {q : CallFrame → Q}
    (hq : ∀ frame outcome, q { frame with outcome } = q frame) (events : List DiagEvent)
    (terminal : Option TerminalError) :
    (callTree events terminal).map q = (events.foldl callStep .empty).frames.map q :=
  Unwind.closeAll_invariant (List.map q) (fun _ _ => map_setOutcome hq ..) _ _

/-- **One frame a call.**  The frames are the calls the events report, in order. -/
theorem frames_callTree (events : List DiagEvent) (terminal : Option TerminalError) :
    (callTree events terminal).map CallFrame.call = events.filterMap DiagEvent.call := by
  rw [map_callTree (q := CallFrame.call) (fun _ _ => rfl), calls_foldl]
  rfl

/-! ## Open calls -/

/-- The positions of the frames still open, innermost first. -/
def CallStack.openFrames (s : CallStack) : List Nat := s.stack.map Open.frame

theorem stack_unwindTo (contract : ContractId) (s : CallStack) :
    (s.unwindTo contract).stack <:+ s.stack := by
  obtain ⟨popped, hstack, -⟩ := unwindTo_spec contract s
  exact ⟨popped, hstack.symm⟩

theorem stack_callers (s : CallStack) (e : DiagEvent) : (s.callers e).stack <:+ s.stack := by
  unfold CallStack.callers
  split
  · exact stack_unwindTo _ s
  · exact List.nil_suffix

theorem openFrames_unwindTo (contract : ContractId) (s : CallStack) :
    (s.unwindTo contract).openFrames <:+ s.openFrames := (stack_unwindTo contract s).map _

theorem openFrames_callers (s : CallStack) (e : DiagEvent) :
    (s.callers e).openFrames <:+ s.openFrames := (stack_callers s e).map _

theorem openFrames_raise (contract : ContractId) (error : ScError) (index : UInt32)
    (s : CallStack) : (s.raise contract error index).openFrames = s.openFrames := by
  unfold CallStack.openFrames
  rw [CallStack.stack_raise]
  cases s.stack with
  | nil => rfl
  | cons top below =>
      rw [List.modifyHead_cons, List.map_cons, List.map_cons]
      split <;> rfl

/-- A step that opens no call leaves open some of the calls that were, from the outermost on. -/
theorem openFrames_callStep_of_none {s : CallStack} {e : DiagEvent} (h : openedBy s e = none) :
    (callStep s e).openFrames <:+ s.openFrames := by
  unfold openedBy at h
  unfold callStep
  split
  · next hkind _ => simp [hkind] at h
  · next hkind _ => simp [hkind] at h
  · rw [CallStack.openFrames, CallStack.stack_popReturned, List.map_tail]
    exact List.tail_suffix _
  · rw [openFrames_raise]
    exact openFrames_unwindTo _ s
  · exact openFrames_unwindTo _ s
  · exact List.suffix_refl _

/-- A step that opens a call puts it on top of its callers. -/
theorem openFrames_callStep_of_some {s : CallStack} {e : DiagEvent} {frame : CallFrame}
    (h : openedBy s e = some frame) :
    (callStep s e).openFrames = s.frames.length :: (s.callers e).openFrames := by
  unfold openedBy at h
  split at h
  · next callee function hkind =>
    unfold callStep CallStack.callers
    cases hcontract : e.contract with
    | none =>
        simp only [hkind]
        rw [CallStack.openFrames, CallStack.stack_push, List.map_cons, CallStack.endAll,
          length_endAll]
        rfl
    | some caller =>
        simp only [hkind]
        have hlength : (s.unwindTo caller).frames.length = s.frames.length := by
          simpa using congrArg List.length (contracts_unwindTo caller s)
        rw [CallStack.openFrames, CallStack.stack_push, List.map_cons, hlength]
        rfl
  · cases h

/-- A step leaves open some of the calls that were, from the outermost on, and may open a
new one. -/
theorem openFrames_callStep (s : CallStack) (e : DiagEvent) :
    (callStep s e).openFrames <:+ s.openFrames ∨
      ∃ kept, kept <:+ s.openFrames ∧ (callStep s e).openFrames = s.frames.length :: kept := by
  cases h : openedBy s e with
  | none => exact Or.inl (openFrames_callStep_of_none h)
  | some frame =>
      exact Or.inr ⟨_, openFrames_callers s e, openFrames_callStep_of_some h⟩

theorem lt_of_mem_openFrames {s : CallStack} {i : Nat} (h : i ∈ s.openFrames) :
    i < s.frames.length := by
  obtain ⟨o, ho, rfl⟩ := List.mem_map.mp h
  exact s.inBounds o ho

theorem length_frames_callStep (s : CallStack) (e : DiagEvent) :
    s.frames.length ≤ (callStep s e).frames.length := by
  have := (contracts_callStep s e).length_le
  simpa using this

/-- The open calls are those opened last, first. -/
theorem sorted_openFrames (events : List DiagEvent) :
    (events.foldl callStep .empty).openFrames.Pairwise (fun i j => j < i) := by
  induction events using List.reverseRecOn with
  | nil => exact List.Pairwise.nil
  | append_singleton events e ih =>
      rw [List.foldl_append, List.foldl_cons, List.foldl_nil]
      rcases openFrames_callStep (events.foldl callStep .empty) e with hkept | ⟨kept, hkept, hnew⟩
      · exact ih.sublist hkept.sublist
      · rw [hnew, List.pairwise_cons]
        refine ⟨?_, ih.sublist hkept.sublist⟩
        intro j hj
        exact lt_of_mem_openFrames (hkept.subset hj)

/-- The machine before the event at a position. -/
def stateAt (events : List DiagEvent) (n : Nat) : CallStack :=
  (events.take n).foldl callStep .empty

theorem stateAt_succ {events : List DiagEvent} {n : Nat} {e : DiagEvent}
    (h : events[n]? = some e) : stateAt events (n + 1) = callStep (stateAt events n) e := by
  unfold stateAt
  rw [List.take_add_one, h, List.foldl_append]
  rfl

theorem stateAt_of_length_le {events : List DiagEvent} {n : Nat} (h : events[n]? = none) :
    stateAt events (n + 1) = stateAt events n := by
  unfold stateAt
  rw [List.take_add_one, h]
  simp

/-- A call that was opened and has ended does not open again, and its outcome stands. -/
theorem ended_of_le {events : List DiagEvent} {i m n : Nat} (hmn : m ≤ n)
    (hi : i < (stateAt events m).frames.length) (hended : i ∉ (stateAt events m).openFrames) :
    i < (stateAt events n).frames.length ∧ i ∉ (stateAt events n).openFrames := by
  induction n, hmn using Nat.le_induction with
  | base => exact ⟨hi, hended⟩
  | succ n hmn ih =>
      obtain ⟨hlt, hnot⟩ := ih
      cases he : events[n]? with
      | none =>
          rw [stateAt_of_length_le he]
          exact ⟨hlt, hnot⟩
      | some e =>
          rw [stateAt_succ he]
          refine ⟨Nat.lt_of_lt_of_le hlt (length_frames_callStep _ e), ?_⟩
          intro hopen
          rcases openFrames_callStep (stateAt events n) e with hkept | ⟨kept, hkept, hnew⟩
          · exact hnot (hkept.subset hopen)
          · rw [hnew] at hopen
            rcases List.mem_cons.mp hopen with rfl | hmem
            · omega
            · exact hnot (hkept.subset hmem)

theorem length_frames_stateAt (events : List DiagEvent) (n : Nat) :
    (stateAt events n).frames.length = ((events.take n).filterMap DiagEvent.call).length := by
  have hcalls := calls_foldl (events.take n) .empty
  have hlen := congrArg List.length hcalls
  rw [List.length_map, List.length_append, List.length_map] at hlen
  have hempty : CallStack.empty.frames.length = 0 := rfl
  rw [hempty, Nat.zero_add] at hlen
  exact hlen

theorem length_stateAt_mono (events : List DiagEvent) {m n : Nat} (h : m ≤ n) :
    (stateAt events m).frames.length ≤ (stateAt events n).frames.length := by
  rw [length_frames_stateAt, length_frames_stateAt]
  exact ((List.take_prefix_take_left h).filterMap _).length_le

theorem nodup_openFrames (events : List DiagEvent) (n : Nat) :
    (stateAt events n).openFrames.Nodup :=
  (sorted_openFrames (events.take n)).imp (fun h => (Nat.ne_of_lt h).symm)

/-! ## The event of a call -/

/-- The event at position `p` is the call of frame `i`. -/
def OpenedAt (events : List DiagEvent) (i : Nat) (frame : CallFrame) (p : Nat) : Prop :=
  ∃ e, events[p]? = some e ∧ e.call = some frame.call ∧
    ((events.take p).filterMap DiagEvent.call).length = i

/-- A call seen before an event has its frame by then. -/
theorem lt_length_of_openedAt {events : List DiagEvent} {i p n : Nat} {frame : CallFrame}
    (h : OpenedAt events i frame p) (hp : p < n) : i < (stateAt events n).frames.length := by
  obtain ⟨e, he, hcall, hlen⟩ := h
  have hsucc : ((events.take (p + 1)).filterMap DiagEvent.call).length = i + 1 := by
    rw [List.take_add_one, he, List.filterMap_append, List.length_append, hlen]
    simp [hcall]
  have hle := length_stateAt_mono events (m := p + 1) (n := n) hp
  rw [length_frames_stateAt, hsucc] at hle
  exact hle

/-- The frames found before an event are the first ones of the run, but for their outcomes. -/
theorem map_stateAt_prefix {Q : Type*} {q : CallFrame → Q}
    (hq : ∀ frame outcome, q { frame with outcome } = q frame) (events : List DiagEvent)
    (terminal : Option TerminalError) (n : Nat) :
    (stateAt events n).frames.map q <+: (callTree events terminal).map q := by
  have hrun : ∀ (later : List DiagEvent) (s : CallStack),
      s.frames.map q <+: (later.foldl callStep s).frames.map q := by
    intro later
    induction later with
    | nil => exact fun s => List.prefix_refl _
    | cons e later ih =>
        intro s
        refine List.IsPrefix.trans ?_ (ih (callStep s e))
        rw [map_callStep hq]
        exact List.prefix_append ..
  rw [map_callTree hq, stateAt]
  conv_rhs => rw [← List.take_append_drop n events, List.foldl_append]
  exact hrun _ _

theorem length_stateAt_le (events : List DiagEvent) (terminal : Option TerminalError) (n : Nat) :
    (stateAt events n).frames.length ≤ (callTree events terminal).length := by
  have hprefix := map_stateAt_prefix (q := CallFrame.contract) (fun _ _ => rfl) events terminal n
  simpa using hprefix.length_le

/-- But for its outcome, a frame is what it was when it was found. -/
theorem getElem?_stateAt {Q : Type*} {q : CallFrame → Q}
    (hq : ∀ frame outcome, q { frame with outcome } = q frame) {events : List DiagEvent}
    {terminal : Option TerminalError} {n k : Nat} {frame : CallFrame}
    (hk : k < (stateAt events n).frames.length)
    (h : (callTree events terminal)[k]? = some frame) :
    ((stateAt events n).frames.map q)[k]? = some (q frame) := by
  obtain ⟨more, hmore⟩ := map_stateAt_prefix hq events terminal n
  have hfinal : ((callTree events terminal).map q)[k]? = some (q frame) := by
    rw [List.getElem?_map, h]
    rfl
  rwa [← hmore, List.getElem?_append_left (by simpa using hk)] at hfinal

/-- **The event of a frame.**  Each frame was opened by the call with as many calls before
it, and keeps what was recorded then. -/
theorem exists_openedBy {events : List DiagEvent} {terminal : Option TerminalError} {i : Nat}
    {frame : CallFrame} (h : (callTree events terminal)[i]? = some frame) :
    ∃ p e, events[p]? = some e ∧ e.call = some frame.call ∧
      ((events.take p).filterMap DiagEvent.call).length = i ∧
      openedBy (stateAt events p) e = some { frame with outcome := .unknown } := by
  have hcall : (events.filterMap DiagEvent.call)[i]? = some frame.call := by
    rw [← frames_callTree events terminal, List.getElem?_map, h]
    rfl
  obtain ⟨p, e, he, hecall, hlen⟩ := Scan.getElem?_filterMap hcall
  refine ⟨p, e, he, hecall, hlen, ?_⟩
  obtain ⟨opened, hopened⟩ : ∃ opened, openedBy (stateAt events p) e = some opened := by
    unfold DiagEvent.call at hecall
    unfold openedBy
    cases hkind : e.kind with
    | fnCall callee function => exact ⟨_, rfl⟩
    | _ =>
        rw [hkind] at hecall
        cases hecall
  -- what is recorded at the event stays at its place
  have hrecorded : ((callTree events terminal).map
      (fun f => { f with outcome := CallOutcome.unknown }))[i]?
        = some { opened with outcome := .unknown } := by
    have hprefix := map_stateAt_prefix (q := fun f => { f with outcome := CallOutcome.unknown })
      (fun _ _ => rfl) events terminal (p + 1)
    rw [stateAt_succ he, map_callStep (fun _ _ => rfl), hopened] at hprefix
    obtain ⟨more, hmore⟩ := hprefix
    have hi : (stateAt events p).frames.length = i := by
      rw [length_frames_stateAt, hlen]
    rw [← hmore, List.append_assoc, List.getElem?_append_right (by simp [hi])]
    simp [hi]
  rw [List.getElem?_map, h] at hrecorded
  have hsame : { frame with outcome := CallOutcome.unknown }
      = { opened with outcome := CallOutcome.unknown } := Option.some.inj hrecorded
  have hunknown : { opened with outcome := CallOutcome.unknown } = opened := by
    unfold openedBy at hopened
    split at hopened
    · obtain rfl := Option.some.inj hopened
      rfl
    · cases hopened
  rw [hopened, hsame, hunknown]

/-- The calls seen before an event are the first ones of the run. -/
theorem call_of_earlier {pre post : List DiagEvent} {terminal : Option TerminalError} {i : Nat}
    {frame frame' : CallFrame} (h : (pre.foldl callStep .empty).frames[i]? = some frame)
    (h' : (callTree (pre ++ post) terminal)[i]? = some frame') :
    (pre.filterMap DiagEvent.call)[i]? = some frame'.call ∧ frame.call = frame'.call := by
  have hcall : ((pre.foldl callStep .empty).frames.map CallFrame.call)[i]? = some frame.call := by
    rw [List.getElem?_map, h]
    rfl
  have hcall' : ((callTree (pre ++ post) terminal).map CallFrame.call)[i]?
      = some frame'.call := by
    rw [List.getElem?_map, h']
    rfl
  rw [calls_foldl] at hcall
  rw [frames_callTree, List.filterMap_append] at hcall'
  have hpre : (pre.filterMap DiagEvent.call)[i]? = some frame.call := hcall
  have hlt : i < (pre.filterMap DiagEvent.call).length := (List.getElem?_eq_some_iff.mp hpre).1
  rw [List.getElem?_append_left hlt, hpre] at hcall'
  have heq : frame.call = frame'.call := Option.some.inj hcall'
  exact ⟨by rw [hpre, heq], heq⟩

end Observatory
