import Observatory.Model.Diagnostics
import Observatory.Properties.Callers

/-!
# Failed frames

A frame that failed records an error and the event it was read from.  Frames are closed in
four ways: by a return, by unwinding, by a new call of the transaction itself, and at the
end of the events.  On each of them the error is the last one noted in the frame, and at the
end, for want of one, the error the host function as a whole failed with.

* `notedAt` — the frame the error of an event is noted in.
* `Explained` — what the open calls and the failed frames of a run record.
* `callTree_inert` — an event from a contract with no open call, and neither a call nor a
  return, changes nothing.
* `calls_shape` — the shape of a call tree, and where its failures come from.
-/

namespace Observatory

/-! ## Where an error is noted -/

/-- The open call the error of an event is noted in: the innermost one into its emitter. -/
def notedIn (s : CallStack) (e : DiagEvent) : Option Nat :=
  match e.kind, e.contract with
  | .error _ _, some emitter =>
      (s.stack.find? (Open.runs emitter s.frames)).map Open.frame
  | _, _ => none

/-- The frame the error of the event at a position is noted in. -/
def notedAt (events : List DiagEvent) (n : Nat) : Option Nat :=
  events[n]?.bind (notedIn (stateAt events n))

/-- The last error noted in a frame by the events before a position. -/
def LastNoted (events : List DiagEvent) (n i : Nat) : Option (ScError × UInt32) → Prop
  | none => ∀ m < n, notedAt events m ≠ some i
  | some (error, index) =>
      ∃ m < n, notedAt events m = some i ∧
        (∃ e message, events[m]? = some e ∧ e.kind = .error error message ∧ e.index = index) ∧
        ∀ k, m < k → k < n → notedAt events k ≠ some i

/-- An event that notes nothing in a frame leaves its last error. -/
theorem LastNoted.succ {events : List DiagEvent} {n i : Nat} {noted : Option (ScError × UInt32)}
    (h : LastNoted events n i noted) (hnot : notedAt events n ≠ some i) :
    LastNoted events (n + 1) i noted := by
  have hlt : ∀ k, k < n + 1 → k < n ∨ k = n := fun k hk => Nat.lt_or_eq_of_le (Nat.le_of_lt_succ hk)
  cases noted with
  | none =>
      intro m hm
      rcases hlt m hm with hm | rfl
      · exact h m hm
      · exact hnot
  | some noted =>
      obtain ⟨m, hm, hnoted, hevent, hlast⟩ := h
      refine ⟨m, by omega, hnoted, hevent, ?_⟩
      intro k hmk hk
      rcases hlt k hk with hk | rfl
      · exact hlast k hmk hk
      · exact hnot

/-- An event that notes its error in a frame is the last one so far. -/
theorem LastNoted.of_noted {events : List DiagEvent} {n i : Nat} {e : DiagEvent} {error : ScError}
    {message : Option String} (he : events[n]? = some e) (hkind : e.kind = .error error message)
    (hnoted : notedAt events n = some i) :
    LastNoted events (n + 1) i (some (error, e.index)) :=
  ⟨n, Nat.lt_succ_self n, hnoted, ⟨e, message, he, hkind, rfl⟩, fun k hk hk' => by omega⟩

/-! ## What a step does to the open calls -/

theorem find?_unwindTo {contract : ContractId} {s : CallStack} :
    (s.unwindTo contract).stack.find? (Open.runs contract s.frames)
      = s.stack.find? (Open.runs contract s.frames) := by
  obtain ⟨popped, hstack, -, hpopped, -⟩ := unwindTo_spec contract s
  conv_rhs => rw [hstack, List.find?_append]
  have hnone : popped.find? (Open.runs contract s.frames) = none := by
    rw [List.find?_eq_none]
    intro o ho
    rw [hpopped o ho]
    simp
  rw [hnone, Option.none_or]

/-- Unwinding does not change which calls are into a contract. -/
theorem runs_unwindTo (contract c : ContractId) (s : CallStack) (o : Open) :
    o.runs c (s.unwindTo contract).frames = o.runs c s.frames := by
  unfold Open.runs contractAt
  rw [contracts_unwindTo]

/-- After an error the open calls are as before, but for the one it is noted in. -/
theorem mem_stack_raise {s : CallStack} (hnodup : s.openFrames.Nodup) {emitter : ContractId}
    {error : ScError} {index : UInt32} {o : Open}
    (h : o ∈ ((s.unwindTo emitter).raise emitter error index).stack) :
    (o ∈ s.stack ∧
        (s.stack.find? (Open.runs emitter s.frames)).map Open.frame ≠ some o.frame) ∨
      (s.stack.find? (Open.runs emitter s.frames)).map Open.frame = some o.frame ∧
        o.lastError = some (error, index) := by
  have hkept := stack_unwindTo emitter s
  obtain ⟨popped, -, -, -, hhead⟩ := unwindTo_spec emitter s
  rw [CallStack.stack_raise] at h
  rw [← find?_unwindTo]
  have hopened : ((s.unwindTo emitter).stack.map Open.frame).Nodup :=
    hnodup.sublist (hkept.map _).sublist
  cases hs : (s.unwindTo emitter).stack with
  | nil =>
      rw [hs] at h
      cases h
  | cons top below =>
      rw [hs] at h hhead hopened hkept
      rw [List.modifyHead_cons, runs_unwindTo] at h
      rw [List.map_cons, List.nodup_cons] at hopened
      cases hruns : top.runs emitter s.frames with
      | true =>
          rw [List.find?_cons_of_pos hruns, Option.map_some]
          rw [hruns, if_pos rfl] at h
          rcases List.mem_cons.mp h with rfl | hmem
          · exact Or.inr ⟨rfl, rfl⟩
          · refine Or.inl ⟨hkept.subset (List.mem_cons_of_mem _ hmem), ?_⟩
            intro hsame
            apply hopened.1
            rw [Option.some.inj hsame]
            exact List.mem_map_of_mem hmem
      | false =>
          -- no call is open into the emitter
          have hnone : (top :: below).find? (Open.runs emitter s.frames) = none := by
            obtain ⟨top', htop', hruns'⟩ | ⟨-, hnone⟩ := hhead
            · obtain rfl := Option.some.inj htop'
              rw [hruns'] at hruns
              cases hruns
            · rw [List.find?_eq_none]
              intro o' ho'
              rw [hnone o' (hkept.subset ho')]
              simp
          rw [hruns] at h
          exact Or.inl ⟨hkept.subset h, by simp [hnone]⟩

theorem notedIn_of_error {s : CallStack} {e : DiagEvent} {error : ScError}
    {message : Option String} {emitter : ContractId} (hkind : e.kind = .error error message)
    (hcontract : e.contract = some emitter) :
    notedIn s e = (s.stack.find? (Open.runs emitter s.frames)).map Open.frame := by
  unfold notedIn
  rw [hkind, hcontract]

/-- An event that is no error notes nothing. -/
theorem notedIn_ne {s : CallStack} {e : DiagEvent}
    (h : ∀ error message, e.kind ≠ .error error message) (i : Nat) : notedIn s e ≠ some i := by
  unfold notedIn
  split
  · next error message _ hkind _ => exact absurd hkind (h error message)
  · simp

/-- **What a step does to the open calls.**  One that is open after a step was open before,
and the event noted nothing in it; or the event noted its error in it; or it is new. -/
theorem mem_stack_callStep {s : CallStack} (hnodup : s.openFrames.Nodup) {e : DiagEvent} {o : Open}
    (h : o ∈ (callStep s e).stack) :
    (o ∈ s.stack ∧ notedIn s e ≠ some o.frame) ∨
      (notedIn s e = some o.frame ∧
        ∃ error message, e.kind = .error error message ∧ o.lastError = some (error, e.index)) ∨
      o = ⟨s.frames.length, none⟩ := by
  unfold callStep at h
  split at h
  · next callee function caller hkind _ =>
    rw [CallStack.stack_push] at h
    have hlength : (s.unwindTo caller).frames.length = s.frames.length := by
      simpa using congrArg List.length (contracts_unwindTo caller s)
    rcases List.mem_cons.mp h with rfl | hmem
    · exact Or.inr (Or.inr (by rw [hlength]))
    · exact Or.inl ⟨(stack_unwindTo caller s).subset hmem, notedIn_ne (by simp [hkind]) _⟩
  · rw [CallStack.stack_push] at h
    rcases List.mem_cons.mp h with rfl | hmem
    · exact Or.inr (Or.inr (by rw [CallStack.endAll, length_endAll]))
    · cases hmem
  · next function hkind =>
    rw [CallStack.stack_popReturned] at h
    exact Or.inl ⟨List.mem_of_mem_tail h, notedIn_ne (by simp [hkind]) _⟩
  · next error message emitter hkind hcontract =>
    rw [notedIn_of_error hkind hcontract]
    rcases mem_stack_raise hnodup h with hsame | ⟨hframe, hlast⟩
    · exact Or.inl hsame
    · exact Or.inr (Or.inl ⟨hframe, error, message, hkind, hlast⟩)
  · next emitter _ _ _ herror =>
    exact Or.inl ⟨(stack_unwindTo emitter s).subset h, notedIn_ne herror _⟩
  · next hcontract _ _ =>
    refine Or.inl ⟨h, ?_⟩
    unfold notedIn
    rw [hcontract]
    simp

/-! ## What a step does to the frames -/

/-- A frame after closing some calls: none of them was its own, or its outcome is that of one
that was. -/
theorem outcome_closeAll {terminal : Option TerminalError} {frames : List CallFrame}
    {os : List Open} {i : Nat} {frame : CallFrame}
    (h : (Unwind.closeAll (endOpen terminal) frames os)[i]? = some frame) :
    (∃ before, frames[i]? = some before ∧ before.outcome = frame.outcome) ∧ i ∉ os.map Open.frame ∨
      ∃ o ∈ os, o.frame = i ∧ (o.withTerminal terminal).outcome = frame.outcome := by
  induction os generalizing frames with
  | nil => exact Or.inl ⟨⟨frame, h, rfl⟩, by simp⟩
  | cons o os ih =>
      rcases ih h with ⟨⟨before, hbefore, houtcome⟩, hnot⟩ | ⟨o', ho', hframe, houtcome⟩
      · rw [endOpen, endCall, setOutcome, List.getElem?_modify, frame_withTerminal] at hbefore
        obtain ⟨earlier, hearlier, heq⟩ := Option.map_eq_some_iff.mp hbefore
        by_cases hi : o.frame = i
        · rw [if_pos hi] at heq
          subst heq
          exact Or.inr ⟨o, List.mem_cons_self, hi, houtcome⟩
        · rw [if_neg hi] at heq
          subst heq
          refine Or.inl ⟨⟨earlier, hearlier, houtcome⟩, ?_⟩
          rw [List.map_cons, List.mem_cons, not_or]
          exact ⟨Ne.symm hi, hnot⟩
      · exact Or.inr ⟨o', List.mem_cons_of_mem _ ho', hframe, houtcome⟩

/-- The frames of the open calls have no outcome yet. -/
def CallStack.Unmarked (s : CallStack) : Prop :=
  ∀ i ∈ s.openFrames, ∀ frame, s.frames[i]? = some frame → frame.outcome = .unknown

theorem unmarked_unwindTo (contract : ContractId) {s : CallStack} (hnodup : s.openFrames.Nodup)
    (h : s.Unmarked) : (s.unwindTo contract).Unmarked := by
  intro i hi frame hframe
  obtain ⟨popped, hstack, hframes, -⟩ := unwindTo_spec contract s
  rw [hframes, ← endOpen_none] at hframe
  have hsplit : s.openFrames = popped.map Open.frame ++ (s.unwindTo contract).openFrames := by
    rw [CallStack.openFrames, hstack, List.map_append]
    rfl
  rw [hsplit, List.nodup_append] at hnodup
  rcases outcome_closeAll hframe with ⟨⟨before, hbefore, houtcome⟩, -⟩ | ⟨o, ho, rfl, -⟩
  · rw [← houtcome]
    exact h i (by rw [hsplit]; exact List.mem_append_right _ hi) before hbefore
  · exact absurd rfl (hnodup.2.2 _ (List.mem_map_of_mem ho) _ hi)

/-- A call that is made adds a frame with no outcome. -/
theorem getElem?_push {s : CallStack} {index : UInt32} {contract : ContractId} {function : String}
    {i : Nat} {frame : CallFrame} (h : (s.push index contract function).frames[i]? = some frame) :
    s.frames[i]? = some frame ∨ i = s.frames.length ∧ frame.outcome = .unknown := by
  rw [CallStack.frames_push, List.getElem?_append] at h
  split at h
  · exact Or.inl h
  · next hlt =>
    have hi := (List.getElem?_eq_some_iff.mp h).1
    rw [List.length_singleton] at hi
    obtain rfl := List.mem_singleton.mp (List.mem_of_getElem? h)
    exact Or.inr ⟨by omega, rfl⟩

theorem unmarked_push {s : CallStack} (h : s.Unmarked) (index : UInt32) (contract : ContractId)
    (function : String) : (s.push index contract function).Unmarked := by
  intro i hi frame hframe
  rcases getElem?_push hframe with hframe | ⟨-, houtcome⟩
  · have hlt := (List.getElem?_eq_some_iff.mp hframe).1
    rw [CallStack.openFrames, CallStack.stack_push, List.map_cons] at hi
    rcases List.mem_cons.mp hi with rfl | hmem
    · exact absurd hlt (Nat.lt_irrefl _)
    · exact h i hmem frame hframe
  · exact houtcome

/-- A step gives no outcome to the calls it leaves open. -/
theorem unmarked_callStep {s : CallStack} (hnodup : s.openFrames.Nodup) (h : s.Unmarked)
    (e : DiagEvent) : (callStep s e).Unmarked := by
  unfold callStep
  split
  · exact unmarked_push (unmarked_unwindTo _ hnodup h) _ _ _
  · refine unmarked_push ?_ _ _ _
    intro i hi
    cases hi
  · intro i hi frame hframe
    rw [CallStack.frames_popReturned] at hframe
    unfold CallStack.openFrames at hi hnodup
    rw [CallStack.stack_popReturned] at hi
    cases hs : s.stack with
    | nil =>
        rw [hs] at hi
        cases hi
    | cons top below =>
        rw [hs] at hi hnodup hframe
        rw [List.map_cons, List.nodup_cons] at hnodup
        have hne : top.frame ≠ i := by
          rintro rfl
          exact hnodup.1 hi
        have hbefore : s.frames[i]? = some frame := by
          simpa [returnCall, setOutcome, List.getElem?_modify, hne] using hframe
        refine h i ?_ frame hbefore
        rw [CallStack.openFrames, hs, List.map_cons]
        exact List.mem_cons_of_mem _ hi
  · intro i hi frame hframe
    rw [openFrames_raise] at hi
    exact unmarked_unwindTo _ hnodup h i hi frame hframe
  · exact unmarked_unwindTo _ hnodup h
  · exact h

/-- A frame has failed with this error, or is open with it as its last. -/
def CallStack.Fails (s : CallStack) (i : Nat) (error : ScError) (index : UInt32) : Prop :=
  (∃ frame, s.frames[i]? = some frame ∧ frame.outcome = .failed error index) ∨
    ∃ o ∈ s.stack, o.frame = i ∧ o.lastError = some (error, index)

section Fails

variable {s : CallStack} {i : Nat} {frame : CallFrame} {error : ScError} {index : UInt32}

theorem fails_closeAll {os : List Open} (hos : ∀ o ∈ os, o ∈ s.stack)
    (h : (Unwind.closeAll endCall s.frames os)[i]? = some frame)
    (hfailed : frame.outcome = .failed error index) : s.Fails i error index := by
  rw [← endOpen_none] at h
  rcases outcome_closeAll h with ⟨⟨before, hbefore, houtcome⟩, -⟩ | ⟨o, ho, hi, houtcome⟩
  · exact Or.inl ⟨before, hbefore, houtcome.trans hfailed⟩
  · rw [withTerminal_none, hfailed, Open.outcome_eq_failed] at houtcome
    exact Or.inr ⟨o, hos o ho, hi, houtcome⟩

theorem fails_unwindTo {contract : ContractId} (h : (s.unwindTo contract).frames[i]? = some frame)
    (hfailed : frame.outcome = .failed error index) : s.Fails i error index := by
  obtain ⟨popped, hstack, hframes, -⟩ := unwindTo_spec contract s
  rw [hframes] at h
  refine fails_closeAll ?_ h hfailed
  intro o ho
  rw [hstack]
  exact List.mem_append_left _ ho

theorem fails_popReturned (h : s.popReturned.frames[i]? = some frame)
    (hfailed : frame.outcome = .failed error index) : s.Fails i error index := by
  rw [CallStack.frames_popReturned] at h
  cases hhead : s.stack.head? with
  | none =>
      rw [hhead] at h
      exact Or.inl ⟨frame, h, hfailed⟩
  | some top =>
      rw [hhead, returnCall, setOutcome, List.getElem?_modify] at h
      obtain ⟨before, hbefore, heq⟩ := Option.map_eq_some_iff.mp h
      split at heq
      · subst heq
        cases hfailed
      · subst heq
        exact Or.inl ⟨before, hbefore, hfailed⟩

/-- The frame of a call that is made has not failed. -/
theorem getElem?_push_failed {n : UInt32} {contract : ContractId} {function : String}
    (h : (s.push n contract function).frames[i]? = some frame)
    (hfailed : frame.outcome = .failed error index) : s.frames[i]? = some frame := by
  rcases getElem?_push h with hframe | ⟨-, houtcome⟩
  · exact hframe
  · rw [houtcome] at hfailed
    cases hfailed

/-- A frame that failed by the end of a step had failed before, or was open with its last
error. -/
theorem failed_callStep {e : DiagEvent} (h : (callStep s e).frames[i]? = some frame)
    (hfailed : frame.outcome = .failed error index) : s.Fails i error index := by
  unfold callStep at h
  split at h
  · exact fails_unwindTo (getElem?_push_failed h hfailed) hfailed
  · exact fails_closeAll (fun _ ho => ho) (getElem?_push_failed h hfailed) hfailed
  · exact fails_popReturned h hfailed
  · exact fails_unwindTo h hfailed
  · exact fails_unwindTo h hfailed
  · exact Or.inl ⟨frame, h, hfailed⟩

end Fails

/-! ## What a run records -/

/-- An error is noted in an open call, which stays open. -/
theorem mem_openFrames_of_notedIn {s : CallStack} {e : DiagEvent} {i : Nat}
    (h : notedIn s e = some i) :
    i ∈ s.openFrames ∧ i ∈ (callStep s e).openFrames ∧ ∃ emitter error message,
      e.contract = some emitter ∧ e.kind = .error error message ∧
        contractAt s.frames i = some emitter := by
  unfold notedIn at h
  split at h
  · next error message emitter hkind hcontract =>
    obtain ⟨o, hfind, rfl⟩ := Option.map_eq_some_iff.mp h
    have hmem := List.mem_of_find?_eq_some hfind
    have hruns := List.find?_some hfind
    refine ⟨List.mem_map_of_mem hmem, ?_, emitter, error, message, hcontract, hkind, ?_⟩
    · have hstep : callStep s e = (s.unwindTo emitter).raise emitter error e.index := by
        unfold callStep
        rw [hkind, hcontract]
      rw [hstep, openFrames_raise]
      rw [← find?_unwindTo] at hfind
      exact List.mem_map_of_mem (List.mem_of_find?_eq_some hfind)
    · exact of_decide_eq_true hruns
  · cases h

theorem mem_openFrames_of_notedAt {events : List DiagEvent} {n i : Nat}
    (h : notedAt events n = some i) : i ∈ (stateAt events n).openFrames := by
  obtain ⟨e, -, hnoted⟩ := Option.bind_eq_some_iff.mp h
  exact (mem_openFrames_of_notedIn hnoted).1

/-- What is recorded before the event at a position: nothing yet for the open calls but the
last error noted in them, and for the failed frames that error. -/
structure Explained (events : List DiagEvent) (n : Nat) : Prop where
  /-- The open calls have no outcome. -/
  unmarked : (stateAt events n).Unmarked
  /-- They keep the last error noted in them. -/
  opened : ∀ o ∈ (stateAt events n).stack, LastNoted events n o.frame o.lastError
  /-- The failed frames ended with theirs. -/
  failed : ∀ i frame error index, (stateAt events n).frames[i]? = some frame →
    frame.outcome = .failed error index → LastNoted events n i (some (error, index))

/-- Nothing was noted in a call before it was made. -/
theorem lastNoted_new (events : List DiagEvent) (n : Nat) :
    LastNoted events (n + 1) (stateAt events n).frames.length none := by
  intro m hm hnoted
  have hlt := lt_of_mem_openFrames (mem_openFrames_of_notedAt hnoted)
  have hle := length_stateAt_mono events (Nat.le_of_lt_succ hm)
  omega

/-- **A step explains what it records.** -/
theorem Explained.succ {events : List DiagEvent} {n : Nat} (h : Explained events n) :
    Explained events (n + 1) := by
  cases he : events[n]? with
  | none =>
      have hquiet : ∀ i, notedAt events n ≠ some i := by
        intro i
        simp [notedAt, he]
      have hstate := stateAt_of_length_le he
      refine ⟨by rw [hstate]; exact h.unmarked, ?_, ?_⟩
      · rw [hstate]
        exact fun o ho => (h.opened o ho).succ (hquiet _)
      · rw [hstate]
        exact fun i frame error index hframe hfailed =>
          (h.failed i frame error index hframe hfailed).succ (hquiet i)
  | some e =>
      have hnoted : notedAt events n = notedIn (stateAt events n) e := by
        rw [notedAt, he]
        rfl
      have hstate := stateAt_succ he
      have hunmarked : (callStep (stateAt events n) e).Unmarked :=
        unmarked_callStep (nodup_openFrames events n) h.unmarked e
      refine ⟨by rw [hstate]; exact hunmarked, ?_, ?_⟩
      · intro o ho
        rw [hstate] at ho
        rcases mem_stack_callStep (nodup_openFrames events n) ho with
          ⟨hmem, hnot⟩ | ⟨hin, error, message, hkind, hlast⟩ | rfl
        · exact (h.opened o hmem).succ (by rw [hnoted]; exact hnot)
        · rw [hlast]
          exact LastNoted.of_noted he hkind (by rw [hnoted]; exact hin)
        · exact lastNoted_new events n
      · intro i frame error index hframe hfailed
        rw [hstate] at hframe
        -- a frame that has failed is not open, so that the event notes nothing in it
        have hnot : notedAt events n ≠ some i := by
          rw [hnoted]
          intro hin
          have hopen := (mem_openFrames_of_notedIn hin).2.1
          rw [hunmarked i hopen frame hframe] at hfailed
          cases hfailed
        rcases failed_callStep hframe hfailed with ⟨before, hbefore, houtcome⟩ | ⟨o, ho, rfl, hlast⟩
        · exact (h.failed i before error index hbefore houtcome).succ hnot
        · have hopened := h.opened o ho
          rw [hlast] at hopened
          exact hopened.succ hnot

/-- A run explains what it records. -/
theorem explained (events : List DiagEvent) (n : Nat) : Explained events n := by
  induction n with
  | zero =>
      refine ⟨?_, ?_, ?_⟩
      · intro i hi
        cases hi
      · intro o ho
        cases ho
      · intro i frame error index hframe
        cases hframe
  | succ n ih => exact ih.succ

/-- **Where the error of a failed frame comes from.**  It is the last one noted in the frame;
or none was, the call was still open when the events ended, and it is the terminal error. -/
theorem failed_callTree {events : List DiagEvent} {terminal : Option TerminalError} {i : Nat}
    {frame : CallFrame} {error : ScError} {index : UInt32}
    (h : (callTree events terminal)[i]? = some frame)
    (hfailed : frame.outcome = .failed error index) :
    LastNoted events events.length i (some (error, index)) ∨
      LastNoted events events.length i none ∧
        i ∈ (stateAt events events.length).openFrames ∧ terminal = some ⟨error, index⟩ := by
  have hrun := explained events events.length
  have hfinal : callTree events terminal = Unwind.closeAll (endOpen terminal)
      (stateAt events events.length).frames (stateAt events events.length).stack := by
    rw [stateAt, List.take_length]
    rfl
  rw [hfinal] at h
  rcases outcome_closeAll h with ⟨⟨before, hbefore, houtcome⟩, -⟩ | ⟨o, ho, rfl, houtcome⟩
  · exact Or.inl (hrun.failed i before error index hbefore (houtcome.trans hfailed))
  · have hopened := hrun.opened o ho
    rw [hfailed, Open.outcome_eq_failed] at houtcome
    unfold Open.withTerminal at houtcome
    cases hlast : o.lastError with
    | some noted =>
        rw [hlast] at houtcome hopened
        simp only [Option.isNone_some, Bool.false_eq_true, if_false, hlast] at houtcome
        obtain rfl := Option.some.inj houtcome
        exact Or.inl hopened
    | none =>
        rw [hlast] at houtcome hopened
        simp only [Option.isNone_none, if_true] at houtcome
        obtain ⟨t, rfl, ht⟩ := Option.map_eq_some_iff.mp houtcome
        obtain ⟨rfl, rfl⟩ := Prod.mk.inj ht
        exact Or.inr ⟨hopened, List.mem_map_of_mem ho, rfl⟩

/-! ## Events that change nothing -/

/-- An event that is neither a call nor a return, from a contract with no open call. -/
structure Inert (s : CallStack) (e : DiagEvent) : Prop where
  /-- It is no call. -/
  notCall : ∀ callee function, e.kind ≠ .fnCall callee function
  /-- It is no return. -/
  notReturn : ∀ function, e.kind ≠ .fnReturn function
  /-- Its emitter, if there is one, has no call open. -/
  notOpen : ∀ emitter, e.contract = some emitter → ¬ s.HasOpen emitter

theorem callStep_inert {s : CallStack} {e : DiagEvent} (h : Inert s e) : callStep s e = s := by
  have hkept : ∀ emitter, e.contract = some emitter → s.unwindTo emitter = s := by
    intro emitter hcontract
    unfold CallStack.unwindTo
    rw [if_neg]
    rw [List.any_eq_true]
    exact h.notOpen emitter hcontract
  unfold callStep
  split
  · next hkind _ => exact absurd hkind (h.notCall _ _)
  · next hkind _ => exact absurd hkind (h.notCall _ _)
  · next hkind => exact absurd hkind (h.notReturn _)
  · next error message emitter hkind hcontract =>
    rw [hkept emitter hcontract]
    -- the innermost open call is not into the emitter either
    have hstack : (s.raise emitter error e.index).stack = s.stack := by
      rw [CallStack.stack_raise]
      cases hs : s.stack with
      | nil => rfl
      | cons top below =>
          have hruns : ¬ top.runs emitter s.frames = true := by
            intro hruns
            exact h.notOpen emitter hcontract ⟨top, by rw [hs]; exact List.mem_cons_self, hruns⟩
          rw [List.modifyHead_cons, if_neg hruns]
    obtain ⟨frames, stack, inBounds⟩ := s
    rw [CallStack.mk.injEq]
    exact ⟨rfl, hstack⟩
  · next emitter hcontract _ _ _ => exact hkept _ (by assumption)
  · rfl

/-- An event that is inert may be left out. -/
theorem callTree_inert {pre post : List DiagEvent} {e : DiagEvent}
    (h : Inert (pre.foldl callStep .empty) e) (terminal : Option TerminalError) :
    callTree (pre ++ e :: post) terminal = callTree (pre ++ post) terminal := by
  unfold callTree
  rw [List.foldl_append, List.foldl_cons, callStep_inert h, List.foldl_append]

/-! ## The shape of a call tree -/

/-- The event at position `n` is the last error noted in the frame: it carries the error, comes
from the frame's contract, and after its call. -/
structure OwnError (events : List DiagEvent) (i : Nat) (frame : CallFrame) (error : ScError)
    (n : Nat) : Prop where
  /-- It carries the error, and the frame's contract emitted it. -/
  raised : ∃ e message, events[n]? = some e ∧ e.kind = .error error message ∧
    e.contract = some frame.contract
  /-- It is noted in the frame. -/
  noted : notedAt events n = some i
  /-- No later one is. -/
  last : ∀ m, n < m → notedAt events m ≠ some i
  /-- The call came before. -/
  called : ∃ p < n, OpenedAt events i frame p

/-- The event at position `n` is the first `host_fn_failed` event, and carries the error; the
frame has none of its own and was open to the end. -/
structure HostError (events : List DiagEvent) (i : Nat) (error : ScError) (n : Nat) : Prop where
  /-- It carries the error. -/
  failed : ∃ e, events[n]? = some e ∧ e.kind = .hostFnFailed error
  /-- It is the first. -/
  first : ∀ m < n, ∀ e, events[m]? = some e → ∀ other, e.kind ≠ .hostFnFailed other
  /-- No error is noted in the frame. -/
  quiet : ∀ m, notedAt events m ≠ some i
  /-- The call was never closed. -/
  unclosed : i ∈ (stateAt events events.length).openFrames

theorem notedAt_of_length_le {events : List DiagEvent} {n : Nat} (h : events.length ≤ n) :
    notedAt events n = none := by
  rw [notedAt, List.getElem?_eq_none h]
  rfl

theorem ownError_of_lastNoted {events : List DiagEvent} {terminal : Option TerminalError} {i : Nat}
    {frame : CallFrame} (h : (callTree events terminal)[i]? = some frame) {error : ScError}
    {index : UInt32} (hlast : LastNoted events events.length i (some (error, index))) :
    ∃ n e, events[n]? = some e ∧ e.index = index ∧ OwnError events i frame error n := by
  obtain ⟨n, hn, hnoted, ⟨e, message, he, hkind, hindex⟩, hlater⟩ := hlast
  refine ⟨n, e, he, hindex, ?_, hnoted, ?_, ?_⟩
  · obtain ⟨e', he', hin⟩ := Option.bind_eq_some_iff.mp hnoted
    rw [he] at he'
    obtain rfl := Option.some.inj he'
    obtain ⟨hopen, -, emitter, -, -, hcontract, -, hat⟩ := mem_openFrames_of_notedIn hin
    have hframe : contractAt (stateAt events n).frames i = some frame.contract :=
      getElem?_stateAt (fun _ _ => rfl) (lt_of_mem_openFrames hopen) h
    rw [hat] at hframe
    exact ⟨e, message, he, hkind, hcontract.trans hframe⟩
  · intro m hm
    by_cases hlt : m < events.length
    · exact hlater m hm hlt
    · rw [notedAt_of_length_le (by omega)]
      simp
  · obtain ⟨p, call, hp, hcall, hcount, -⟩ := exists_openedBy h
    refine ⟨p, ?_, call, hp, hcall, hcount⟩
    by_contra hge
    have hlt := lt_of_mem_openFrames (mem_openFrames_of_notedAt hnoted)
    have hle := length_stateAt_mono events (Nat.le_of_not_lt hge)
    rw [length_frames_stateAt events p, hcount] at hle
    omega

/-- A classified event is numbered by its position. -/
theorem index_classifyAll {raw : List DiagnosticEvent} (hlen : raw.length < UInt32.size) {n : Nat}
    {e : DiagEvent} (h : (classifyAll raw)[n]? = some e) : e.index.toNat = n := by
  rw [classifyAll, List.getElem?_mapIdx] at h
  obtain ⟨r, hr, rfl⟩ := Option.map_eq_some_iff.mp h
  have hn := (List.getElem?_eq_some_iff.mp hr).1
  exact toNat_u32OrMax (by omega)

/-- The terminal error is read from the first `host_fn_failed` event. -/
theorem terminalError_first {events : List DiagEvent} {t : TerminalError}
    (h : events.findSome? DiagEvent.terminal = some t) :
    ∃ (n : Nat) (e : DiagEvent), events[n]? = some e ∧ e.index = t.eventIndex ∧
      e.kind = .hostFnFailed t.error ∧
      ∀ m < n, ∀ e : DiagEvent, events[m]? = some e → ∀ other, e.kind ≠ .hostFnFailed other := by
  obtain ⟨pre, e, post, rfl, hterminal, hnone⟩ := List.findSome?_eq_some_iff.mp h
  unfold DiagEvent.terminal at hterminal
  split at hterminal
  · next error hkind =>
    obtain rfl := Option.some.inj hterminal
    refine ⟨pre.length, e, by simp, rfl, hkind, ?_⟩
    intro m hm e' he' other hother
    rw [List.getElem?_append_left hm] at he'
    have hquiet := hnone e' (List.mem_of_getElem? he')
    rw [DiagEvent.terminal, hother] at hquiet
    cases hquiet
  · cases hterminal

/-- **The shape of a call tree.**  There is one frame a call, in order; the first has depth zero
and no other is more than one deeper than the one before; a frame that failed did so with
the error of the event it names, its own last one or, for want of one, the host's; and an
inert event may be left out. -/
theorem calls_shape (raw : List DiagnosticEvent) (enabled : Bool)
    (hlen : raw.length < UInt32.size) :
    let d := Diagnostics.fromEvents raw enabled
    (∀ (n : Nat) (e : DiagEvent), d.events[n]? = some e → e.index.toNat = n) ∧
      d.calls.map CallFrame.call = d.events.filterMap DiagEvent.call ∧
      (∀ frame : CallFrame, d.calls[0]? = some frame → frame.depth = 0) ∧
      (∀ (k : Nat) (frame next : CallFrame), d.calls[k]? = some frame →
        d.calls[k + 1]? = some next →
        next.depth.toNat ≤ frame.depth.toNat + 1) ∧
      (∀ (i : Nat) (frame : CallFrame) error index, d.calls[i]? = some frame →
        frame.outcome = .failed error index →
        OwnError d.events i frame error index.toNat ∨ HostError d.events i error index.toNat) ∧
      ∀ pre e post, d.events = pre ++ e :: post → Inert (pre.foldl callStep .empty) e →
        callTree (pre ++ post) d.terminalError = d.calls := by
  intro d
  have hindex : ∀ (n : Nat) (e : DiagEvent), d.events[n]? = some e → e.index.toNat = n :=
    fun n e he => index_classifyAll hlen he
  have hgrows := grows_foldl d.events
  have hdepths : (d.events.foldl callStep .empty).depths
      = d.calls.map (fun f => f.depth.toNat) :=
    (map_callTree (q := fun f : CallFrame => f.depth.toNat) (fun _ _ => rfl) _ _).symm
  rw [hdepths] at hgrows
  refine ⟨hindex, frames_callTree d.events d.terminalError, ?_, ?_, ?_, ?_⟩
  · intro frame hframe
    have hfirst := hgrows.first frame.depth.toNat (by rw [List.getElem?_map, hframe]; rfl)
    exact UInt32.toNat_inj.mp hfirst
  · intro k frame next hframe hnext
    obtain ⟨n, hn, hle⟩ := hgrows.next k frame.depth.toNat next.depth.toNat
      (by rw [List.getElem?_map, hframe]; rfl) (by rw [List.getElem?_map, hnext]; rfl)
    rw [hn]
    exact hle.trans (recorded_succ_le n)
  · intro i frame error index hframe hfailed
    rcases failed_callTree hframe hfailed with hlast | ⟨hquiet, hopen, hterminal⟩
    · obtain ⟨n, e, he, rfl, hown⟩ := ownError_of_lastNoted hframe hlast
      rw [hindex n e he]
      exact Or.inl hown
    · obtain ⟨n, e, he, rfl, hkind, hfirst⟩ := terminalError_first hterminal
      rw [hindex n e he]
      refine Or.inr ⟨⟨e, he, hkind⟩, hfirst, ?_, hopen⟩
      intro m
      by_cases hm : m < d.events.length
      · exact hquiet m hm
      · rw [notedAt_of_length_le (by omega)]
        simp
  · rintro pre e post hevents hinert
    show _ = callTree d.events d.terminalError
    rw [hevents, callTree_inert hinert]

/-- `cid(5)` calls `cid(6)` and catches its error; the budget runs out later. -/
def caughtEvents : List DiagnosticEvent :=
  [call none (cid 5) "f", call (some (cid 5)) (cid 6) "g",
    err (cid 6) (.contract 3) "failing with contract error", ev (some (cid 5)) [sym "log"] .void,
    hostFnFailed (.budget .exceededLimit)]

/-- The call of `cid(6)` failed with its own error, in event 2. -/
theorem calls_shape_caught :
    OwnError (classifyAll caughtEvents) 1 ⟨1, 1, cid 6, "g", .failed (.contract 3) 2⟩
      (.contract 3) 2 := by
  obtain ⟨-, -, -, -, hfailed, -⟩ := calls_shape caughtEvents true (by decide)
  rcases hfailed 1 ⟨1, 1, cid 6, "g", .failed (.contract 3) 2⟩ (.contract 3) 2 (by decide) rfl with
    hown | ⟨⟨e, he, hkind⟩, -⟩
  · exact hown
  · -- event 2 is no `host_fn_failed` event
    obtain rfl := Option.some.inj he
    exact absurd hkind (by decide)

end Observatory
