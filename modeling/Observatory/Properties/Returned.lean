import Mathlib.Data.Set.Finite.Basic
import Mathlib.Tactic.Choose
import Observatory.Model.CallRun
import Observatory.Testutil

/-!
# Frames that returned

`call_tree` marks a frame as returned when it meets a `fn_return` while the frame
is the innermost open one.  It does not look at who emitted the event, as it does
for every other kind, nor at the function the event names.

* `OwnReturns` — each returned frame has a `fn_return` of its own.
* `callTree_ownReturns` — all along a run it does, just when each `fn_return` comes
  from the innermost open call.
-/

namespace Observatory

/-! ## Which event marked a frame -/

/-- The frame at a position is marked as returned. -/
def ReturnedAt (frames : List CallFrame) (i : Nat) : Prop :=
  ∃ frame, frames[i]? = some frame ∧ frame.outcome = .returned

theorem returnedAt_setOutcome {frames : List CallFrame} {k i : Nat} {outcome : CallOutcome}
    (h : ReturnedAt (setOutcome frames k outcome) i) :
    ReturnedAt frames i ∨ k = i ∧ outcome = .returned := by
  obtain ⟨frame, hframe, hreturned⟩ := h
  rw [setOutcome, List.getElem?_modify] at hframe
  obtain ⟨before, hbefore, heq⟩ := Option.map_eq_some_iff.mp hframe
  by_cases hk : k = i
  · rw [if_pos hk] at heq
    subst heq
    exact Or.inr ⟨hk, hreturned⟩
  · rw [if_neg hk] at heq
    subst heq
    exact Or.inl ⟨before, hbefore, hreturned⟩

/-- A call that is closed otherwise is not marked as returned. -/
theorem returnedAt_endCall {frames : List CallFrame} {o : Open} {i : Nat}
    (h : ReturnedAt (endCall frames o) i) : ReturnedAt frames i := by
  rcases returnedAt_setOutcome h with hbefore | ⟨-, houtcome⟩
  · exact hbefore
  · unfold Open.outcome at houtcome
    split at houtcome <;> cases houtcome

theorem returnedAt_closeAll {terminal : Option TerminalError} {frames : List CallFrame}
    {os : List Open} {i : Nat}
    (h : ReturnedAt (Unwind.closeAll (endOpen terminal) frames os) i) : ReturnedAt frames i := by
  induction os generalizing frames with
  | nil => exact h
  | cons o os ih => exact returnedAt_endCall (ih h)

theorem returnedAt_unwindTo {contract : ContractId} {s : CallStack} {i : Nat}
    (h : ReturnedAt (s.unwindTo contract).frames i) : ReturnedAt s.frames i := by
  obtain ⟨popped, -, hframes, -⟩ := unwindTo_spec contract s
  rw [hframes, ← endOpen_none] at h
  exact returnedAt_closeAll h

theorem returnedAt_push {s : CallStack} {index : UInt32} {contract : ContractId}
    {function : String} {i : Nat} (h : ReturnedAt (s.push index contract function).frames i) :
    ReturnedAt s.frames i := by
  obtain ⟨frame, hframe, hreturned⟩ := h
  rw [CallStack.frames_push, List.getElem?_append] at hframe
  split at hframe
  · exact ⟨frame, hframe, hreturned⟩
  · obtain rfl := List.mem_singleton.mp (List.mem_of_getElem? hframe)
    cases hreturned

/-- The frame an event marks as returned. -/
def returnedBy (s : CallStack) (e : DiagEvent) : Option Nat :=
  match e.kind with
  | .fnReturn _ => s.stack.head?.map Open.frame
  | _ => none

/-- **What a step marks.**  A frame marked after a step was marked before, or is the
innermost open one at a `fn_return`. -/
theorem returnedAt_callStep {s : CallStack} {e : DiagEvent} {i : Nat}
    (h : ReturnedAt (callStep s e).frames i) :
    ReturnedAt s.frames i ∨ returnedBy s e = some i := by
  unfold callStep at h
  split at h
  · exact Or.inl (returnedAt_unwindTo (returnedAt_push h))
  · have hended : ReturnedAt (Unwind.closeAll endCall s.frames s.stack) i := returnedAt_push h
    rw [← endOpen_none] at hended
    exact Or.inl (returnedAt_closeAll hended)
  · next function hkind =>
    rw [CallStack.frames_popReturned] at h
    rw [returnedBy, hkind]
    cases hhead : s.stack.head? with
    | none =>
        rw [hhead] at h
        exact Or.inl h
    | some top =>
        rw [hhead] at h
        rcases returnedAt_setOutcome h with hbefore | ⟨rfl, -⟩
        · exact Or.inl hbefore
        · exact Or.inr rfl
  · exact Or.inl (returnedAt_unwindTo h)
  · exact Or.inl (returnedAt_unwindTo h)
  · exact Or.inl h

/-- **What a run marks.**  Every frame marked was marked by some event of the run. -/
theorem returnedAt_foldl {events : List DiagEvent} {i : Nat}
    (h : ReturnedAt (events.foldl callStep .empty).frames i) :
    ∃ pre e post, events = pre ++ e :: post ∧
      returnedBy (pre.foldl callStep .empty) e = some i := by
  induction events using List.reverseRecOn with
  | nil =>
      obtain ⟨frame, hframe, -⟩ := h
      cases hframe
  | append_singleton events e ih =>
      rw [List.foldl_append, List.foldl_cons, List.foldl_nil] at h
      rcases returnedAt_callStep h with hbefore | hnow
      · obtain ⟨pre, e', post, hevents, hmarked⟩ := ih hbefore
        exact ⟨pre, e', post ++ [e], by rw [hevents]; simp, hmarked⟩
      · exact ⟨events, e, [], rfl, hnow⟩

/-! ## A return of its own -/

/-- The innermost open call. -/
def CallStack.innermost (s : CallStack) : Option CallFrame :=
  s.stack.head?.bind (fun o => s.frames[o.frame]?)

/-- Each `fn_return` of the run, if a call is open, is emitted by the contract of the
innermost one and names its function. -/
def InnermostReturns (events : List DiagEvent) : Prop :=
  ∀ pre e post function, events = pre ++ e :: post → e.kind = .fnReturn function →
    ∀ frame, (pre.foldl callStep .empty).innermost = some frame →
      e.contract = some frame.contract ∧ function = frame.function

/-- The event at position `n` is a return of this frame: emitted by its contract, and
naming its function. -/
def ReturnOf (events : List DiagEvent) (frame : CallFrame) (n : Nat) : Prop :=
  ∃ e, events[n]? = some e ∧ e.kind = .fnReturn frame.function ∧
    e.contract = some frame.contract

/-- Each frame marked as returned has a later `fn_return` of its own. -/
def OwnReturns (events : List DiagEvent) (frames : List CallFrame) : Prop :=
  ∃ assign : Nat → Nat,
    (∀ (i : Nat) frame, frames[i]? = some frame → frame.outcome = .returned →
      (∃ p, OpenedAt events i frame p ∧ p < assign i) ∧ ReturnOf events frame (assign i)) ∧
    ∀ i j, ReturnedAt frames i → ReturnedAt frames j → assign i = assign j → i = j

/-- The event that marked a frame is a later return of that frame. -/
theorem returnOf_of_innermost {events : List DiagEvent} {terminal : Option TerminalError}
    (hinner : InnermostReturns events) {pre post : List DiagEvent} {e : DiagEvent}
    (hevents : events = pre ++ e :: post) {i : Nat} {frame : CallFrame}
    (hmarked : returnedBy (pre.foldl callStep .empty) e = some i)
    (hframe : (callTree events terminal)[i]? = some frame) :
    (∃ p, OpenedAt events i frame p ∧ p < pre.length) ∧ ReturnOf events frame pre.length := by
  unfold returnedBy at hmarked
  split at hmarked
  · next function hkind =>
    obtain ⟨top, htop, rfl⟩ := Option.map_eq_some_iff.mp hmarked
    have hbound : top.frame < (pre.foldl callStep .empty).frames.length :=
      (pre.foldl callStep .empty).inBounds top (List.mem_of_mem_head? htop)
    obtain ⟨before, hbefore⟩ : ∃ before,
        (pre.foldl callStep .empty).frames[top.frame]? = some before :=
      ⟨_, List.getElem?_eq_getElem hbound⟩
    have hinnermost : (pre.foldl callStep .empty).innermost = some before := by
      rw [CallStack.innermost, htop, Option.bind_some, hbefore]
    obtain ⟨hcontract, rfl⟩ := hinner pre e post function hevents hkind before hinnermost
    subst hevents
    obtain ⟨hopened, hcall⟩ := call_of_earlier hbefore hframe
    obtain ⟨-, hcontracts, hfunctions⟩ : before.eventIndex = frame.eventIndex ∧
        before.contract = frame.contract ∧ before.function = frame.function := by
      simpa [CallFrame.call] using hcall
    constructor
    · obtain ⟨p, call, hp, hpcall, hlen⟩ := Scan.getElem?_filterMap hopened
      have hlt : p < pre.length := (List.getElem?_eq_some_iff.mp hp).1
      refine ⟨p, ⟨call, ?_, hpcall, ?_⟩, hlt⟩
      · rw [List.getElem?_append_left hlt, hp]
      · rw [List.take_append_of_le_length (Nat.le_of_lt hlt), hlen]
    · refine ⟨e, by simp, ?_, ?_⟩
      · rw [hkind, hfunctions]
      · rw [hcontract, hcontracts]
  · cases hmarked

/-- The frame the event at a position marked as returned. -/
def markedAt (events : List DiagEvent) (n : Nat) : Option Nat :=
  events[n]?.bind (returnedBy ((events.take n).foldl callStep .empty))

/-- In a run in which each `fn_return` comes from the innermost open call, each frame marked
as returned has a `fn_return` of its own. -/
theorem ownReturns_of_innermost (events : List DiagEvent) (terminal : Option TerminalError)
    (hinner : InnermostReturns events) : OwnReturns events (callTree events terminal) := by
  have hmarked : ∀ i, ReturnedAt (callTree events terminal) i → ∃ n,
      markedAt events n = some i ∧ ∃ pre e post, events = pre ++ e :: post ∧ pre.length = n ∧
        returnedBy (pre.foldl callStep .empty) e = some i := by
    intro i hi
    obtain ⟨pre, e, post, rfl, hby⟩ := returnedAt_foldl (returnedAt_closeAll hi)
    exact ⟨pre.length, by simp [markedAt, hby], pre, e, post, rfl, rfl, hby⟩
  -- each frame takes the event that marked it; no event marks two
  choose! assign hassign using hmarked
  refine ⟨assign, ?_, ?_⟩
  · intro i frame hframe hreturned
    obtain ⟨-, pre, e, post, hevents, hlen, hby⟩ := hassign i ⟨frame, hframe, hreturned⟩
    rw [← hlen]
    exact returnOf_of_innermost hinner hevents hby hframe
  · intro i j hi hj heq
    have hmi := (hassign i hi).1
    rw [heq, (hassign j hj).1] at hmi
    exact (Option.some.inj hmi).symm

/-! ## A call that ended has ended -/

theorem returnedAt_setOutcome_of_ne {frames : List CallFrame} {k i : Nat} {outcome : CallOutcome}
    (h : ReturnedAt frames i) (hne : k ≠ i) : ReturnedAt (setOutcome frames k outcome) i := by
  obtain ⟨frame, hframe, hreturned⟩ := h
  refine ⟨frame, ?_, hreturned⟩
  simp [setOutcome, hframe, hne]

theorem returnedAt_closeAll_of_not_mem {terminal : Option TerminalError}
    {frames : List CallFrame} {os : List Open} {i : Nat} (h : ReturnedAt frames i)
    (hnot : i ∉ os.map Open.frame) :
    ReturnedAt (Unwind.closeAll (endOpen terminal) frames os) i := by
  induction os generalizing frames with
  | nil => exact h
  | cons o os ih =>
      rw [List.map_cons, List.mem_cons, not_or] at hnot
      apply ih _ hnot.2
      exact returnedAt_setOutcome_of_ne h (by rw [frame_withTerminal]; exact Ne.symm hnot.1)

theorem returnedAt_unwindTo_of_not_mem {contract : ContractId} {s : CallStack} {i : Nat}
    (h : ReturnedAt s.frames i) (hnot : i ∉ s.openFrames) :
    ReturnedAt (s.unwindTo contract).frames i := by
  obtain ⟨popped, hstack, hframes, -⟩ := unwindTo_spec contract s
  rw [hframes, ← endOpen_none]
  apply returnedAt_closeAll_of_not_mem h
  intro hmem
  apply hnot
  rw [CallStack.openFrames, hstack, List.map_append]
  exact List.mem_append_left _ hmem

theorem returnedAt_push_of {s : CallStack} {index : UInt32} {contract : ContractId}
    {function : String} {i : Nat} (h : ReturnedAt s.frames i) :
    ReturnedAt (s.push index contract function).frames i := by
  obtain ⟨frame, hframe, hreturned⟩ := h
  refine ⟨frame, ?_, hreturned⟩
  rw [CallStack.frames_push,
    List.getElem?_append_left (List.getElem?_eq_some_iff.mp hframe).1, hframe]

/-- A mark on a call that is not open stays through a step. -/
theorem returnedAt_callStep_of_not_mem {s : CallStack} {e : DiagEvent} {i : Nat}
    (h : ReturnedAt s.frames i) (hnot : i ∉ s.openFrames) :
    ReturnedAt (callStep s e).frames i := by
  unfold callStep
  split
  · exact returnedAt_push_of (returnedAt_unwindTo_of_not_mem h hnot)
  · have hended : ReturnedAt (Unwind.closeAll (endOpen none) s.frames s.stack) i :=
      returnedAt_closeAll_of_not_mem h hnot
    rw [endOpen_none] at hended
    exact returnedAt_push_of hended
  · rw [CallStack.frames_popReturned]
    cases hhead : s.stack.head? with
    | none => exact h
    | some top =>
        apply returnedAt_setOutcome_of_ne h
        rintro rfl
        exact hnot (List.mem_map_of_mem (List.mem_of_mem_head? hhead))
  · exact returnedAt_unwindTo_of_not_mem h hnot
  · exact returnedAt_unwindTo_of_not_mem h hnot
  · exact h

/-- A frame marked as returned stays so through the rest of a run. -/
theorem returnedAt_stateAt_of_le {events : List DiagEvent} {i m n : Nat} (hmn : m ≤ n)
    (h : ReturnedAt (stateAt events m).frames i) (hended : i ∉ (stateAt events m).openFrames) :
    ReturnedAt (stateAt events n).frames i ∧ i ∉ (stateAt events n).openFrames := by
  have hlt : ∀ n, ReturnedAt (stateAt events n).frames i →
      i < (stateAt events n).frames.length := by
    rintro n ⟨frame, hframe, -⟩
    exact (List.getElem?_eq_some_iff.mp hframe).1
  refine ⟨?_, (ended_of_le hmn (hlt m h) hended).2⟩
  induction n, hmn using Nat.le_induction with
  | base => exact h
  | succ n hmn ih =>
      have hnot := (ended_of_le hmn (hlt m h) hended).2
      cases he : events[n]? with
      | none =>
          rw [stateAt_of_length_le he]
          exact ih
      | some e =>
          rw [stateAt_succ he]
          exact returnedAt_callStep_of_not_mem ih hnot

/-- A frame is marked when its call is the innermost one at a `fn_return`; from then on it
is not open. -/
theorem returnedAt_of_markedAt {events : List DiagEvent} {n i : Nat}
    (h : markedAt events n = some i) :
    ReturnedAt (stateAt events (n + 1)).frames i ∧
      i ∉ (stateAt events (n + 1)).openFrames := by
  obtain ⟨e, he, hby⟩ := Option.bind_eq_some_iff.mp h
  rw [stateAt_succ he]
  unfold returnedBy at hby
  split at hby
  · next function hkind =>
    obtain ⟨top, htop, rfl⟩ := Option.map_eq_some_iff.mp hby
    have hstate : (stateAt events n).stack.head? = some top := htop
    have hstep : callStep (stateAt events n) e = (stateAt events n).popReturned := by
      unfold callStep
      rw [hkind]
    have hbound : top.frame < (stateAt events n).frames.length :=
      (stateAt events n).inBounds top (List.mem_of_mem_head? hstate)
    rw [hstep]
    constructor
    · rw [CallStack.frames_popReturned, hstate]
      refine ⟨{ (stateAt events n).frames[top.frame] with outcome := .returned }, ?_, rfl⟩
      show (setOutcome _ _ _)[top.frame]? = _
      rw [setOutcome, List.getElem?_modify, List.getElem?_eq_getElem hbound]
      simp
    · have hsorted : (stateAt events n).openFrames.Pairwise (fun i j => j < i) :=
        sorted_openFrames (events.take n)
      unfold CallStack.openFrames at hsorted ⊢
      rw [CallStack.stack_popReturned]
      cases hs : (stateAt events n).stack with
      | nil => simp
      | cons first below =>
          rw [hs] at hstate hsorted
          obtain rfl : first = top := Option.some.inj hstate
          intro hmem
          have hlt := (List.pairwise_cons.mp hsorted).1 first.frame hmem
          omega
  · cases hby

/-- No frame is marked twice. -/
theorem markedAt_inj {events : List DiagEvent} {m n i : Nat} (hm : markedAt events m = some i)
    (hn : markedAt events n = some i) : m = n := by
  have hnot : ∀ {m n}, markedAt events m = some i → markedAt events n = some i → ¬ m < n := by
    intro m n hm hn hlt
    obtain ⟨hreturned, hended⟩ := returnedAt_of_markedAt hm
    have hlater := (returnedAt_stateAt_of_le hlt hreturned hended).2
    obtain ⟨e, -, hby⟩ := Option.bind_eq_some_iff.mp hn
    unfold returnedBy at hby
    split at hby
    · obtain ⟨top, htop, rfl⟩ := Option.map_eq_some_iff.mp hby
      exact hlater (List.mem_map_of_mem (List.mem_of_mem_head? htop))
    · cases hby
  have hmn := hnot hm hn
  have hnm := hnot hn hm
  omega

/-! ## The first foreign return -/

theorem innermostReturns_append {events : List DiagEvent} {e : DiagEvent} :
    InnermostReturns (events ++ [e]) ↔ InnermostReturns events ∧
      ∀ function, e.kind = .fnReturn function →
        ∀ frame, (events.foldl callStep .empty).innermost = some frame →
          e.contract = some frame.contract ∧ function = frame.function := by
  constructor
  · intro h
    constructor
    · intro pre e' post function hevents
      exact h pre e' (post ++ [e]) function (by rw [hevents]; simp)
    · intro function
      exact h events e [] function rfl
  · rintro ⟨hevents, hlast⟩ pre e' post function hsplit
    rcases List.eq_nil_or_concat post with rfl | ⟨init, last, rfl⟩
    · obtain ⟨rfl, hsame⟩ := List.append_inj' hsplit rfl
      obtain rfl := List.singleton_inj.mp hsame
      exact hlast function
    · rw [List.concat_eq_append, ← List.cons_append, ← List.append_assoc] at hsplit
      obtain ⟨rfl, -⟩ := List.append_inj' hsplit rfl
      exact hevents pre e' init function rfl

/-- A frame marked by some event of the run is marked in the end. -/
theorem returnedAt_callTree_of_markedAt {events : List DiagEvent}
    {terminal : Option TerminalError} {n i : Nat} (h : markedAt events n = some i) :
    ReturnedAt (callTree events terminal) i := by
  obtain ⟨e, he, -⟩ := Option.bind_eq_some_iff.mp h
  have hn : n < events.length := (List.getElem?_eq_some_iff.mp he).1
  obtain ⟨hreturned, hended⟩ := returnedAt_of_markedAt h
  obtain ⟨hlast, hnot⟩ := returnedAt_stateAt_of_le (n := events.length) (by omega) hreturned hended
  unfold stateAt at hlast hnot
  rw [List.take_length] at hlast hnot
  exact returnedAt_closeAll_of_not_mem hlast hnot

/-- Two frames of one contract and function. -/
def SameTarget (f g : CallFrame) : Prop := f.contract = g.contract ∧ f.function = g.function

theorem sameTarget_of_call {f g : CallFrame} (h : f.call = g.call) : SameTarget f g := by
  obtain ⟨-, hcontract, hfunction⟩ : f.eventIndex = g.eventIndex ∧ f.contract = g.contract ∧
      f.function = g.function := by simpa [CallFrame.call] using h
  exact ⟨hcontract, hfunction⟩

/-- A `fn_return` before a call has ended marks a call made after it. -/
theorem marks_above {events : List DiagEvent} {i m n : Nat} {e : DiagEvent} {function : String}
    (he : events[m]? = some e) (hkind : e.kind = .fnReturn function) (hmn : m < n)
    (hi : i < (stateAt events m).frames.length) (hopen : i ∈ (stateAt events n).openFrames) :
    ∃ k before, markedAt events m = some k ∧ i < k ∧
      (stateAt events m).frames[k]? = some before ∧
      (stateAt events m).innermost = some before := by
  have hstep : callStep (stateAt events m) e = (stateAt events m).popReturned := by
    unfold callStep
    rw [hkind]
  -- the call is open right after the return as well
  have hafter : i ∈ (stateAt events (m + 1)).openFrames := by
    by_contra hended
    have hlt : i < (stateAt events (m + 1)).frames.length := by
      rw [stateAt_succ he]
      exact Nat.lt_of_lt_of_le hi (length_frames_callStep _ e)
    exact (ended_of_le hmn hlt hended).2 hopen
  rw [stateAt_succ he, hstep, CallStack.openFrames, CallStack.stack_popReturned] at hafter
  have hsorted : (stateAt events m).openFrames.Pairwise (fun i j => j < i) :=
    sorted_openFrames (events.take m)
  unfold CallStack.openFrames at hsorted
  cases hs : (stateAt events m).stack with
  | nil =>
      rw [hs] at hafter
      simp at hafter
  | cons top below =>
      rw [hs] at hafter hsorted
      rw [List.map_cons, List.pairwise_cons] at hsorted
      have hbound : top.frame < (stateAt events m).frames.length :=
        (stateAt events m).inBounds top (by rw [hs]; exact List.mem_cons_self)
      have hget : (stateAt events m).frames[top.frame]?
          = some (stateAt events m).frames[top.frame] := List.getElem?_eq_getElem hbound
      refine ⟨top.frame, _, ?_, hsorted.1 i hafter, hget, ?_⟩
      · have hby : returnedBy (stateAt events m) e = some top.frame := by
          unfold returnedBy
          rw [hkind, hs]
          rfl
        rw [markedAt, he]
        exact hby
      · rw [CallStack.innermost, hs, List.head?_cons, Option.bind_some, hget]

/-- The frames marked in the end that lie at or above a position and have this target. -/
def MarkedAbove (frames : List CallFrame) (i : Nat) (target : CallFrame) (j : Nat) : Prop :=
  i ≤ j ∧ ∃ frame, frames[j]? = some frame ∧ frame.outcome = .returned ∧ SameTarget frame target

theorem finite_markedAbove (frames : List CallFrame) (i : Nat) (target : CallFrame) :
    {j | MarkedAbove frames i target j}.Finite := by
  refine (Set.finite_lt_nat frames.length).subset ?_
  rintro j ⟨-, frame, hj, -⟩
  exact (List.getElem?_eq_some_iff.mp hj).1

/-- **Returns of calls made later.**  Up to the first foreign return, a later return of a frame
at or above `i` marks another frame of the same target, above `i`. -/
theorem marks_same_target {events : List DiagEvent} {e : DiagEvent}
    {terminal : Option TerminalError} (hinner : InnermostReturns events) {i j n : Nat}
    {target : CallFrame} (hopen : i ∈ (stateAt (events ++ [e]) events.length).openFrames)
    (hforeign : ¬ (e.kind = .fnReturn target.function ∧ e.contract = some target.contract))
    (hj : MarkedAbove (callTree (events ++ [e]) terminal) i target j)
    (hreturn : ∀ frame, (callTree (events ++ [e]) terminal)[j]? = some frame →
      (∃ p, OpenedAt (events ++ [e]) j frame p ∧ p < n) ∧ ReturnOf (events ++ [e]) frame n) :
    ∃ k, markedAt (events ++ [e]) n = some k ∧ i < k ∧
      MarkedAbove (callTree (events ++ [e]) terminal) i target k := by
  obtain ⟨hij, frame, hframe, -, hcontract, hfunction⟩ := hj
  obtain ⟨⟨p, hopened, hp⟩, e', he', hkind', hemitter'⟩ := hreturn frame hframe
  have hn : n < events.length := by
    have hlt : n < (events ++ [e]).length := (List.getElem?_eq_some_iff.mp he').1
    rw [List.length_append, List.length_singleton] at hlt
    by_contra hge
    obtain rfl : n = events.length := by omega
    rw [List.getElem?_concat_length] at he'
    obtain rfl := Option.some.inj he'
    exact hforeign ⟨by rw [hkind', hfunction], by rw [hemitter', hcontract]⟩
  have hi : i < (stateAt (events ++ [e]) n).frames.length :=
    Nat.lt_of_le_of_lt hij (lt_length_of_openedAt hopened hp)
  obtain ⟨k, before, hmarked, hik, hbefore, hinnermost⟩ := marks_above he' hkind' hn hi hopen
  have htake : (events ++ [e]).take n = events.take n :=
    List.take_append_of_le_length (Nat.le_of_lt hn)
  have hevent : events[n]? = some e' := by rwa [List.getElem?_append_left hn] at he'
  -- the return is that of the innermost call, so the marked frame has the target of `j`
  have hsplit : events = events.take n ++ e' :: events.drop (n + 1) := by
    obtain ⟨hlt, rfl⟩ := List.getElem?_eq_some_iff.mp hevent
    rw [List.getElem_cons_drop, List.take_append_drop]
  have hown := hinner (events.take n) e' (events.drop (n + 1)) frame.function hsplit hkind' before
    (by rw [← htake]; exact hinnermost)
  obtain ⟨final, hfinal, hfinalReturned⟩ : ReturnedAt (callTree (events ++ [e]) terminal) k :=
    returnedAt_callTree_of_markedAt hmarked
  have hcall : before.call = final.call := by
    have hwhole : (events ++ [e]) = (events ++ [e]).take n ++ (events ++ [e]).drop n :=
      (List.take_append_drop n _).symm
    rw [hwhole] at hfinal
    exact (call_of_earlier hbefore hfinal).2
  obtain ⟨hsameContract, hsameFunction⟩ := sameTarget_of_call hcall
  refine ⟨k, hmarked, hik, Nat.le_of_lt hik, final, hfinal, hfinalReturned, ?_, ?_⟩
  · rw [← hsameContract, ← hcontract]
    rw [hemitter'] at hown
    exact (Option.some.inj hown.1).symm
  · rw [← hsameFunction, ← hfunction, hown.2]

/-- A one to one map of finitely many numbers into themselves reaches the least of them. -/
theorem not_injOn_above {S : Set Nat} (hfinite : S.Finite) {top : Nat} (htop : top ∈ S)
    {next : Nat → Nat} (hnext : Set.MapsTo next S S) (habove : ∀ j ∈ S, top < next j) :
    ¬ Set.InjOn next S := by
  intro hinj
  obtain ⟨j, hj, heq⟩ := ((hfinite.injOn_iff_bijOn_of_mapsTo hnext).mp hinj).surjOn htop
  exact absurd heq (Nat.ne_of_gt (habove j hj))

/-- **The first foreign return shows.**  Where every return so far came from the innermost
call, a foreign one leaves more marked frames of one target than returns for them. -/
theorem innermost_of_ownReturns {events : List DiagEvent} {e : DiagEvent}
    {terminal : Option TerminalError} {function : String} {target : CallFrame}
    (hinner : InnermostReturns events)
    (hown : OwnReturns (events ++ [e]) (callTree (events ++ [e]) terminal))
    (hkind : e.kind = .fnReturn function)
    (htarget : (events.foldl callStep .empty).innermost = some target) :
    e.contract = some target.contract ∧ function = target.function := by
  by_contra hne
  have hforeign : ¬ (e.kind = .fnReturn target.function ∧ e.contract = some target.contract) := by
    rintro ⟨hsame, hcontract⟩
    rw [hkind] at hsame
    exact hne ⟨hcontract, EventKind.fnReturn.inj hsame⟩
  obtain ⟨top, htop, hframe⟩ := Option.bind_eq_some_iff.mp htarget
  obtain ⟨assign, hassign, hinj⟩ := hown
  have hstate : stateAt (events ++ [e]) events.length = events.foldl callStep .empty := by
    rw [stateAt, List.take_left]
  have hopen : top.frame ∈ (stateAt (events ++ [e]) events.length).openFrames := by
    rw [hstate]
    exact List.mem_map_of_mem (List.mem_of_mem_head? htop)
  have hlast : markedAt (events ++ [e]) events.length = some top.frame := by
    rw [markedAt, List.getElem?_concat_length, List.take_left, Option.bind_some, returnedBy, hkind]
    show (events.foldl callStep .empty).stack.head?.map Open.frame = _
    rw [htop, Option.map_some]
  have htopMarked : MarkedAbove (callTree (events ++ [e]) terminal) top.frame target top.frame := by
    obtain ⟨final, hfinal, hreturned⟩ : ReturnedAt (callTree (events ++ [e]) terminal) top.frame :=
      returnedAt_callTree_of_markedAt hlast
    obtain ⟨hcontract, hfunction⟩ := sameTarget_of_call (call_of_earlier hframe hfinal).2
    exact ⟨Nat.le_refl _, final, hfinal, hreturned, hcontract.symm, hfunction.symm⟩
  -- follow the return of a marked frame to the frame it marked: one to one, and never to the top
  have hnext : ∀ j, MarkedAbove (callTree (events ++ [e]) terminal) top.frame target j →
      ∃ k, markedAt (events ++ [e]) (assign j) = some k ∧ top.frame < k ∧
        MarkedAbove (callTree (events ++ [e]) terminal) top.frame target k := by
    intro j hj
    apply marks_same_target hinner hopen hforeign hj
    intro frame hjframe
    obtain ⟨-, marked, hmarked, hreturned, -⟩ := hj
    rw [hjframe] at hmarked
    obtain rfl := Option.some.inj hmarked
    exact hassign j frame hjframe hreturned
  choose! next hmarks habove hnextMarked using hnext
  refine not_injOn_above (finite_markedAbove _ top.frame target) htopMarked hnextMarked habove ?_
  intro j hj j' hj' heq
  have hm := hmarks j hj
  have hm' := hmarks j' hj'
  rw [heq] at hm
  obtain ⟨-, f, hf, hfr, -⟩ := hj
  obtain ⟨-, f', hf', hfr', -⟩ := hj'
  exact hinj j j' ⟨f, hf, hfr⟩ ⟨f', hf', hfr'⟩ (markedAt_inj hm hm')

/-- **A frame that returned.**  All along a run each frame marked as returned has a later
`fn_return` of its own, emitted by its contract and naming its function, exactly when
each `fn_return` of the run comes from the innermost open call. -/
theorem callTree_ownReturns (events : List DiagEvent) (terminal : Option TerminalError) :
    (∀ pre, pre <+: events → OwnReturns pre (callTree pre terminal)) ↔
      InnermostReturns events := by
  constructor
  · intro hown
    induction events using List.reverseRecOn with
    | nil =>
        intro pre e post function hevents
        simp at hevents
    | append_singleton events e ih =>
        have hinner : InnermostReturns events :=
          ih (fun pre hpre => hown pre (hpre.trans (List.prefix_append events [e])))
        refine innermostReturns_append.mpr ⟨hinner, ?_⟩
        intro function hkind frame hframe
        exact innermost_of_ownReturns hinner (hown _ (List.prefix_refl _)) hkind hframe
  · rintro hinner pre ⟨post, rfl⟩
    apply ownReturns_of_innermost
    intro before e after function hpre
    exact hinner before e (after ++ post) function (by rw [hpre]; simp)

/-! ## A return of another frame -/

/-- A `fn_return` event. -/
def ret (emitter : ContractId) (function : String) : DiagnosticEvent :=
  ev (some emitter) [sym "fn_return", sym function] .void

/-- `cid(5)` calls `cid(6)`, which fails without an event of its own; `cid(5)` goes on and
returns. -/
def silentFailure : List DiagEvent :=
  classifyAll [call none (cid 5) "f", call (some (cid 5)) (cid 6) "g", ret (cid 5) "f"]

/-- The failed call is marked as returned, and no event is a return of it. -/
theorem callTree_ownReturns_fails :
    (callTree silentFailure none).map CallFrame.outcome = [.unknown, .returned] ∧
      ¬ OwnReturns silentFailure (callTree silentFailure none) := by
  have hnone : ∀ e ∈ silentFailure, e.kind ≠ .fnReturn "g" := by decide
  refine ⟨by decide, ?_⟩
  rintro ⟨assign, hassign, -⟩
  obtain ⟨-, e, he, hkind, -⟩ :=
    hassign 1 ⟨1, 1, cid 6, "g", .returned⟩ (by decide) rfl
  exact hnone e (List.mem_of_getElem? he) hkind

end Observatory
