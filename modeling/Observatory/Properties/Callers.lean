import Observatory.Lib.Nesting
import Observatory.Model.CallRun
import Observatory.Testutil

/-!
# Callers

A call is nested in the innermost open call into the contract that emitted its event.  An
emitter with no open call leaves the open calls as they are, and its call is nested in the
innermost one whatever contract that is.

* `nested_foldl` — the depths of a run tell which calls are open.
* `grows_foldl` — no frame is more than one deeper than the one before.
* `callTree_callers` — a frame's parent made its call, exactly when the emitter of the call
  had a call open or there is no emitter.
-/

namespace Observatory

open Nesting

/-! ## Depths -/

/-- The depth recorded with this many calls open. -/
def recorded (n : Nat) : Nat := (u32OrMax n).toNat

theorem recorded_of_lt {n : Nat} (h : n < UInt32.size) : recorded n = n := toNat_u32OrMax h

theorem recorded_of_ge {n : Nat} (h : UInt32.size ≤ n) : recorded n = UInt32.size - 1 := by
  rw [recorded, u32OrMax, dif_neg (by omega), UInt32.toNat_ofNatLT]

theorem monotone_recorded : Monotone recorded := by
  intro m n hmn
  by_cases hn : n < UInt32.size
  · rw [recorded_of_lt hn]
    exact (toNat_u32OrMax_le m).trans hmn
  · rw [recorded_of_ge (Nat.le_of_not_lt hn)]
    exact Nat.le_pred_of_lt (UInt32.toNat_lt_size _)

theorem recorded_succ_le (n : Nat) : recorded (n + 1) ≤ recorded n + 1 := by
  by_cases h : n < UInt32.size
  · rw [recorded_of_lt h]
    exact toNat_u32OrMax_le _
  · rw [recorded_of_ge (by omega), recorded_of_ge (by omega)]
    exact Nat.le_succ _

/-- The recorded depths. -/
def CallStack.depths (s : CallStack) : List Nat := s.frames.map (fun f => f.depth.toNat)

theorem CallStack.length_openFrames (s : CallStack) : s.openFrames.length = s.stack.length :=
  List.length_map ..

/-- A step records the depth of the call it opens. -/
theorem depths_callStep (s : CallStack) (e : DiagEvent) :
    (callStep s e).depths = s.depths ++ ((openedBy s e).map (fun f => f.depth.toNat)).toList :=
  map_callStep (fun _ _ => rfl) s e

/-- The depth of a new call is the number of its callers. -/
theorem depth_openedBy {s : CallStack} {e : DiagEvent} {frame : CallFrame}
    (h : openedBy s e = some frame) :
    frame.depth.toNat = recorded (s.callers e).openFrames.length := by
  unfold openedBy at h
  split at h
  · obtain rfl := Option.some.inj h
    rw [CallStack.length_openFrames]
    rfl
  · cases h

/-- **The open calls** are those the depths say are open. -/
theorem nested_foldl (events : List DiagEvent) :
    Nested recorded (events.foldl callStep .empty).depths
      (events.foldl callStep .empty).openFrames := by
  induction events using List.reverseRecOn with
  | nil => trivial
  | append_singleton events e ih =>
      rw [List.foldl_append, List.foldl_cons, List.foldl_nil, depths_callStep]
      cases hopened : openedBy (events.foldl callStep .empty) e with
      | none =>
          simp only [Option.map_none, Option.toList_none, List.append_nil]
          exact ih.suffix (openFrames_callStep_of_none hopened)
      | some frame =>
          have hpush := (ih.suffix (openFrames_callers _ e)).push monotone_recorded
          rw [openFrames_callStep_of_some hopened]
          simp only [Option.map_some, Option.toList_some]
          rw [depth_openedBy hopened]
          simpa [CallStack.depths] using hpush

/-- **Neighbouring depths** of a run grow by one at most. -/
theorem grows_foldl (events : List DiagEvent) :
    Grows recorded (events.foldl callStep .empty).depths
      (events.foldl callStep .empty).openFrames.length := by
  induction events using List.reverseRecOn with
  | nil => exact Grows.empty
  | append_singleton events e ih =>
      rw [List.foldl_append, List.foldl_cons, List.foldl_nil, depths_callStep]
      cases hopened : openedBy (events.foldl callStep .empty) e with
      | none =>
          simp only [Option.map_none, Option.toList_none, List.append_nil]
          exact ih.mono (openFrames_callStep_of_none hopened).length_le
      | some frame =>
          have hpush := (ih.mono (openFrames_callers _ e).length_le).push monotone_recorded
          rw [openFrames_callStep_of_some hopened, List.length_cons]
          simp only [Option.map_some, Option.toList_some]
          rw [depth_openedBy hopened]
          exact hpush

/-! ## Whose call it is -/

/-- The nearest frame of a depth before a position. -/
def NearestBefore (frames : List CallFrame) (i : Nat) (depth : UInt32) (parent : CallFrame) :
    Prop :=
  ∃ j < i, frames[j]? = some parent ∧ parent.depth = depth ∧
    ∀ k frame, j < k → k < i → frames[k]? = some frame → frame.depth ≠ depth

/-- The frame at position `i` is the call of its parent: it has no caller at depth zero, and
otherwise the nearest frame one less deep before it is a call into the caller. -/
def MadeByParent (frames : List CallFrame) (i : Nat) (frame : CallFrame)
    (caller : Option ContractId) : Prop :=
  (frame.depth = 0 → caller = none) ∧
    (frame.depth ≠ 0 → ∃ parent, NearestBefore frames i (frame.depth - 1) parent ∧
      caller = some parent.contract)

/-- A call into this contract is open. -/
def CallStack.HasOpen (s : CallStack) (contract : ContractId) : Prop :=
  ∃ o ∈ s.stack, o.runs contract s.frames = true

/-- Unwinding to a contract stops at its innermost open call, when it has one. -/
theorem hasOpen_iff {s : CallStack} {contract : ContractId} :
    s.HasOpen contract ↔
      ∃ top ∈ (s.unwindTo contract).stack.head?, top.runs contract s.frames = true := by
  obtain ⟨popped, hstack, -, -, hhead⟩ := unwindTo_spec contract s
  constructor
  · rintro ⟨o, ho, hruns⟩
    rcases hhead with htop | ⟨-, hnone⟩
    · exact htop
    · rw [hnone o ho] at hruns
      cases hruns
  · rintro ⟨top, htop, hruns⟩
    refine ⟨top, ?_, hruns⟩
    rw [hstack]
    exact List.mem_append_right _ (List.mem_of_head? htop)

section Callers

variable {events : List DiagEvent} {terminal : Option TerminalError} {p : Nat}

/-- **The parent of a new call** is the innermost of its callers. -/
theorem nearestBefore_iff {i : Nat} (hi : (stateAt events p).frames.length = i) {e : DiagEvent}
    {top : Open} {below : List Open}
    (hcallers : ((stateAt events p).callers e).stack = top :: below)
    (hdepth : below.length + 1 < UInt32.size) {depth : UInt32}
    (hd : depth.toNat = below.length) {parent : CallFrame} :
    NearestBefore (callTree events terminal) i depth parent ↔
      (callTree events terminal)[top.frame]? = some parent := by
  have hnested : Nested recorded (stateAt events p).depths (top.frame :: below.map Open.frame) := by
    have hrun : Nested recorded (stateAt events p).depths (stateAt events p).openFrames :=
      nested_foldl (events.take p)
    have hkept := hrun.suffix (openFrames_callers _ e)
    rwa [CallStack.openFrames, hcallers, List.map_cons] at hkept
  have hlt : recorded (below.map Open.frame).length
      < recorded ((below.map Open.frame).length + 1) := by
    rw [List.length_map, recorded_of_lt hdepth, recorded_of_lt (by omega)]
    exact Nat.lt_succ_self _
  have htop : Nearest (stateAt events p).depths i depth.toNat top.frame := by
    have hnearest := hnested.nearest hlt
    rwa [List.length_map, recorded_of_lt (by omega), ← hd, CallStack.depths, List.length_map, hi]
      at hnearest
  -- the frames found so far keep their depths
  have hdepths : ∀ k frame, k < i → (callTree events terminal)[k]? = some frame →
      (stateAt events p).depths[k]? = some frame.depth.toNat := by
    intro k frame hk hframe
    exact getElem?_stateAt (fun _ _ => rfl) (by omega) hframe
  have hframes : i ≤ (callTree events terminal).length := hi ▸ length_stateAt_le events terminal p
  constructor
  · rintro ⟨j, hj, hparent, rfl, hnone⟩
    have hnearest : Nearest (stateAt events p).depths i parent.depth.toNat j := by
      refine ⟨hj, hdepths j parent hj hparent, ?_⟩
      intro k hk hki hkd
      have hframe := List.getElem?_eq_getElem (Nat.lt_of_lt_of_le hki hframes)
      rw [hdepths k _ hki hframe] at hkd
      exact hnone k _ hk hki hframe (UInt32.toNat_inj.mp (Option.some.inj hkd))
    rw [← hnearest.unique htop]
    exact hparent
  · intro hparent
    obtain ⟨htopi, htopd, hlast⟩ := htop
    refine ⟨top.frame, htopi, hparent, ?_, ?_⟩
    · rw [hdepths _ _ htopi hparent] at htopd
      exact UInt32.toNat_inj.mp (Option.some.inj htopd)
    · rintro k frame hk hki hframe rfl
      exact hlast k hk hki (hdepths k frame hki hframe)

/-- A frame whose callers are known has the innermost of them for its parent. -/
theorem madeByParent_cons {i : Nat} (hi : (stateAt events p).frames.length = i) {e : DiagEvent}
    {top : Open} {below : List Open}
    (hcallers : ((stateAt events p).callers e).stack = top :: below)
    (hdepth : below.length + 1 < UInt32.size) {frame : CallFrame}
    (hd : frame.depth.toNat = below.length + 1) {caller : ContractId} :
    MadeByParent (callTree events terminal) i frame (some caller) ↔
      top.runs caller (stateAt events p).frames = true := by
  have hne : frame.depth ≠ 0 := by
    rintro h0
    rw [h0] at hd
    cases hd
  have hpred : (frame.depth - 1).toNat = below.length := by
    have hone : (1 : UInt32) ≤ frame.depth := by
      rw [UInt32.le_iff_toNat_le, hd]
      exact Nat.le_add_left 1 _
    rw [UInt32.toNat_sub_of_le _ _ hone, hd]
    rfl
  have hmem : top ∈ (stateAt events p).stack :=
    (stack_callers _ e).subset (by rw [hcallers]; exact List.mem_cons_self)
  have htop : top.frame < (stateAt events p).frames.length := (stateAt events p).inBounds top hmem
  have hparent := List.getElem?_eq_getElem
    (Nat.lt_of_lt_of_le htop (length_stateAt_le events terminal p))
  have hcontract : contractAt (stateAt events p).frames top.frame = _ :=
    getElem?_stateAt (fun _ _ => rfl) htop hparent
  rw [Open.runs, decide_eq_true_eq, hcontract, Option.some.injEq]
  constructor
  · rintro ⟨-, hmade⟩
    obtain ⟨parent, hnear, hcaller⟩ := hmade hne
    rw [nearestBefore_iff hi hcallers hdepth hpred, hparent] at hnear
    rw [Option.some.inj hnear]
    exact (Option.some.inj hcaller).symm
  · intro hcaller
    refine ⟨fun h0 => absurd h0 hne, fun _ => ⟨_, ?_, congrArg some hcaller.symm⟩⟩
    rw [nearestBefore_iff hi hcallers hdepth hpred]
    exact hparent

/-- **Whose call a frame is.**  As long as its depth does not saturate, a frame is the call of
its parent exactly when the contract that emitted its event, if there is one, had a call open
at that point. -/
theorem callTree_callers {i : Nat} {frame : CallFrame}
    (h : (callTree events terminal)[i]? = some frame) :
    ∃ p e, events[p]? = some e ∧ e.call = some frame.call ∧
      ((events.take p).filterMap DiagEvent.call).length = i ∧
      (((stateAt events p).callers e).stack.length < UInt32.size →
        (MadeByParent (callTree events terminal) i frame e.contract ↔
          ∀ caller, e.contract = some caller → (stateAt events p).HasOpen caller)) := by
  obtain ⟨p, e, he, hcall, hcount, hopened⟩ := exists_openedBy h
  refine ⟨p, e, he, hcall, hcount, ?_⟩
  intro hlen
  have hi : (stateAt events p).frames.length = i := by
    rw [length_frames_stateAt, hcount]
  have hdepth : frame.depth.toNat = ((stateAt events p).callers e).stack.length := by
    have := depth_openedBy hopened
    rwa [CallStack.length_openFrames, recorded_of_lt hlen] at this
  cases hcontract : e.contract with
  | none =>
      have hcallers : (stateAt events p).callers e = (stateAt events p).endAll := by
        rw [CallStack.callers, hcontract]
      rw [hcallers] at hdepth
      have hzero : frame.depth = 0 := UInt32.toNat_inj.mp hdepth
      refine iff_of_true ⟨fun _ => rfl, fun hne => absurd hzero hne⟩ ?_
      rintro caller ⟨⟩
  | some caller =>
      have hcallers : (stateAt events p).callers e = (stateAt events p).unwindTo caller := by
        rw [CallStack.callers, hcontract]
      have hiff : (∀ c, some caller = some c → (stateAt events p).HasOpen c) ↔
          (stateAt events p).HasOpen caller := by simp
      rw [hiff, hasOpen_iff, ← hcallers]
      cases hs : ((stateAt events p).callers e).stack with
      | nil =>
          -- the call is at depth zero, and has an emitter
          rw [hs] at hdepth
          refine iff_of_false ?_ ?_
          · rintro ⟨hzero, -⟩
            cases hzero (UInt32.toNat_inj.mp hdepth)
          · rintro ⟨top, htop, -⟩
            cases htop
      | cons top below =>
          rw [hs] at hdepth hlen
          rw [madeByParent_cons hi hs hlen hdepth]
          simp

end Callers

/-- Each frame is the call of its parent. -/
def CallersAreParents (events : List DiagEvent) (terminal : Option TerminalError) : Prop :=
  ∀ i frame p e, (callTree events terminal)[i]? = some frame → events[p]? = some e →
    e.call = some frame.call → ((events.take p).filterMap DiagEvent.call).length = i →
    MadeByParent (callTree events terminal) i frame e.contract

/-- `cid(5)` calls `cid(6)`. -/
def nestedCall : List DiagEvent :=
  classifyAll [call none (cid 5) "f", call (some (cid 5)) (cid 6) "g"]

/-- The caller of the second call is its parent. -/
theorem callTree_callers_nested :
    ∃ e, nestedCall[1]? = some e ∧
      MadeByParent (callTree nestedCall none) 1 ⟨1, 1, cid 6, "g", .unknown⟩ e.contract := by
  have hframe : (callTree nestedCall none)[1]? = some ⟨1, 1, cid 6, "g", .unknown⟩ := by decide
  obtain ⟨p, e, he, -, hcount, hmade⟩ := callTree_callers hframe
  obtain rfl : p = 1 := by
    match p with
    | 0 => cases hcount
    | 1 => rfl
    | p + 2 => cases he
  refine ⟨e, he, (hmade ?_).mpr ?_⟩
  · obtain rfl := Option.some.inj he
    decide
  · intro caller hcaller
    obtain rfl := Option.some.inj he
    obtain rfl : cid 5 = caller := Option.some.inj hcaller
    exact ⟨⟨0, none⟩, by decide, by decide⟩

/-- A call emitted by `cid(7)`, which has no call open, while `cid(5)` runs. -/
def strayCall : List DiagEvent :=
  classifyAll [call none (cid 5) "f", call (some (cid 7)) (cid 6) "g"]

/-- The call is nested in that of `cid(5)`. -/
theorem callTree_callers_stray :
    (callTree strayCall none).map (fun f => (f.depth, f.contract)) = [(0, cid 5), (1, cid 6)] ∧
      ¬ CallersAreParents strayCall none := by
  refine ⟨by decide, ?_⟩
  intro hparents
  have hmade := hparents 1 ⟨1, 1, cid 6, "g", .unknown⟩ 1 _ (by decide) rfl (by decide) (by decide)
  obtain ⟨parent, ⟨j, hj, hparent, -⟩, hcaller⟩ := hmade.2 (by decide)
  obtain rfl : j = 0 := by omega
  have hfirst : (callTree strayCall none)[0]? = some ⟨0, 0, cid 5, "f", .unknown⟩ := by decide
  rw [hfirst] at hparent
  obtain rfl := Option.some.inj hparent
  exact absurd hcaller (by decide)

end Observatory
