import Mathlib.Data.Nat.Digits.Defs
import Observatory.Model.Label

/-!
# How long a label can get

Values come from whoever submitted the transaction.  A label shows three levels of
containers and eight items of each, so that its length is bounded.

* `traceValue` — `write_value`, with the nested values it is called on.
* `length_writeValue_le` — the length of a label, by the levels that are left.
* `valueLabel_bounded` — labels are bounded.
-/

namespace Observatory

/-! ## The calls of `write_value` -/

/-- Where a nested value is in its container: an item, or the key or the value of an entry. -/
inductive Place where
  | item (i : Nat)
  | key (i : Nat)
  | val (i : Nat)

/-- The position of the item or the entry. -/
def Place.index : Place → Nat
  | .item i | .key i | .val i => i

/-- Within the levels and the items a label shows. -/
structure Shown (places : List Place) : Prop where
  depth_le : places.length ≤ labelMaxDepth
  index_lt : ∀ place ∈ places, place.index < labelMaxItems

theorem Shown.append {places : List Place} (h : Shown places)
    (hdepth : places.length < labelMaxDepth) (place : Place)
    (hplace : place.index < labelMaxItems) :
    Shown (places ++ [place]) where
  depth_le := by
    rw [List.length_append, List.length_singleton]
    exact hdepth
  index_lt p hp := by
    rcases List.mem_append.mp hp with hp | hp
    · exact h.index_lt p hp
    · rw [List.mem_singleton.mp hp]
      exact hplace

/-- What is written, and the places of the values it is written for, from the outermost
container inwards. -/
structure Written where
  text : String
  calls : List (List Place)

section Trace

variable [Strkey]

mutual

/-- `write_value` on the value at these places. -/
def traceValue (places : List Place) : ScVal → Written
  | .vec items =>
      if places.length < labelMaxDepth then
        let inner := traceItems places 0 items
        ⟨"vec[" ++ inner.text ++ "]", places :: inner.calls⟩
      else ⟨"vec[…]", [places]⟩
  | .map entries =>
      if places.length < labelMaxDepth then
        let inner := traceEntries places 0 entries
        ⟨"map\x7b" ++ inner.text ++ "\x7d", places :: inner.calls⟩
      else ⟨"map\x7b…\x7d", [places]⟩
  | v => ⟨writeValue places.length v, [places]⟩

/-- The items of a container from position `i` on. -/
def traceItems (places : List Place) (i : Nat) : ScVec → Written
  | .nil => ⟨"", []⟩
  | .cons head tail =>
      if i < labelMaxItems then
        let first := traceValue (places ++ [.item i]) head
        let rest := traceItems places (i + 1) tail
        ⟨itemSeparator i ++ first.text ++ rest.text, first.calls ++ rest.calls⟩
      else ⟨", …", []⟩

/-- The entries of a map from position `i` on. -/
def traceEntries (places : List Place) (i : Nat) : ScMap → Written
  | .nil => ⟨"", []⟩
  | .cons key val tail =>
      if i < labelMaxItems then
        let first := traceValue (places ++ [.key i]) key
        let second := traceValue (places ++ [.val i]) val
        let rest := traceEntries places (i + 1) tail
        ⟨itemSeparator i ++ first.text ++ ": " ++ second.text ++ rest.text,
          first.calls ++ (second.calls ++ rest.calls)⟩
      else ⟨", …", []⟩

end

mutual

/-- The text is the one that is written. -/
theorem text_traceValue (places : List Place) : (v : ScVal) →
    (traceValue places v).text = writeValue places.length v
  | .vec items => by
      rw [traceValue, writeValue]
      split
      · dsimp only
        rw [text_traceItems]
      · rfl
  | .map entries => by
      rw [traceValue, writeValue]
      split
      · dsimp only
        rw [text_traceEntries]
      · rfl
  | .bool _ | .void | .error _ | .u32 _ | .i32 _ | .u64 _ | .i64 _ | .timepoint _ | .duration _
  | .u128 .. | .i128 .. | .u256 .. | .i256 .. | .bytes _ | .string _ | .symbol _ | .vecNone
  | .mapNone | .address _ | .contractInstance _ | .contractInstanceStorage ..
  | .ledgerKeyContractInstance | .ledgerKeyNonce _ | .executableTag _ => by rfl

theorem text_traceItems (places : List Place) (i : Nat) : (items : ScVec) →
    (traceItems places i items).text = writeItems places.length i items
  | .nil => rfl
  | .cons head tail => by
      rw [traceItems, writeItems]
      split
      · dsimp only
        rw [text_traceValue, text_traceItems, List.length_append, List.length_singleton]
      · rfl

theorem text_traceEntries (places : List Place) (i : Nat) : (entries : ScMap) →
    (traceEntries places i entries).text = writeEntries places.length i entries
  | .nil => rfl
  | .cons key val tail => by
      rw [traceEntries, writeEntries]
      split
      · dsimp only
        rw [text_traceValue, text_traceValue, text_traceEntries]
        simp only [List.length_append, List.length_singleton]
      · rfl

end

mutual

/-- **What is written for.**  `write_value` is called within those levels and items only. -/
theorem shown_traceValue {places : List Place} (h : Shown places) : (v : ScVal) →
    ∀ call ∈ (traceValue places v).calls, Shown call
  | .vec items => by
      rw [traceValue]
      split
      · next hdepth =>
        exact List.forall_mem_cons.mpr ⟨h, shown_traceItems h hdepth 0 items⟩
      · exact List.forall_mem_singleton.mpr h
  | .map entries => by
      rw [traceValue]
      split
      · next hdepth =>
        exact List.forall_mem_cons.mpr ⟨h, shown_traceEntries h hdepth 0 entries⟩
      · exact List.forall_mem_singleton.mpr h
  | .bool _ | .void | .error _ | .u32 _ | .i32 _ | .u64 _ | .i64 _ | .timepoint _ | .duration _
  | .u128 .. | .i128 .. | .u256 .. | .i256 .. | .bytes _ | .string _ | .symbol _ | .vecNone
  | .mapNone | .address _ | .contractInstance _ | .contractInstanceStorage ..
  | .ledgerKeyContractInstance | .ledgerKeyNonce _ | .executableTag _ =>
      List.forall_mem_singleton.mpr h

theorem shown_traceItems {places : List Place} (h : Shown places)
    (hdepth : places.length < labelMaxDepth) (i : Nat) : (items : ScVec) →
    ∀ call ∈ (traceItems places i items).calls, Shown call
  | .nil => by simp [traceItems]
  | .cons head tail => by
      rw [traceItems]
      split
      · next hi =>
        exact List.forall_mem_append.mpr ⟨shown_traceValue (h.append hdepth (.item i) hi) head,
          shown_traceItems h hdepth (i + 1) tail⟩
      · simp

theorem shown_traceEntries {places : List Place} (h : Shown places)
    (hdepth : places.length < labelMaxDepth) (i : Nat) : (entries : ScMap) →
    ∀ call ∈ (traceEntries places i entries).calls, Shown call
  | .nil => by simp [traceEntries]
  | .cons key val tail => by
      rw [traceEntries]
      split
      · next hi =>
        have hval : ∀ call ∈ (traceValue (places ++ [.val i]) val).calls, Shown call :=
          shown_traceValue (h.append hdepth (.val i) hi) val
        exact List.forall_mem_append.mpr ⟨shown_traceValue (h.append hdepth (.key i) hi) key,
          List.forall_mem_append.mpr ⟨hval, shown_traceEntries h hdepth (i + 1) tail⟩⟩
      · simp

end

end Trace

/-! ## Lengths -/

theorem length_natLabel_le {n k : Nat} (hk : 0 < k) (h : n < 10 ^ k) :
    (toString n : String).length ≤ k :=
  Nat.repr_length n k hk h

theorem length_intLabel_le {n : Int} {k : Nat} (hk : 0 < k) (h : n.natAbs < 10 ^ k) :
    (toString n : String).length ≤ k + 1 := by
  cases n with
  | ofNat n => exact Nat.le_succ_of_le (length_natLabel_le hk h)
  | negSucc n =>
      show ("-" ++ toString (n + 1) : String).length ≤ k + 1
      rw [String.length_append, Nat.add_comm]
      exact Nat.succ_le_succ (length_natLabel_le hk h)

theorem length_clipped_le (s : String) : (clipped s).length ≤ labelMaxText + 1 := by
  unfold clipped
  split
  · next h =>
    rw [← String.length_toList]
    omega
  · rw [String.length_append, String.length_ofList, List.length_take]
    have : ("…" : String).length = 1 := rfl
    omega

theorem length_hex (bytes : List UInt8) : (hex bytes).length = 2 * bytes.length := by
  rw [hex, String.length_ofList, List.length_flatMap]
  simp [Nat.mul_comm]

theorem length_bytesLabel_le (b : BytesM) : (bytesLabel b.bytes).length ≤ 38 := by
  have hhex : (hex (b.bytes.take 8)).length ≤ 16 := by
    rw [length_hex, List.length_take]
    omega
  have hmore : (if b.bytes.length > 8 then "…" else "" : String).length ≤ 1 := by
    split <;> decide
  have hcount : (toString b.bytes.length : String).length ≤ 10 := by
    refine length_natLabel_le (by decide) (Nat.lt_trans b.length_lt (by decide))
  have htext : (s!" ({b.bytes.length} bytes)").length
      = (toString b.bytes.length : String).length + 9 := by
    show (" (" ++ toString b.bytes.length ++ " bytes)" : String).length = _
    simp only [String.length_append]
    have h₁ : (" (" : String).length = 2 := rfl
    have h₂ : (" bytes)" : String).length = 7 := rfl
    omega
  unfold bytesLabel
  rw [String.length_append, String.length_append, String.length_append, htext]
  have h₀ : ("0x" : String).length = 2 := rfl
  omega

theorem ScErrorCode.length_name_le (c : ScErrorCode) : c.name.length ≤ 14 := by
  cases c <;> decide

theorem ScError.length_name_le (e : ScError) : e.name.length ≤ 8 := by
  cases e <;> simp only [ScError.name] <;> decide

theorem ScVal.length_name_le (v : ScVal) : v.name.length ≤ 25 := by
  cases v <;> simp only [ScVal.name] <;> decide

theorem length_errorLabel_le (e : ScError) : (errorLabel e).length ≤ 31 := by
  have hopen : ("Error(" : String).length = 6 := rfl
  have hclose : (")" : String).length = 1 := rfl
  have hhost : ∀ c : ScErrorCode,
      ("Error(" ++ e.name ++ ", " ++ c.name ++ ")" : String).length ≤ 31 := by
    intro c
    have hname := e.length_name_le
    have hcode := c.length_name_le
    have hcomma : (", " : String).length = 2 := rfl
    simp only [String.length_append]
    omega
  cases e with
  | contract n =>
      have hn : (toString n : String).length ≤ 10 :=
        length_natLabel_le (by decide) (Nat.lt_trans n.toNat_lt (by decide))
      have hcontract : ("Error(Contract, #" : String).length = 17 := rfl
      show ("Error(Contract, #" ++ toString n ++ ")" : String).length ≤ 31
      simp only [String.length_append]
      omega
  | _ c => exact hhost c

theorem length_itemSeparator_le (i : Nat) : (itemSeparator i).length ≤ 2 := by
  unfold itemSeparator
  split
  · exact Nat.le_refl 2
  · exact Nat.zero_le 2

/-- The length of a label with this many levels left, where an address takes `n` characters. -/
def labelBound (n : Nat) : Nat → Nat
  | 0 => n + 67
  | levels + 1 => 16 * labelBound n levels + 40

theorem le_labelBound (n levels : Nat) : n + 67 ≤ labelBound n levels := by
  induction levels with
  | zero => exact Nat.le_refl _
  | succ levels ih =>
      rw [labelBound]
      omega

/-- The label of a value that is only named. -/
theorem length_nameLabel_le (v : ScVal) : ("<" ++ v.name ++ ">" : String).length ≤ 67 := by
  have hlength := v.length_name_le
  have hopen : ("<" : String).length = 1 := rfl
  have hclose : (">" : String).length = 1 := rfl
  simp only [String.length_append]
  omega

theorem length_boolLabel_le (b : Bool) : (if b then "true" else "false" : String).length ≤ 5 := by
  cases b with
  | true => exact (by decide : 4 ≤ 5)
  | false => exact Nat.le_refl 5

theorem length_stringLabel_le (s : String) :
    ("\"" ++ clipped s ++ "\"" : String).length ≤ labelMaxText + 3 := by
  have hclipped := length_clipped_le s
  have hquote : ("\"" : String).length = 1 := rfl
  simp only [String.length_append]
  omega

section Bound

variable [Strkey]

/-- The label of a value that is no container. -/
theorem length_writeValue_le_of_leaf {n : Nat} (hn : ∀ a : ScAddress, a.display.length ≤ n)
    (depth : Nat) {v : ScVal} (hvec : ∀ items, v ≠ .vec items)
    (hmap : ∀ entries, v ≠ .map entries) :
    (writeValue depth v).length ≤ n + 67 := by
  have hshort : ∀ {s : String} {k : Nat}, s.length ≤ k → k ≤ 67 → s.length ≤ n + 67 := by
    intro s k hs hk
    omega
  cases v with
  | vec items => exact absurd rfl (hvec items)
  | map entries => exact absurd rfl (hmap entries)
  | bool b => exact hshort (length_boolLabel_le b) (by decide)
  | void => exact hshort (s := "void") (k := 4) (Nat.le_refl 4) (by decide)
  | error e => exact hshort (length_errorLabel_le e) (by decide)
  | u32 x =>
      exact hshort (length_natLabel_le (k := 10) (by decide)
        (Nat.lt_trans x.toNat_lt (by decide))) (by decide)
  | u64 x =>
      exact hshort (length_natLabel_le (k := 20) (by decide)
        (Nat.lt_trans x.toNat_lt (by decide))) (by decide)
  | i32 x =>
      have hx := x.toInt_lt
      have hx' := x.le_toInt
      refine hshort (length_intLabel_le (n := x.toInt) (k := 10) (by decide) ?_) (by decide)
      omega
  | i64 x =>
      have hx := x.toInt_lt
      have hx' := x.le_toInt
      refine hshort (length_intLabel_le (n := x.toInt) (k := 19) (by decide) ?_) (by decide)
      omega
  | bytes b => exact hshort (length_bytesLabel_le b) (by decide)
  | symbol s => exact hshort (length_clipped_le _) (by decide)
  | string s => exact hshort (length_stringLabel_le _) (by decide)
  | address a => exact Nat.le_trans (hn a) (Nat.le_add_right _ _)
  | _ => exact hshort (length_nameLabel_le _) (Nat.le_refl 67)

/-- The items of a container, each at most `bound` long. -/
theorem length_writeItems_le {depth bound : Nat}
    (hvalue : ∀ v, (writeValue (depth + 1) v).length ≤ bound) (i : Nat) : (items : ScVec) →
    (writeItems depth i items).length ≤ (labelMaxItems - i) * (bound + 2) + 3
  | .nil => Nat.zero_le _
  | .cons head tail => by
      rw [writeItems]
      split
      · next hi =>
        have hseparator := length_itemSeparator_le i
        have hhead := hvalue head
        have htail := length_writeItems_le hvalue (i + 1) tail
        have hcount : labelMaxItems - i = labelMaxItems - (i + 1) + 1 := by omega
        rw [hcount, Nat.succ_mul]
        simp only [String.length_append]
        omega
      · exact Nat.le_add_left 3 _

/-- The entries of a map, their keys and values each at most `bound` long. -/
theorem length_writeEntries_le {depth bound : Nat}
    (hvalue : ∀ v, (writeValue (depth + 1) v).length ≤ bound) (i : Nat) : (entries : ScMap) →
    (writeEntries depth i entries).length ≤ (labelMaxItems - i) * (2 * bound + 4) + 3
  | .nil => Nat.zero_le _
  | .cons key val tail => by
      rw [writeEntries]
      split
      · next hi =>
        have hseparator := length_itemSeparator_le i
        have hkey := hvalue key
        have hval := hvalue val
        have htail := length_writeEntries_le hvalue (i + 1) tail
        have hcolon : (": " : String).length = 2 := rfl
        have hcount : labelMaxItems - i = labelMaxItems - (i + 1) + 1 := by omega
        rw [hcount, Nat.succ_mul]
        simp only [String.length_append]
        omega
      · exact Nat.le_add_left 3 _

/-- **The length of a label.**  One level more shows eight items, or eight keys and values. -/
theorem length_writeValue_le {n : Nat} (hn : ∀ a : ScAddress, a.display.length ≤ n)
    (levels : Nat) : ∀ {depth : Nat}, labelMaxDepth ≤ depth + levels → ∀ v : ScVal,
      (writeValue depth v).length ≤ labelBound n levels := by
  induction levels with
  | zero =>
      intro depth hdepth v
      have helided : ¬ depth < labelMaxDepth := Nat.not_lt.mpr hdepth
      cases v with
      | vec items =>
          rw [writeValue, if_neg helided]
          exact Nat.le_trans (by decide : 6 ≤ 67) (Nat.le_add_left _ _)
      | map entries =>
          rw [writeValue, if_neg helided]
          exact Nat.le_trans (by decide : 6 ≤ 67) (Nat.le_add_left _ _)
      | _ => exact length_writeValue_le_of_leaf hn depth (by simp) (by simp)
  | succ levels ih =>
      intro depth hdepth v
      have hinner : ∀ v, (writeValue (depth + 1) v).length ≤ labelBound n levels :=
        ih (by omega)
      have hbase := le_labelBound n levels
      have hsucc : labelBound n (levels + 1) = 16 * labelBound n levels + 40 := rfl
      cases v with
      | vec items =>
          have hitems := length_writeItems_le hinner 0 items
          have hopen : ("vec[" : String).length = 4 := rfl
          have hclose : ("]" : String).length = 1 := rfl
          have helided : ("vec[…]" : String).length = 6 := rfl
          rw [writeValue]
          split
          · simp only [String.length_append, labelMaxItems] at hitems ⊢
            omega
          · omega
      | map entries =>
          have hentries := length_writeEntries_le hinner 0 entries
          have hopen : ("map\x7b" : String).length = 4 := rfl
          have hclose : ("\x7d" : String).length = 1 := rfl
          have helided : ("map\x7b…\x7d" : String).length = 6 := rfl
          rw [writeValue]
          split
          · simp only [String.length_append, labelMaxItems] at hentries ⊢
            omega
          · omega
      | _ =>
          refine Nat.le_trans (length_writeValue_le_of_leaf hn depth (by simp) (by simp)) ?_
          omega

/-- **Labels are bounded.**  Where the text of an address is bounded there is one bound for the
label of every value, whatever is in it; the label is what three levels of containers and eight
items of each are written as. -/
theorem valueLabel_bounded (h : ∃ n, ∀ a : ScAddress, a.display.length ≤ n) :
    ∃ bound, ∀ v : ScVal, (valueLabel v).length ≤ bound ∧
      (traceValue [] v).text = valueLabel v ∧
      ∀ call ∈ (traceValue [] v).calls, Shown call := by
  obtain ⟨n, hn⟩ := h
  refine ⟨labelBound n labelMaxDepth, fun v => ⟨?_, text_traceValue [] v, ?_⟩⟩
  · exact length_writeValue_le hn labelMaxDepth (Nat.le_add_left _ _) v
  · exact shown_traceValue ⟨Nat.zero_le _, by simp⟩ v

end Bound

/-- The printed address is at most 344 characters long. -/
theorem valueLabel_bounded_standard :
    (∃ n, ∀ a : ScAddress, (@ScAddress.display Strkey.standard a).length ≤ n) ∧
    ∃ bound, ∀ v : ScVal, (@valueLabel Strkey.standard v).length ≤ bound ∧
      (@traceValue Strkey.standard [] v).text = @valueLabel Strkey.standard v ∧
      ∀ call ∈ (@traceValue Strkey.standard [] v).calls, Shown call := by
  have hlength : ∃ n, ∀ a : ScAddress, (@ScAddress.display Strkey.standard a).length ≤ n :=
    ⟨344, Strkey.length_standard_le⟩
  exact ⟨hlength, @valueLabel_bounded Strkey.standard hlength⟩

end Observatory
