import Mathlib.Algebra.Group.Nat.Defs
import Mathlib.Tactic.TypeStar

/-!
# Record marking

A stream of records, each behind a mark of four bytes, the most significant first: the top bit
says whether a record ends here, the others give the number of bytes that follow.  A stream ends
with fewer bytes than a mark has, or in the middle of a record.

* `step_encode`, `encode_of_step` — the first record of a stream is read just where it stands.
* `search` — a loop over the records that stops at a result or an error.
* `search_spec` — where the loop stops.
* `search_eq_ok` — what the loop gives is what the first record gives that does not let it go on.
-/

namespace Framing

variable {α β ε : Type*}

/-! ## Frames -/

/-- The number of four bytes. -/
def markValue (b₀ b₁ b₂ b₃ : UInt8) : Nat :=
  ((b₀.toNat * 256 + b₁.toNat) * 256 + b₂.toNat) * 256 + b₃.toNat

/-- The number of bytes behind a mark: its low 31 bits. -/
def bodyLength (mark : Nat) : Nat := mark % 2 ^ 31

/-- A record: whether it is marked as a last one, and its bytes. -/
structure Frame where
  last : Bool
  body : List UInt8
  length_lt : body.length < 2 ^ 31

/-- The mark of a record. -/
def Frame.mark (f : Frame) : Nat := (if f.last then 2 ^ 31 else 0) + f.body.length

/-- The four bytes of a number. -/
def markBytes (n : Nat) : List UInt8 :=
  [UInt8.ofNat (n / 2 ^ 24), UInt8.ofNat (n / 2 ^ 16), UInt8.ofNat (n / 2 ^ 8), UInt8.ofNat n]

/-- A record with its mark. -/
def Frame.encode (f : Frame) : List UInt8 := markBytes f.mark ++ f.body

theorem Frame.mark_lt (f : Frame) : f.mark < 2 ^ 32 := by
  have hlt := f.length_lt
  unfold Frame.mark
  split <;> omega

theorem Frame.bodyLength_mark (f : Frame) : bodyLength f.mark = f.body.length := by
  have hlt := f.length_lt
  unfold bodyLength Frame.mark
  split <;> omega

/-- Four bytes are those of their number. -/
theorem markBytes_markValue (b₀ b₁ b₂ b₃ : UInt8) :
    markBytes (markValue b₀ b₁ b₂ b₃) = [b₀, b₁, b₂, b₃] := by
  have h₀ := b₀.toNat_lt
  have h₁ := b₁.toNat_lt
  have h₂ := b₂.toNat_lt
  have h₃ := b₃.toNat_lt
  have hbyte : ∀ (n : Nat) (b : UInt8), n % 256 = b.toNat → UInt8.ofNat n = b := by
    intro n b h
    apply UInt8.toNat_inj.mp
    rw [UInt8.toNat_ofNat', h]
  unfold markBytes markValue
  rw [hbyte _ b₀ (by omega), hbyte _ b₁ (by omega), hbyte _ b₂ (by omega), hbyte _ b₃ (by omega)]

/-- A number below `2 ^ 32` is that of its bytes. -/
theorem markValue_markBytes {n : Nat} (h : n < 2 ^ 32) :
    ∃ b₀ b₁ b₂ b₃, markBytes n = [b₀, b₁, b₂, b₃] ∧ markValue b₀ b₁ b₂ b₃ = n := by
  refine ⟨_, _, _, _, rfl, ?_⟩
  unfold markValue
  simp only [UInt8.toNat_ofNat']
  omega

/-! ## Streams -/

/-- What comes next in a stream. -/
inductive Step where
  /-- Fewer bytes than a mark has. -/
  | done
  /-- Fewer bytes than the mark says. -/
  | short
  | record (f : Frame) (rest : List UInt8)

/-- The record with which a stream begins. -/
def step : List UInt8 → Step
  | b₀ :: b₁ :: b₂ :: b₃ :: rest =>
      let mark := markValue b₀ b₁ b₂ b₃
      if h : bodyLength mark ≤ rest.length then
        .record ⟨2 ^ 31 ≤ mark, rest.take (bodyLength mark), by
          rw [List.length_take]
          exact Nat.lt_of_le_of_lt (Nat.min_le_left _ _) (Nat.mod_lt _ (by decide))⟩
          (rest.drop (bodyLength mark))
      else .short
  | _ => .done

/-- A record is read back, whatever comes behind it. -/
theorem step_encode (f : Frame) (rest : List UInt8) :
    step (f.encode ++ rest) = .record f rest := by
  obtain ⟨b₀, b₁, b₂, b₃, hbytes, hvalue⟩ := markValue_markBytes f.mark_lt
  have hlength : bodyLength (markValue b₀ b₁ b₂ b₃) = f.body.length := by
    rw [hvalue, f.bodyLength_mark]
  have hlast : decide (2 ^ 31 ≤ markValue b₀ b₁ b₂ b₃) = f.last := by
    have hlt := f.length_lt
    rw [hvalue, Frame.mark]
    cases f.last with
    | false => simpa using by omega
    | true => simp
  obtain ⟨last, body, hbody⟩ := f
  dsimp only at hlength hlast
  simp only [Frame.encode, hbytes, List.cons_append, List.nil_append, step, hlength]
  rw [dif_pos (by rw [List.length_append]; omega)]
  simp only [List.take_left, List.drop_left, hlast]

/-- A record that is read is the one that stands there. -/
theorem encode_of_step {bytes rest : List UInt8} {f : Frame} (h : step bytes = .record f rest) :
    bytes = f.encode ++ rest := by
  unfold step at h
  split at h
  · next b₀ b₁ b₂ b₃ rest' =>
    dsimp only at h
    split at h
    · next hle =>
      obtain ⟨rfl, rfl⟩ := Step.record.inj h
      have hmark : Frame.mark ⟨2 ^ 31 ≤ markValue b₀ b₁ b₂ b₃,
          rest'.take (bodyLength (markValue b₀ b₁ b₂ b₃)), by
            rw [List.length_take]
            exact Nat.lt_of_le_of_lt (Nat.min_le_left _ _) (Nat.mod_lt _ (by decide))⟩
          = markValue b₀ b₁ b₂ b₃ := by
        have h₀ := b₀.toNat_lt
        have h₁ := b₁.toNat_lt
        have h₂ := b₂.toNat_lt
        have h₃ := b₃.toNat_lt
        have hlt : markValue b₀ b₁ b₂ b₃ < 2 ^ 32 := by
          unfold markValue
          omega
        simp only [Frame.mark, List.length_take, Nat.min_eq_left hle, decide_eq_true_eq]
        unfold bodyLength at *
        split <;> omega
      rw [Frame.encode, hmark, markBytes_markValue, List.append_assoc, List.take_append_drop]
      rfl
    · cases h
  · cases h

theorem length_lt_of_step {bytes rest : List UInt8} {f : Frame} (h : step bytes = .record f rest) :
    rest.length < bytes.length := by
  rw [encode_of_step h, Frame.encode, markBytes, List.length_append, List.length_append]
  simp only [List.length_cons]
  omega

/-! ## Searching -/

/-- A loop over the records: `visit` gives a result, an error, or goes on. -/
def search (visit : List UInt8 → Except ε (Option α)) (short absent : ε) (bytes : List UInt8) :
    Except ε α :=
  match _h : step bytes with
  | .done => .error absent
  | .short => .error short
  | .record f rest =>
      match visit f.body with
      | .error e => .error e
      | .ok (some a) => .ok a
      | .ok none => search visit short absent rest
termination_by bytes.length
decreasing_by exact length_lt_of_step _h

variable {visit : List UInt8 → Except ε (Option α)} {short absent : ε}

theorem search_of_done {bytes : List UInt8} (h : step bytes = .done) :
    search visit short absent bytes = .error absent := by
  rw [search]
  split <;> simp_all

theorem search_of_short {bytes : List UInt8} (h : step bytes = .short) :
    search visit short absent bytes = .error short := by
  rw [search]
  split <;> simp_all

/-- The loop at a record. -/
theorem search_encode (f : Frame) (rest : List UInt8) :
    search visit short absent (f.encode ++ rest)
      = match visit f.body with
        | .error e => .error e
        | .ok (some a) => .ok a
        | .ok none => search visit short absent rest := by
  rw [search]
  split
  · next h =>
    rw [step_encode] at h
    cases h
  · next h =>
    rw [step_encode] at h
    cases h
  · next f' rest' h =>
    rw [step_encode] at h
    obtain ⟨rfl, rfl⟩ := Step.record.inj h
    rfl

/-- The loop goes over records that give nothing. -/
theorem search_skip {pre : List Frame} (h : ∀ f ∈ pre, visit f.body = .ok none)
    (rest : List UInt8) :
    search visit short absent (pre.flatMap Frame.encode ++ rest)
      = search visit short absent rest := by
  induction pre with
  | nil => rfl
  | cons f pre ih =>
      rw [List.flatMap_cons, List.append_assoc, search_encode, h f List.mem_cons_self]
      exact ih fun g hg => h g (List.mem_cons_of_mem _ hg)

/-- The loop stops in front of these bytes, with this result. -/
inductive Stops (visit : List UInt8 → Except ε (Option α)) (short absent : ε) :
    List UInt8 → Except ε α → Prop where
  | done {rest : List UInt8} (h : step rest = .done) : Stops visit short absent rest (.error absent)
  | short {rest : List UInt8} (h : step rest = .short) :
      Stops visit short absent rest (.error short)
  | error (f : Frame) (rest : List UInt8) {e : ε} (h : visit f.body = .error e) :
      Stops visit short absent (f.encode ++ rest) (.error e)
  | found (f : Frame) (rest : List UInt8) {a : α} (h : visit f.body = .ok (some a)) :
      Stops visit short absent (f.encode ++ rest) (.ok a)

/-- **Where the loop stops.**  It goes over records that give nothing, up to the end of the stream
or a record that gives a result or an error. -/
theorem search_spec (visit : List UInt8 → Except ε (Option α)) (short absent : ε)
    (bytes : List UInt8) :
    ∃ (pre : List Frame) (rest : List UInt8), bytes = pre.flatMap Frame.encode ++ rest ∧
      (∀ f ∈ pre, visit f.body = .ok none) ∧
      Stops visit short absent rest (search visit short absent bytes) := by
  have hhere : ∀ {bytes : List UInt8}, Stops visit short absent bytes
      (search visit short absent bytes) →
      ∃ (pre : List Frame) (rest : List UInt8), bytes = pre.flatMap Frame.encode ++ rest ∧
        (∀ f ∈ pre, visit f.body = .ok none) ∧
        Stops visit short absent rest (search visit short absent bytes) :=
    fun h => ⟨[], _, rfl, fun f hf => absurd hf List.not_mem_nil, h⟩
  induction hn : bytes.length using Nat.strongRecOn generalizing bytes with
  | ind n ih =>
    cases hstep : step bytes with
    | done => exact hhere (search_of_done hstep ▸ .done hstep)
    | short => exact hhere (search_of_short hstep ▸ .short hstep)
    | record f rest =>
        have hlength := length_lt_of_step hstep
        obtain rfl := encode_of_step hstep
        have hsearch : search visit short absent (f.encode ++ rest) = _ := search_encode f rest
        cases hvisit : visit f.body with
        | error e =>
            rw [hvisit] at hsearch
            exact hhere (hsearch ▸ .error f rest hvisit)
        | ok found =>
            rw [hvisit] at hsearch
            cases found with
            | some a => exact hhere (hsearch ▸ .found f rest hvisit)
            | none =>
                dsimp only at hsearch
                obtain ⟨pre, rest', rfl, hpre, hstops⟩ := ih _ (hn ▸ hlength) rest rfl
                rw [← hsearch] at hstops
                refine ⟨f :: pre, rest', ?_, ?_, hstops⟩
                · rw [List.flatMap_cons, List.append_assoc]
                · rintro g hg
                  rcases List.mem_cons.mp hg with rfl | hg
                  · exact hvisit
                  · exact hpre g hg

/-- **Results.**  The loop has the result of the first record that does not let it go on. -/
theorem search_eq_ok {bytes : List UInt8} {a : α} :
    search visit short absent bytes = .ok a ↔
      ∃ (pre : List Frame) (f : Frame) (rest : List UInt8),
        bytes = pre.flatMap Frame.encode ++ (f.encode ++ rest) ∧
          (∀ g ∈ pre, visit g.body = .ok none) ∧ visit f.body = .ok (some a) := by
  constructor
  · intro h
    obtain ⟨pre, rest, hbytes, hpre, hstops⟩ := search_spec visit short absent bytes
    rw [h] at hstops
    cases hstops with
    | found f rest' hvisit => exact ⟨pre, f, rest', hbytes, hpre, hvisit⟩
  · rintro ⟨pre, f, rest, rfl, hpre, hvisit⟩
    rw [search_skip hpre, search_encode, hvisit]

end Framing
