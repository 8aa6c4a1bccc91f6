import Mathlib.Data.List.Basic

/-!
# Files of lines, and crashes

A file to which lines are appended by processes that may stop at any time.  A line is the
text of a value; a process that stops may leave a part of one, or the whole of it without
the end of the line, and the next process appends behind that.  No text that was cut, and
none with another behind it, reads as a value.

* `File.Cut` — what a process that stops leaves of the lines it was to append.
* `File.Extends` — appending keeps every value, or leaves a line that no longer reads.
* `Runs` — two files and a buffer in front of the first: records go through the buffer,
  log entries past it.
* `Disciplined` — an entry is logged only when the records it speaks for are flushed.
* `Covered.runs` — the discipline, over every crash.
-/

namespace Journal

variable {α β κ θ : Type}

/-! ## Files -/

/-- The text of a value, or a part of it that is not the whole. -/
inductive Fragment (α : Type) where
  | whole (a : α)
  | part (a : α)
  deriving DecidableEq

/-- The value a line reads as. -/
def read : List (Fragment α) → Option α
  | [.whole a] => some a
  | _ => none

/-- A file: the lines that are ended, and what stands behind them. -/
structure File (α : Type) where
  ended : List (List (Fragment α))
  tail : List (Fragment α)
  deriving DecidableEq

namespace File

/-- A file without lines. -/
def empty : File α := ⟨[], []⟩

/-- The lines, the last of them perhaps not ended. -/
def lines (f : File α) : List (List (Fragment α)) :=
  if f.tail.isEmpty then f.ended else f.ended ++ [f.tail]

/-- The values of the lines that read as one. -/
def values (f : File α) : List α := f.lines.filterMap read

/-- Append a text. -/
def append (f : File α) (x : Fragment α) : File α := { f with tail := f.tail ++ [x] }

/-- End the line. -/
def newline (f : File α) : File α := ⟨f.ended ++ [f.tail], []⟩

/-- Append a value, and end the line. -/
def writeln (f : File α) (a : α) : File α := (f.append (.whole a)).newline

/-- Append values, a line for each. -/
def writelns (f : File α) (as : List α) : File α := as.foldl writeln f

/-- What a process that stops has appended of the lines it was to append. -/
inductive Cut : File α → List α → File α → Prop where
  /-- It stopped between two lines. -/
  | stop (f : File α) (as : List α) : Cut f as f
  /-- It stopped within a text. -/
  | part (f : File α) (a : α) (as : List α) : Cut f (a :: as) (f.append (.part a))
  /-- It stopped before the end of the line. -/
  | unended (f : File α) (a : α) (as : List α) : Cut f (a :: as) (f.append (.whole a))
  | line {f f' : File α} {a : α} {as : List α} (h : Cut (f.writeln a) as f') : Cut f (a :: as) f'

/-- Some line will never read as a value again. -/
def Broken (f : File α) : Prop := (∃ line ∈ f.ended, read line = none) ∨ 2 ≤ f.tail.length

/-- Every line reads as a value. -/
def Intact (f : File α) : Prop := ∀ line ∈ f.lines, (read line).isSome

instance (f : File α) : Decidable f.Intact :=
  inferInstanceAs (Decidable (∀ line ∈ f.lines, (read line).isSome = true))

/-- The values of a file all of whose lines read as one. -/
def all (f : File α) : Option (List α) := f.lines.mapM read

theorem mapM_of_isSome {γ δ : Type} {f : γ → Option δ} {l : List γ}
    (h : ∀ x ∈ l, (f x).isSome) : l.mapM f = some (l.filterMap f) := by
  induction l with
  | nil => rfl
  | cons x l ih =>
      obtain ⟨y, hy⟩ := Option.isSome_iff_exists.mp (h x List.mem_cons_self)
      rw [List.mapM_cons, List.filterMap_cons_some hy, hy,
        ih fun x' hx' => h x' (List.mem_cons_of_mem _ hx')]
      rfl

theorem isSome_of_mapM {γ δ : Type} {f : γ → Option δ} {l : List γ} {ys : List δ}
    (h : l.mapM f = some ys) : ∀ x ∈ l, (f x).isSome := by
  induction l generalizing ys with
  | nil => exact fun x hx => (List.not_mem_nil hx).elim
  | cons x l ih =>
      rw [List.mapM_cons] at h
      obtain ⟨y, hy, h⟩ := Option.bind_eq_some_iff.mp h
      obtain ⟨ys', hys', -⟩ := Option.bind_eq_some_iff.mp h
      intro x' hx'
      rcases List.mem_cons.mp hx' with rfl | hx'
      · rw [hy]
        rfl
      · exact ih hys' x' hx'

/-- A file is read as a whole when it is intact, and then its values are read. -/
theorem all_eq_some {f : File α} {as : List α} : f.all = some as ↔ f.Intact ∧ as = f.values := by
  constructor
  · intro h
    have hintact : f.Intact := isSome_of_mapM h
    rw [all, mapM_of_isSome hintact] at h
    exact ⟨hintact, (Option.some.inj h).symm⟩
  · rintro ⟨hintact, rfl⟩
    exact mapM_of_isSome hintact

/-! ### What appending keeps -/

theorem read_eq_none_of_two_le {line : List (Fragment α)} (h : 2 ≤ line.length) :
    read line = none := by
  unfold read
  split
  · exact absurd h (Nat.not_succ_le_self 1)
  · rfl

theorem mem_values {f : File α} {a : α} :
    a ∈ f.values ↔ [.whole a] ∈ f.ended ∨ f.tail = [.whole a] := by
  have hread : ∀ line : List (Fragment α), read line = some a ↔ line = [.whole a] := by
    intro line
    constructor
    · intro h
      unfold read at h
      split at h
      · rw [Option.some.inj h]
      · cases h
    · rintro rfl
      rfl
  rw [values, List.mem_filterMap]
  simp only [hread, exists_eq_right, lines]
  cases htail : f.tail with
  | nil => simp
  | cons x rest =>
      rw [List.isEmpty_cons, if_neg Bool.false_ne_true, List.mem_append, List.mem_singleton]
      exact or_congr_right eq_comm

theorem not_broken {f : File α} (h : f.Intact) : ¬ f.Broken := by
  rintro (⟨line, hline, hnone⟩ | htail)
  · have hmem : line ∈ f.lines := by
      unfold lines
      split
      · exact hline
      · exact List.mem_append_left _ hline
    have hsome := h line hmem
    rw [hnone] at hsome
    cases hsome
  · have hmem : f.tail ∈ f.lines := by
      unfold lines
      split
      · next hempty =>
        rw [List.isEmpty_iff.mp hempty] at htail
        exact absurd htail (Nat.not_succ_le_zero 1)
      · exact List.mem_append_right _ (List.mem_singleton_self _)
    have hsome := h _ hmem
    rw [read_eq_none_of_two_le htail] at hsome
    cases hsome

/-- A later state of a file: it has the values of the earlier, or a line that is lost. -/
structure Extends (f f' : File α) : Prop where
  values_or : ∀ a ∈ f.values, a ∈ f'.values ∨ f'.Broken
  broken : f.Broken → f'.Broken

namespace Extends

theorem refl (f : File α) : f.Extends f := ⟨fun _ h => .inl h, id⟩

theorem trans {f g h : File α} (hfg : f.Extends g) (hgh : g.Extends h) : f.Extends h := by
  refine ⟨fun a ha => ?_, fun hf => hgh.broken (hfg.broken hf)⟩
  rcases hfg.values_or a ha with ha | hbroken
  · exact hgh.values_or a ha
  · exact .inr (hgh.broken hbroken)

end Extends

/-- A text is behind what was there: an unended line is lost. -/
theorem extends_append (f : File α) (x : Fragment α) : f.Extends (f.append x) := by
  constructor
  · intro a ha
    rcases mem_values.mp ha with hended | htail
    · exact .inl (mem_values.mpr (.inl hended))
    · refine .inr (.inr ?_)
      show 2 ≤ (f.tail ++ [x]).length
      rw [htail]
      exact Nat.le_refl 2
  · rintro (hended | htail)
    · exact .inl hended
    · refine .inr ?_
      show 2 ≤ (f.tail ++ [x]).length
      rw [List.length_append]
      exact Nat.le_add_right_of_le htail

theorem extends_newline (f : File α) : f.Extends f.newline := by
  constructor
  · intro a ha
    refine .inl (mem_values.mpr (.inl (List.mem_append.mpr ?_)))
    rcases mem_values.mp ha with hended | htail
    · exact .inl hended
    · exact .inr (List.mem_singleton.mpr htail.symm)
  · rintro (⟨line, hline, hnone⟩ | htail)
    · exact .inl ⟨line, List.mem_append_left _ hline, hnone⟩
    · exact .inl ⟨f.tail, List.mem_append_right _ (List.mem_singleton_self _),
        read_eq_none_of_two_le htail⟩

theorem extends_writeln (f : File α) (a : α) : f.Extends (f.writeln a) :=
  (f.extends_append _).trans (extends_newline _)

/-- A line that was appended is there, or is lost behind what stood before it. -/
theorem mem_writeln (f : File α) (a : α) : a ∈ (f.writeln a).values ∨ (f.writeln a).Broken := by
  cases htail : f.tail with
  | nil =>
      refine .inl (mem_values.mpr (.inl (List.mem_append_right _ (List.mem_singleton.mpr ?_))))
      show [Fragment.whole a] = f.tail ++ [.whole a]
      rw [htail]
      rfl
  | cons x rest =>
      refine .inr (.inl ⟨f.tail ++ [.whole a],
        List.mem_append_right _ (List.mem_singleton_self _), ?_⟩)
      refine read_eq_none_of_two_le ?_
      rw [htail, List.length_append, List.length_cons, List.length_singleton]
      omega

theorem extends_writelns (f : File α) (as : List α) : f.Extends (f.writelns as) := by
  induction as generalizing f with
  | nil => exact .refl f
  | cons a as ih => exact (f.extends_writeln a).trans (ih _)

theorem mem_writelns (f : File α) {as : List α} {a : α} (ha : a ∈ as) :
    a ∈ (f.writelns as).values ∨ (f.writelns as).Broken := by
  induction as generalizing f with
  | nil => cases ha
  | cons b as ih =>
      rcases List.mem_cons.mp ha with rfl | ha
      · rcases f.mem_writeln a with hmem | hbroken
        · exact (extends_writelns _ as).values_or a hmem
        · exact .inr ((extends_writelns _ as).broken hbroken)
      · exact ih _ ha

theorem Cut.extends {f f' : File α} {as : List α} (h : Cut f as f') : f.Extends f' := by
  induction h with
  | stop f as => exact .refl f
  | part f a as => exact f.extends_append _
  | unended f a as => exact f.extends_append _
  | @line f f' a as h ih => exact (f.extends_writeln a).trans ih

/-! ### What appending adds -/

theorem mem_of_append {f : File α} {x : Fragment α} {b : α} (h : b ∈ (f.append x).values) :
    b ∈ f.values ∨ x = .whole b := by
  rcases mem_values.mp h with hended | htail
  · exact .inl (mem_values.mpr (.inl hended))
  · replace htail : f.tail ++ [x] = [.whole b] := htail
    cases hf : f.tail with
    | nil =>
        rw [hf] at htail
        exact .inr (List.cons.inj htail).1
    | cons y rest =>
        have hlength := congrArg List.length htail
        rw [hf, List.length_append, List.length_cons, List.length_singleton,
          List.length_singleton] at hlength
        omega

theorem mem_of_newline {f : File α} {b : α} (h : b ∈ f.newline.values) : b ∈ f.values := by
  rcases mem_values.mp h with hended | htail
  · rcases List.mem_append.mp hended with hended | hended
    · exact mem_values.mpr (.inl hended)
    · exact mem_values.mpr (.inr (List.mem_singleton.mp hended).symm)
  · cases htail

theorem mem_of_writeln {f : File α} {a b : α} (h : b ∈ (f.writeln a).values) :
    b ∈ f.values ∨ b = a := by
  rcases mem_of_append (mem_of_newline h) with hmem | hwhole
  · exact .inl hmem
  · exact .inr (Fragment.whole.inj hwhole).symm

theorem mem_of_writelns {f : File α} {as : List α} {b : α} (h : b ∈ (f.writelns as).values) :
    b ∈ f.values ∨ b ∈ as := by
  induction as generalizing f with
  | nil => exact .inl h
  | cons a as ih =>
      rcases ih h with hmem | hmem
      · rcases mem_of_writeln hmem with hmem | rfl
        · exact .inl hmem
        · exact .inr List.mem_cons_self
      · exact .inr (List.mem_cons_of_mem _ hmem)

theorem Cut.mem_of {f f' : File α} {as : List α} (h : Cut f as f') {b : α} (hb : b ∈ f'.values) :
    b ∈ f.values ∨ b ∈ as := by
  induction h with
  | stop f as => exact .inl hb
  | part f a as =>
      rcases mem_of_append hb with hmem | hwhole
      · exact .inl hmem
      · cases hwhole
  | unended f a as =>
      rcases mem_of_append hb with hmem | hwhole
      · exact .inl hmem
      · cases hwhole
        exact .inr List.mem_cons_self
  | @line f f' a as h ih =>
      rcases ih hb with hmem | hmem
      · rcases mem_of_writeln hmem with hmem | rfl
        · exact .inl hmem
        · exact .inr List.mem_cons_self
      · exact .inr (List.mem_cons_of_mem _ hmem)

end File

/-! ### Files that are left in order -/

namespace File

/-- Every line is ended and reads as a value. -/
structure Tidy (f : File α) : Prop where
  tail_eq : f.tail = []
  ended : ∀ line ∈ f.ended, (read line).isSome

theorem tidy_empty : (empty : File α).Tidy := ⟨rfl, fun _ h => (List.not_mem_nil h).elim⟩

namespace Tidy

variable {f : File α}

theorem lines_eq (h : f.Tidy) : f.lines = f.ended := by
  rw [lines, h.tail_eq, List.isEmpty_nil, if_pos rfl]

theorem intact (h : f.Tidy) : f.Intact := by
  unfold Intact
  rw [h.lines_eq]
  exact h.ended

theorem ended_writeln (h : f.Tidy) (a : α) : (f.writeln a).ended = f.ended ++ [[.whole a]] := by
  show f.ended ++ [f.tail ++ [.whole a]] = _
  rw [h.tail_eq, List.nil_append]

theorem writeln (h : f.Tidy) (a : α) : (f.writeln a).Tidy := by
  refine ⟨rfl, ?_⟩
  rw [h.ended_writeln]
  intro line hline
  rcases List.mem_append.mp hline with hline | hline
  · exact h.ended line hline
  · rw [List.mem_singleton.mp hline]
    rfl

theorem values_writeln (h : f.Tidy) (a : α) : (f.writeln a).values = f.values ++ [a] := by
  rw [values, values, (h.writeln a).lines_eq, h.lines_eq, h.ended_writeln, List.filterMap_append]
  rfl

theorem writelns (h : f.Tidy) (as : List α) : (f.writelns as).Tidy := by
  induction as generalizing f with
  | nil => exact h
  | cons a as ih => exact ih (h.writeln a)

end Tidy

end File

/-! ## A process with two files -/

/-- What a process does: put a record into the buffer, write the buffer out, log an entry. -/
inductive Effect (α β : Type) where
  | record (r : α)
  | flush
  | log (e : β)

/-- The record an effect puts into the buffer. -/
def Effect.recorded : Effect α β → Option α
  | .record r => some r
  | _ => none

/-- The records of some effects. -/
def recordsOf (es : List (Effect α β)) : List α := es.filterMap Effect.recorded

@[simp] theorem recordsOf_nil : recordsOf ([] : List (Effect α β)) = [] := rfl

@[simp] theorem recordsOf_flush (es : List (Effect α β)) :
    recordsOf (.flush :: es) = recordsOf es := rfl

@[simp] theorem recordsOf_log (e : β) (es : List (Effect α β)) :
    recordsOf (.log e :: es) = recordsOf es := rfl

@[simp] theorem recordsOf_append (es es' : List (Effect α β)) :
    recordsOf (es ++ es') = recordsOf es ++ recordsOf es' := List.filterMap_append

@[simp] theorem recordsOf_map_record (rs : List α) :
    recordsOf (rs.map (.record : α → Effect α β)) = rs := by
  induction rs with
  | nil => rfl
  | cons r rs ih =>
      show r :: recordsOf (rs.map .record) = _
      rw [ih]

theorem mem_recordsOf {es : List (Effect α β)} {r : α} : r ∈ recordsOf es ↔ .record r ∈ es := by
  rw [recordsOf, List.mem_filterMap]
  refine ⟨?_, fun h => ⟨_, h, rfl⟩⟩
  rintro ⟨e, he, hr⟩
  cases e with
  | record r' =>
      obtain rfl : r' = r := Option.some.inj hr
      exact he
  | _ => cases hr

/-- The files of records and of log entries. -/
structure Disk (α β : Type) where
  records : File α
  log : File β
  deriving DecidableEq

/-- The disks a process may leave that has put some records into its buffer and was to do the
rest.  The buffer may have been written out in part when the process stops. -/
inductive Runs : Disk α β → List α → List (Effect α β) → Disk α β → Prop where
  | stop {d : Disk α β} {buffer : List α} {f : File α} (es : List (Effect α β))
      (h : d.records.Cut buffer f) : Runs d buffer es ⟨f, d.log⟩
  | stopLogging {d : Disk α β} {buffer : List α} {f : File α} {e : β} {l : File β}
      (es : List (Effect α β)) (h : d.records.Cut buffer f) (hlog : d.log.Cut [e] l) :
      Runs d buffer (.log e :: es) ⟨f, l⟩
  | record {d d' : Disk α β} {buffer : List α} {r : α} {es : List (Effect α β)}
      (h : Runs d (buffer ++ [r]) es d') : Runs d buffer (.record r :: es) d'
  | flush {d d' : Disk α β} {buffer : List α} {es : List (Effect α β)}
      (h : Runs ⟨d.records.writelns buffer, d.log⟩ [] es d') : Runs d buffer (.flush :: es) d'
  | log {d d' : Disk α β} {buffer : List α} {e : β} {es : List (Effect α β)}
      (h : Runs ⟨d.records, d.log.writeln e⟩ buffer es d') : Runs d buffer (.log e :: es) d'

/-- Every record on the disk was there before, or was to be written. -/
theorem Runs.mem_records {d d' : Disk α β} {buffer : List α} {es : List (Effect α β)}
    (h : Runs d buffer es d') {r : α} (hr : r ∈ d'.records.values) :
    r ∈ d.records.values ∨ r ∈ buffer ∨ .record r ∈ es := by
  induction h with
  | stop es hcut => exact (hcut.mem_of hr).imp_right .inl
  | stopLogging es hcut _ => exact (hcut.mem_of hr).imp_right .inl
  | record h ih =>
      rcases ih hr with hmem | hmem | hmem
      · exact .inl hmem
      · rcases List.mem_append.mp hmem with hmem | hmem
        · exact .inr (.inl hmem)
        · rw [List.mem_singleton.mp hmem]
          exact .inr (.inr List.mem_cons_self)
      · exact .inr (.inr (List.mem_cons_of_mem _ hmem))
  | flush h ih =>
      rcases ih hr with hmem | hmem | hmem
      · exact (File.mem_of_writelns hmem).imp_right .inl
      · cases hmem
      · exact .inr (.inr (List.mem_cons_of_mem _ hmem))
  | log h ih =>
      rcases ih hr with hmem | hmem | hmem
      · exact .inl hmem
      · exact .inr (.inl hmem)
      · exact .inr (.inr (List.mem_cons_of_mem _ hmem))

/-- The disk behind a process that does everything, what is left in the buffer lost. -/
def perform : Disk α β → List α → List (Effect α β) → Disk α β
  | d, _, [] => d
  | d, buffer, .record r :: es => perform d (buffer ++ [r]) es
  | d, buffer, .flush :: es => perform ⟨d.records.writelns buffer, d.log⟩ [] es
  | d, buffer, .log e :: es => perform ⟨d.records, d.log.writeln e⟩ buffer es

/-- A process may do everything. -/
theorem runs_perform (d : Disk α β) (buffer : List α) (es : List (Effect α β)) :
    Runs d buffer es (perform d buffer es) := by
  induction es generalizing d buffer with
  | nil => exact .stop [] (.stop _ _)
  | cons e es ih =>
      cases e with
      | record r => exact .record (ih _ _)
      | flush => exact .flush (ih _ _)
      | log e => exact .log (ih _ _)

/-- The entry an effect logs. -/
def Effect.logged : Effect α β → Option β
  | .log e => some e
  | _ => none

/-- The entries of some effects. -/
def logOf (es : List (Effect α β)) : List β := es.filterMap Effect.logged

@[simp] theorem logOf_append (es es' : List (Effect α β)) :
    logOf (es ++ es') = logOf es ++ logOf es' := List.filterMap_append

@[simp] theorem logOf_records (rs : List α) :
    logOf (rs.map (.record : α → Effect α β)) = [] := by
  induction rs with
  | nil => rfl
  | cons r rs ih => exact ih

/-- Files in order are left in order, with every entry logged. -/
theorem perform_tidy {d : Disk α β} (buffer : List α) (es : List (Effect α β))
    (hrecords : d.records.Tidy) (hlog : d.log.Tidy) :
    (perform d buffer es).records.Tidy ∧ (perform d buffer es).log.Tidy ∧
      (perform d buffer es).log.values = d.log.values ++ logOf es := by
  induction es generalizing d buffer with
  | nil => exact ⟨hrecords, hlog, (List.append_nil _).symm⟩
  | cons e es ih =>
      cases e with
      | record r => exact ih (buffer ++ [r]) hrecords hlog
      | flush =>
          exact ih (d := ⟨d.records.writelns buffer, d.log⟩) [] (hrecords.writelns buffer) hlog
      | log e =>
          obtain ⟨hrecords', hlog', hvalues⟩ :=
            ih (d := ⟨d.records, d.log.writeln e⟩) buffer hrecords (hlog.writeln e)
          refine ⟨hrecords', hlog', hvalues.trans ?_⟩
          rw [hlog.values_writeln, List.append_assoc, List.singleton_append]
          rfl

/-! ## The discipline -/

section Discipline

variable (owed : β → θ → Prop) (key : α → θ)

/-- An entry is logged only when what it is owed is flushed: among the records that were
flushed before, given in front of the records in the buffer. -/
def Disciplined : List α → List α → List (Effect α β) → Prop
  | _, _, [] => True
  | flushed, buffer, .record r :: es => Disciplined flushed (buffer ++ [r]) es
  | flushed, buffer, .flush :: es => Disciplined (flushed ++ buffer) [] es
  | flushed, buffer, .log e :: es =>
      (∀ x, owed e x → x ∈ flushed.map key) ∧ Disciplined flushed buffer es

/-- What the entries of the log are owed is among the records, or a record is lost. -/
def Covered (d : Disk α β) : Prop := ∀ e ∈ d.log.values, ∀ x, owed e x →
  (∃ r ∈ d.records.values, key r = x) ∨ d.records.Broken

variable {owed key}

/-- Later states of the records keep what the log is owed. -/
theorem Covered.extends {d : Disk α β} {f : File α} (h : Covered owed key d)
    (hextends : d.records.Extends f) : Covered owed key ⟨f, d.log⟩ := by
  intro e he x hx
  rcases h e he x hx with ⟨r, hr, hkey⟩ | hbroken
  · exact (hextends.values_or r hr).imp_left fun hr => ⟨r, hr, hkey⟩
  · exact .inr (hextends.broken hbroken)

/-- **An entry.**  What is logged when its records are flushed, whole or cut, is covered. -/
theorem Covered.log {d : Disk α β} {flushed : List α} {e : β} {l : File β}
    (h : Covered owed key d) (howed : ∀ x, owed e x → x ∈ flushed.map key)
    (hflushed : ∀ r ∈ flushed, r ∈ d.records.values ∨ d.records.Broken)
    (hlog : ∀ e' ∈ l.values, e' ∈ d.log.values ∨ e' = e) : Covered owed key ⟨d.records, l⟩ := by
  intro e' he' x hx
  rcases hlog e' he' with hmem | rfl
  · exact h e' hmem x hx
  · obtain ⟨r, hr, hkey⟩ := List.mem_map.mp (howed x hx)
    exact (hflushed r hr).imp_left fun hr => ⟨r, hr, hkey⟩

/-- **The discipline.**  Wherever a process that keeps it stops, the log is covered. -/
theorem Covered.runs {d d' : Disk α β} {buffer : List α} {es : List (Effect α β)}
    (hruns : Runs d buffer es d') : ∀ {flushed : List α}, Disciplined owed key flushed buffer es →
    Covered owed key d → (∀ r ∈ flushed, r ∈ d.records.values ∨ d.records.Broken) →
    Covered owed key d' := by
  induction hruns with
  | stop es hcut =>
      intro flushed _ hcovered _
      exact hcovered.extends hcut.extends
  | @stopLogging d buffer f e l es hcut hlog =>
      intro flushed hdisciplined hcovered hflushed
      have hlogged : Covered owed key ⟨d.records, l⟩ :=
        hcovered.log hdisciplined.1 hflushed fun e' he' =>
          (hlog.mem_of he').imp_right List.mem_singleton.mp
      exact hlogged.extends hcut.extends
  | record h ih => exact ih
  | @flush d d' buffer es h ih =>
      intro flushed hdisciplined hcovered hflushed
      refine ih hdisciplined (hcovered.extends (File.extends_writelns _ _)) fun r hr => ?_
      rcases List.mem_append.mp hr with hr | hr
      · rcases hflushed r hr with hmem | hbroken
        · exact (File.extends_writelns _ buffer).values_or r hmem
        · exact .inr ((File.extends_writelns _ buffer).broken hbroken)
      · exact File.mem_writelns _ hr
  | log h ih =>
      intro flushed hdisciplined hcovered hflushed
      refine ih hdisciplined.2 (hcovered.log hdisciplined.1 hflushed fun e' he' => ?_) hflushed
      exact File.mem_of_writeln he'

/-- More records that were flushed before do no harm. -/
theorem Disciplined.mono {es : List (Effect α β)} : ∀ {flushed flushed' buffer : List α},
    (∀ r ∈ flushed, r ∈ flushed') → Disciplined owed key flushed buffer es →
    Disciplined owed key flushed' buffer es := by
  induction es with
  | nil => exact fun _ _ => trivial
  | cons e es ih =>
      intro flushed flushed' buffer hsub h
      cases e with
      | record r => exact ih hsub h
      | flush =>
          refine ih (fun r hr => ?_) h
          rcases List.mem_append.mp hr with hr | hr
          · exact List.mem_append_left _ (hsub r hr)
          · exact List.mem_append_right _ hr
      | log e =>
          refine ⟨fun x hx => ?_, ih hsub h.2⟩
          obtain ⟨r, hr, hkey⟩ := List.mem_map.mp (h.1 x hx)
          exact List.mem_map.mpr ⟨r, hsub r hr, hkey⟩

/-- Records, a flush, and what follows. -/
theorem disciplined_records {flushed : List α} (records : List α) {es : List (Effect α β)} :
    ∀ {buffer : List α}, Disciplined owed key flushed buffer (records.map .record ++ .flush :: es)
      ↔ Disciplined owed key (flushed ++ (buffer ++ records)) [] es := by
  induction records with
  | nil =>
      intro buffer
      rw [List.append_nil]
      exact Iff.rfl
  | cons r records ih =>
      intro buffer
      rw [List.map_cons, List.cons_append, Disciplined, ih, List.append_assoc,
        List.singleton_append]

end Discipline

end Journal
