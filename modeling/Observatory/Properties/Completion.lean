import Observatory.Properties.Resumption

/-!
# Censuses that run to their end

A run that is not interrupted leaves both files in order, so the report accepts them, and
every ledger that any run chose is in the report: as read if it was readable in a run that
chose it, else as unreadable.

* `logged_ledgerMode` — a run logs each ledger that is due, with how the attempt went.
* `exists_table` — the table of a log.
* `Completed` — the files behind runs that ended.
* `load_completed` — what the report says of the ledgers.
-/

namespace Observatory

/-! ## The log of a run -/

/-- A log line is of a ledger, and says whether it was read. -/
def Attempts (line : Json) (e : UInt64 × Bool) : Prop :=
  line.ledger = some e.1 ∧ line.readLedger = if e.2 then some e.1 else none

theorem attempts_read (ledger : UInt64) (transactions failed : Nat) (cursor : Option String) :
    Attempts (LogLine.read ledger transactions failed cursor).json (ledger, true) := by
  have hledger : (LogLine.read ledger transactions failed cursor).json.ledger
      = (Json.number (toString ledger.toNat)).asU64 := rfl
  refine ⟨?_, readLedger_read ledger transactions failed cursor⟩
  rw [hledger, asU64_toString ledger.toNat_lt, UInt64.ofNatLT_toNat]

theorem attempts_unreadable (ledger : UInt64) :
    Attempts (LogLine.unreadable ledger).json (ledger, false) := by
  have hledger : (LogLine.unreadable ledger).json.ledger
      = (Json.number (toString ledger.toNat)).asU64 := rfl
  refine ⟨?_, readLedger_unreadable ledger⟩
  rw [hledger, asU64_toString ledger.toNat_lt, UInt64.ofNatLT_toNat]

section Completion

variable [Strkey] {decoders : Decoders} {net : Network}

/-- **The log of a run.**  Its lines are of the ledgers that are due, each with how its attempt
went. -/
theorem logged_ledgerMode (decoders : Decoders) (net : Network) (done ledgers : List UInt64) :
    ∀ s : RunState,
    (∀ line ∈ Journal.logOf (ledgerMode decoders net ⟨true, true⟩ done s ledgers).1,
      ∃ l ∈ ledgers, Attempts line (l, (net.wholeLedger l).isSome)) ∧
    ∀ l ∈ ledgers, l ∉ done →
      ∃ line ∈ Journal.logOf (ledgerMode decoders net ⟨true, true⟩ done s ledgers).1,
        Attempts line (l, (net.wholeLedger l).isSome) := by
  induction ledgers with
  | nil => exact fun s => ⟨fun line hline => (List.not_mem_nil hline).elim,
      fun l hl => (List.not_mem_nil hl).elim⟩
  | cons ledger ledgers ih =>
      intro s
      by_cases hdone : ledger ∈ done
      · rw [ledgerMode, if_pos hdone]
        obtain ⟨hsound, hcomplete⟩ := ih s
        refine ⟨fun line hline => ?_, fun l hl hnew => ?_⟩
        · obtain ⟨l, hl, hattempts⟩ := hsound line hline
          exact ⟨l, List.mem_cons_of_mem _ hl, hattempts⟩
        · rcases List.mem_cons.mp hl with rfl | hl
          · exact absurd hdone hnew
          · exact hcomplete l hl hnew
      · rw [ledgerMode, if_neg hdone]
        obtain ⟨line', hlogged, hattempts'⟩ : ∃ line',
            Journal.logOf (censusLedger decoders net ⟨true, true⟩ s ledger).1 = [line'] ∧
              Attempts line' (ledger, (net.wholeLedger ledger).isSome) := by
          unfold censusLedger
          cases net.wholeLedger ledger with
          | none => exact ⟨_, rfl, attempts_unreadable ledger⟩
          | some read =>
              dsimp only
              generalize ledgerRecords decoders net ledger (s.sampled read.transactions.length)
                read.transactions = result
              obtain ⟨records, s'⟩ := result
              refine ⟨_, ?_, attempts_read ledger read.transactions.length records.length
                read.finalCursor⟩
              rw [if_pos rfl, if_pos rfl, Journal.logOf_append, Journal.logOf_append,
                Journal.logOf_records]
              rfl
        obtain ⟨hsound, hcomplete⟩ := ih (censusLedger decoders net ⟨true, true⟩ s ledger).2
        dsimp only
        rw [Journal.logOf_append, hlogged, List.singleton_append]
        refine ⟨fun line hline => ?_, fun l hl hnew => ?_⟩
        · rcases List.mem_cons.mp hline with rfl | hline
          · exact ⟨ledger, List.mem_cons_self, hattempts'⟩
          · obtain ⟨l, hl, hattempts⟩ := hsound line hline
            exact ⟨l, List.mem_cons_of_mem _ hl, hattempts⟩
        · rcases List.mem_cons.mp hl with rfl | hl
          · exact ⟨line', List.mem_cons_self, hattempts'⟩
          · obtain ⟨line, hline, hattempts⟩ := hcomplete l hl hnew
            exact ⟨line, List.mem_cons_of_mem _ hline, hattempts⟩

/-! ## The table of a log -/

omit [Strkey] in
/-- A ledger that a line is of is unreadable until it is read. -/
theorem LedgerTable.mem_unreadable_line {t t' : LedgerTable} {line : Json}
    (h : t.line line = some t') (hnew : ∀ seq ∈ t.unreadable, seq ∉ t.ledgers.map Prod.fst)
    {seq : UInt64} : seq ∈ t'.unreadable ↔
      (seq ∈ t.unreadable ∨ line.ledger = some seq) ∧ seq ∉ t'.ledgers.map Prod.fst := by
  have hkeys := LedgerTable.mem_line h seq
  obtain ⟨seq₁, hseq, rfl⟩ := Option.map_eq_some_iff.mp h
  rw [hkeys, hseq, Option.some.injEq]
  by_cases hread : line.getStr "status" = some "read"
  · rw [if_pos hread, List.mem_filter, Json.readLedger, if_pos hread, hseq, Option.some.injEq,
      decide_eq_true_eq, not_or]
    constructor
    · rintro ⟨hmem, hne⟩
      exact ⟨.inl hmem, hnew seq hmem, Ne.symm hne⟩
    · rintro ⟨hmem | rfl, -, hne⟩
      · exact ⟨hmem, Ne.symm hne⟩
      · exact absurd rfl hne
  · rw [if_neg hread, Json.readLedger, if_neg hread]
    by_cases hmem : seq₁ ∈ t.ledgers.map Prod.fst
    · rw [if_pos hmem]
      constructor
      · intro hunreadable
        exact ⟨.inl hunreadable, by simpa using hnew seq hunreadable⟩
      · rintro ⟨hunreadable | rfl, hnot⟩
        · exact hunreadable
        · exact absurd (.inl hmem) hnot
    · rw [if_neg hmem, Scan.mem_pushNew]
      constructor
      · rintro (hunreadable | rfl)
        · exact ⟨.inl hunreadable, by simpa using hnew seq hunreadable⟩
        · exact ⟨.inr rfl, by simpa using hmem⟩
      · rintro ⟨hunreadable | rfl, -⟩
        · exact .inl hunreadable
        · exact .inr rfl

omit [Strkey] in
/-- Lines that all have a ledger make a table.  A ledger is in it once, as read or unreadable. -/
theorem exists_table (lines : List Json) (h : ∀ line ∈ lines, line.ledger.isSome) :
    ∃ t, lines.foldlM LedgerTable.line ⟨[], []⟩ = some t ∧ ∀ seq, seq ∈ t.unreadable ↔
      (∃ line ∈ lines, line.ledger = some seq) ∧ seq ∉ t.ledgers.map Prod.fst := by
  induction lines using List.reverseRecOn with
  | nil => exact ⟨_, rfl, by simp⟩
  | append_singleton lines line ih =>
      obtain ⟨t, ht, hunreadable⟩ := ih fun line hmem => h line (List.mem_append_left _ hmem)
      obtain ⟨seq₁, hseq⟩ := Option.isSome_iff_exists.mp
        (h line (List.mem_append_right _ (List.mem_singleton_self line)))
      obtain ⟨t', hline⟩ : ∃ t', t.line line = some t' := by
        rw [LedgerTable.line, hseq]
        exact ⟨_, rfl⟩
      refine ⟨t', ?_, fun seq => ?_⟩
      · rw [List.foldlM_append, ht]
        show [line].foldlM LedgerTable.line t = some t'
        rw [List.foldlM_cons, hline]
        rfl
      · have hexists : (∃ l ∈ lines ++ [line], l.ledger = some seq) ↔
            (∃ l ∈ lines, l.ledger = some seq) ∨ line.ledger = some seq := by
          simp [or_and_right, exists_or]
        have hkept : seq ∉ t'.ledgers.map Prod.fst → seq ∉ t.ledgers.map Prod.fst :=
          mt fun hmem => (LedgerTable.mem_line hline seq).mpr (.inl hmem)
        rw [LedgerTable.mem_unreadable_line hline (fun seq hmem => ((hunreadable seq).mp hmem).2),
          hunreadable seq, hexists]
        refine and_congr_left fun hnot => or_congr_left (and_iff_left (hkept hnot))

/-! ## Runs that end -/

variable (decoders)

/-- The files behind runs that ended, with what each run met and the ledgers it chose. -/
inductive Completed : List (Network × List UInt64) → Disk → Prop where
  | start : Completed [] ⟨.empty, .empty⟩
  | run {runs : List (Network × List UInt64)} {disk : Disk} {net : Network}
      {lo hi count : UInt64} {seed : String} {chosen : List UInt64} {effects : List Effect}
      {s : RunState} (h : Completed runs disk)
      (hchosen : stratifiedLedgers lo hi count seed = some chosen)
      (hrun : censusRun decoders net ⟨true, true⟩ lo hi count seed disk.log = some (effects, s)) :
      Completed (runs ++ [(net, chosen)]) (Journal.perform (opened disk) [] effects)

variable {decoders}

/-- What is true of the files behind runs that ended. -/
structure InOrder (runs : List (Network × List UInt64)) (disk : Disk) : Prop where
  records : disk.records.Tidy
  log : disk.log.Tidy
  /-- Each line is of an attempt. -/
  lines : ∀ line ∈ disk.log.values, ∃ run ∈ runs, ∃ l ∈ run.2,
    Attempts line (l, (run.1.wholeLedger l).isSome)
  /-- A ledger that was chosen has a line, and it is read if it was readable. -/
  chosen : ∀ run ∈ runs, ∀ l ∈ run.2, (∃ line ∈ disk.log.values, line.ledger = some l) ∧
    ((run.1.wholeLedger l).isSome → l ∈ alreadyRead disk.log)

omit [Strkey] in
theorem ledger_of_readLedger {line : Json} {l : UInt64} (h : line.readLedger = some l) :
    line.ledger = some l := by
  unfold Json.readLedger at h
  split at h
  · exact h
  · cases h

/-- **Runs that end.**  They leave the files in order. -/
theorem Completed.inOrder {runs : List (Network × List UInt64)} {disk : Disk}
    (h : Completed decoders runs disk) : InOrder runs disk := by
  induction h with
  | start => exact ⟨Journal.File.tidy_empty, Journal.File.tidy_empty,
      fun line hline => (List.not_mem_nil hline).elim, fun run hrun => (List.not_mem_nil hrun).elim⟩
  | @run runs disk net lo hi count seed chosen effects s h hchosen hrun ih =>
      have hmode : ledgerMode decoders net ⟨true, true⟩ (alreadyRead disk.log) .empty
          (Grouping.ascending UInt64.toNat chosen) = (effects, s) := by
        rw [censusRun, hchosen] at hrun
        exact Option.some.inj hrun
      have hopened : (opened disk).records.Tidy ∧ (opened disk).log = disk.log := by
        unfold opened
        split
        · exact ⟨Journal.File.tidy_empty, rfl⟩
        · exact ⟨ih.records, rfl⟩
      obtain ⟨hrecords, hlog, hvalues⟩ := Journal.perform_tidy [] effects hopened.1
        (hopened.2 ▸ ih.log : (opened disk).log.Tidy)
      rw [hopened.2] at hvalues
      obtain ⟨hsound, hcomplete⟩ := logged_ledgerMode decoders net (alreadyRead disk.log)
        (Grouping.ascending UInt64.toNat chosen) .empty
      rw [hmode] at hsound hcomplete
      have hread : ∀ l ∈ alreadyRead disk.log,
          l ∈ alreadyRead (Journal.perform (opened disk) [] effects).log := by
        intro l hl
        rw [alreadyRead, hvalues, List.filterMap_append]
        exact List.mem_append_left _ hl
      refine ⟨hrecords, hlog, fun line hline => ?_, fun run hrun l hl => ?_⟩
      · rw [hvalues] at hline
        rcases List.mem_append.mp hline with hline | hline
        · obtain ⟨run, hmem, hattempt⟩ := ih.lines line hline
          exact ⟨run, List.mem_append_left _ hmem, hattempt⟩
        · obtain ⟨l, hl, hattempts⟩ := hsound line hline
          exact ⟨(net, chosen), List.mem_append_right _ (List.mem_singleton_self _), l,
            Grouping.mem_ascending.mp hl, hattempts⟩
      · rw [hvalues]
        rcases List.mem_append.mp hrun with hrun | hrun
        · obtain ⟨⟨line, hline, hledger⟩, hreadable⟩ := ih.chosen run hrun l hl
          exact ⟨⟨line, List.mem_append_left _ hline, hledger⟩, fun h => hread l (hreadable h)⟩
        · obtain rfl := List.mem_singleton.mp hrun
          by_cases hdone : l ∈ alreadyRead disk.log
          · obtain ⟨line, hline, hreadLedger⟩ := List.mem_filterMap.mp hdone
            exact ⟨⟨line, List.mem_append_left _ hline, ledger_of_readLedger hreadLedger⟩,
              fun _ => hread l hdone⟩
          · obtain ⟨line, hline, hledger, hreadLedger⟩ :=
              hcomplete l (Grouping.mem_ascending.mpr hl) hdone
            refine ⟨⟨line, List.mem_append_right _ hline, hledger⟩, fun hreadable => ?_⟩
            rw [alreadyRead, hvalues]
            refine List.mem_filterMap.mpr ⟨line, List.mem_append_right _ hline, ?_⟩
            rw [hreadLedger, if_pos hreadable]

omit [Strkey] in
/-- A ledger is logged as read exactly when a run that chose it could read it. -/
theorem InOrder.mem_alreadyRead {runs : List (Network × List UInt64)} {disk : Disk}
    (h : InOrder runs disk) (l : UInt64) : l ∈ alreadyRead disk.log ↔
      ∃ run ∈ runs, l ∈ run.2 ∧ (run.1.wholeLedger l).isSome = true := by
  constructor
  · intro hl
    obtain ⟨line, hline, hreadLedger⟩ := List.mem_filterMap.mp hl
    obtain ⟨run, hrun, l', hl', hledger, hattempt⟩ := h.lines line hline
    obtain rfl : l' = l := Option.some.inj (hledger.symm.trans (ledger_of_readLedger hreadLedger))
    rw [hreadLedger] at hattempt
    refine ⟨run, hrun, hl', ?_⟩
    by_contra hnot
    rw [if_neg hnot] at hattempt
    cases hattempt
  · rintro ⟨run, hrun, hl, hreadable⟩
    exact (h.chosen run hrun l hl).2 hreadable

omit [Strkey] in
/-- The report accepts files in order. -/
theorem InOrder.exists_load {runs : List (Network × List UInt64)} {disk : Disk}
    (h : InOrder runs disk) (only : Option (UInt64 × UInt64)) :
    ∃ loaded, load disk only = some loaded ∧ ∀ l, l ∈ loaded.unreadable ↔
      within only l = true ∧ l ∉ loaded.read ∧ ∃ run ∈ runs, l ∈ run.2 := by
  obtain ⟨table, htable, hunreadable⟩ := exists_table disk.log.values (by
    intro line hline
    obtain ⟨run, -, l, -, hledger, -⟩ := h.lines line hline
    rw [hledger]
    rfl)
  have hrecords : disk.records.all = some disk.records.values :=
    Journal.File.all_eq_some.mpr ⟨h.records.intact, rfl⟩
  have hlog : disk.log.all = some disk.log.values :=
    Journal.File.all_eq_some.mpr ⟨h.log.intact, rfl⟩
  have hload : load disk only = some
      { ledgers := table.ledgers.filter (fun e => within only e.1)
        unreadable := table.unreadable.filter (within only)
        records := Grouping.firsts PilotRecord.transactionHash [] (disk.records.values.filter
          (fun r => r.ledger.toUInt64 ∈
            (table.ledgers.filter (fun e => within only e.1)).map Prod.fst)) } := by
    rw [load, hrecords, hlog]
    refine Option.bind_eq_some_iff.mpr ⟨_, rfl, Option.bind_eq_some_iff.mpr ⟨_, rfl, ?_⟩⟩
    exact Option.bind_eq_some_iff.mpr ⟨table, htable, rfl⟩
  have hkeys : ∀ l, l ∈ table.ledgers.map Prod.fst ↔ l ∈ alreadyRead disk.log := fun l => by
    rw [mem_foldlM_line htable, alreadyRead, List.mem_filterMap]
    simp
  refine ⟨_, hload, fun l => ?_⟩
  rw [Loaded.read, Grouping.mem_ascending, (load_eq_some hload).2.1, List.mem_filter, hunreadable,
    hkeys]
  constructor
  · rintro ⟨⟨⟨line, hline, hledger⟩, hnot⟩, honly⟩
    obtain ⟨run, hrun, l', hl', hledger', -⟩ := h.lines line hline
    obtain rfl : l' = l := Option.some.inj (hledger'.symm.trans hledger)
    exact ⟨honly, fun h => hnot h.1, run, hrun, hl'⟩
  · rintro ⟨honly, hnot, run, hrun, hl⟩
    exact ⟨⟨(h.chosen run hrun l hl).1, fun h => hnot ⟨h, honly⟩⟩, honly⟩

omit [Strkey] in
theorem mem_read {disk : Disk} {only : Option (UInt64 × UInt64)} {loaded : Loaded}
    (h : load disk only = some loaded) (l : UInt64) :
    l ∈ loaded.read ↔ l ∈ alreadyRead disk.log ∧ within only l = true := by
  rw [Loaded.read, Grouping.mem_ascending, (load_eq_some h).2.1]

/-- **Every chosen ledger.**  The report accepts the files of runs that ended.  It is about the
ledgers that were readable in a run that chose them, and states the other chosen ledgers as
unreadable. -/
theorem load_completed {runs : List (Network × List UInt64)} {disk : Disk}
    (h : Completed decoders runs disk) (only : Option (UInt64 × UInt64)) :
    ∃ loaded, load disk only = some loaded ∧
      (∀ l, l ∈ loaded.read ↔ within only l = true ∧
        ∃ run ∈ runs, l ∈ run.2 ∧ (run.1.wholeLedger l).isSome = true) ∧
      ∀ l, l ∈ loaded.unreadable ↔ within only l = true ∧ l ∉ loaded.read ∧
        ∃ run ∈ runs, l ∈ run.2 := by
  have horder := h.inOrder
  obtain ⟨loaded, hload, hunreadable⟩ := horder.exists_load only
  refine ⟨loaded, hload, fun l => ?_, hunreadable⟩
  rw [mem_read hload, horder.mem_alreadyRead, and_comm]

/-- The census of one ledger, to its end. -/
theorem completed_oneLedger (contract : ContractParser) (account : AccountParser) :
    Completed (oneLedgerDecoders contract account) [(oneLedgerNetwork, [5])]
      (Journal.perform (opened ⟨.empty, .empty⟩) [] (oneLedgerRun contract account).1) := by
  have hchosen : stratifiedLedgers 5 6 1 "" = some [5] := rfl
  have hrun : censusRun (oneLedgerDecoders contract account) oneLedgerNetwork ⟨true, true⟩ 5 6 1 ""
      .empty = some ((oneLedgerRun contract account).1, (oneLedgerRun contract account).2) :=
    (censusRun_oneLedger contract account).trans (congrArg some Prod.mk.eta.symm)
  exact .run .start hchosen hrun

end Completion

/-- The ledger of the completed census is reported as read. -/
theorem load_completed_oneLedger : ∃ disk loaded,
    @Completed Strkey.standard
      (@oneLedgerDecoders Strkey.standard Strkey.contractParser Strkey.parseAccount)
      [(oneLedgerNetwork, [5])] disk ∧
    load disk none = some loaded ∧ 5 ∈ loaded.read := by
  have h := @completed_oneLedger Strkey.standard Strkey.contractParser Strkey.parseAccount
  obtain ⟨loaded, hload, hread, -⟩ := @load_completed Strkey.standard _ _ _ h none
  exact ⟨_, loaded, h, hload, (hread 5).mpr ⟨rfl, _, List.mem_singleton_self _,
    List.mem_singleton_self _, rfl⟩⟩

end Observatory
