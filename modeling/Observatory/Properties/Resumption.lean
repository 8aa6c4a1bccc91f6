import Observatory.Census.Summary
import Observatory.Properties.Accounting

/-!
# Interrupted and resumed censuses

A census is run over two files, again and again, and each run may stop anywhere: within a
line, between the records of a ledger and its log entry, in the middle of the log.  If the
report accepts the files, it counts each failed Soroban transaction of the ledgers the log
has as read once, and no other.

* `Genuine` — a record of a failed Soroban transaction of its ledger.
* `Owed` — what a log line says is recorded.
* `disciplined_ledgerMode` — a run logs a ledger behind its records.
* `Produced` — the files, over any number of runs, whatever the networks answer.
* `Reached` — the files, over any number of runs against one server.
* `load_exactly_once` — what the report counts.
-/

namespace Observatory

open Journal (Covered Disciplined Runs)

/-! ## Log lines -/

theorem readLedger_read (ledger : UInt64) (transactions failed : Nat) (cursor : Option String) :
    (LogLine.read ledger transactions failed cursor).json.readLedger = some ledger := by
  have hledger : (LogLine.read ledger transactions failed cursor).json.ledger
      = (Json.number (toString ledger.toNat)).asU64 := rfl
  have hstatus : (LogLine.read ledger transactions failed cursor).json.getStr "status"
      = some "read" := rfl
  rw [Json.readLedger, if_pos hstatus, hledger, asU64_toString ledger.toNat_lt,
    UInt64.ofNatLT_toNat]

theorem readLedger_unreadable (ledger : UInt64) :
    (LogLine.unreadable ledger).json.readLedger = none := by
  have hstatus : (LogLine.unreadable ledger).json.getStr "status" = some "unreadable" := rfl
  rw [Json.readLedger, hstatus, if_neg (by decide)]

/-! ## Records -/

section Resumption

variable [Strkey] (decoders : Decoders) (server : Server)

/-- A failed Soroban transaction of a ledger that the server holds. -/
def FailedIn (ledger : UInt64) (tx : Json) (model : TransactionModel) : Prop :=
  tx ∈ server.held ∧ tx.ledger = some ledger ∧ (tx.tallied decoders.xdr).model = some model

/-- A record of a failed Soroban transaction of its ledger. -/
def Genuine (r : PilotRecord) : Prop :=
  ∃ tx model lookup, FailedIn decoders server r.ledger.toUInt64 tx model ∧
    r = PilotRecord.new decoders.account tx.txHash r.ledger model lookup

/-- What a log line says is recorded: the failed Soroban transactions of a ledger that was read. -/
def Owed (line : Json) (x : UInt64 × String) : Prop :=
  line.readLedger = some x.1 ∧
    ∃ tx model, FailedIn decoders server x.1 tx model ∧ tx.txHash = x.2

/-- The ledger and the hash of a record. -/
def recordKey (r : PilotRecord) : UInt64 × String := (r.ledger.toUInt64, r.transactionHash)

/-- The network of a run is the server, and no read of a ledger is cut short. -/
def Network.Serves (net : Network) : Prop :=
  ∀ ledger, ∃ p : Provider, p.toServer = server ∧ p.rpc = net.rpc ledger ∧ ¬ p.CutShort ledger

variable {decoders server} {net : Network}

omit [Strkey] in
/-- What is read of a ledger is all of it. -/
theorem Network.Serves.transactions (h : net.Serves server) {ledger : UInt64} {read : LedgerRead}
    (hread : net.wholeLedger ledger = some read) :
    read.transactions = server.held.filter (fun tx => tx.ledger = some ledger) := by
  obtain ⟨p, rfl, hrpc, hwhole⟩ := h ledger
  obtain ⟨n, hn⟩ := net.wholeLedger_eq ledger
  rw [hread, ← hrpc] at hn
  exact Provider.loop_complete hwhole n .start Provider.readTo_start hn

/-- The records of a ledger: one for each of its failed Soroban transactions. -/
theorem ledgerRecords_spec (decoders : Decoders) (net : Network) (ledger : UInt64)
    (txs : List Json) : ∀ {s : RunState},
      (∀ r ∈ (ledgerRecords decoders net ledger s txs).1, ∃ tx ∈ txs, ∃ model lookup,
        (tx.tallied decoders.xdr).model = some model ∧
        r = PilotRecord.new decoders.account tx.txHash ledger.toUInt32 model lookup) ∧
      ∀ tx ∈ txs, ∀ model, (tx.tallied decoders.xdr).model = some model →
        ∃ r ∈ (ledgerRecords decoders net ledger s txs).1,
          r.transactionHash = tx.txHash ∧ r.ledger = ledger.toUInt32 := by
  induction txs with
  | nil => exact ⟨fun r hr => (List.not_mem_nil hr).elim, fun tx htx => (List.not_mem_nil htx).elim⟩
  | cons tx txs ih =>
      intro s
      cases htallied : (tx.tallied decoders.xdr).model with
      | none =>
          rw [ledgerRecords_of_none decoders net htallied]
          obtain ⟨hsound, hcomplete⟩ := ih (s := s.counted decoders tx)
          refine ⟨fun r hr => ?_, fun tx' htx' model hmodel => ?_⟩
          · obtain ⟨tx', htx', hnew⟩ := hsound r hr
            exact ⟨tx', List.mem_cons_of_mem _ htx', hnew⟩
          · rcases List.mem_cons.mp htx' with rfl | htx'
            · rw [htallied] at hmodel
              cases hmodel
            · exact hcomplete tx' htx' model hmodel
      | some model =>
          rw [ledgerRecords_of_some decoders net htallied]
          obtain ⟨hsound, hcomplete⟩ :=
            ih (s := (lookupRoot decoders net model (s.counted decoders tx)).2)
          refine ⟨fun r hr => ?_, fun tx' htx' model' hmodel => ?_⟩
          · rcases List.mem_cons.mp hr with rfl | hr
            · exact ⟨tx, List.mem_cons_self, model, _, htallied, rfl⟩
            · obtain ⟨tx', htx', hnew⟩ := hsound r hr
              exact ⟨tx', List.mem_cons_of_mem _ htx', hnew⟩
          · rcases List.mem_cons.mp htx' with rfl | htx'
            · exact ⟨_, List.mem_cons_self, rfl, rfl⟩
            · obtain ⟨r, hr, hkey⟩ := hcomplete tx' htx' model' hmodel
              exact ⟨r, List.mem_cons_of_mem _ hr, hkey⟩

/-! ## Runs -/

omit [Strkey] in
/-- A ledger number is one of 32 bits. -/
theorem toUInt64_toUInt32 {ledger : UInt64} (h : ledger.toNat < UInt32.size) :
    ledger.toUInt32.toUInt64 = ledger := by
  apply UInt64.toNat_inj.mp
  rw [UInt32.toNat_toUInt64, UInt64.toNat_toUInt32]
  exact Nat.mod_eq_of_lt h

/-- The records of one ledger are genuine, and all that its log line says is recorded. -/
theorem ledger_genuine (decoders : Decoders) (hserves : net.Serves server) {ledger : UInt64}
    {read : LedgerRead} (hread : net.wholeLedger ledger = some read)
    (hledger : ledger.toNat < UInt32.size) (s : RunState) :
    (∀ r ∈ (ledgerRecords decoders net ledger s read.transactions).1, Genuine decoders server r) ∧
      ∀ x, (∃ tx model, FailedIn decoders server ledger tx model ∧ (ledger, tx.txHash) = x) →
        x ∈ (ledgerRecords decoders net ledger s read.transactions).1.map recordKey := by
  obtain ⟨hsound, hcomplete⟩ := ledgerRecords_spec decoders net ledger
    read.transactions (s := s)
  have hmem : ∀ tx, tx ∈ read.transactions ↔ tx ∈ server.held ∧ tx.ledger = some ledger := by
    intro tx
    rw [hserves.transactions hread, List.mem_filter, decide_eq_true_eq]
  refine ⟨fun r hr => ?_, ?_⟩
  · obtain ⟨tx, htx, model, lookup, hmodel, rfl⟩ := hsound r hr
    obtain ⟨hheld, htxledger⟩ := (hmem tx).mp htx
    refine ⟨tx, model, lookup, ⟨hheld, ?_, hmodel⟩, rfl⟩
    show tx.ledger = some ledger.toUInt32.toUInt64
    rw [toUInt64_toUInt32 hledger]
    exact htxledger
  · rintro x ⟨tx, model, ⟨hheld, htxledger, hmodel⟩, rfl⟩
    obtain ⟨r, hr, hhash, hrledger⟩ :=
      hcomplete tx ((hmem tx).mpr ⟨hheld, htxledger⟩) model hmodel
    refine List.mem_map.mpr ⟨r, hr, ?_⟩
    rw [recordKey, hhash, hrledger, toUInt64_toUInt32 hledger]

/-- **The discipline of a run.**  What it logs is flushed before, and what it records is genuine. -/
theorem disciplined_ledgerMode (decoders : Decoders) (hserves : net.Serves server)
    (done ledgers : List UInt64) (hledgers : ∀ ledger ∈ ledgers, ledger.toNat < UInt32.size) :
    ∀ s : RunState,
      Disciplined (Owed decoders server) recordKey [] []
        (ledgerMode decoders net ⟨true, true⟩ done s ledgers).1 ∧
      ∀ r ∈ Journal.recordsOf (ledgerMode decoders net ⟨true, true⟩ done s ledgers).1,
        Genuine decoders server r := by
  induction ledgers with
  | nil => exact fun s => ⟨trivial, fun r hr => (List.not_mem_nil hr).elim⟩
  | cons ledger ledgers ih =>
      intro s
      have hrest := ih fun l hl => hledgers l (List.mem_cons_of_mem _ hl)
      by_cases hdone : ledger ∈ done
      · rw [ledgerMode, if_pos hdone]
        exact hrest s
      · rw [ledgerMode, if_neg hdone]
        unfold censusLedger
        cases hread : net.wholeLedger ledger with
        | none =>
            refine ⟨⟨fun x hx => ?_, (hrest _).1⟩, (hrest _).2⟩
            -- nothing is owed to a ledger that could not be read
            rw [Owed, readLedger_unreadable] at hx
            cases hx.1
        | some read =>
            obtain ⟨hgenuine, howed⟩ := ledger_genuine decoders hserves hread
              (hledgers ledger List.mem_cons_self) (s.sampled read.transactions.length)
            dsimp only
            generalize ledgerRecords decoders net ledger (s.sampled read.transactions.length)
              read.transactions = result at hgenuine howed
            obtain ⟨records, s'⟩ := result
            obtain ⟨hlater, hgenuine'⟩ := hrest s'
            refine ⟨?_, fun r hr => ?_⟩
            · rw [if_pos rfl, if_pos rfl, List.append_assoc, List.append_assoc]
              show Disciplined _ _ [] [] (records.map .record ++ .flush :: .log _ :: _)
              rw [Journal.disciplined_records]
              refine ⟨?_, hlater.mono fun r hr => (List.not_mem_nil hr).elim⟩
              rintro x ⟨hledger, tx, model, hfailed, hhash⟩
              rw [readLedger_read] at hledger
              obtain rfl : ledger = x.1 := Option.some.inj hledger
              exact howed x ⟨tx, model, hfailed, Prod.ext rfl hhash⟩
            · rw [Journal.recordsOf_append] at hr
              rcases List.mem_append.mp hr with hr | hr
              · refine hgenuine r ?_
                simpa using hr
              · exact hgenuine' r hr

omit [Strkey] in
/-- A ledger that is chosen is in the window. -/
theorem strata_le {lo hi stratum : UInt64} (n : Nat) : ∀ {i : Nat} {state : UInt64}
    {chosen : List UInt64}, strata lo hi stratum n i state = some chosen →
      ∀ ledger ∈ chosen, ledger ≤ hi := by
  induction n with
  | zero =>
      intro i state chosen h ledger hledger
      obtain rfl := Option.some.inj h
      exact (List.not_mem_nil hledger).elim
  | succ n ih =>
      intro i state chosen h ledger hledger
      rw [strata] at h
      obtain ⟨offset, -, h⟩ := Option.bind_eq_some_iff.mp h
      obtain ⟨base, -, h⟩ := Option.bind_eq_some_iff.mp h
      obtain ⟨first, -, h⟩ := Option.bind_eq_some_iff.mp h
      obtain ⟨later, hlater, h⟩ := Option.bind_eq_some_iff.mp h
      obtain rfl := Option.some.inj h
      rcases List.mem_cons.mp hledger with rfl | hledger
      · split
        · assumption
        · exact UInt64.le_refl hi
      · exact ih hlater ledger hledger

/-- What a run records are records of transactions, whatever the network answers. -/
theorem new_ledgerMode (decoders : Decoders) (net : Network) (done ledgers : List UInt64) :
    ∀ s : RunState,
      ∀ r ∈ Journal.recordsOf (ledgerMode decoders net ⟨true, true⟩ done s ledgers).1,
        ∃ hash ledger model lookup,
          r = PilotRecord.new decoders.account hash ledger model lookup := by
  induction ledgers with
  | nil => exact fun s r hr => (List.not_mem_nil hr).elim
  | cons ledger ledgers ih =>
      intro s r hr
      by_cases hdone : ledger ∈ done
      · rw [ledgerMode, if_pos hdone] at hr
        exact ih s r hr
      · rw [ledgerMode, if_neg hdone] at hr
        unfold censusLedger at hr
        cases hread : net.wholeLedger ledger with
        | none =>
            rw [hread] at hr
            exact ih _ r hr
        | some read =>
            rw [hread] at hr
            simp only [Journal.recordsOf_append] at hr
            rcases List.mem_append.mp hr with hr | hr
            · obtain ⟨tx, -, model, lookup, -, hnew⟩ := (ledgerRecords_spec decoders net ledger
                read.transactions (s := s.sampled read.transactions.length)).1 r (by simpa using hr)
              exact ⟨_, _, model, lookup, hnew⟩
            · exact ih _ r hr

variable (decoders server)

/-- The files of a census, over runs that may stop anywhere. -/
inductive Produced : Disk → Prop where
  | start : Produced ⟨.empty, .empty⟩
  | run {disk disk' : Disk} {net : Network} {lo hi count : UInt64} {seed : String}
      {effects : List Effect} {s : RunState} (h : Produced disk)
      (hrun : censusRun decoders net ⟨true, true⟩ lo hi count seed disk.log = some (effects, s))
      (hstop : Runs (opened disk) [] effects disk') : Produced disk'

/-- The files of a census, over runs against one server that may stop anywhere. -/
inductive Reached : Disk → Prop where
  | start : Reached ⟨.empty, .empty⟩
  | run {disk disk' : Disk} {net : Network} {lo hi count : UInt64} {seed : String}
      {effects : List Effect} {s : RunState} (h : Reached disk) (hserves : net.Serves server)
      (hhi : hi.toNat < UInt32.size)
      (hrun : censusRun decoders net ⟨true, true⟩ lo hi count seed disk.log = some (effects, s))
      (hstop : Runs (opened disk) [] effects disk') : Reached disk'

variable {decoders server}

theorem Reached.produced {disk : Disk} (h : Reached decoders server disk) :
    Produced decoders disk := by
  induction h with
  | start => exact .start
  | run h hserves hhi hrun hstop ih => exact ih.run hrun hstop

omit [Strkey] in
/-- The files open as they are, or the records start anew. -/
theorem mem_opened {disk : Disk} {r : PilotRecord} (h : r ∈ (opened disk).records.values) :
    r ∈ disk.records.values := by
  unfold opened at h
  split at h
  · exact (List.not_mem_nil h).elim
  · exact h

/-- The records that are written are records of transactions. -/
theorem Produced.records {disk : Disk} (h : Produced decoders disk) :
    ∀ r ∈ disk.records.values, ∃ hash ledger model lookup,
      r = PilotRecord.new decoders.account hash ledger model lookup := by
  induction h with
  | start => exact fun r hr => (List.not_mem_nil hr).elim
  | @run disk disk' net lo hi count seed effects s h hrun hstop ih =>
      obtain ⟨chosen, -, hmode⟩ := Option.map_eq_some_iff.mp hrun
      intro r hr
      rcases hstop.mem_records hr with hr | hr | hr
      · exact ih r (mem_opened hr)
      · exact (List.not_mem_nil hr).elim
      · refine new_ledgerMode decoders net (alreadyRead disk.log)
          (Grouping.ascending UInt64.toNat chosen) .empty r ?_
        rw [hmode]
        exact Journal.mem_recordsOf.mpr hr

/-- What the runs keep: the log is covered, and the records are genuine. -/
theorem Reached.sound {disk : Disk} (h : Reached decoders server disk) :
    Covered (Owed decoders server) recordKey disk ∧
      ∀ r ∈ disk.records.values, Genuine decoders server r := by
  induction h with
  | start => exact ⟨fun e he => (List.not_mem_nil he).elim, fun r hr => (List.not_mem_nil hr).elim⟩
  | @run disk disk' net lo hi count seed effects s h hserves hhi hrun hstop ih =>
      obtain ⟨hcovered, hgenuine⟩ := ih
      obtain ⟨chosen, hchosen, hmode⟩ := Option.map_eq_some_iff.mp hrun
      have hledgers : ∀ ledger ∈ Grouping.ascending UInt64.toNat chosen,
          ledger.toNat < UInt32.size := fun ledger hledger =>
        Nat.lt_of_le_of_lt (UInt64.le_iff_toNat_le.mp
          (strata_le _ hchosen ledger (Grouping.mem_ascending.mp hledger))) hhi
      obtain ⟨hdisciplined, hrecords⟩ := disciplined_ledgerMode decoders hserves
        (alreadyRead disk.log) _ hledgers .empty
      rw [hmode] at hdisciplined hrecords
      have hopened : Covered (Owed decoders server) recordKey (opened disk) ∧
          ∀ r ∈ (opened disk).records.values, Genuine decoders server r := by
        unfold opened
        split
        · next hnone =>
          -- no line of the log claims anything
          refine ⟨fun e he x hx => ?_, fun r hr => (List.not_mem_nil hr).elim⟩
          have hmem : x.1 ∈ alreadyRead disk.log := List.mem_filterMap.mpr ⟨e, he, hx.1⟩
          rw [List.isEmpty_iff.mp hnone] at hmem
          exact (List.not_mem_nil hmem).elim
        · exact ⟨hcovered, hgenuine⟩
      refine ⟨Covered.runs hstop hdisciplined hopened.1 fun r hr => (List.not_mem_nil hr).elim,
        fun r hr => ?_⟩
      rcases hstop.mem_records hr with hr | hr | hr
      · exact hopened.2 r hr
      · exact (List.not_mem_nil hr).elim
      · exact hrecords r (Journal.mem_recordsOf.mpr hr)

/-! ## The report -/

omit [Strkey] in
/-- A line adds the ledger that it says was read. -/
theorem LedgerTable.mem_line {t t' : LedgerTable} {line : Json} (h : t.line line = some t')
    (seq : UInt64) : seq ∈ t'.ledgers.map Prod.fst ↔
      seq ∈ t.ledgers.map Prod.fst ∨ line.readLedger = some seq := by
  obtain ⟨seq₁, hseq, rfl⟩ := Option.map_eq_some_iff.mp h
  by_cases hread : line.getStr "status" = some "read"
  · rw [if_pos hread, Grouping.map_fst_modify, Scan.mem_pushNew, Json.readLedger, if_pos hread,
      hseq, Option.some.injEq]
    exact or_congr_right eq_comm
  · rw [if_neg hread, Json.readLedger, if_neg hread]
    split <;> simp

omit [Strkey] in
/-- The ledgers of the table are those the lines say were read. -/
theorem mem_foldlM_line {lines : List Json} : ∀ {t t' : LedgerTable},
    lines.foldlM LedgerTable.line t = some t' → ∀ {seq : UInt64},
      (seq ∈ t'.ledgers.map Prod.fst ↔ seq ∈ t.ledgers.map Prod.fst ∨
        ∃ line ∈ lines, line.readLedger = some seq) := by
  induction lines with
  | nil =>
      intro t t' h seq
      obtain rfl := Option.some.inj h
      simp
  | cons line lines ih =>
      intro t t' h seq
      rw [List.foldlM_cons] at h
      obtain ⟨t₁, hline, hrest⟩ := Option.bind_eq_some_iff.mp h
      rw [ih hrest, LedgerTable.mem_line hline seq, List.exists_mem_cons_iff, or_assoc]

omit [Strkey] in
/-- What the report loads of files it accepts. -/
theorem load_eq_some {disk : Disk} {only : Option (UInt64 × UInt64)} {loaded : Loaded}
    (h : load disk only = some loaded) : disk.records.Intact ∧
      (∀ ledger, ledger ∈ loaded.ledgers.map Prod.fst ↔
        ledger ∈ alreadyRead disk.log ∧ within only ledger = true) ∧
      loaded.records = Grouping.firsts PilotRecord.transactionHash []
        (disk.records.values.filter (fun r =>
          r.ledger.toUInt64 ∈ loaded.ledgers.map Prod.fst)) := by
  obtain ⟨recs, hrecs, h⟩ := Option.bind_eq_some_iff.mp h
  obtain ⟨lines, hlines, h⟩ := Option.bind_eq_some_iff.mp h
  obtain ⟨table, htable, h⟩ := Option.bind_eq_some_iff.mp h
  obtain rfl := Option.some.inj h
  obtain ⟨hintact, rfl⟩ := Journal.File.all_eq_some.mp hrecs
  obtain ⟨-, rfl⟩ := Journal.File.all_eq_some.mp hlines
  refine ⟨hintact, fun ledger => ?_, rfl⟩
  have hkeys : ledger ∈ table.ledgers.map Prod.fst ↔ ledger ∈ [].map Prod.fst ∨
      ∃ line ∈ disk.log.values, line.readLedger = some ledger := mem_foldlM_line htable
  have hread : ledger ∈ table.ledgers.map Prod.fst ↔ ledger ∈ alreadyRead disk.log := by
    rw [hkeys, alreadyRead, List.mem_filterMap]
    simp
  rw [← hread]
  simp only [List.mem_map, List.mem_filter]
  constructor
  · rintro ⟨e, ⟨he, honly⟩, rfl⟩
    exact ⟨⟨e, he, rfl⟩, honly⟩
  · rintro ⟨⟨e, he, rfl⟩, honly⟩
    exact ⟨e, ⟨he, honly⟩, rfl⟩

/-- A record that is loaded is genuine, and of a ledger the report is about. -/
theorem Reached.genuine {disk : Disk} (h : Reached decoders server disk)
    {only : Option (UInt64 × UInt64)} {loaded : Loaded} (hload : load disk only = some loaded) :
    ∀ r ∈ loaded.records, r.ledger.toUInt64 ∈ loaded.ledgers.map Prod.fst ∧
      Genuine decoders server r := by
  obtain ⟨-, -, hrecords⟩ := load_eq_some hload
  intro r hr
  rw [hrecords] at hr
  obtain ⟨hvalue, hledger⟩ := List.mem_filter.mp ((Grouping.firsts_sublist _ _ _).subset hr)
  exact ⟨of_decide_eq_true hledger, h.sound.2 r hvalue⟩

/-- The hashes that are loaded are those of the failed transactions of the ledgers read. -/
theorem Reached.mem_hashes {disk : Disk} (h : Reached decoders server disk)
    {only : Option (UInt64 × UInt64)} {loaded : Loaded} (hload : load disk only = some loaded)
    (hash : String) : hash ∈ loaded.records.map PilotRecord.transactionHash ↔
      ∃ ledger ∈ loaded.ledgers.map Prod.fst, ∃ tx model,
        FailedIn decoders server ledger tx model ∧ tx.txHash = hash := by
  obtain ⟨hintact, hledgers, hrecords⟩ := load_eq_some hload
  constructor
  · intro hmem
    obtain ⟨r, hr, rfl⟩ := List.mem_map.mp hmem
    obtain ⟨hledger, tx, model, lookup, hfailed, hnew⟩ := h.genuine hload r hr
    refine ⟨_, hledger, tx, model, hfailed, ?_⟩
    rw [hnew]
    rfl
  · rintro ⟨ledger, hledger, tx, model, hfailed, rfl⟩
    obtain ⟨line, hline, hread⟩ := List.mem_filterMap.mp ((hledgers ledger).mp hledger).1
    rcases h.sound.1 line hline (ledger, tx.txHash) ⟨hread, tx, model, hfailed, rfl⟩ with
      ⟨r, hr, hkey⟩ | hbroken
    · obtain ⟨hrledger, hrhash⟩ := Prod.mk.inj hkey
      rw [hrecords, Grouping.mem_map_firsts]
      refine ⟨List.mem_map.mpr ⟨r, List.mem_filter.mpr ⟨hr, ?_⟩, hrhash⟩, List.not_mem_nil⟩
      rw [decide_eq_true_eq, hrledger]
      exact hledger
    · exact absurd hbroken (Journal.File.not_broken hintact)

omit [Strkey] in
theorem nodup_hashes {disk : Disk} {only : Option (UInt64 × UInt64)} {loaded : Loaded}
    (hload : load disk only = some loaded) :
    (loaded.records.map PilotRecord.transactionHash).Nodup := by
  rw [(load_eq_some hload).2.2]
  exact Grouping.nodup_map_firsts _ _ _

/-- **Each failed Soroban transaction once.**  Over any number of runs that stop anywhere, a report
that accepts the files is about the ledgers the log has as read; it has a record of each failed
Soroban transaction of these ledgers, one for each hash, and no other record. -/
theorem load_exactly_once {disk : Disk} (h : Reached decoders server disk)
    {only : Option (UInt64 × UInt64)} {loaded : Loaded} (hload : load disk only = some loaded) :
    (∀ ledger, ledger ∈ loaded.ledgers.map Prod.fst ↔
      ledger ∈ alreadyRead disk.log ∧ within only ledger = true) ∧
    (loaded.records.map PilotRecord.transactionHash).Nodup ∧
    (∀ hash, hash ∈ loaded.records.map PilotRecord.transactionHash ↔
      ∃ ledger ∈ loaded.ledgers.map Prod.fst, ∃ tx model,
        FailedIn decoders server ledger tx model ∧ tx.txHash = hash) ∧
    ∀ r ∈ loaded.records, r.ledger.toUInt64 ∈ loaded.ledgers.map Prod.fst ∧
      Genuine decoders server r :=
  ⟨(load_eq_some hload).2.1, nodup_hashes hload, h.mem_hashes hload, h.genuine hload⟩

end Resumption

/-! ## A census of one ledger -/

theorem not_cutShort_oneLedger (ledger : UInt64) : ¬ oneLedgerProvider.CutShort ledger := by
  rintro ⟨request, t, t', result, -, hcall, hnone, -⟩
  have hanswer : (some (oneLedgerAnswer request.params), t + 1) = (some result, t') := hcall
  obtain rfl := Option.some.inj (Prod.mk.inj hanswer).1
  cases hnone

/-- The network of a run: the clients of `oneLedger`, and an endpoint that has `asset64`. -/
def oneLedgerNetwork : Network where
  rpc _ := oneLedgerProvider.rpc
  wholeLedger ledger := (wholeLedger oneLedgerProvider.rpc ledger 2).getD none
  wholeLedger_eq ledger := by
    obtain ⟨result, hresult⟩ : ∃ result,
        wholeLedgerLoop oneLedgerProvider.rpc ledger 2 [] none 0 = some result := by
      refine Provider.loop_ends 2 ?_
      show 1 - _ < 2
      omega
    refine ⟨2, ?_⟩
    rw [wholeLedger, hresult]
    rfl
  getLedgerEntries _ _ := some (.object [("entries", .array [.object [("xdr", .string asset64)]])])

theorem serves_oneLedger : oneLedgerNetwork.Serves oneLedger := fun ledger =>
  ⟨oneLedgerProvider, rfl, rfl, not_cutShort_oneLedger ledger⟩

section OneLedger

variable [Strkey] (contract : ContractParser) (account : AccountParser)

/-- A run over ledger 5. -/
def oneLedgerRun : List Effect × RunState :=
  ledgerMode (oneLedgerDecoders contract account) oneLedgerNetwork ⟨true, true⟩ [] .empty [5]

theorem censusRun_oneLedger : censusRun (oneLedgerDecoders contract account) oneLedgerNetwork
    ⟨true, true⟩ 5 6 1 "" .empty = some (oneLedgerRun contract account) := by
  have hchosen : stratifiedLedgers 5 6 1 "" = some [5] := by rfl
  have hordered : Grouping.ascending UInt64.toNat [5] = [5] := rfl
  have hdone : alreadyRead (.empty : Journal.File Json) = [] := rfl
  rw [censusRun, hchosen, Option.map_some, hordered, hdone]
  rfl

/-- The record of the transaction of `oneLedger`. -/
def failedFiveRecord : PilotRecord :=
  PilotRecord.new account fiveHash 5 failedFiveModel (some (.found .stellarAsset))

/-- The record is flushed, then the ledger is logged. -/
theorem effects_oneLedger : (oneLedgerRun contract account).1 =
    [.record (failedFiveRecord account), .flush, .log (LogLine.read 5 1 1 (some "end")).json,
      .flush] := by
  have hread : oneLedgerNetwork.wholeLedger 5 = some ⟨[failedFive], some "end"⟩ := rfl
  have hmodel : (failedFive.tallied (oneLedgerDecoders contract account).xdr).model
      = some failedFiveModel := congrArg Tallied.model tallied_failedFive
  have hroot : rootContractId failedFiveModel = some (toString (cid 5)) := rfl
  have hlookup : ∀ s : RunState, s.instances = (fun _ => none) →
      (lookupRoot (oneLedgerDecoders contract account) oneLedgerNetwork failedFiveModel s).1
        = some (.found .stellarAsset) := by
    intro s hs
    have hparse : (oneLedgerDecoders contract account).contract.parse (toString (cid 5))
        = some (cid 5) := contract.parse_toString (cid 5)
    rw [lookupRoot, hroot]
    dsimp only
    rw [lookupInstance, hs]
    dsimp only
    rw [askInstance, hparse]
    simp [oneLedgerNetwork, decodeInstance, singleEntry, oneLedgerDecoders]
    rfl
  rw [oneLedgerRun, ledgerMode, if_neg List.not_mem_nil, censusLedger, hread]
  dsimp only
  rw [ledgerRecords_of_some _ _ hmodel, ledgerRecords, hlookup]
  · rfl
  · rw [RunState.counted]
    rfl

/-- The files behind the run over ledger 5. -/
def oneLedgerDisk : Disk :=
  ⟨Journal.File.empty.writeln (failedFiveRecord account),
    Journal.File.empty.writeln (LogLine.read 5 1 1 (some "end")).json⟩

theorem perform_oneLedger : Journal.perform ⟨.empty, .empty⟩ [] (oneLedgerRun contract account).1
    = oneLedgerDisk account := by
  rw [effects_oneLedger]
  rfl

theorem reached_oneLedger :
    Reached (oneLedgerDecoders contract account) oneLedger (oneLedgerDisk account) := by
  have hstop : Journal.Runs (opened ⟨.empty, .empty⟩) [] (oneLedgerRun contract account).1
      (oneLedgerDisk account) := by
    rw [← perform_oneLedger contract]
    exact Journal.runs_perform ⟨.empty, .empty⟩ [] _
  have hrun : censusRun (oneLedgerDecoders contract account) oneLedgerNetwork ⟨true, true⟩ 5 6 1 ""
      .empty = some ((oneLedgerRun contract account).1, (oneLedgerRun contract account).2) :=
    (censusRun_oneLedger contract account).trans (congrArg some Prod.mk.eta.symm)
  exact .run .start serves_oneLedger (by decide) hrun hstop

theorem load_oneLedger :
    load (oneLedgerDisk account) none = some ⟨[(5, 1)], [], [failedFiveRecord account]⟩ := by
  have hrecords : (oneLedgerDisk account).records.all = some [failedFiveRecord account] := rfl
  have hlog : (oneLedgerDisk account).log.all
      = some [(LogLine.read 5 1 1 (some "end")).json] := rfl
  have htable : [(LogLine.read 5 1 1 (some "end")).json].foldlM LedgerTable.line ⟨[], []⟩
      = some ⟨[(5, 1)], []⟩ := rfl
  have hledger : (failedFiveRecord account).ledger.toUInt64 = 5 := rfl
  rw [load, hrecords, hlog]
  refine Option.bind_eq_some_iff.mpr ⟨_, rfl, Option.bind_eq_some_iff.mpr ⟨_, rfl, ?_⟩⟩
  refine Option.bind_eq_some_iff.mpr ⟨_, htable, ?_⟩
  simp [within, Grouping.firsts, hledger]

end OneLedger

/-- The one failed Soroban transaction of the ledger is reported once. -/
theorem oneLedger_exactly_once :
    ∃ loaded, load (@oneLedgerDisk Strkey.standard Strkey.parseAccount) none = some loaded ∧
      loaded.records.map PilotRecord.transactionHash = [fiveHash] ∧
      (loaded.records.map PilotRecord.transactionHash).Nodup :=
  ⟨_, @load_oneLedger Strkey.standard _, rfl, (@load_exactly_once Strkey.standard _ _ _
    (@reached_oneLedger Strkey.standard Strkey.contractParser Strkey.parseAccount) none _
    (@load_oneLedger Strkey.standard _)).2.1⟩

end Observatory
