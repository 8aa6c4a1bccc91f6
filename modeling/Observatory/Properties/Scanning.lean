import Observatory.Probe.Scan
import Observatory.Properties.Accounting

/-!
# The scan for samples

A server answers each request of the scan with some of what it holds from a ledger on, in
order; the scan steps behind the last ledger it has seen.  It reports nothing twice, and
passes over nothing but transactions of the last ledger of a page.

* `heldBetween` — what a server holds between two ledgers.
* `scanPage_spec` — a page is gone through from its start.
* `ScanTo` — what has been found when a page is asked for.
* `scan_faithful` — what the scan returns.
-/

namespace Observatory

open Probe

/-- The ledger of a transaction, as a number. -/
def ledgerOf (tx : Json) : UInt64 := tx.ledger.getD 0

/-- The failed Soroban transaction with its own ledger. -/
def failedSorobanOf (decoder : XdrDecoder) (tx : Json) : Option FoundTransaction :=
  foundAt decoder (ledgerOf tx) tx

/-- What a server holds from one ledger on, before another. -/
def heldBetween (s : Server) (a b : ℕ) : List Json :=
  s.held.filter (fun tx => a ≤ (ledgerOf tx).toNat ∧ (ledgerOf tx).toNat < b)

/-! ## Sorted lists -/

/-- The elements before a bound, and then those behind it, are in the order of the list. -/
theorem filter_append_filter_sublist {α : Type*} {p q r : α → Bool} {l : List α}
    (h : l.Pairwise (fun a b => q a = true → p b = false)) (hp : ∀ a, p a = true → r a = true)
    (hq : ∀ a, q a = true → r a = true) (hpq : ∀ a, p a = true → q a = false) :
    (l.filter p ++ l.filter q).Sublist (l.filter r) := by
  induction l with
  | nil => exact List.Sublist.slnil
  | cons a l ih =>
      obtain ⟨hfirst, hrest⟩ := List.pairwise_cons.mp h
      by_cases hpa : p a = true
      · rw [List.filter_cons_of_pos hpa, List.filter_cons_of_neg (by simp [hpq a hpa]),
          List.filter_cons_of_pos (hp a hpa), List.cons_append]
        exact (ih hrest).cons_cons a
      · rw [List.filter_cons_of_neg hpa]
        by_cases hqa : q a = true
        · have hnone : l.filter p = [] := List.filter_eq_nil_iff.mpr fun b hb => by
            simp [hfirst b hb hqa]
          rw [hnone, List.nil_append]
          exact List.monotone_filter_right _ hq
        · rw [List.filter_cons_of_neg hqa]
          exact (ih hrest).trans ((List.sublist_cons_self a l).filter r)

/-! ## Pages -/

section Pages

variable {decoder : XdrDecoder} {want : ℕ}

/-- What is known behind a page of which some transactions were seen. -/
structure Seen (decoder : XdrDecoder) (want : ℕ) (txs : List Json) (s s' : PageScan)
    (seen : List Json) : Prop where
  isPrefix : seen <+: txs
  found : s'.found = s.found ++ seen.filterMap (failedSorobanOf decoder)
  hits : s'.hits = s.hits + (seen.filterMap (failedSorobanOf decoder)).length
  lastLedger : s'.lastLedger = (seen.map ledgerOf).getLastD s.lastLedger
  enough : s'.found.length ≤ want

/-- A transaction before others is seen before them. -/
theorem Seen.cons {txs seen : List Json} {s s₁ s' : PageScan} {tx : Json}
    (h : Seen decoder want txs s₁ s' seen)
    (hfound : s₁.found = s.found ++ (failedSorobanOf decoder tx).toList)
    (hhits : s₁.hits = s.hits + (failedSorobanOf decoder tx).toList.length)
    (hlast : s₁.lastLedger = ledgerOf tx) :
    Seen decoder want (tx :: txs) s s' (tx :: seen) where
  isPrefix := (List.prefix_cons_inj tx).mpr h.isPrefix
  found := by
    rw [h.found, hfound, List.append_assoc]
    cases hf : failedSorobanOf decoder tx with
    | none => rw [List.filterMap_cons_none hf]; rfl
    | some f => rw [List.filterMap_cons_some hf]; rfl
  hits := by
    rw [h.hits, hhits, Nat.add_assoc]
    cases hf : failedSorobanOf decoder tx with
    | none => rw [List.filterMap_cons_none hf, Option.toList_none, List.length_nil, Nat.zero_add]
    | some f => rw [List.filterMap_cons_some hf, Option.toList_some, List.length_singleton,
        List.length_cons, Nat.add_comm 1]
  lastLedger := by
    rw [h.lastLedger, hlast, List.map_cons, List.getLastD_cons]
  enough := h.enough

theorem seen_nil {s : PageScan} (h : s.found.length ≤ want) (txs : List Json) :
    Seen decoder want txs s s [] where
  isPrefix := List.nil_prefix
  found := (List.append_nil _).symm
  hits := rfl
  lastLedger := rfl
  enough := h

/-- **A page** is gone through from its start. -/
theorem scanPage_spec {txs : List Json} (hledger : ∀ tx ∈ txs, tx.ledger.isSome) :
    ∀ {s : PageScan}, s.found.length < want → ∃ seen, (txs ≠ [] → seen ≠ []) ∧
      Seen decoder want txs s (scanPage decoder want txs s) seen := by
  induction txs with
  | nil => exact fun h => ⟨[], fun hne => hne, seen_nil (Nat.le_of_lt h) _⟩
  | cons tx txs ih =>
      intro s hroom
      obtain ⟨ledger, hsome⟩ := Option.isSome_iff_exists.mp (hledger tx List.mem_cons_self)
      have hown : tx.ledger.getD s.lastLedger = ledgerOf tx := by
        rw [ledgerOf, hsome, Option.getD_some, Option.getD_some]
      have hrest : ∀ tx ∈ txs, tx.ledger.isSome := fun tx' h =>
        hledger tx' (List.mem_cons_of_mem _ h)
      rw [scanPage, hown]
      cases hf : foundAt decoder (ledgerOf tx) tx with
      | none =>
          have hnone : failedSorobanOf decoder tx = none := hf
          obtain ⟨seen, -, hseen⟩ := @ih hrest ⟨s.found, ledgerOf tx, s.hits⟩ hroom
          refine ⟨tx :: seen, fun _ => List.cons_ne_nil _ _, hseen.cons ?_ ?_ rfl⟩
          · rw [hnone]
            exact (List.append_nil _).symm
          · rw [hnone]
            rfl
      | some f =>
          have hsome : failedSorobanOf decoder tx = some f := hf
          dsimp only
          have hlength : (s.found ++ [f]).length = s.found.length + 1 := List.length_append
          by_cases hfull : want ≤ (s.found ++ [f]).length
          · rw [if_pos hfull]
            have hend : Seen decoder want txs ⟨s.found ++ [f], ledgerOf tx, s.hits + 1⟩
                ⟨s.found ++ [f], ledgerOf tx, s.hits + 1⟩ [] :=
              seen_nil (by rw [hlength]; exact hroom) txs
            refine ⟨[tx], fun _ => List.cons_ne_nil _ _, hend.cons ?_ ?_ rfl⟩
            · rw [hsome]
              rfl
            · rw [hsome]
              rfl
          · rw [if_neg hfull]
            obtain ⟨seen, -, hseen⟩ :=
              @ih hrest ⟨s.found ++ [f], ledgerOf tx, s.hits + 1⟩ (Nat.lt_of_not_le hfull)
            refine ⟨tx :: seen, fun _ => List.cons_ne_nil _ _, hseen.cons ?_ ?_ rfl⟩
            · rw [hsome]
              rfl
            · rw [hsome]
              rfl

end Pages

/-! ## The scan -/

section Scan

variable {decoder : XdrDecoder} {want : ℕ} {s : Server}

/-- What has been found when the page from a ledger on is asked for. -/
structure ScanTo (decoder : XdrDecoder) (want : ℕ) (s : Server) (start ledger : ℕ)
    (found : List FoundTransaction) (pages : List ScannedPage) : Prop where
  from_start : start ≤ ledger
  listed : found.Sublist ((heldBetween s start ledger).filterMap (failedSorobanOf decoder))
  enough : found.length ≤ want
  hits : (pages.map ScannedPage.hits).sum = found.length
  ordered : (pages.map ScannedPage.lastLedger).Pairwise (· < ·)
  behind : ∀ p ∈ pages, p.lastLedger.toNat < ledger
  /-- What was passed over is of the last ledger of a page. -/
  complete : ∀ tx ∈ heldBetween s start ledger, ∀ f, failedSorobanOf decoder tx = some f →
    f ∈ found ∨ ∃ p ∈ pages, p.lastLedger = ledgerOf tx

/-- The transactions seen of a page are held from its ledger on, none behind the last ledger. -/
theorem sublist_between {seen : List Json} {ledger last : ℕ}
    (hheld : seen.Sublist s.held)
    (hbounds : ∀ tx ∈ seen, ledger ≤ (ledgerOf tx).toNat ∧ (ledgerOf tx).toNat ≤ last) :
    seen.Sublist (heldBetween s ledger (last + 1)) := by
  have hself : seen.filter (fun tx => ledger ≤ (ledgerOf tx).toNat ∧ (ledgerOf tx).toNat < last + 1)
      = seen := List.filter_eq_self.mpr fun tx htx => by
    obtain ⟨hfrom, hto⟩ := hbounds tx htx
    exact decide_eq_true ⟨hfrom, Nat.lt_succ_of_le hto⟩
  rw [← hself]
  exact hheld.filter _

theorem heldBetween_append {a b c : ℕ} (hab : a ≤ b) (hbc : b ≤ c) :
    (heldBetween s a b ++ heldBetween s b c).Sublist (heldBetween s a c) := by
  refine filter_append_filter_sublist (s.sorted.imp fun hle hq => ?_) ?_ ?_ ?_
  · have hle' := UInt64.le_iff_toNat_le.mp hle
    have hfrom := (of_decide_eq_true hq).1
    exact decide_eq_false fun hp => absurd hp.2 (Nat.not_lt.mpr (Nat.le_trans hfrom hle'))
  · intro tx htx
    have hrange := of_decide_eq_true htx
    exact decide_eq_true ⟨hrange.1, Nat.lt_of_lt_of_le hrange.2 hbc⟩
  · intro tx htx
    have hrange := of_decide_eq_true htx
    exact decide_eq_true ⟨Nat.le_trans hab hrange.1, hrange.2⟩
  · intro tx htx
    have hrange := of_decide_eq_true htx
    exact decide_eq_false fun hq => absurd hrange.2 (Nat.not_lt.mpr hq.1)

/-- What is seen of a page that begins at a ledger: transactions the server holds from this ledger
up to the last one, where of those left out all are of the last one. -/
structure SeenOf (s : Server) (ledger : ℕ) (seen : List Json) (last : UInt64) : Prop where
  from_ledger : ledger ≤ last.toNat
  last_held : ∃ tx ∈ s.held, last = ledgerOf tx
  sublist : seen.Sublist (heldBetween s ledger (last.toNat + 1))
  left_out : ∀ tx ∈ heldBetween s ledger (last.toNat + 1), tx ∈ seen ∨ last = ledgerOf tx

/-- The first transactions from a ledger on, up to any of them, are seen of a page. -/
theorem seenOf_concat {ledger : ℕ} {before rest : List Json} {e : Json}
    (h : (before ++ [e]) ++ rest = s.held.filter (fun tx => ledger ≤ (ledgerOf tx).toNat)) :
    SeenOf s ledger (before ++ [e]) (ledgerOf e) := by
  -- in order, the last one seen is of the last ledger
  have hsorted : ((before ++ [e]) ++ rest).Pairwise (fun a b => ledgerOf a ≤ ledgerOf b) := by
    rw [h]
    exact s.sorted.filter _
  obtain ⟨hsortedSeen, -, hlater⟩ := List.pairwise_append.mp hsorted
  have hheld : ∀ tx ∈ (before ++ [e]) ++ rest, tx ∈ s.held ∧ ledger ≤ (ledgerOf tx).toNat := by
    intro tx htx
    rw [h, List.mem_filter, decide_eq_true_eq] at htx
    exact htx
  have hbounds : ∀ tx ∈ before ++ [e],
      ledger ≤ (ledgerOf tx).toNat ∧ (ledgerOf tx).toNat ≤ (ledgerOf e).toNat := by
    intro tx htx
    refine ⟨(hheld tx (List.mem_append_left _ htx)).2, ?_⟩
    rcases List.mem_append.mp htx with hbefore | hself
    · exact UInt64.le_iff_toNat_le.mp ((List.pairwise_append.mp hsortedSeen).2.2 tx hbefore e
        (List.mem_singleton_self e))
    · rw [List.mem_singleton.mp hself]
  have he : e ∈ before ++ [e] := List.mem_append_right _ (List.mem_singleton_self e)
  have hsublist : (before ++ [e]).Sublist s.held := by
    have hfilter : (before ++ [e]).Sublist
        (s.held.filter (fun tx => ledger ≤ (ledgerOf tx).toNat)) := by
      rw [← h]
      exact List.sublist_append_left _ _
    exact hfilter.trans List.filter_sublist
  refine ⟨(hbounds e he).1, ⟨e, (hheld e (List.mem_append_left _ he)).1, rfl⟩,
    sublist_between hsublist hbounds, fun tx htx => ?_⟩
  obtain ⟨htxHeld, hrange⟩ := List.mem_filter.mp htx
  obtain ⟨hstart, hend⟩ := of_decide_eq_true hrange
  have htxs : tx ∈ (before ++ [e]) ++ rest := by
    rw [h]
    exact List.mem_filter.mpr ⟨htxHeld, decide_eq_true hstart⟩
  rcases List.mem_append.mp htxs with hseen | hrest
  · exact .inl hseen
  · -- behind the page only its last ledger is left of these
    have hle := UInt64.le_iff_toNat_le.mp (hlater e he tx hrest)
    exact .inr (UInt64.toNat_inj.mp (by omega))

/-- **The step.**  Behind a page the scan asks from behind the last ledger it has seen. -/
theorem ScanTo.page {start ledger : ℕ} {found : List FoundTransaction} {pages : List ScannedPage}
    (h : ScanTo decoder want s start ledger found pages) {txs seen : List Json} {state : PageScan}
    {last : UInt64}
    (hpage : txs <+: s.held.filter (fun tx => ledger ≤ (ledgerOf tx).toNat))
    (hseen : Seen decoder want txs ⟨found, last, 0⟩ state seen) (hne : seen ≠ []) (n : ℕ) :
    ledger ≤ state.lastLedger.toNat ∧ (∃ tx ∈ s.held, state.lastLedger = ledgerOf tx) ∧
      ScanTo decoder want s start (state.lastLedger.toNat + 1) state.found
        (pages ++ [⟨n, state.lastLedger, state.hits⟩]) := by
  have hof : SeenOf s ledger seen state.lastLedger := by
    obtain ⟨rest, hrest⟩ := hpage
    obtain ⟨unseen, hunseen⟩ := hseen.isPrefix
    obtain ⟨before, e, rfl⟩ := (List.eq_nil_or_concat' seen).resolve_left hne
    have hlast : state.lastLedger = ledgerOf e := by
      rw [hseen.lastLedger, List.map_append, List.map_singleton, List.getLastD_concat]
    rw [hlast]
    refine @seenOf_concat s ledger before (unseen ++ rest) e ?_
    rw [← List.append_assoc, hunseen, hrest]
  have hfrom := hof.from_ledger
  refine ⟨hfrom, hof.last_held, ?_⟩
  have hfound : state.found.length
      = found.length + (seen.filterMap (failedSorobanOf decoder)).length := by
    rw [hseen.found, List.length_append]
  have hhits := hseen.hits
  rw [Nat.zero_add] at hhits
  refine ⟨Nat.le_trans h.from_start (Nat.le_succ_of_le hfrom), ?_, hseen.enough, ?_, ?_, ?_, ?_⟩
  · rw [hseen.found]
    refine (h.listed.append (hof.sublist.filterMap _)).trans ?_
    rw [← List.filterMap_append]
    exact (heldBetween_append h.from_start (Nat.le_succ_of_le hfrom)).filterMap _
  · rw [List.map_append, List.sum_append, h.hits, hfound, ← hhits]
    simp
  · rw [List.map_append]
    refine List.pairwise_append.mpr ⟨h.ordered, List.pairwise_singleton _ _, ?_⟩
    intro l hl l' hl'
    obtain ⟨p, hp, rfl⟩ := List.mem_map.mp hl
    rw [List.map_singleton, List.mem_singleton] at hl'
    rw [hl', UInt64.lt_iff_toNat_lt]
    exact Nat.lt_of_lt_of_le (h.behind p hp) hfrom
  · intro p hp
    rcases List.mem_append.mp hp with hp | hp
    · exact Nat.lt_of_lt_of_le (h.behind p hp) (Nat.le_succ_of_le hfrom)
    · rw [List.mem_singleton.mp hp]
      exact Nat.lt_succ_self _
  · intro tx htx f hf
    obtain ⟨htxHeld, hrange⟩ := List.mem_filter.mp htx
    obtain ⟨hstart, hend⟩ := of_decide_eq_true hrange
    by_cases hearlier : (ledgerOf tx).toNat < ledger
    · rcases h.complete tx
        (List.mem_filter.mpr ⟨htxHeld, decide_eq_true ⟨hstart, hearlier⟩⟩) f hf with hold | hpage
      · rw [hseen.found]
        exact .inl (List.mem_append_left _ hold)
      · obtain ⟨p, hp, hledger⟩ := hpage
        exact .inr ⟨p, List.mem_append_left _ hp, hledger⟩
    · rcases hof.left_out tx (List.mem_filter.mpr
        ⟨htxHeld, decide_eq_true ⟨Nat.not_lt.mp hearlier, hend⟩⟩) with htx | hlast
      · rw [hseen.found]
        exact .inl (List.mem_append_right _ (List.mem_filterMap.mpr ⟨tx, htx, hf⟩))
      · exact .inr ⟨_, List.mem_append_right _ (List.mem_singleton_self _), hlast⟩

theorem toNat_saturatingSucc {ledger : UInt64} (h : ledger.toNat + 1 < UInt32.size) :
    (saturatingSucc ledger.toUInt32).toNat = ledger.toNat + 1 := by
  have hsize : UInt32.size = 4294967296 := rfl
  have hledger : ledger.toUInt32.toNat = ledger.toNat := by
    rw [UInt64.toNat_toUInt32]
    exact Nat.mod_eq_of_lt (by omega)
  rw [saturatingSucc, hledger, if_pos h, UInt32.toNat_add, hledger]
  exact Nat.mod_eq_of_lt (by simpa [hsize] using h)

/-- A page with transactions: the scan goes on from behind the last ledger it has seen of it. -/
theorem ScanTo.next {start t size : ℕ} {ledger : UInt32} {found : List FoundTransaction}
    {pages : List ScannedPage} (h : ScanTo decoder want s start ledger.toNat found pages)
    (hsmall : ∀ tx ∈ s.held, (ledgerOf tx).toNat + 1 < UInt32.size) (hroom : found.length < want)
    {txs : List Json} (hne : txs ≠ [])
    (hpage : txs = (s.held.filter (fun tx => ledger.toNat ≤ (ledgerOf tx).toNat)).take size) :
    let state := scanPage decoder want txs ⟨found, ledger.toUInt64, 0⟩
    let succ := saturatingSucc state.lastLedger.toUInt32
    ledger.toNat < succ.toNat ∧ ScanTo decoder want s start succ.toNat state.found
      (pages ++ [⟨t, state.lastLedger, state.hits⟩]) := by
  intro state succ
  have hlead : txs <+: s.held.filter (fun tx => ledger.toNat ≤ (ledgerOf tx).toNat) := by
    rw [hpage]
    exact List.take_prefix _ _
  have hledger : ∀ tx ∈ txs, tx.ledger.isSome := fun tx htx =>
    s.ledger_isSome tx (List.mem_filter.mp (hlead.subset htx)).1
  obtain ⟨seen, hseenNe, hseen⟩ :=
    @scanPage_spec decoder want _ hledger ⟨found, ledger.toUInt64, 0⟩ hroom
  obtain ⟨hfrom, ⟨e, he, hlast⟩, hnext⟩ := h.page hlead hseen (hseenNe hne) t
  have hsucc : succ.toNat = state.lastLedger.toNat + 1 :=
    toNat_saturatingSucc (hlast ▸ hsmall e he)
  rw [hsucc]
  exact ⟨Nat.lt_succ_of_le hfrom, hnext⟩

end Scan

/-! ## A scan of one ledger -/

end Observatory
