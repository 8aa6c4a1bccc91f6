import Observatory.Properties.Completion

/-!
# The window of a census

The ledgers of a run are chosen from a window: one from each of some equal strata, at a
random place of it.

* `InStratum` — the ledger of one stratum.
* `stratifiedLedgers_spec` — the ledgers that are chosen, and that no number overflows.
* `census_window` — a run that asks for as many ledgers as the window has is a census of it.
-/

namespace Observatory

/-! ## Strata -/

/-- The ledger of the `i`-th stratum of `width` ledgers, brought back to the end of the window. -/
def InStratum (lo hi : UInt64) (width i : ℕ) (ledger : UInt64) : Prop :=
  ∃ r < width, ledger.toNat = min (lo.toNat + i * width + r) hi.toNat

theorem exists_checked {n : ℕ} (h : n < UInt64.size) : ∃ x, checked n = some x ∧ x.toNat = n :=
  ⟨UInt64.ofNatLT n h, dif_pos h, UInt64.toNat_ofNatLT⟩

/-- Where the strata fit into 64 bits, one ledger of each is chosen. -/
theorem strata_spec {lo hi stratum : UInt64} (hstratum : 0 < stratum.toNat) (n : ℕ) :
    ∀ {i : ℕ} {state : UInt64}, lo.toNat + (i + n) * stratum.toNat ≤ UInt64.size →
      ∃ chosen, strata lo hi stratum n i state = some chosen ∧ chosen.length = n ∧
        ∀ j ledger, chosen[j]? = some ledger →
          InStratum lo hi stratum.toNat (i + j) ledger := by
  induction n with
  | zero =>
      intro i state _
      exact ⟨[], rfl, rfl, fun j ledger h => absurd h (by simp)⟩
  | succ n ih =>
      intro i state hfits
      have hwidth : (i + (n + 1)) * stratum.toNat
          = i * stratum.toNat + n * stratum.toNat + stratum.toNat := by
        rw [← Nat.add_assoc, Nat.succ_mul, Nat.add_mul]
      have hnext : lo.toNat + (i + 1 + n) * stratum.toNat ≤ UInt64.size := by
        rwa [Nat.add_right_comm, Nat.add_assoc]
      have hrandom : (((splitMix64 state).1 % stratum).toNat) < stratum.toNat := by
        rw [UInt64.toNat_mod]
        exact Nat.mod_lt _ hstratum
      obtain ⟨later, hlater, hlength, hindex⟩ := @ih (i + 1) (splitMix64 state).2 hnext
      obtain ⟨offset, hoffset, hoffsetNat⟩ := exists_checked (n := i * stratum.toNat) (by omega)
      obtain ⟨base, hbase, hbaseNat⟩ :=
        exists_checked (n := lo.toNat + offset.toNat) (by omega)
      obtain ⟨ledger, hledger, hledgerNat⟩ :=
        exists_checked (n := base.toNat + ((splitMix64 state).1 % stratum).toNat) (by omega)
      refine ⟨(if ledger ≤ hi then ledger else hi) :: later, ?_, ?_, fun j l hl => ?_⟩
      · rw [strata, hoffset, Option.bind_eq_bind, Option.bind_some, hbase, Option.bind_eq_bind,
          Option.bind_some]
        dsimp only
        rw [hledger, Option.bind_some, hlater]
        rfl
      · rw [List.length_cons, hlength]
      · cases j with
        | zero =>
            obtain rfl := Option.some.inj hl
            refine ⟨_, hrandom, ?_⟩
            rw [Nat.add_zero, ← hoffsetNat, ← hbaseNat, ← hledgerNat]
            split
            · next hle => exact (Nat.min_eq_left (UInt64.le_iff_toNat_le.mp hle)).symm
            · next hlt => exact (Nat.min_eq_right (Nat.le_of_lt
                (UInt64.lt_iff_toNat_lt.mp (UInt64.not_le.mp hlt)))).symm
        | succ j =>
            have hrest := hindex j l hl
            rwa [Nat.add_right_comm, Nat.add_assoc] at hrest

/-- The number of ledgers of a stratum. -/
def stratumWidth (lo hi count : UInt64) : ℕ :=
  max (max (hi.toNat - lo.toNat) 1 / max count.toNat 1) 1

/-- Strata of a window with enough ledgers end in it. -/
theorem strata_end {lo hi count : UInt64} (hcount : count.toNat ≤ hi.toNat - lo.toNat) :
    count.toNat * stratumWidth lo hi count ≤ hi.toNat - lo.toNat := by
  rcases Nat.eq_zero_or_pos count.toNat with hzero | hpos
  · rw [hzero, Nat.zero_mul]
    exact Nat.zero_le _
  · have hquotient : 1 ≤ (hi.toNat - lo.toNat) / count.toNat := Nat.div_pos hcount hpos
    rw [stratumWidth, Nat.max_eq_left (Nat.le_trans hpos hcount), Nat.max_eq_left hpos,
      Nat.max_eq_left hquotient]
    exact Nat.mul_div_le _ _

/-- The strata of a window with fewer ledgers than are asked for are single ledgers. -/
theorem stratumWidth_single {lo hi count : UInt64} (hcount : hi.toNat - lo.toNat < count.toNat) :
    stratumWidth lo hi count = 1 := by
  have hpos : 1 ≤ count.toNat := Nat.lt_of_le_of_lt (Nat.zero_le _) hcount
  have hspan : max (hi.toNat - lo.toNat) 1 ≤ count.toNat := by omega
  rw [stratumWidth, Nat.max_eq_left hpos]
  refine Nat.max_eq_right (Nat.div_le_of_le_mul ?_)
  rwa [Nat.mul_one]

/-- One ledger of each stratum is chosen. -/
theorem exists_stratified {lo hi count : UInt64} (hwindow : lo ≤ hi)
    (hfits : lo.toNat + count.toNat ≤ UInt64.size) (seed : String) :
    ∃ chosen, stratifiedLedgers lo hi count seed = some chosen ∧ chosen.length = count.toNat ∧
      ∀ i l, chosen[i]? = some l → InStratum lo hi (stratumWidth lo hi count) i l := by
  have hwindow' : lo.toNat ≤ hi.toNat := UInt64.le_iff_toNat_le.mp hwindow
  have hhi : hi.toNat < UInt64.size := hi.toNat_lt
  have hpos : 0 < stratumWidth lo hi count := Nat.lt_of_lt_of_le Nat.one_pos (Nat.le_max_right _ _)
  have hstratum : (UInt64.ofNat (stratumWidth lo hi count)).toNat = stratumWidth lo hi count := by
    refine UInt64.toNat_ofNat_of_lt ?_
    have hquotient := Nat.div_le_self (max (hi.toNat - lo.toNat) 1) (max count.toNat 1)
    have hsize : UInt64.size = 18446744073709551616 := rfl
    unfold stratumWidth
    omega
  have hall : lo.toNat + (0 + count.toNat) * (UInt64.ofNat (stratumWidth lo hi count)).toNat
      ≤ UInt64.size := by
    rw [hstratum, Nat.zero_add]
    by_cases hcount : count.toNat ≤ hi.toNat - lo.toNat
    · have hend := strata_end hcount
      omega
    · rw [stratumWidth_single (Nat.lt_of_not_le hcount), Nat.mul_one]
      exact hfits
  obtain ⟨chosen, hchosen, hlength, hindex⟩ :=
    @strata_spec lo hi (UInt64.ofNat (stratumWidth lo hi count)) (by rwa [hstratum])
      count.toNat 0 (seeded seed) hall
  rw [hstratum] at hindex
  simp only [Nat.zero_add] at hindex
  exact ⟨chosen, hchosen, hlength, hindex⟩

section Chosen

variable {lo hi count : UInt64} {chosen : List UInt64}
  (hindex : ∀ i l, chosen[i]? = some l → InStratum lo hi (stratumWidth lo hi count) i l)

include hindex

/-- The chosen ledgers are in order: a stratum ends where the next begins. -/
theorem chosen_sorted : chosen.Pairwise (· ≤ ·) := by
  refine List.pairwise_iff_getElem.mpr fun i j hbefore hafter hlt => ?_
  obtain ⟨r, hr, hli⟩ := hindex i _ (List.getElem?_eq_getElem hbefore)
  obtain ⟨r', -, hlj⟩ := hindex j _ (List.getElem?_eq_getElem hafter)
  have hstart : (i + 1) * stratumWidth lo hi count ≤ j * stratumWidth lo hi count :=
    Nat.mul_le_mul_right _ hlt
  rw [Nat.succ_mul] at hstart
  rw [UInt64.le_iff_toNat_le, hli, hlj]
  omega

/-- In a window with enough ledgers no chosen ledger is brought back to its end. -/
theorem chosen_distinct (hlength : chosen.length = count.toNat)
    (hcount : count.toNat ≤ hi.toNat - lo.toNat) : chosen.Pairwise (· < ·) := by
  refine List.pairwise_iff_getElem.mpr fun i j hbefore hafter hlt => ?_
  obtain ⟨r, hr, hli⟩ := hindex i _ (List.getElem?_eq_getElem hbefore)
  obtain ⟨r', -, hlj⟩ := hindex j _ (List.getElem?_eq_getElem hafter)
  have hstart : (i + 1) * stratumWidth lo hi count ≤ j * stratumWidth lo hi count :=
    Nat.mul_le_mul_right _ hlt
  have hlast : (i + 1) * stratumWidth lo hi count ≤ count.toNat * stratumWidth lo hi count :=
    Nat.mul_le_mul_right _ (hlength ▸ hbefore)
  have hend := strata_end hcount
  rw [Nat.succ_mul] at hstart hlast
  rw [UInt64.lt_iff_toNat_lt, hli, hlj]
  omega

/-- Of a window with no more ledgers than are asked for every ledger is chosen. -/
theorem chosen_every (hlength : chosen.length = count.toNat)
    (hcount : hi.toNat - lo.toNat < count.toNat) {l : UInt64} (hlo : lo ≤ l) (hhi : l ≤ hi) :
    l ∈ chosen := by
  have hlo' := UInt64.le_iff_toNat_le.mp hlo
  have hhi' := UInt64.le_iff_toNat_le.mp hhi
  have hplace : l.toNat - lo.toNat < chosen.length := by omega
  obtain ⟨r, hr, hl⟩ := hindex _ _ (List.getElem?_eq_getElem hplace)
  rw [stratumWidth_single hcount] at hr hl
  have hsame : chosen[l.toNat - lo.toNat] = l := UInt64.toNat_inj.mp (by omega)
  exact List.mem_iff_getElem.mpr ⟨_, hplace, hsame⟩

end Chosen

/-- **The chosen ledgers.**  Whatever the seed, nothing overflows, and one ledger of each stratum
is chosen, in order, within the window.  Of a window with more ledgers than are asked for they
are distinct; of any other every ledger is chosen. -/
theorem stratifiedLedgers_spec {lo hi count : UInt64} (hwindow : lo ≤ hi)
    (hfits : lo.toNat + count.toNat ≤ UInt64.size) (seed : String) :
    ∃ chosen, stratifiedLedgers lo hi count seed = some chosen ∧ chosen.length = count.toNat ∧
      (∀ i l, chosen[i]? = some l → InStratum lo hi (stratumWidth lo hi count) i l) ∧
      (∀ l ∈ chosen, lo ≤ l ∧ l ≤ hi) ∧ chosen.Pairwise (· ≤ ·) ∧
      (count.toNat ≤ hi.toNat - lo.toNat → chosen.Pairwise (· < ·)) ∧
      (hi.toNat - lo.toNat < count.toNat → ∀ l, lo ≤ l → l ≤ hi → l ∈ chosen) := by
  obtain ⟨chosen, hchosen, hlength, hindex⟩ := exists_stratified hwindow hfits seed
  refine ⟨chosen, hchosen, hlength, hindex, fun l hl => ?_, chosen_sorted hindex,
    chosen_distinct hindex hlength, fun hcount l => chosen_every hindex hlength hcount⟩
  obtain ⟨i, hi⟩ := List.mem_iff_getElem?.mp hl
  obtain ⟨r, -, hr⟩ := hindex i l hi
  have hwindow' := UInt64.le_iff_toNat_le.mp hwindow
  rw [UInt64.le_iff_toNat_le, UInt64.le_iff_toNat_le, hr]
  omega

/-- Two of the ledgers 5 to 105. -/
theorem stratifiedLedgers_two : ∃ chosen, stratifiedLedgers 5 105 2 "m5.2-pilot" = some chosen ∧
    chosen.length = 2 ∧ chosen.Pairwise (· < ·) := by
  obtain ⟨chosen, hchosen, hlength, -, -, -, hdistinct, -⟩ := @stratifiedLedgers_spec 5 105 2
    (by decide) (by decide) "m5.2-pilot"
  exact ⟨chosen, hchosen, hlength, hdistinct (by decide)⟩

/-! ## A census of a window -/

section Window

variable [Strkey] {decoders : Decoders} {server : Server} {runs : List (Network × List UInt64)}
  {disk : Disk} {net : Network}

/-- **A window.**  Behind any runs that ended, a run that asks for as many ledgers as its window
has, and can read them, ends; the report on the window is about every ledger of it, and has each
failed Soroban transaction of these once. -/
theorem census_window (hcompleted : Completed decoders runs disk)
    (hreached : Reached decoders server disk) (hserves : net.Serves server)
    {lo hi count : UInt64} (hwindow : lo ≤ hi) (hcount : hi.toNat - lo.toNat < count.toNat)
    (hfits : lo.toNat + count.toNat ≤ UInt64.size) (hhi : hi.toNat < UInt32.size)
    (hreadable : ∀ l, lo ≤ l → l ≤ hi → (net.wholeLedger l).isSome) (seed : String) :
    ∃ effects s loaded,
      censusRun decoders net ⟨true, true⟩ lo hi count seed disk.log = some (effects, s) ∧
      load (Journal.perform (opened disk) [] effects) (some (lo, hi)) = some loaded ∧
      (∀ l, l ∈ loaded.read ↔ lo ≤ l ∧ l ≤ hi) ∧ loaded.unreadable = [] ∧
      (loaded.records.map PilotRecord.transactionHash).Nodup ∧
      ∀ hash, hash ∈ loaded.records.map PilotRecord.transactionHash ↔
        ∃ ledger tx model, lo ≤ ledger ∧ ledger ≤ hi ∧
          FailedIn decoders server ledger tx model ∧ tx.txHash = hash := by
  obtain ⟨chosen, hchosen, hlength, hindex⟩ := exists_stratified hwindow hfits seed
  obtain ⟨effects, s, hrun⟩ : ∃ effects s,
      censusRun decoders net ⟨true, true⟩ lo hi count seed disk.log = some (effects, s) := by
    rw [censusRun, hchosen]
    exact ⟨_, _, rfl⟩
  have horder := (hcompleted.run hchosen hrun).inOrder
  have hreached' : Reached decoders server (Journal.perform (opened disk) [] effects) :=
    hreached.run hserves hhi hrun (Journal.runs_perform _ _ _)
  obtain ⟨loaded, hload, hunreadable⟩ := horder.exists_load (some (lo, hi))
  have hread : ∀ l, l ∈ loaded.read ↔ lo ≤ l ∧ l ≤ hi := by
    intro l
    rw [mem_read hload, horder.mem_alreadyRead, within, decide_eq_true_eq]
    refine ⟨fun h => h.2, fun h => ⟨⟨(net, chosen), ?_, ?_, hreadable l h.1 h.2⟩, h⟩⟩
    · exact List.mem_append_right _ (List.mem_singleton_self _)
    · exact chosen_every hindex hlength hcount h.1 h.2
  refine ⟨effects, s, loaded, hrun, hload, hread, ?_, nodup_hashes hload, fun hash => ?_⟩
  · refine List.eq_nil_iff_forall_not_mem.mpr fun l hl => ?_
    obtain ⟨honly, hnot, -⟩ := (hunreadable l).mp hl
    exact hnot ((hread l).mpr (of_decide_eq_true honly))
  · rw [hreached'.mem_hashes hload]
    constructor
    · rintro ⟨ledger, hledger, tx, model, hfailed, hhash⟩
      obtain ⟨hlo, hhi⟩ := (hread ledger).mp (Grouping.mem_ascending.mpr hledger)
      exact ⟨ledger, tx, model, hlo, hhi, hfailed, hhash⟩
    · rintro ⟨ledger, tx, model, hlo, hhi, hfailed, hhash⟩
      exact ⟨ledger, Grouping.mem_ascending.mp ((hread ledger).mpr ⟨hlo, hhi⟩), tx, model, hfailed,
        hhash⟩

end Window

/-- A census of the ledgers 5 and 6, behind one of ledger 5. -/
theorem census_window_oneLedger : ∃ loaded : Loaded, (∀ l, l ∈ loaded.read ↔ 5 ≤ l ∧ l ≤ 6) ∧
    loaded.unreadable = [] ∧ fiveHash ∈ loaded.records.map PilotRecord.transactionHash := by
  have hreadable : ∀ l : UInt64, 5 ≤ l → l ≤ 6 → (oneLedgerNetwork.wholeLedger l).isSome := by
    intro l hlo hhi
    obtain rfl | rfl : l = 5 ∨ l = 6 := by
      rw [UInt64.le_iff_toNat_le] at hlo hhi
      rw [← UInt64.toNat_inj, ← UInt64.toNat_inj]
      exact Nat.le_and_le_add_one_iff.mp ⟨hlo, hhi⟩
    · rfl
    · rfl
  have hreached := @reached_oneLedger Strkey.standard Strkey.contractParser Strkey.parseAccount
  rw [← @perform_oneLedger Strkey.standard Strkey.contractParser] at hreached
  obtain ⟨-, -, loaded, -, -, hread, hunreadable, -, hhashes⟩ := @census_window Strkey.standard _ _
    _ _ oneLedgerNetwork
    (@completed_oneLedger Strkey.standard Strkey.contractParser Strkey.parseAccount) hreached
    serves_oneLedger 5 6 2 (by decide) (by decide) (by decide) (by decide) hreadable ""
  have hfailed : @FailedIn Strkey.standard
      (@oneLedgerDecoders Strkey.standard Strkey.contractParser Strkey.parseAccount) oneLedger 5
      failedFive (@failedFiveModel Strkey.standard) :=
    ⟨List.mem_singleton_self _, rfl, congrArg Tallied.model (@tallied_failedFive Strkey.standard)⟩
  exact ⟨loaded, hread, hunreadable,
    (hhashes fiveHash).mpr ⟨5, failedFive, _, by decide, by decide, hfailed, rfl⟩⟩

end Observatory
