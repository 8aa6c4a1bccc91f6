import Observatory.Properties.HashCodec
import Observatory.Properties.Resumption

/-!
# The exclusion list

No transaction that a census has observed may become a sample of the evaluation.  The list of
their hashes is made from the lines of the census: it panics rather than list what is no hash.

* `exclusions_exact` — what is listed, and when the program panics.
* `exclusions_cover` — every failed Soroban transaction of a census is listed, outer and inner.
-/

namespace Observatory

open Hex32 (IsHash IsHexDigit)

/-! ## Hashes -/

theorem isAsciiHexDigit_iff {c : Char} (hc : c.toNat < 128) :
    isAsciiHexDigit (UInt8.ofNat c.toNat) = true ↔ IsHexDigit c :=
  Hex32.ascii_induction
    (p := fun c => isAsciiHexDigit (UInt8.ofNat c.toNat) = true ↔ IsHexDigit c) (by decide +kernel)
    hc

theorem isAsciiHexDigit_lt {b : UInt8} (h : isAsciiHexDigit b = true) : b < 0x80 := by
  simp only [isAsciiHexDigit, Bool.or_eq_true, Bool.and_eq_true, decide_eq_true_eq,
    UInt8.le_iff_toNat_le] at h
  rw [UInt8.lt_iff_toNat_lt]
  simp at h ⊢
  omega

/-- The check of the program is that a text is a hash. -/
theorem isHash_iff (s : String) :
    ((Utf8.bytes s).length = 64 ∧ (Utf8.bytes s).all isAsciiHexDigit = true) ↔ IsHash s := by
  constructor
  · rintro ⟨hlength, hdigits⟩
    have hascii : ∀ c ∈ s.toList, c.toNat < 128 := Utf8.forall_bytes_lt.mp fun b hb =>
      isAsciiHexDigit_lt (List.all_eq_true.mp hdigits b hb)
    rw [Utf8.bytes_eq_map hascii] at hlength hdigits
    rw [List.length_map] at hlength
    refine ⟨hlength, fun c hc => (isAsciiHexDigit_iff (hascii c hc)).mp ?_⟩
    exact List.all_eq_true.mp hdigits _ (List.mem_map_of_mem hc)
  · rintro ⟨hlength, hdigits⟩
    have hascii : ∀ c ∈ s.toList, c.toNat < 128 := fun c hc => Hex32.isHexDigit_lt (hdigits c hc)
    rw [Utf8.bytes_eq_map hascii, List.length_map]
    refine ⟨hlength, List.all_eq_true.mpr fun b hb => ?_⟩
    obtain ⟨c, hc, rfl⟩ := List.mem_map.mp hb
    exact (isAsciiHexDigit_iff (hascii c hc)).mpr (hdigits c hc)

/-- A hash in lower case is written by the codec. -/
theorem exists_serialize {s : String} (h : IsHash s) :
    ∃ hash, Hex32.deserialize s = .ok hash ∧ Hex32.serialize hash = s.toLower := by
  obtain ⟨hash, hread⟩ := (Hex32.exists_deserialize_iff s).mpr
    ⟨h.length_eq, Hex32.pairs_of_digits s.toList 32 h.length_eq h.digits⟩
  exact ⟨hash, hread, Hex32.serialize_deserialize h.digits hread⟩

theorem toLower_serialize (hash : Hash) :
    (Hex32.serialize hash).toLower = Hex32.serialize hash := by
  obtain ⟨hash', hread, hlower⟩ := exists_serialize (Hex32.isHash_serialize hash)
  rw [Hex32.deserialize_serialize] at hread
  rw [← hlower, Except.ok.inj hread]

/-! ## The list -/

/-- The hashes a line states, outer and inner. -/
def statedHashes (line : Json) : List String :=
  ["transaction_hash", "inner_transaction_hash"].filterMap line.getStr

theorem exclusionHash_eq_some {line : Json} {field : String} {hs : List String} :
    exclusionHash line field = some hs ↔
      (∀ h, line.getStr field = some h → IsHash h) ∧
        hs = ((line.getStr field).map String.toLower).toList := by
  unfold exclusionHash
  cases line.getStr field with
  | none => simp [eq_comm]
  | some h =>
      dsimp only
      by_cases hhash : IsHash h
      · rw [if_pos ((isHash_iff h).mpr hhash)]
        simp [hhash, eq_comm]
      · rw [if_neg (fun hcheck => hhash ((isHash_iff h).mp hcheck))]
        simp [hhash]

theorem exclusionHashes_eq_some {line : Json} {hs : List String} :
    exclusionHashes line = some hs ↔
      (∀ h ∈ statedHashes line, IsHash h) ∧ hs = (statedHashes line).map String.toLower := by
  have hstated : statedHashes line = (line.getStr "transaction_hash").toList
      ++ (line.getStr "inner_transaction_hash").toList := by
    unfold statedHashes
    cases houter : line.getStr "transaction_hash" <;>
      cases hinner : line.getStr "inner_transaction_hash" <;> simp [houter, hinner]
  rw [hstated]
  constructor
  · intro h
    obtain ⟨outer, houter, h⟩ := Option.bind_eq_some_iff.mp h
    obtain ⟨inner, hinner, h⟩ := Option.bind_eq_some_iff.mp h
    obtain ⟨houterHash, rfl⟩ := exclusionHash_eq_some.mp houter
    obtain ⟨hinnerHash, rfl⟩ := exclusionHash_eq_some.mp hinner
    refine ⟨fun h hh => ?_, ?_⟩
    · rcases List.mem_append.mp hh with hh | hh
      · exact houterHash h (Option.mem_toList.mp hh)
      · exact hinnerHash h (Option.mem_toList.mp hh)
    · rw [← Option.some.inj h, List.map_append, Option.toList_map, Option.toList_map]
  · rintro ⟨hhash, rfl⟩
    have houter := exclusionHash_eq_some.mpr ⟨fun h hh =>
      hhash h (List.mem_append_left _ (Option.mem_toList.mpr hh)), rfl⟩
    have hinner := exclusionHash_eq_some.mpr ⟨fun h hh =>
      hhash h (List.mem_append_right _ (Option.mem_toList.mpr hh)), rfl⟩
    refine Option.bind_eq_some_iff.mpr ⟨_, houter, Option.bind_eq_some_iff.mpr ⟨_, hinner, ?_⟩⟩
    rw [List.map_append, Option.toList_map, Option.toList_map]

/-- There is a list exactly where every stated hash is one, and it holds them all. -/
theorem exclusions_eq_some {lines : List Json} {list : List String} :
    exclusions lines = some list ↔ (∀ line ∈ lines, ∀ h ∈ statedHashes line, IsHash h) ∧
      list = Grouping.ascending id ((lines.flatMap statedHashes).map String.toLower) := by
  have hmap : ∀ {hashes : List (List String)}, lines.mapM exclusionHashes = some hashes ↔
      (∀ line ∈ lines, ∀ h ∈ statedHashes line, IsHash h) ∧
        hashes = lines.map (fun line => (statedHashes line).map String.toLower) := by
    induction lines with
    | nil => simp [eq_comm]
    | cons line lines ih =>
        intro hashes
        rw [List.mapM_cons, List.forall_mem_cons]
        constructor
        · intro h
          obtain ⟨first, hfirst, h⟩ := Option.bind_eq_some_iff.mp h
          obtain ⟨later, hlater, h⟩ := Option.bind_eq_some_iff.mp h
          obtain ⟨hhash, rfl⟩ := exclusionHashes_eq_some.mp hfirst
          obtain ⟨hhashes, rfl⟩ := ih.mp hlater
          exact ⟨⟨hhash, hhashes⟩, (Option.some.inj h).symm⟩
        · rintro ⟨⟨hhash, hhashes⟩, rfl⟩
          exact Option.bind_eq_some_iff.mpr ⟨_, exclusionHashes_eq_some.mpr ⟨hhash, rfl⟩,
            Option.bind_eq_some_iff.mpr ⟨_, ih.mpr ⟨hhashes, rfl⟩, rfl⟩⟩
  have hflat : (lines.map (fun line => (statedHashes line).map String.toLower)).flatten
      = (lines.flatMap statedHashes).map String.toLower := by
    rw [List.map_flatMap, List.flatMap]
  rw [exclusions]
  constructor
  · intro h
    obtain ⟨hashes, hhashes, rfl⟩ := Option.map_eq_some_iff.mp h
    obtain ⟨hall, rfl⟩ := hmap.mp hhashes
    exact ⟨hall, by rw [hflat]⟩
  · rintro ⟨hall, rfl⟩
    exact Option.map_eq_some_iff.mpr ⟨_, hmap.mpr ⟨hall, rfl⟩, by rw [hflat]⟩

/-- **The list.**  The program panics exactly at what is no hash.  Otherwise it lists the hashes the
lines state, outer and inner, each once, in order and in lower case. -/
theorem exclusions_exact (lines : List Json) :
    ((exclusions lines).isSome ↔ ∀ line ∈ lines, ∀ h ∈ statedHashes line, IsHash h) ∧
      ∀ list, exclusions lines = some list → list.Pairwise (· < ·) ∧
        ∀ text, text ∈ list ↔ ∃ line ∈ lines, ∃ h ∈ statedHashes line, ∃ hash,
          Hex32.deserialize h = .ok hash ∧ text = Hex32.serialize hash := by
  refine ⟨?_, fun list hlist => ?_⟩
  · rw [Option.isSome_iff_exists]
    constructor
    · rintro ⟨list, hlist⟩
      exact (exclusions_eq_some.mp hlist).1
    · exact fun h => ⟨_, exclusions_eq_some.mpr ⟨h, rfl⟩⟩
  · obtain ⟨hall, rfl⟩ := exclusions_eq_some.mp hlist
    refine ⟨Grouping.pairwise_ascending Function.injective_id _, fun text => ?_⟩
    rw [Grouping.mem_ascending, List.mem_map]
    simp only [List.mem_flatMap]
    constructor
    · rintro ⟨h, ⟨line, hline, hh⟩, rfl⟩
      obtain ⟨hash, hread, hlower⟩ := exists_serialize (hall line hline h hh)
      exact ⟨line, hline, h, hh, hash, hread, hlower.symm⟩
    · rintro ⟨line, hline, h, hh, hash, hread, rfl⟩
      exact ⟨h, ⟨line, hline, hh⟩,
        (Hex32.serialize_deserialize (hall line hline h hh).digits hread).symm⟩

/-! ## A census -/

section Census

variable [Strkey] {decoders : Decoders} {server : Server} {disk : Disk}

omit [Strkey] in
theorem statedHashes_serialize (r : PilotRecord) :
    statedHashes r.serialize = r.transactionHash :: r.innerTransactionHash.toList := by
  unfold statedHashes
  rw [List.filterMap_cons_some r.getStr_transactionHash]
  cases hinner : r.innerTransactionHash with
  | none => rw [List.filterMap_cons_none (r.getStr_innerTransactionHash.trans hinner)]; rfl
  | some h => rw [List.filterMap_cons_some (r.getStr_innerTransactionHash.trans hinner)]; rfl

/-- **What a census has observed.**  Over any number of runs that stop anywhere, the list made from
records that can be read has every failed Soroban transaction of the ledgers that the log has
as read, with the inner hash of a fee bump. -/
theorem exclusions_cover (h : Reached decoders server disk) {recs : List PilotRecord}
    (hrecs : disk.records.all = some recs) (hhash : ∀ tx ∈ server.held, IsHash tx.txHash)
    (hdistinct : (server.held.map Json.txHash).Nodup) :
    ∃ list, exclusions (recs.map PilotRecord.serialize) = some list ∧
      ∀ ledger ∈ alreadyRead disk.log, ∀ tx model, FailedIn decoders server ledger tx model →
        tx.txHash.toLower ∈ list ∧ ∀ bump, model.outcome.feeBump = some bump →
          Hex32.serialize bump.innerTransactionHash ∈ list := by
  obtain ⟨hintact, rfl⟩ := Journal.File.all_eq_some.mp hrecs
  obtain ⟨hcovered, hgenuine⟩ := h.sound
  have hstated : ∀ line ∈ disk.records.values.map PilotRecord.serialize,
      ∀ text ∈ statedHashes line, IsHash text := by
    intro line hline text htext
    obtain ⟨r, hr, rfl⟩ := List.mem_map.mp hline
    obtain ⟨tx, model, lookup, hfailed, hnew⟩ := hgenuine r hr
    rw [statedHashes_serialize, hnew] at htext
    rcases List.mem_cons.mp htext with rfl | hinner
    · exact hhash tx hfailed.1
    · obtain ⟨bump, -, rfl⟩ := Option.map_eq_some_iff.mp (Option.mem_toList.mp hinner)
      exact Hex32.isHash_serialize _
  refine ⟨_, exclusions_eq_some.mpr ⟨hstated, rfl⟩, fun ledger hledger tx model hfailed => ?_⟩
  obtain ⟨line, hline, hread⟩ := List.mem_filterMap.mp hledger
  rcases hcovered line hline (ledger, tx.txHash) ⟨hread, tx, model, hfailed, rfl⟩ with
    ⟨r, hr, hkey⟩ | hbroken
  · obtain ⟨-, hrhash⟩ := Prod.mk.inj hkey
    obtain ⟨tx', model', lookup, hfailed', hnew⟩ := hgenuine r hr
    -- a hash is that of one transaction
    obtain rfl : tx' = tx := List.inj_on_of_nodup_map hdistinct hfailed'.1 hfailed.1 (by
      rw [← hrhash, hnew]
      rfl)
    obtain rfl : model' = model := Option.some.inj (hfailed'.2.2.symm.trans hfailed.2.2)
    have hlisted : ∀ text ∈ statedHashes r.serialize, text.toLower ∈ Grouping.ascending id
        (((disk.records.values.map PilotRecord.serialize).flatMap statedHashes).map
          String.toLower) := by
      intro text htext
      rw [Grouping.mem_ascending]
      exact List.mem_map_of_mem (List.mem_flatMap.mpr ⟨_, List.mem_map_of_mem hr, htext⟩)
    rw [statedHashes_serialize, hnew] at hlisted
    refine ⟨hlisted _ List.mem_cons_self, fun bump hbump => ?_⟩
    rw [← toLower_serialize]
    refine hlisted _ (List.mem_cons_of_mem _ (Option.mem_toList.mpr ?_))
    exact Option.map_eq_some_iff.mpr ⟨bump, hbump, rfl⟩
  · exact absurd hbroken (Journal.File.not_broken hintact)

end Census

/-- The failure of the one ledger is listed. -/
theorem exclusions_cover_oneLedger : ∃ list,
    exclusions ([@failedFiveRecord Strkey.standard Strkey.parseAccount].map PilotRecord.serialize)
      = some list ∧ fiveHash.toLower ∈ list := by
  have hhash : ∀ tx ∈ oneLedger.held, IsHash tx.txHash := by
    intro tx htx
    rw [List.mem_singleton.mp htx]
    exact Hex32.isHash_serialize (Hash.fill 5)
  obtain ⟨list, hlist, hcover⟩ := @exclusions_cover Strkey.standard _ _ _
    (@reached_oneLedger Strkey.standard Strkey.contractParser Strkey.parseAccount)
    [@failedFiveRecord Strkey.standard Strkey.parseAccount] rfl hhash (List.nodup_singleton _)
  have hfailed : @FailedIn Strkey.standard
      (@oneLedgerDecoders Strkey.standard Strkey.contractParser Strkey.parseAccount) oneLedger 5
      failedFive (@failedFiveModel Strkey.standard) :=
    ⟨List.mem_singleton_self _, rfl, congrArg Tallied.model (@tallied_failedFive Strkey.standard)⟩
  exact ⟨list, hlist, (hcover 5 (List.mem_singleton_self _) failedFive _ hfailed).1⟩

end Observatory
