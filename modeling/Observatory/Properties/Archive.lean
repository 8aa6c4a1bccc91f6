import Observatory.Census.Assumptions

/-!
# The hash of an archive

A checkpoint file holds the headers of 64 ledgers, each in a record of its own.  What the search
gives for a ledger is the hash in the first record of it, in the file of its checkpoint.

* `archiveUrl_eq_iff` — one file for the ledgers of one checkpoint.
* `visitRecord_eq_some`, `visitRecord_eq_none` — what a record is to the search.
* `archiveHash_exact` — the hash that is found.
-/

namespace Observatory

/-! ## Names of files -/

/-- The number with these hexadecimal digits. -/
def hexValue (digits : List Char) : Nat :=
  digits.foldl (fun n c => 16 * n + "0123456789abcdef".toList.idxOf c) 0

theorem hexValue_concat (digits : List Char) (c : Char) :
    hexValue (digits ++ [c]) = 16 * hexValue digits + "0123456789abcdef".toList.idxOf c := by
  rw [hexValue, List.foldl_append]
  rfl

theorem hexValue_toDigits (n : Nat) : hexValue (Nat.toDigits 16 n) = n := by
  have hdigit : ∀ d < 16, "0123456789abcdef".toList.idxOf (Nat.digitChar d) = d := by decide
  induction n using Nat.strongRecOn with
  | ind n ih =>
    by_cases hn : n < 16
    · rw [Nat.toDigits_of_lt_base hn]
      show 16 * 0 + _ = n
      rw [hdigit n hn, Nat.mul_zero, Nat.zero_add]
    · rw [Nat.toDigits_of_base_le (by decide) (Nat.le_of_not_lt hn), hexValue_concat,
        ih _ (by omega), hdigit _ (Nat.mod_lt _ (by decide)), Nat.div_add_mod]

theorem hexValue_paddedHex (n : Nat) : hexValue (paddedHex n) = n := by
  have hzeros : ∀ k, (List.replicate k '0').foldl
      (fun n c => 16 * n + "0123456789abcdef".toList.idxOf c) 0 = 0 := by
    intro k
    induction k with
    | zero => rfl
    | succ k ih => exact ih
  unfold paddedHex hexValue
  rw [List.foldl_append, hzeros]
  exact hexValue_toDigits n

theorem length_paddedHex (n : Nat) : 8 ≤ (paddedHex n).length := by
  unfold paddedHex
  rw [List.length_append, List.length_replicate]
  omega

/-- The checkpoint closes the 64 ledgers it is for. -/
theorem toNat_checkpointOf (ledger : UInt64) :
    (checkpointOf ledger).toNat = ledger.toNat / 64 * 64 + 63 := by
  have hlt := ledger.toNat_lt
  rw [checkpointOf, UInt64.toNat_add, UInt64.toNat_mul, UInt64.toNat_div]
  rw [show (64 : UInt64).toNat = 64 from rfl, show (63 : UInt64).toNat = 63 from rfl]
  omega

theorem toList_archiveUrl (archive : String) (ledger : UInt64) :
    ∃ dirs : List Char, dirs.length = archive.toList.length + 24 ∧
      (archiveUrl archive ledger).toList
        = dirs ++ (paddedHex (checkpointOf ledger).toNat ++ ".xdr.gz".toList) := by
  have hlength := length_paddedHex (checkpointOf ledger).toNat
  refine ⟨archive.toList ++ "/ledger/".toList
    ++ (paddedHex (checkpointOf ledger).toNat).take 2 ++ "/".toList
    ++ ((paddedHex (checkpointOf ledger).toNat).drop 2).take 2 ++ "/".toList
    ++ ((paddedHex (checkpointOf ledger).toNat).drop 4).take 2 ++ "/ledger-".toList, ?_, ?_⟩
  · simp only [List.length_append, List.length_take, List.length_drop]
    rw [Nat.min_eq_left (by omega), Nat.min_eq_left (by omega), Nat.min_eq_left (by omega)]
    rfl
  · simp only [archiveUrl, String.toList_append, String.toList_ofList, List.append_assoc]

/-- **Files.**  Two ledgers are looked for in one file just when they belong to one checkpoint. -/
theorem archiveUrl_eq_iff (archive : String) (ledger ledger' : UInt64) :
    archiveUrl archive ledger = archiveUrl archive ledger' ↔
      ledger.toNat / 64 = ledger'.toNat / 64 := by
  constructor
  · intro h
    obtain ⟨dirs, hdirs, hurl⟩ := toList_archiveUrl archive ledger
    obtain ⟨dirs', hdirs', hurl'⟩ := toList_archiveUrl archive ledger'
    have hlists := hurl.symm.trans ((congrArg String.toList h).trans hurl')
    have hnames := (List.append_inj hlists (hdirs.trans hdirs'.symm)).2
    have hvalue := congrArg hexValue (List.append_cancel_right hnames)
    rw [hexValue_paddedHex, hexValue_paddedHex, toNat_checkpointOf, toNat_checkpointOf] at hvalue
    omega
  · intro h
    have hcheckpoint : checkpointOf ledger = checkpointOf ledger' := by
      apply UInt64.toNat_inj.mp
      rw [toNat_checkpointOf, toNat_checkpointOf, h]
    rw [archiveUrl, archiveUrl, hcheckpoint]

/-! ## Records -/

section Records

variable {decoder : HeaderDecoder} {url : String} {ledger : UInt64} {body : List UInt8}

/-- A record holds the header of this ledger, with this hash. -/
def HoldsHeader (decoder : HeaderDecoder) (ledger : UInt64) (hash : Hash) (body : List UInt8) :
    Prop :=
  ∃ entry, decoder.header body (limitsForBytes body) = .ok entry ∧
    entry.header.ledgerSeq.toUInt64 = ledger ∧ entry.hash = hash

theorem visitRecord_eq_some {published : String} :
    visitRecord decoder url ledger body = .ok (some published) ↔
      ∃ hash, HoldsHeader decoder ledger hash body ∧ published = hex hash.bytes := by
  unfold visitRecord HoldsHeader
  cases hentry : decoder.header body (limitsForBytes body) with
  | error e => simp
  | ok entry =>
      by_cases hseq : entry.header.ledgerSeq.toUInt64 = ledger
      · simp [hseq, eq_comm]
      · simp [hseq]

theorem visitRecord_eq_none :
    visitRecord decoder url ledger body = .ok none ↔
      ∃ ledger' hash, ledger' ≠ ledger ∧ HoldsHeader decoder ledger' hash body := by
  unfold visitRecord HoldsHeader
  cases hentry : decoder.header body (limitsForBytes body) with
  | error e => simp
  | ok entry =>
      by_cases hseq : entry.header.ledgerSeq.toUInt64 = ledger
      · simp [hseq]
      · simp [hseq]

end Records

/-! ## The search -/

/-- **Published hashes.**  The archive is found to publish a hash for a ledger just when its file
for the ledger's checkpoint begins with records of other ledgers, with a record of this one and
its hash behind them; what follows does not matter.  The file is that of exactly the ledgers of
the checkpoint. -/
theorem archiveHash_exact (decoder : HeaderDecoder) (fetch : String → ArchiveAnswer)
    (archive : String) (ledger : UInt64) (published : String) :
    (archiveHash decoder fetch archive ledger = .ok published ↔
      ∃ (pre : List Framing.Frame) (f : Framing.Frame) (rest : List UInt8) (hash : Hash),
        fetch (archiveUrl archive ledger)
          = .raw (pre.flatMap Framing.Frame.encode ++ (f.encode ++ rest)) ∧
        (∀ g ∈ pre, ∃ ledger' hash', ledger' ≠ ledger ∧
          HoldsHeader decoder ledger' hash' g.body) ∧
        HoldsHeader decoder ledger hash f.body ∧ published = hex hash.bytes) ∧
      ∀ ledger', archiveUrl archive ledger = archiveUrl archive ledger' ↔
        ledger.toNat / 64 = ledger'.toNat / 64 := by
  refine ⟨?_, archiveUrl_eq_iff archive ledger⟩
  simp only [archiveHash]
  cases hfetch : fetch (archiveUrl archive ledger) with
  | unreachable e => simp
  | notGzip e => simp
  | raw bytes =>
      dsimp only
      rw [Framing.search_eq_ok]
      simp only [visitRecord_eq_some, visitRecord_eq_none, ArchiveAnswer.raw.injEq]
      constructor
      · rintro ⟨pre, f, rest, hbytes, hpre, hash, hholds, rfl⟩
        exact ⟨pre, f, rest, hash, hbytes, hpre, hholds, rfl⟩
      · rintro ⟨pre, f, rest, hash, hbytes, hpre, hholds, rfl⟩
        exact ⟨pre, f, rest, hbytes, hpre, hash, hholds, rfl⟩

end Observatory
