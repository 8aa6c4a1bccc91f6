import Observatory.Census.Assumptions
import Observatory.Properties.Accounting

/-!
# Reads in pages of any size

The tool that checks the protocol reads a ledger with a loop of its own, in pages of 200 and of
7.  Whatever the size, what it reads is the ledger, and so is what the census reads.

* `Server.Lacks` — an answer without transactions where one of the ledger was due.
* `hashes_exact` — a read ends, and has the hashes of the ledger.
* `reads_agree` — reads in pages of two sizes agree with each other and with the census.
-/

namespace Observatory

/-! ## A server without clients -/

namespace Server

/-- The server behind clients that never answer. -/
def silent (s : Server) : Provider where
  toServer := s
  rpc := ⟨fun _ _ _ => .error "", none⟩
  primary_answers _ _ := .failed ""
  fallback_answers _ h := by cases h

variable (s : Server) (client : ClientCall) (limit : UInt32) (ledger : UInt64)

/-- The hashes of the transactions of a ledger. -/
def hashesOf : List String :=
  Grouping.ascending id ((s.silent.transactionsOf ledger).map Json.txHash)

/-- An answer has no array of transactions where one of the ledger was due. -/
def Lacks : Prop := ∃ t request result,
  client t "getTransactions" (request.sized limit) = .ok result ∧
    (result.get "transactions").bind Json.asArray = none ∧
    ∃ tx ∈ s.held.drop (s.position request), tx.ledger = some ledger

end Server

/-! ## The loop -/

section Loop

variable {s : Server} {client : ClientCall} {limit : UInt32} {ledger : UInt64}
  (hserver : ∀ t request, s.Answers request (client t "getTransactions" (request.sized limit)))
include hserver

theorem served_or_noArray {t : Nat} {request : PageRequest} {result : Json}
    (h : client t "getTransactions" (request.sized limit) = .ok result) :
    s.Serves (s.position request) result ∨
      (result.get "transactions").bind Json.asArray = none := by
  have hanswer := hserver t request
  rw [h] at hanswer
  cases hanswer with
  | served hserved => exact .inl hserved
  | noArray hnone => exact .inr hnone

/-- **Soundness of the loop.**  From what a read has come to, the loop returns the hashes of the
ledger or nothing. -/
theorem hashesLoop_exact (hdue : ¬ s.Lacks client limit ledger) (n : Nat) :
    ∀ {t : Nat} {out : List Json} {cursor : Option String} {set : List String},
      Provider.ReadTo s.silent ledger (nextRequest ledger cursor) out →
      transactionHashesLoop client ledger limit n t (out.map Json.txHash) cursor = some (some set) →
      set = s.hashesOf ledger := by
  induction n with
  | zero =>
      intro t out cursor set _ h
      cases h
  | succ n ih =>
      intro t out cursor set hread h
      rw [transactionHashesLoop] at h
      cases hcall : client t "getTransactions" ((nextRequest ledger cursor).sized limit) with
      | error e =>
          rw [hcall] at h
          cases h
      | ok result =>
          rw [hcall] at h
          dsimp only at h
          rw [← List.map_append] at h
          split at h
          · next hlast =>
            obtain rfl := Option.some.inj (Option.some.inj h)
            refine congrArg (fun txs : List Json => Grouping.ascending id (txs.map Json.txHash)) ?_
            rcases served_or_noArray hserver hcall with hserved | hnone
            · refine hread.last hserved (hlast.imp_left fun hany => ?_)
              obtain ⟨tx, htx, hlater⟩ := List.any_eq_true.mp hany
              exact ⟨tx, htx, of_decide_eq_true hlater⟩
            · -- a transaction that was due would be lacking
              exact hread.last_of_noArray hnone fun tx htx heq =>
                hdue ⟨t, _, result, hcall, hnone, tx, htx, heq⟩
          · next hmore =>
            obtain ⟨hledger, hpage⟩ := Provider.not_reached_iff.mp hmore
            have hserved := (served_or_noArray hserver hcall).resolve_right fun hnone =>
              hpage (Provider.page_of_noArray hnone)
            cases hcursor : result.getStr "cursor" with
            | none =>
                rw [hcursor] at h
                cases h
            | some c =>
                have hnext : Provider.ReadTo s.silent ledger (nextRequest ledger (some c)) _ :=
                  hread.next hserved hledger hcursor
                rw [hcursor] at h
                exact ih hnext h

/-- **The loop ends**: every page that is not the last has a transaction. -/
theorem hashesLoop_ends (n : Nat) : ∀ {t : Nat} {hashes : List String} {cursor : Option String},
    s.held.length - s.position (nextRequest ledger cursor) < n →
    ∃ result, transactionHashesLoop client ledger limit n t hashes cursor = some result := by
  induction n with
  | zero =>
      intro t hashes cursor hn
      exact absurd hn (Nat.not_lt_zero _)
  | succ n ih =>
      intro t hashes cursor hn
      rw [transactionHashesLoop]
      cases hcall : client t "getTransactions" ((nextRequest ledger cursor).sized limit) with
      | error e => exact ⟨none, rfl⟩
      | ok result =>
          dsimp only
          split
          · exact ⟨_, rfl⟩
          · next hmore =>
            obtain ⟨-, hpage⟩ := Provider.not_reached_iff.mp hmore
            have hserved := (served_or_noArray hserver hcall).resolve_right fun hnone =>
              hpage (Provider.page_of_noArray hnone)
            cases hcursor : result.getStr "cursor" with
            | none => exact ⟨none, rfl⟩
            | some c =>
                have hresume : s.position (nextRequest ledger (some c))
                    = s.position (nextRequest ledger cursor) + result.page.length :=
                  hserved.resume_eq c hcursor
                have htake : s.held.take (s.position (nextRequest ledger cursor)
                    + result.page.length) = s.held.take (s.position (nextRequest ledger cursor))
                      ++ result.page := Provider.take_append_page (p := s.silent) hserved
                have hlength := congrArg List.length htake
                have hpos : 0 < result.page.length := List.length_pos_iff.mpr hpage
                rw [List.length_append, List.length_take, List.length_take] at hlength
                exact ih (by omega)

variable (ledger)

/-- **A read in pages.**  It ends, in at most one page more than the server holds transactions, and
has the hashes of the ledger unless an answer lacks its transactions. -/
theorem hashes_exact :
    (∀ n, s.held.length < n → ∃ r, ledgerTransactionHashes client ledger limit n = some r) ∧
      (¬ s.Lacks client limit ledger → ∀ n set,
        ledgerTransactionHashes client ledger limit n = some (some set) →
          set = s.hashesOf ledger) :=
  have hstart : Provider.ReadTo s.silent ledger (nextRequest ledger none) [] :=
    Provider.readTo_start
  ⟨fun n hn => hashesLoop_ends hserver n (by omega), fun hdue n _ h =>
    hashesLoop_exact hserver hdue n hstart h⟩

end Loop

/-- **Reads agree.**  Over one server, reads of a ledger in pages of any two sizes give the same
set, and it is that of the transactions the census reads. -/
theorem reads_agree (p : Provider) {client client' : ClientCall} {limit limit' : UInt32}
    {ledger : UInt64}
    (hserver : ∀ t request, p.Answers request (client t "getTransactions" (request.sized limit)))
    (hserver' : ∀ t request,
      p.Answers request (client' t "getTransactions" (request.sized limit')))
    (hdue : ¬ p.Lacks client limit ledger) (hdue' : ¬ p.Lacks client' limit' ledger)
    (hwhole : ¬ p.CutShort ledger) :
    (∀ n, p.held.length < n →
      (∃ r, ledgerTransactionHashes client ledger limit n = some r) ∧
      ∃ r, ledgerTransactionHashes client' ledger limit' n = some r) ∧
    ∀ n n' m set set' read, ledgerTransactionHashes client ledger limit n = some (some set) →
      ledgerTransactionHashes client' ledger limit' n' = some (some set') →
      wholeLedger p.rpc ledger m = some (some read) →
      set = set' ∧ set = Grouping.ascending id (read.transactions.map Json.txHash) := by
  obtain ⟨hends, hexact⟩ := hashes_exact ledger hserver
  obtain ⟨hends', hexact'⟩ := hashes_exact ledger hserver'
  refine ⟨fun n hn => ⟨hends n hn, hends' n hn⟩, fun n n' m set set' read h h' hread => ?_⟩
  have hread' := Provider.loop_complete hwhole m .start Provider.readTo_start hread
  rw [hexact hdue n set h, hexact' hdue' n' set' h', hread']
  exact ⟨rfl, rfl⟩

/-- The server with the ledger, in pages of any size. -/
theorem answers_sized (limit : UInt32) (t : Nat) (request : PageRequest) :
    oneLedgerProvider.Answers request
      ((fun _ _ params => .ok (oneLedgerAnswer params) : ClientCall) t "getTransactions"
        (request.sized limit)) := by
  have hsame : oneLedgerAnswer (request.sized limit) = oneLedgerAnswer request.params := by
    cases request <;> rfl
  show oneLedgerProvider.Answers request (.ok (oneLedgerAnswer (request.sized limit)))
  rw [hsame]
  exact .served (serves_oneLedgerAnswer request)

/-- The answers of the one-ledger server have their array. -/
theorem not_lacks_oneLedger (limit : UInt32) :
    ¬ oneLedgerProvider.Lacks (fun _ _ params => .ok (oneLedgerAnswer params)) limit 5 := by
  rintro ⟨t, request, result, hcall, hnone, -⟩
  obtain rfl := Except.ok.inj hcall
  cases hnone

theorem reads_agree_oneLedger : ∃ set read,
    ledgerTransactionHashes (fun _ _ params => .ok (oneLedgerAnswer params)) 5 7 2
        = some (some set) ∧
      wholeLedger oneLedgerProvider.rpc 5 2 = some (some read) ∧
      set = Grouping.ascending id (read.transactions.map Json.txHash) := by
  have hset : ledgerTransactionHashes (fun _ _ params => .ok (oneLedgerAnswer params)) 5 7 2
      = some (some [fiveHash]) := rfl
  have hset' : ledgerTransactionHashes (fun _ _ params => .ok (oneLedgerAnswer params)) 5 200 2
      = some (some [fiveHash]) := rfl
  have hread : wholeLedger oneLedgerProvider.rpc 5 2 = some (some ⟨[failedFive], some "end"⟩) := rfl
  have hwhole : ¬ oneLedgerProvider.CutShort 5 := by
    rintro ⟨request, t, t', result, -, hcall, hnone, -⟩
    obtain ⟨hresult, -⟩ := Prod.mk.inj hcall
    obtain rfl := Option.some.inj hresult
    cases hnone
  obtain ⟨-, hagree⟩ := reads_agree oneLedgerProvider (answers_sized 7) (answers_sized 200)
    (not_lacks_oneLedger 7) (not_lacks_oneLedger 200) hwhole
  exact ⟨_, _, hset, hread, (hagree _ _ _ _ _ _ hset hset' hread).2⟩

end Observatory
