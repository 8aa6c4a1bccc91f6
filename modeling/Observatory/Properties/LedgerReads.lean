import Mathlib.Data.List.TakeWhile
import Observatory.Census.Survey

/-!
# Complete ledger reads

A ledger is used only if every transaction of it was read.  The loop over its pages
takes an answer without an array of transactions for an empty page, and so for the
end of the ledger.

* `Provider` — a server that serves what it holds in order, and answers that may fail.
* `ReadTo` — what the loop has read when it asks for the next page.
* `CutShort` — a page that was due has no array of transactions.
* `wholeLedger_complete` — the loop ends, and what it returns is the whole ledger unless the
  read is cut short.
-/

namespace Observatory

/-! ## Servers -/

/-- Transactions in ledger order, and the positions at which cursors resume. -/
structure Server where
  held : List Json
  ledger_isSome : ∀ tx ∈ held, tx.ledger.isSome
  sorted : held.Pairwise (fun a b => a.ledger.getD 0 ≤ b.ledger.getD 0)
  resume : String → Nat

namespace Server

/-- The position of the first transaction that is asked for. -/
def position (s : Server) : PageRequest → Nat
  | .startLedger ledger => (s.held.takeWhile (fun tx => tx.ledger.getD 0 < ledger)).length
  | .cursor c => s.resume c

/-- A page from a position: some of the transactions from there on, at least one if there is one,
and a cursor, if there is one, that resumes behind them. -/
structure Serves (s : Server) (pos : Nat) (result : Json) : Prop where
  page_eq : ∃ size, 0 < size ∧
    (result.get "transactions").bind Json.asArray = some ((s.held.drop pos).take size)
  resume_eq : ∀ c, result.getStr "cursor" = some c → s.resume c = pos + result.page.length

/-- What comes back for a request: a page, a failure, or a result without transactions. -/
inductive Answers (s : Server) (request : PageRequest) : Except String Json → Prop where
  | served {result : Json} (h : s.Serves (s.position request) result) :
      Answers s request (.ok result)
  | failed (error : String) : Answers s request (.error error)
  | noArray {result : Json} (h : (result.get "transactions").bind Json.asArray = none) :
      Answers s request (.ok result)

end Server

/-- A server behind clients that answer so, each time they are asked. -/
structure Provider extends Server where
  rpc : Rpc
  primary_answers : ∀ t request,
    toServer.Answers request (rpc.primary t "getTransactions" request.params)
  fallback_answers : ∀ fallback, rpc.fallback = some fallback → ∀ t request,
    toServer.Answers request (fallback t "getTransactions" request.params)

namespace Provider

variable (p : Provider) (ledger : UInt64)

/-- All transactions of the ledger, in order. -/
def transactionsOf : List Json := p.held.filter (fun tx => tx.ledger = some ledger)

/-- A read of the ledger is complete or refused. -/
def Complete : Prop := ∀ n read, wholeLedger p.rpc ledger n = some (some read) →
  read.transactions = p.transactionsOf ledger

/-- The pages that are asked for, each behind full pages that did not get past the ledger, and the
number of attempts made before. -/
inductive Reaches : PageRequest → Nat → Prop where
  | start : Reaches (.startLedger ledger) 0
  | next {request : PageRequest} {t t' : Nat} {result : Json} {c : String}
      (h : Reaches request t)
      (hcall : p.rpc.call "getTransactions" request.params t = (some result, t'))
      (hserved : p.Serves (p.position request) result) (hpage : result.page ≠ [])
      (hledger : ∀ tx ∈ result.page, tx.ledger.getD 0 ≤ ledger)
      (hcursor : result.getStr "cursor" = some c) : Reaches (.cursor c) t'

/-- A page is asked for that would have transactions of the ledger, and the answer has no array of
transactions. -/
def CutShort : Prop := ∃ request t t' result, p.Reaches ledger request t ∧
  p.rpc.call "getTransactions" request.params t = (some result, t') ∧
  (result.get "transactions").bind Json.asArray = none ∧
  ∃ tx ∈ p.held.drop (p.position request), tx.ledger = some ledger

/-! ## Calls -/

variable {p ledger}

theorem attempts_answers {request : PageRequest} {result : Json} {t' : Nat} (n : Nat) : ∀ {t : Nat},
    p.rpc.attempts "getTransactions" request.params n t = (some result, t') →
    p.Answers request (.ok result) := by
  induction n with
  | zero =>
      intro t h
      rw [Rpc.attempts, Rpc.callFallback] at h
      cases hfallback : p.rpc.fallback with
      | none =>
          rw [hfallback] at h
          cases h
      | some fallback =>
          have hanswer := p.fallback_answers fallback hfallback t request
          rw [hfallback] at h
          dsimp only at h
          cases hresult : fallback t "getTransactions" request.params with
          | error e =>
              rw [hresult] at h
              cases h
          | ok v =>
              rw [hresult] at h hanswer
              cases h
              exact hanswer
  | succ n ih =>
      intro t h
      have hanswer := p.primary_answers t request
      rw [Rpc.attempts] at h
      cases hresult : p.rpc.primary t "getTransactions" request.params with
      | error e =>
          rw [hresult] at h
          exact ih h
      | ok v =>
          rw [hresult] at h hanswer
          cases h
          exact hanswer

/-- What a call returns is a page of the server or has no transactions. -/
theorem call_answers {request : PageRequest} {result : Json} {t t' : Nat}
    (h : p.rpc.call "getTransactions" request.params t = (some result, t')) :
    p.Serves (p.position request) result ∨
      (result.get "transactions").bind Json.asArray = none := by
  cases attempts_answers 4 h with
  | served hserved => exact .inl hserved
  | noArray hnone => exact .inr hnone

/-! ## Pages -/

/-- The transactions before a position, and those from it on. -/
theorem transactionsOf_eq_append (pos : Nat) : p.transactionsOf ledger
    = (p.held.take pos).filter (fun tx => tx.ledger = some ledger)
      ++ (p.held.drop pos).filter (fun tx => tx.ledger = some ledger) := by
  rw [← List.filter_append, List.take_append_drop]
  rfl

theorem page_of_noArray {result : Json}
    (h : (result.get "transactions").bind Json.asArray = none) : result.page = [] := by
  rw [Json.page, h, Option.getD_none]

/-- A page is what comes behind its position. -/
theorem take_append_page {pos : Nat} {result : Json} (h : p.Serves pos result) :
    p.held.take (pos + result.page.length) = p.held.take pos ++ result.page := by
  obtain ⟨size, -, harray⟩ := h.page_eq
  have hpage : result.page = (p.held.drop pos).take size := by
    rw [Json.page, harray, Option.getD_some]
  have hprefix : result.page <+: p.held.drop pos := by
    rw [hpage]
    exact List.take_prefix size _
  rw [List.take_add, ← List.prefix_iff_eq_take.mp hprefix]

/-- Nothing is left behind an empty page. -/
theorem drop_of_page_eq_nil {pos : Nat} {result : Json} (h : p.Serves pos result)
    (hpage : result.page = []) : p.held.drop pos = [] := by
  obtain ⟨size, hsize, harray⟩ := h.page_eq
  rw [Json.page, harray, Option.getD_some, List.take_eq_nil_iff] at hpage
  rcases hpage with hzero | hnil
  · omega
  · exact hnil

/-- What the loop has read when it makes a request: all transactions of the ledger before the
position, and no transaction before it is of a later ledger. -/
structure ReadTo (p : Provider) (ledger : UInt64) (request : PageRequest) (out : List Json) :
    Prop where
  out_eq : out = (p.held.take (p.position request)).filter (fun tx => tx.ledger = some ledger)
  not_later : ∀ tx ∈ p.held.take (p.position request), tx.ledger.getD 0 ≤ ledger

/-- Before the start of a ledger there is nothing of it. -/
theorem readTo_start : ReadTo p ledger (.startLedger ledger) [] := by
  have hbefore : ∀ tx ∈ p.held.take (p.position (.startLedger ledger)),
      tx.ledger.getD 0 < ledger := by
    intro tx htx
    have hprefix : p.held.takeWhile (fun tx => tx.ledger.getD 0 < ledger) <+: p.held :=
      List.takeWhile_prefix _
    have htake : tx ∈ p.held.takeWhile (fun tx => tx.ledger.getD 0 < ledger) := by
      rw [List.prefix_iff_eq_take.mp hprefix]
      exact htx
    have hlt := List.mem_takeWhile_imp htake
    exact of_decide_eq_true hlt
  refine ⟨?_, fun tx htx => UInt64.le_of_lt (hbefore tx htx)⟩
  refine (List.filter_eq_nil_iff.mpr ?_).symm
  intro tx htx heq
  have hlt := hbefore tx htx
  rw [of_decide_eq_true heq] at hlt
  exact absurd hlt (UInt64.lt_irrefl ledger)

/-- **A page.**  Behind a page that is not the last the loop has read as far as the page goes. -/
theorem ReadTo.next {request : PageRequest} {out : List Json} (h : ReadTo p ledger request out)
    {result : Json} (hserved : p.Serves (p.position request) result)
    (hledger : ∀ tx ∈ result.page, tx.ledger.getD 0 ≤ ledger) {c : String}
    (hcursor : result.getStr "cursor" = some c) :
    ReadTo p ledger (.cursor c)
      (out ++ result.page.filter (fun tx => tx.ledger = some ledger)) := by
  have htake : p.held.take (p.position (.cursor c))
      = p.held.take (p.position request) ++ result.page := by
    rw [← take_append_page hserved]
    exact congrArg (fun n => p.held.take n) (hserved.resume_eq c hcursor)
  refine ⟨?_, ?_⟩
  · rw [htake, List.filter_append, h.out_eq]
  · rw [htake]
    intro tx htx
    rcases List.mem_append.mp htx with htx | htx
    · exact h.not_later tx htx
    · exact hledger tx htx

/-- **The last page.**  Behind a page with a later transaction, or an empty one, the ledger is
read. -/
theorem ReadTo.last {request : PageRequest} {out : List Json} (h : ReadTo p ledger request out)
    {result : Json} (hserved : p.Serves (p.position request) result)
    (hlast : (∃ tx ∈ result.page, ledger < tx.ledger.getD 0) ∨ result.page = []) :
    out ++ result.page.filter (fun tx => tx.ledger = some ledger) = p.transactionsOf ledger := by
  have hsplit : p.held = p.held.take (p.position request) ++ result.page
      ++ p.held.drop (p.position request + result.page.length) := by
    rw [← take_append_page hserved, List.take_append_drop]
  have hrest : (p.held.drop (p.position request + result.page.length)).filter
      (fun tx => tx.ledger = some ledger) = [] := by
    rcases hlast with ⟨tx, htx, hlater⟩ | hempty
    · refine List.filter_eq_nil_iff.mpr fun tx' htx' heq => ?_
      have hsorted := p.sorted
      rw [hsplit, List.pairwise_append] at hsorted
      have hle := hsorted.2.2 tx (List.mem_append_right _ htx) tx' htx'
      rw [of_decide_eq_true heq] at hle
      exact absurd (UInt64.lt_of_lt_of_le hlater hle) (UInt64.lt_irrefl ledger)
    · rw [hempty, List.length_nil, Nat.add_zero, drop_of_page_eq_nil hserved hempty]
      rfl
  rw [transactionsOf_eq_append (p.position request + result.page.length), hrest,
    List.append_nil, take_append_page hserved, List.filter_append, h.out_eq]

/-- **An answer without transactions.**  Where nothing of the ledger was due the ledger is read. -/
theorem ReadTo.last_of_noArray {request : PageRequest} {out : List Json}
    (h : ReadTo p ledger request out) {result : Json}
    (hnone : (result.get "transactions").bind Json.asArray = none)
    (hdue : ∀ tx ∈ p.held.drop (p.position request), tx.ledger ≠ some ledger) :
    out ++ result.page.filter (fun tx => tx.ledger = some ledger) = p.transactionsOf ledger := by
  have hnothing : (p.held.drop (p.position request)).filter (fun tx => tx.ledger = some ledger)
      = [] :=
    List.filter_eq_nil_iff.mpr fun tx htx heq => hdue tx htx (of_decide_eq_true heq)
  rw [page_of_noArray hnone, List.filter_nil, List.append_nil, h.out_eq,
    transactionsOf_eq_append (p.position request), hnothing, List.append_nil]

/-! ## The loop -/

theorem not_reached_iff {page : List Json} :
    ¬ (page.any (fun tx => tx.ledger.getD 0 > ledger) = true ∨ page = []) ↔
      (∀ tx ∈ page, tx.ledger.getD 0 ≤ ledger) ∧ page ≠ [] := by
  rw [not_or, Bool.not_eq_true, List.any_eq_false]
  simp only [decide_eq_true_eq, UInt64.not_lt, gt_iff_lt]

/-- **Soundness of the loop.**  From a state that a read which is not cut short reaches, the loop
returns the whole ledger or nothing. -/
theorem loop_complete (hwhole : ¬ p.CutShort ledger) (n : Nat) :
    ∀ {out : List Json} {cursor : Option String} {t : Nat} {read : LedgerRead},
      p.Reaches ledger (nextRequest ledger cursor) t →
      ReadTo p ledger (nextRequest ledger cursor) out →
      wholeLedgerLoop p.rpc ledger n out cursor t = some (some read) →
      read.transactions = p.transactionsOf ledger := by
  induction n with
  | zero =>
      intro out cursor t read _ _ h
      cases h
  | succ n ih =>
      intro out cursor t read hreaches hread h
      rw [wholeLedgerLoop] at h
      cases hcall : p.rpc.call "getTransactions" (nextRequest ledger cursor).params t with
      | mk answer t' =>
        cases answer with
        | none =>
            rw [hcall] at h
            cases h
        | some result =>
            rw [hcall] at h
            dsimp only at h
            split at h
            · next hlast =>
              obtain rfl := Option.some.inj (Option.some.inj h)
              rcases call_answers hcall with hserved | hnone
              · refine hread.last hserved (hlast.imp_left fun hany => ?_)
                obtain ⟨tx, htx, hlater⟩ := List.any_eq_true.mp hany
                exact ⟨tx, htx, of_decide_eq_true hlater⟩
              · -- a transaction that was due would make this a read that is cut short
                refine hread.last_of_noArray hnone fun tx htx heq => hwhole ?_
                exact ⟨_, t, t', result, hreaches, hcall, hnone, tx, htx, heq⟩
            · next hmore =>
              obtain ⟨hledger, hpage⟩ := not_reached_iff.mp hmore
              have hserved := (call_answers hcall).resolve_right fun hnone =>
                hpage (page_of_noArray hnone)
              cases hcursor : result.getStr "cursor" with
              | none =>
                  rw [hcursor] at h
                  cases h
              | some c =>
                  have hnext : p.Reaches ledger (nextRequest ledger (some c)) t' :=
                    .next hreaches hcall hserved hpage hledger hcursor
                  rw [hcursor] at h
                  exact ih hnext (hread.next hserved hledger hcursor) h

/-- One pass over a page that is not the last. -/
theorem loop_next {out : List Json} {cursor : Option String} {t t' : Nat} {result : Json}
    {c : String}
    (hcall : p.rpc.call "getTransactions" (nextRequest ledger cursor).params t = (some result, t'))
    (hpage : result.page ≠ []) (hledger : ∀ tx ∈ result.page, tx.ledger.getD 0 ≤ ledger)
    (hcursor : result.getStr "cursor" = some c) (n : Nat) :
    wholeLedgerLoop p.rpc ledger (n + 1) out cursor t = wholeLedgerLoop p.rpc ledger n
      (out ++ result.page.filter (fun tx => tx.ledger = some ledger)) (some c) t' := by
  rw [wholeLedgerLoop, hcall]
  dsimp only
  rw [if_neg (not_reached_iff.mpr ⟨hledger, hpage⟩), hcursor]

/-- The requests that are reached are those of the loop. -/
theorem exists_loop {request : PageRequest} {t : Nat} (h : p.Reaches ledger request t) :
    ∃ k cursor out, request = nextRequest ledger cursor ∧ ReadTo p ledger request out ∧
      ∀ n, wholeLedger p.rpc ledger (n + k) = wholeLedgerLoop p.rpc ledger n out cursor t := by
  induction h with
  | start => exact ⟨0, none, [], rfl, readTo_start, fun _ => rfl⟩
  | @next request t t' result c h hcall hserved hpage hledger hcursor ih =>
      obtain ⟨k, cursor, out, rfl, hread, hloop⟩ := ih
      refine ⟨k + 1, some c, _, rfl, hread.next hserved hledger hcursor, fun n => ?_⟩
      rw [← Nat.add_assoc, Nat.add_right_comm, hloop, loop_next hcall hpage hledger hcursor]

/-- A read that is cut short is returned, and is not the whole ledger. -/
theorem not_complete_of_cutShort (h : p.CutShort ledger) : ¬ p.Complete ledger := by
  obtain ⟨request, t, t', result, hreaches, hcall, hnone, tx, htx, hledger⟩ := h
  obtain ⟨k, cursor, out, rfl, hread, hloop⟩ := exists_loop hreaches
  have hpage := page_of_noArray hnone
  have hreturned :
      wholeLedger p.rpc ledger (1 + k) = some (some ⟨out, result.getStr "cursor"⟩) := by
    rw [hloop, wholeLedgerLoop, hcall]
    dsimp only
    rw [if_pos (.inr hpage), hpage, List.filter_nil, List.append_nil]
  intro hcomplete
  have hout : out = p.transactionsOf ledger := hcomplete _ _ hreturned
  rw [transactionsOf_eq_append (p.position (nextRequest ledger cursor)), ← hread.out_eq,
    List.self_eq_append_right, List.filter_eq_nil_iff] at hout
  exact hout tx htx (decide_eq_true hledger)

/-- **The loop ends**: every page that is not the last has a transaction. -/
theorem loop_ends (n : Nat) : ∀ {out : List Json} {cursor : Option String} {t : Nat},
    p.held.length - p.position (nextRequest ledger cursor) < n →
    ∃ result, wholeLedgerLoop p.rpc ledger n out cursor t = some result := by
  induction n with
  | zero =>
      intro out cursor t hn
      exact absurd hn (Nat.not_lt_zero _)
  | succ n ih =>
      intro out cursor t hn
      rw [wholeLedgerLoop]
      cases hcall : p.rpc.call "getTransactions" (nextRequest ledger cursor).params t with
      | mk answer t' =>
        cases answer with
        | none => exact ⟨none, rfl⟩
        | some result =>
            dsimp only
            split
            · exact ⟨_, rfl⟩
            · next hmore =>
              obtain ⟨-, hpage⟩ := not_reached_iff.mp hmore
              have hserved := (call_answers hcall).resolve_right fun hnone =>
                hpage (page_of_noArray hnone)
              cases hcursor : result.getStr "cursor" with
              | none => exact ⟨none, rfl⟩
              | some c =>
                  have hresume : p.position (nextRequest ledger (some c))
                      = p.position (nextRequest ledger cursor) + result.page.length :=
                    hserved.resume_eq c hcursor
                  have hlength := congrArg List.length (take_append_page hserved)
                  have hpos : 0 < result.page.length := List.length_pos_iff.mpr hpage
                  rw [List.length_append, List.length_take, List.length_take] at hlength
                  exact ih (by omega)

variable (p ledger)

/-- **Complete ledger reads.**  The loop ends, in at most one pass more than the server holds
transactions, and a read that it returns is the whole ledger, unless the read is cut short. -/
theorem wholeLedger_complete :
    (∀ n, p.held.length < n → ∃ result, wholeLedger p.rpc ledger n = some result) ∧
      (p.Complete ledger ↔ ¬ p.CutShort ledger) := by
  refine ⟨fun n hn => loop_ends n (by omega), ?_, ?_⟩
  · intro hcomplete hcut
    exact not_complete_of_cutShort hcut hcomplete
  · intro hwhole n read h
    exact loop_complete hwhole n .start readTo_start h

end Provider

/-- A transaction of ledger 5. -/
def ledgerFive : Json := .object [("ledger", .number "5")]

/-- A server with one transaction, whose answers have none. -/
def emptyAnswers : Provider where
  held := [ledgerFive]
  ledger_isSome := by
    intro tx htx
    rw [List.mem_singleton.mp htx]
    rfl
  sorted := List.pairwise_singleton _ _
  resume _ := 0
  rpc := ⟨fun _ _ _ => .ok (.object []), none⟩
  primary_answers _ _ := .noArray rfl
  fallback_answers _ h := by cases h

/-- A read of ledger 5 against empty answers is returned without its transaction. -/
theorem emptyAnswers_cutShort :
    wholeLedger emptyAnswers.rpc 5 1 = some (some ⟨[], none⟩) ∧
      emptyAnswers.transactionsOf 5 = [ledgerFive] ∧ ¬ emptyAnswers.Complete 5 := by
  have hread : wholeLedger emptyAnswers.rpc 5 1 = some (some ⟨[], none⟩) := rfl
  have hheld : emptyAnswers.transactionsOf 5 = [ledgerFive] := rfl
  refine ⟨hread, hheld, fun hcomplete => ?_⟩
  have hnil := hcomplete 1 _ hread
  rw [hheld] at hnil
  cases hnil

end Observatory
