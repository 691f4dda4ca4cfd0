import Banking.Atomic.Journal
import Banking.Properties.Balance
import Banking.Refinement.Decoding

/-!
# Replay and the live balance

The account replay adds up the completed events of an account. The timeout scan gives amounts
back and leaves a `TransactionCompensated` event, which the replay does not read, so a replay
agrees with the live balance as long as the compensated amounts cancel out.
-/

namespace Banking

open Relational (Table)

variable {d : Deployment} {accounts : Table Account.id} {now : Js.Date} {s : SystemState}
variable {db : Database} {accountId : String} {auth : Auth} {collation : Collation}

/-- A completed event of the account carries a negative `balanceAfter`. -/
def RecordsNegative (db : Database) (accountId : String) : Prop :=
  ∃ e ∈ db.accountEvents accountId, ∃ n : Int, n < 0 ∧
    payloadField "balanceAfter" e.payload = some (.str (toString n))

private theorem balanceAfter_eq {t : Transaction} {balance : Int} {e : OutboxEvent}
    (h : IsCompletedEvent t balance e) :
    payloadField "balanceAfter" e.payload = some (.str (toString balance)) := by
  obtain ⟨input, ip, -, he⟩ := h
  rw [he]
  rfl

private theorem accepted_iff {t : Transaction} {balance : Int} {e : OutboxEvent}
    (h : IsCompletedEvent t balance e) :
    (transactionCompletedPayloadSchema (some e.payload)).isSome = true ↔ 0 ≤ balance := by
  obtain ⟨input, ip, hreq, he⟩ := h
  rw [he]
  constructor
  · intro haccepted
    obtain ⟨p, hp⟩ := Option.isSome_iff_exists.mp haccepted
    exact (completedEvent_parsed hreq hp).1
  · intro hbalance
    rw [completedEvent_accepted hreq hbalance]
    rfl

/-- The schema accepts all completed events of an account unless one carries a negative
balance. -/
private theorem accepted_iff_not_recordsNegative (hc : Consistent db) :
    (∀ e ∈ db.accountEvents accountId,
      (transactionCompletedPayloadSchema (some e.payload)).isSome = true) ↔
      ¬ RecordsNegative db accountId := by
  constructor
  · rintro haccepted ⟨e, he, n, hn, hrecorded⟩
    obtain ⟨t, balance, -, -, hcompleted⟩ := hc.mem_accountEvents he
    have hbalance := (accepted_iff hcompleted).mp (haccepted e he)
    rw [balanceAfter_eq hcompleted, Option.some.injEq, Json.str.injEq] at hrecorded
    have := Js.toString_injective hrecorded
    omega
  · intro hnot e he
    obtain ⟨t, balance, -, -, hcompleted⟩ := hc.mem_accountEvents he
    rw [accepted_iff hcompleted]
    by_contra hnegative
    exact hnot ⟨e, he, balance, Int.not_le.mp hnegative, balanceAfter_eq hcompleted⟩

/-- An accepted completed event is replayed with the amount of its transaction. -/
private theorem replayedAmount_eq (hc : Consistent db) {e : OutboxEvent}
    (he : e ∈ db.accountEvents accountId)
    (haccepted : (transactionCompletedPayloadSchema (some e.payload)).isSome = true) :
    replayedAmount accountId e.replay = db.amountOf e.transactionId := by
  obtain ⟨t, balance, ht, haccount, hcompleted⟩ := hc.mem_accountEvents he
  obtain ⟨p, hp⟩ := Option.isSome_iff_exists.mp haccepted
  obtain ⟨input, ip, hreq, hdata⟩ := hcompleted
  have hparsed := hp
  rw [hdata] at hparsed
  obtain ⟨-, hmovement⟩ := completedEvent_parsed hreq hparsed
  have hid : p.accountId = t.accountId := congrArg TransactionCompletedPayload.accountId hmovement
  have htype : p.txnType = t.type := congrArg TransactionCompletedPayload.txnType hmovement
  have hamount : p.amount = toString t.amount :=
    congrArg TransactionCompletedPayload.amount hmovement
  have hp' : transactionCompletedPayloadSchema (some e.replay.payload) = some p := hp
  have hpos := hc.amount_pos ht
  simp only [replayedAmount, hp', hid, haccount, if_true, Database.amountOf, ht, Option.map_some,
    Option.getD_some, TransactionCompletedPayload.apply, Transaction.signedAmount, htype, hamount]
  rw [Js.bigInt_toString (Int.le_of_lt hpos)]
  cases t.type
  · exact Int.zero_sub _
  · exact Int.zero_add _

/-- In every reachable state, the balance that the replay rebuilds for an account is its live
balance less its opening balance if and only if the account's compensated transactions add up to
nothing and none of its completed events carries a negative balance. -/
theorem replay_agrees_iff (h : Runs d (initial accounts now) s) {a : Account}
    (ha : a ∈ s.db.accounts.rows) (hauth : auth.role = .ADMIN ∨ auth.userId = a.userId) :
    ∃ a₀ ∈ accounts.rows, a₀.id = a.id ∧
      ((∃ replay, replayAccount collation s.db auth a.id = some (.data replay) ∧
          replay.rebuiltBalance = toString (a.balance - a₀.balance)) ↔
        s.db.compensatedSum a.id = 0 ∧ ¬ RecordsNegative s.db a.id) := by
  have hfind := Table.find?_of_mem ha
  have hc := consistent h
  obtain ⟨a₀, ha₀, hbalance⟩ := balanced h a.id a hfind
  refine ⟨a₀, Table.mem_of_find? ha₀, Table.key_of_find? ha₀, ?_⟩
  rw [replayAccount_rebuilt hfind hauth, ← accepted_iff_not_recordsNegative hc, and_comm]
  refine and_congr_left fun haccepted ↦ ?_
  have hsum : ((s.db.accountEvents a.id).map (fun e ↦ replayedAmount a.id e.replay)).sum =
      s.db.netEffect a.id + s.db.compensatedSum a.id := by
    rw [← hc.journal_sum]
    exact congrArg List.sum (List.map_congr_left fun e he ↦
      replayedAmount_eq hc he (haccepted e he))
  rw [hsum, hbalance]
  omega

/-- The sample debit is replayed as it was, whatever decides between events of one time. -/
theorem replay_agrees_iff_debit : ∃ s, Sample.after Sample.debit = some s ∧
    ∃ a ∈ s.db.accounts.rows, a.balance = 90 ∧ ∃ a₀ ∈ Sample.accounts.rows, a₀.id = a.id ∧
      ((∃ replay, replayAccount ⟨fun _ _ ↦ 0, fun _ _ ↦ 0⟩ s.db ⟨"admin-1", .ADMIN⟩ a.id =
          some (.data replay) ∧ replay.rebuiltBalance = toString (a.balance - a₀.balance)) ↔
        s.db.compensatedSum a.id = 0 ∧ ¬ RecordsNegative s.db a.id) := by
  have hrun : (Sample.after Sample.debit).map (fun s ↦ s.db.accounts.rows.map Account.balance) =
      some [90] := by
    decide +kernel
  obtain ⟨s, hs, hbalances⟩ := Option.map_eq_some_iff.mp hrun
  obtain ⟨a, ha, hbalance⟩ : ∃ a ∈ s.db.accounts.rows, a.balance = 90 := by
    rw [← List.mem_map, hbalances]
    exact List.mem_singleton.mpr rfl
  exact ⟨s, hs, a, ha, hbalance,
    replay_agrees_iff (Relational.runs_of_run hs) ha (.inl rfl)⟩

/-- The balance that the sample owner's replay shows. -/
private def sampleReplay (s : SystemState) : Option String :=
  match replayAccount ⟨fun _ _ ↦ 0, fun _ _ ↦ 0⟩ s.db ⟨"user-1", .CUSTOMER⟩ Sample.accountId with
  | some (.data replay) => some replay.rebuiltBalance
  | _ => none

/-- After a reversal the account holds its opening balance again, and the replay misses it. -/
theorem reversal_missing_from_replay : ∃ s,
    Sample.after (Sample.debit ++ Sample.reverse 1 1) = some s ∧
      Runs Sample.deployment (initial Sample.accounts 1000) s ∧
      ∃ a a₀, s.db.accounts.find? Sample.accountId = some a ∧
        Sample.accounts.find? Sample.accountId = some a₀ ∧ a.balance = a₀.balance ∧
        ¬ ∃ replay, replayAccount ⟨fun _ _ ↦ 0, fun _ _ ↦ 0⟩ s.db ⟨"user-1", .CUSTOMER⟩
          Sample.accountId = some (.data replay) ∧
            replay.rebuiltBalance = toString (a.balance - a₀.balance) := by
  have hrun : (Sample.after (Sample.debit ++ Sample.reverse 1 1)).map (fun s ↦
      ((s.db.accounts.find? Sample.accountId).map Account.balance, sampleReplay s)) =
      some (some 100, some "-10") := by
    decide +kernel
  obtain ⟨s, hs, hboth⟩ := Option.map_eq_some_iff.mp hrun
  obtain ⟨haccount, hreplay⟩ := Prod.mk.inj hboth
  obtain ⟨a, ha, hbalance⟩ := Option.map_eq_some_iff.mp haccount
  obtain ⟨a₀, ha₀, hopening⟩ := Option.map_eq_some_iff.mp
    (show (Sample.accounts.find? Sample.accountId).map Account.balance = some 100 by decide)
  refine ⟨s, hs, Relational.runs_of_run hs, a, a₀, ha, ha₀, hbalance.trans hopening.symm, ?_⟩
  rintro ⟨replay, hanswer, htext⟩
  have hshown : replay.rebuiltBalance = "-10" := by
    simpa [sampleReplay, hanswer] using hreplay
  rw [hshown, hbalance, hopening] at htext
  exact absurd htext (by decide)

end Banking
