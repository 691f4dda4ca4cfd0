import Banking.Refinement.System

/-!
# The pipeline behind a completed transaction

What the ledger worker, the finalization worker and the timeout scan do to one transaction, for
every interleaving of their statements: finalization and compensation exclude each other, and the
ledger entry and the events of the pipeline exist exactly once.
-/

namespace Banking

open Relational (Table)

variable {d : Deployment} {accounts : Table Account.id} {now : Js.Date} {s : SystemState}

/-! ### Finalization or compensation -/

/-- A transaction is finalized or compensated at most once and never both, and its status is
final once it is `FINALIZED` or `BLOCKED`. -/
theorem finalization_excludes_compensation (h : Runs d (initial accounts now) s) (tid : String) :
    s.db.eventCount tid "TransactionFinalized" ≤ 1 ∧
      s.db.eventCount tid "TransactionCompensated" ≤ 1 ∧
      ¬ (0 < s.db.eventCount tid "TransactionFinalized" ∧
        0 < s.db.eventCount tid "TransactionCompensated") ∧
      ∀ s' t, Runs d s s' → s.db.transactions.find? tid = some t →
        t.status = .FINALIZED ∨ t.status = .BLOCKED →
        ∃ t', s'.db.transactions.find? tid = some t' ∧ t'.status = t.status := by
  have hcount := ((consistent h).stage tid).count_settled
  rw [← Database.eventCount_eq, ← Database.eventCount_eq] at hcount
  refine ⟨by omega, by omega, by omega, fun s' t hs ht hstatus ↦ ⟨t, ?_, rfl⟩⟩
  refine Evolves.transaction_settled (evolves h hs) ht fun hcompleted ↦ ?_
  simp [hcompleted] at hstatus

/-- The sample debit, posted and finalized, is not compensated as well. -/
theorem finalization_excludes_compensation_debit : ∃ s,
    Sample.after (Sample.debit ++ Sample.post 1 1 ++ Sample.finalize 2 1 2) = some s ∧
      s.db.eventCount "txn-1" "TransactionFinalized" = 1 ∧
      s.db.eventCount "txn-1" "TransactionCompensated" = 0 := by
  have hrun : (Sample.after (Sample.debit ++ Sample.post 1 1 ++ Sample.finalize 2 1 2)).map
      (fun s ↦ s.db.eventCount "txn-1" "TransactionFinalized") = some 1 := by
    decide +kernel
  obtain ⟨s, hs, hfinalized⟩ := Option.map_eq_some_iff.mp hrun
  have hexclusive :=
    (finalization_excludes_compensation (Relational.runs_of_run hs) "txn-1").2.2.1
  exact ⟨s, hs, hfinalized, by omega⟩

/-! ### Exactly once -/

/-- The pipeline has treated the transaction at most once, and its traces agree. -/
structure ExactlyOnce (s : SystemState) (t : Transaction) : Prop where
  /-- At most one ledger entry. -/
  entries : s.db.ledgerEntries.rows.countP (fun l ↦ l.transactionId = t.transactionId) ≤ 1
  /-- At most one ledger event. -/
  updates : s.db.eventCount t.transactionId "LedgerUpdated" ≤ 1
  /-- The entry exists exactly when the event does. -/
  entry_iff_event : (s.db.ledgerEntries.find? t.transactionId).isSome = true ↔
    s.db.eventCount t.transactionId "LedgerUpdated" = 1
  /-- The entry exists exactly when the ledger worker has recorded the completed event. -/
  entry_iff_recorded : (s.db.ledgerEntries.find? t.transactionId).isSome = true ↔
    ∃ e ∈ s.db.outboxEvents.rows, e.transactionId = t.transactionId ∧
      e.eventType = "TransactionCompleted" ∧
      (s.db.processedEvents.find? (Ledger.CONSUMER_NAME, e.id)).isSome = true
  /-- The entry repeats the row and the balance that `create` wrote when it inserted the row. -/
  entry : ∀ l, s.db.ledgerEntries.find? t.transactionId = some l →
    l.accountId = t.accountId ∧ l.type = t.type ∧ l.amount = t.amount ∧
      ∃ c ∈ s.log, (∃ input request, c.call = .create input request) ∧
        c.before.transactions.find? t.transactionId = none ∧
        (c.after.transactions.find? t.transactionId).isSome = true ∧
        (c.after.accounts.find? t.accountId).map Account.balance = some l.balanceAfter
  /-- The transaction is finalized exactly when its finalized event exists, and that once. -/
  finalized_iff : t.status = .FINALIZED ↔
    s.db.eventCount t.transactionId "TransactionFinalized" = 1
  /-- A finalized transaction is authorized and posted, and its event repeats the entry. -/
  finalized : t.status = .FINALIZED → t.authorizedAt ≠ none ∧
    ∃ l, s.db.ledgerEntries.find? t.transactionId = some l ∧
      ∀ e ∈ s.db.outboxEvents.rows, e.transactionId = t.transactionId →
        e.eventType = "TransactionFinalized" →
        e.toOutboxEventData = Finalization.finalizedEvent
          ⟨l.transactionId, l.accountId, l.type, toString l.amount, toString l.balanceAfter⟩

/-- The commit behind a completed event: it inserted the transaction and wrote the balance. -/
theorem completed_by (h : Runs d (initial accounts now) s) {t : Transaction} {balance : Int}
    {e : OutboxEvent} (he : s.db.outboxEvents.find? e.id = some e)
    (hcompleted : IsCompletedEvent t balance e) :
    ∃ c ∈ s.log, (∃ input request, c.call = .create input request) ∧
      c.before.transactions.find? t.transactionId = none ∧
      (c.after.transactions.find? t.transactionId).isSome = true ∧
      (c.after.accounts.find? t.accountId).map Account.balance = some balance := by
  have hfresh : ¬ (initial accounts now).db.outboxEvents.find? e.id = some e := by
    simp [initial, Relational.State.initial, Database.opening]
  obtain ⟨c, hc, hbefore, hafter⟩ := Relational.exists_commit
    (P := fun x : Database ↦ x.outboxEvents.find? e.id = some e) h hfresh he
  obtain ⟨-, hstep, -⟩ := (sound h).commits c hc
  rcases (Relation.reflGen_iff _ _ _).mp hstep with hsame | hcommit
  · rw [hsame] at hafter
    exact absurd hafter hbefore
  · obtain ⟨input, request, account, row, hcall, hclear, hdata, hdb⟩ :=
      hcommit.completed_event hbefore hafter hcompleted.eventType
    obtain rfl := hcompleted.balance_unique hdata
    obtain ⟨id, authorizedAt, createdAt, rfl⟩ := hclear.inserted
    obtain ⟨input', ip, hreq, hdata'⟩ := hcompleted
    have htid : input.transactionId = t.transactionId := hreq.transactionId ▸
      (congrArg OutboxEventData.transactionId (hdata'.symm.trans hdata)).symm
    have haccount : input.accountId = t.accountId := hreq.accountId ▸
      (congrArg OutboxEventData.partitionKey (hdata'.symm.trans hdata)).symm
    refine ⟨c, hc, ⟨input, request, hcall⟩, htid ▸ hclear.fresh, ?_, ?_⟩
    · rw [hdb, ← htid]
      exact congrArg Option.isSome
        (Table.find?_insert_self (r := newTransaction input id authorizedAt createdAt) hclear.fresh)
    · rw [hdb, ← haccount, Database.accounts_addOutboxEvent, Database.accounts_setBalance,
        Table.find?_modify, if_pos rfl, Database.accounts_addTransaction, hclear.found]
      rfl

/-- Every transaction of every reachable state is treated exactly once by the pipeline. -/
theorem pipeline_exactly_once (h : Runs d (initial accounts now) s) {t : Transaction}
    (hrow : t ∈ s.db.transactions.rows) : ExactlyOnce s t := by
  have ht := Table.find?_of_mem hrow
  have hstage := (consistent h).stage t.transactionId
  have hupdated := hstage.count_updated
  have hposted := hstage.posted_iff
  have hfinalized := hstage.count_finalized ht
  rw [← Database.eventCount_eq] at hupdated hfinalized
  constructor
  case entries => exact Table.countP_key_le_one _ _
  case updates =>
    rw [hupdated]
    split <;> omega
  case entry_iff_event =>
    rw [hupdated]
    change _ ↔ (if (s.db.ledgerEntries.find? t.transactionId).isSome = true then 1 else 0) = 1
    split <;> simp_all
  case entry_iff_recorded =>
    change (s.db.record t.transactionId).entry.isSome = true ↔ _
    rw [← hposted]
    constructor
    · intro hrecorded
      obtain ⟨e, he, hboth⟩ := List.any_eq_true.mp hrecorded
      obtain ⟨hfind, htid⟩ := Database.mem_record he
      simp only [Bool.and_eq_true, decide_eq_true_eq] at hboth
      exact ⟨e, Table.mem_of_find? hfind, htid, hboth.1, hboth.2⟩
    · rintro ⟨e, he, htid, htype, hrecorded⟩
      refine List.any_eq_true.mpr ⟨e, htid ▸ Database.mem_trail (Table.find?_of_mem he), ?_⟩
      simp only [Bool.and_eq_true, decide_eq_true_eq]
      exact ⟨htype, hrecorded⟩
  case entry =>
    intro l hl
    obtain ⟨t', balance, e, ht', hentry, hmem, hcompleted⟩ := hstage.entry hl
    obtain rfl : t = t' := Option.some.inj (ht.symm.trans ht')
    rw [hentry.balanceAfter]
    exact ⟨hentry.accountId, hentry.type, hentry.amount,
      completed_by h (Database.mem_record hmem).1 hcompleted⟩
  case finalized_iff =>
    rw [hfinalized]
    split <;> simp_all
  case finalized =>
    intro hstatus
    obtain ⟨hauth, l, balance, hl, hentry, hevent⟩ := hstage.of_finalized ht hstatus
    refine ⟨hauth, l, hl, fun e he htid htype ↦ ?_⟩
    have hmem : e ∈ (s.db.record t.transactionId).events :=
      htid ▸ Database.mem_trail (Table.find?_of_mem he)
    rw [hentry.transactionId, hentry.accountId, hentry.type, hentry.amount, hentry.balanceAfter]
    exact hevent e hmem htype

/-- The finalized sample debit has been treated exactly once, though its `LedgerUpdated` event
was delivered twice. -/
theorem pipeline_exactly_once_debit : ∃ s,
    Sample.after (Sample.debit ++ Sample.post 1 1 ++ Sample.finalize 2 1 2 ++
      [.start 3 (.finalizationEvent (Sample.uuid 1))] ++ Sample.execute 3 3 3) = some s ∧
      ∃ t ∈ s.db.transactions.rows, ExactlyOnce s t := by
  have hrun : (Sample.after (Sample.debit ++ Sample.post 1 1 ++ Sample.finalize 2 1 2 ++
      [.start 3 (.finalizationEvent (Sample.uuid 1))] ++ Sample.execute 3 3 3)).map
      (fun s ↦ s.db.transactions.rows.length) = some 1 := by
    decide +kernel
  obtain ⟨s, hs, hlength⟩ := Option.map_eq_some_iff.mp hrun
  obtain ⟨t, ht⟩ := List.exists_mem_of_length_pos (Nat.lt_of_sub_eq_succ hlength)
  exact ⟨s, hs, t, ht, pipeline_exactly_once (Relational.runs_of_run hs) ht⟩

end Banking
