import Banking.Properties.EventFormat
import Banking.Properties.Range
import Banking.Refinement.Identifiers
import Banking.Refinement.SequentialWorkers
import Banking.Relational.Progress

/-!
# No transaction is stuck

In whatever state the requests, deliveries, scans and crashes so far have left the engine, every
completed transaction can still be finalized: the event that the next worker needs is there, it can
be read, nobody has recorded it, and no lock is held forever.
-/

namespace Banking

open Js (Date)
open Relational (Env Table Tx)

variable {d : Deployment} {accounts : Table Account.id} {now : Date} {s : SystemState}
variable {db : Database} {t : Transaction} {balance : Int} {e : OutboxEvent}

/-- Consumers can read the row: it has a UUID and a time in the years 0000 to 9999. -/
def Legible (e : OutboxEvent) : Prop :=
  Zod.isUuid e.id = true ∧ 0 ≤ e.createdAt.getUTCFullYear ∧ e.createdAt.getUTCFullYear ≤ 9999

/-! ### What is left to do -/

/-- An event of the trail that no consumer has handled is not recorded. -/
private theorem unrecorded_of_handled {consumer eventType tid : String} (he : e ∈ db.trail tid)
    (htype : e.eventType = eventType) (h : db.handled consumer eventType tid = false) :
    db.processedEvents.find? (consumer, e.id) = none := by
  have hnot := List.any_eq_false.mp h e he
  simpa [htype, Database.hasProcessed] using hnot

/-- The completed event of a completed transaction without entry is not recorded. -/
private theorem Consistent.unposted_event (hc : Consistent db)
    (ht : db.transactions.find? t.transactionId = some t) (hstatus : t.status = .COMPLETED)
    (hunposted : db.ledgerEntries.find? t.transactionId = none) :
    ∃ balance, ∃ e ∈ db.trail t.transactionId, IsCompletedEvent t balance e ∧
      db.processedEvents.find? (Ledger.CONSUMER_NAME, e.id) = none := by
  have hs := hc.stage t.transactionId
  have hr : (db.record t.transactionId).transaction = some t := ht
  have hl : (db.record t.transactionId).entry = none := hunposted
  have hfree : ∀ e ∈ (db.record t.transactionId).events, e.eventType = "TransactionCompleted" →
      (db.record t.transactionId).posted = false →
        db.processedEvents.find? (Ledger.CONSUMER_NAME, e.id) = none :=
    fun e he htype hposted ↦ unrecorded_of_handled he htype hposted
  change ∃ balance, ∃ e ∈ (db.record t.transactionId).events, _
  generalize db.record t.transactionId = r at hs hr hl hfree
  cases hs with
  | absent => cases hr
  | blocked hb => cases hr; simp [hb] at hstatus
  | completed _ _ he =>
    cases hr
    exact ⟨_, _, List.mem_singleton_self _, he,
      hfree _ (List.mem_singleton_self _) he.eventType rfl⟩
  | posted => cases hl
  | finalized => cases hl
  | compensated hb => cases hr; simp [hb] at hstatus
  | misposted => cases hl

/-- The ledger event of a completed transaction with an entry is not recorded. -/
private theorem Consistent.posted_event (hc : Consistent db)
    (ht : db.transactions.find? t.transactionId = some t) (hstatus : t.status = .COMPLETED)
    (hposted : (db.ledgerEntries.find? t.transactionId).isSome) :
    ∃ balance, ∃ e ∈ db.trail t.transactionId, IsLedgerUpdatedEvent t balance e ∧
      db.processedEvents.find? (Finalization.CONSUMER_NAME, e.id) = none := by
  have hs := hc.stage t.transactionId
  have hr : (db.record t.transactionId).transaction = some t := ht
  have hl : (db.record t.transactionId).entry.isSome := hposted
  have hfree : ∀ e ∈ (db.record t.transactionId).events, e.eventType = "LedgerUpdated" →
      (db.record t.transactionId).settled = false →
        db.processedEvents.find? (Finalization.CONSUMER_NAME, e.id) = none :=
    fun e he htype hsettled ↦ unrecorded_of_handled he htype hsettled
  change ∃ balance, ∃ e ∈ (db.record t.transactionId).events, _
  generalize db.record t.transactionId = r at hs hr hl hfree
  cases hs with
  | absent => cases hr
  | blocked => cases hl
  | completed => cases hl
  | posted _ _ _ _ he' =>
    cases hr
    exact ⟨_, _, by simp, he', hfree _ (by simp) he'.eventType rfl⟩
  | finalized hf => cases hr; simp [hf] at hstatus
  | compensated => cases hl
  | misposted hb => cases hr; simp [hb] at hstatus

/-- A legible row of the outbox is delivered as it was written. -/
private theorem exists_delivered (hopening : ∀ a ∈ accounts.rows, 0 ≤ a.balance)
    (h : Runs d (initial accounts now) s) {tid : String} (he : e ∈ s.db.trail tid)
    (hlegible : Legible e) :
    ∃ event, delivered s.db e.id = some event ∧ Reads e event := by
  have hrow : s.db.outboxEvents.find? e.id = some e :=
    Table.find?_of_mem (List.mem_filter.mp he).1
  obtain ⟨event, hreads⟩ := (consistent h).reads (sound_balances hopening (sound h).evolved).2
    (reasoned h) hrow hlegible.1 hlegible.2
  exact ⟨event, Option.bind_eq_some_iff.mpr ⟨e, hrow, hreads.decoded⟩, hreads⟩

/-! ### The next worker -/

/-- A completed transaction without entry can still be posted. -/
private theorem exists_posted (hopening : ∀ a ∈ accounts.rows, 0 ≤ a.balance)
    (h : Runs d (initial accounts now) s) (ht : s.db.transactions.find? t.transactionId = some t)
    (hstatus : t.status = .COMPLETED)
    (hunposted : s.db.ledgerEntries.find? t.transactionId = none)
    (hlegible : ∀ e ∈ s.db.trail t.transactionId, Legible e)
    (hclock : 0 ≤ Date.getUTCFullYear s.clock ∧ Date.getUTCFullYear s.clock ≤ 9999)
    (hfresh : ∃ id, Zod.isUuid id = true ∧ s.db.outboxEvents.find? id = none) :
    ∃ s', Runs d s s' ∧ s'.db.transactions = s.db.transactions ∧
      (s'.db.ledgerEntries.find? t.transactionId).isSome ∧
      ∀ e ∈ s'.db.trail t.transactionId, Legible e := by
  obtain ⟨balance, e, he, hcompleted, hnew⟩ :=
    (consistent h).unposted_event ht hstatus hunposted
  obtain ⟨event, hdelivered, hreads⟩ := exists_delivered hopening h he (hlegible e he)
  obtain ⟨payload, hparsed, hpayload⟩ := hreads.completed hcompleted.eventType
  obtain ⟨account, haccount⟩ := exists_account h ht
  obtain ⟨uuid, huuid, hunsent⟩ := hfresh
  obtain ⟨entryId, hentryId⟩ := exists_unused (s.db.ledgerEntries.rows.map LedgerEntry.id)
  -- the payload names the transaction and its account
  obtain ⟨input, ip, hreq, hdata⟩ := hcompleted
  obtain ⟨-, -, hbody⟩ := eventSchema_eq_some hparsed
  have hbody : transactionCompletedPayloadSchema
      (some (completedEvent input t balance ip).payload) = some payload := by
    rw [← hdata, ← hreads.payload]
    exact hbody
  obtain ⟨-, hmovement⟩ := completedEvent_parsed hreq hbody
  have htid : payload.transactionId = t.transactionId :=
    congrArg TransactionCompletedPayload.transactionId hmovement
  have hpayloadAccount : payload.accountId = t.accountId :=
    congrArg TransactionCompletedPayload.accountId hmovement
  let supply : Nat → Supply := fun k ↦ if k = 2 then ⟨entryId, []⟩ else ⟨uuid, []⟩
  have hperform := Ledger.perform_post (fun k ↦ ⟨s.clock, supply k⟩)
    (hreads.eventId ▸ hnew) (hreads.eventType.trans (by rw [hdata]; rfl)) hparsed
    (by rw [← hunposted, ← htid]; rfl)
    (fun l hl hid ↦ hentryId (List.mem_map.mpr ⟨l, hl, hid⟩))
    (by rw [← htid] at ht; exact Option.isSome_of_eq_some ht)
    (by rw [← hpayloadAccount] at haccount; exact Option.isSome_of_eq_some haccount) hunsent
  obtain ⟨s', hrun, hdb, -⟩ := Relational.exists_performed h (.ledgerEvent e.id) supply
    (congrArg (Option.map _) hdelivered) hperform
  have hentry : s.db.ledgerEntries.find?
      (Ledger.insertedEntry payload ⟨s.clock, ⟨entryId, []⟩⟩).transactionId = none := by
    rw [← hunposted, ← htid]
    rfl
  refine ⟨s', hrun, by rw [hdb]; rfl, ?_, fun x hx ↦ ?_⟩
  · rw [hdb, ← htid]
    exact Option.isSome_of_eq_some (Table.find?_insert_self hentry)
  · rw [hdb] at hx
    rcases Table.mem_rows_insert (List.mem_filter.mp hx).1 with rfl | hold
    · exact ⟨huuid, hclock⟩
    · exact hlegible x (List.mem_filter.mpr ⟨hold, (List.mem_filter.mp hx).2⟩)

/-- A completed transaction with an entry can still be finalized. -/
private theorem exists_finalized (hopening : ∀ a ∈ accounts.rows, 0 ≤ a.balance)
    (h : Runs d (initial accounts now) s) (ht : s.db.transactions.find? t.transactionId = some t)
    (hstatus : t.status = .COMPLETED)
    (hposted : (s.db.ledgerEntries.find? t.transactionId).isSome)
    (hlegible : ∀ e ∈ s.db.trail t.transactionId, Legible e) :
    ∃ s', Runs d s s' ∧
      s'.db.transactions.find? t.transactionId = some { t with status := .FINALIZED } := by
  obtain ⟨balance, e, he, hupdated, hnew⟩ := (consistent h).posted_event ht hstatus hposted
  obtain ⟨event, hdelivered, hreads⟩ := exists_delivered hopening h he (hlegible e he)
  obtain ⟨payload, hparsed, -⟩ := hreads.ledgerUpdated hupdated.eventType
  obtain ⟨input, hreq⟩ := (consistent h).requested ht
  obtain ⟨unused, hunused⟩ := exists_unused (s.db.outboxEvents.rows.map OutboxEvent.id)
  obtain ⟨-, -, hbody⟩ := eventSchema_eq_some hparsed
  have hbody : ledgerUpdatedPayloadSchema
      (some (Ledger.ledgerUpdatedEvent (movement t balance)).payload) = some payload := by
    rw [← hupdated, ← hreads.payload]
    exact hbody
  have htid : payload.transactionId = t.transactionId :=
    congrArg LedgerUpdatedPayload.transactionId (ledgerUpdatedEvent_parsed hreq hbody)
  have hhandle : Finalization.handleEvent event =
      Tx.transaction (Finalization.finalizeInTransaction event.eventId payload) := by
    have htype := hreads.eventType.trans hupdated.eventType
    rw [Finalization.handleEvent, if_neg (not_not.mpr htype), hparsed]
    rfl
  have hpayload : s.db.transactions.find? payload.transactionId = some t := htid ▸ ht
  have hperform := Finalization.perform_finalize (fun _ ↦ ⟨s.clock, ⟨unused, []⟩⟩)
    (hreads.eventId ▸ hnew) hpayload
    ⟨hstatus, (consistent h).authorized ht hstatus⟩
    (Table.find?_eq_none.mpr fun x hx hid ↦ hunused (List.mem_map.mpr ⟨x, hx, hid⟩))
  rw [← hhandle] at hperform
  obtain ⟨s', hrun, hdb, -⟩ := Relational.exists_performed h (.finalizationEvent e.id)
    (fun _ ↦ ⟨unused, []⟩) (congrArg (Option.map _) hdelivered) hperform
  refine ⟨s', hrun, ?_⟩
  rw [hdb]
  change (s.db.setStatus payload.transactionId .FINALIZED).transactions.find? _ = _
  rw [htid, Database.transactions_setStatus, Table.find?_modify, if_pos rfl]
  exact congrArg (Option.map _) ht

/-- From every reachable state, whatever has crashed and whatever is still running, a completed
transaction can be finalized if its events are legible and the clock and the identifiers have not
run out. -/
theorem finalizable (hopening : ∀ a ∈ accounts.rows, 0 ≤ a.balance)
    (h : Runs d (initial accounts now) s) (ht : s.db.transactions.find? t.transactionId = some t)
    (hstatus : t.status = .COMPLETED)
    (hlegible : ∀ e ∈ s.db.trail t.transactionId, Legible e)
    (hclock : 0 ≤ Date.getUTCFullYear s.clock ∧ Date.getUTCFullYear s.clock ≤ 9999)
    (hfresh : ∃ id, Zod.isUuid id = true ∧ s.db.outboxEvents.find? id = none) :
    ∃ s', Runs d s s' ∧
      s'.db.transactions.find? t.transactionId = some { t with status := .FINALIZED } := by
  -- the ledger worker goes first if the transaction has no entry
  cases hposted : s.db.ledgerEntries.find? t.transactionId with
  | some l =>
    exact exists_finalized hopening h ht hstatus (Option.isSome_of_eq_some hposted) hlegible
  | none =>
    obtain ⟨s₁, hrun₁, htransactions, hentry, hlegible₁⟩ :=
      exists_posted hopening h ht hstatus hposted hlegible hclock hfresh
    obtain ⟨s₂, hrun₂, hfinal⟩ :=
      exists_finalized hopening (h.trans hrun₁) (htransactions ▸ ht) hstatus hentry hlegible₁
    exact ⟨s₂, hrun₁.trans hrun₂, hfinal⟩

/-- The debit of a run that is cut off in the middle of its posting can be finalized. -/
theorem finalizable_interrupted : ∃ s t,
    Sample.after (Sample.debit ++ .start 1 (.ledgerEvent (Sample.uuid 0)) :: Sample.execute 1 3 1) =
      some s ∧ s.db.transactions.find? t.transactionId = some t ∧ t.status = .COMPLETED ∧
    ∃ s', Runs Sample.deployment s s' ∧
      s'.db.transactions.find? t.transactionId = some { t with status := .FINALIZED } := by
  have hrun : (Sample.after (Sample.debit ++
      .start 1 (.ledgerEvent (Sample.uuid 0)) :: Sample.execute 1 3 1)).map (fun s ↦
        ((s.db.transactions.find? "txn-1").map Transaction.status,
          s.db.outboxEvents.rows.all fun e ↦ Zod.isUuid e.id &&
            decide (0 ≤ e.createdAt.getUTCFullYear ∧ e.createdAt.getUTCFullYear ≤ 9999),
          decide (0 ≤ Date.getUTCFullYear s.clock ∧ Date.getUTCFullYear s.clock ≤ 9999),
          (s.db.outboxEvents.find? (Sample.uuid 5)).isNone)) =
      some (some .COMPLETED, true, true, true) := by
    decide +kernel
  obtain ⟨s, hs, hfacts⟩ := Option.map_eq_some_iff.mp hrun
  simp only [Prod.mk.injEq, decide_eq_true_eq, Option.isNone_iff_eq_none] at hfacts
  obtain ⟨hstatus, hlegible, hclock, hfresh⟩ := hfacts
  obtain ⟨t, ht, hcompleted⟩ := Option.map_eq_some_iff.mp hstatus
  rw [← (Table.key_of_find? ht : t.transactionId = "txn-1")] at ht
  refine ⟨s, t, hs, ht, hcompleted, finalizable (by decide) (Relational.runs_of_run hs) ht
    hcompleted (fun e he ↦ ?_) hclock ⟨Sample.uuid 5, by decide, hfresh⟩⟩
  obtain ⟨hid, hyear⟩ :=
    Bool.and_eq_true_iff.mp (List.all_eq_true.mp hlegible e (List.mem_filter.mp he).1)
  exact ⟨hid, of_decide_eq_true hyear⟩

/-! ### The way back -/

/-- The balance that a reversal restores is not negative if the account is not and a credit has not
been spent. -/
private theorem restoredBalance_nonneg {account : Account} (hbalance : 0 ≤ account.balance)
    (hamount : 0 < t.amount) (hfunds : t.type = .CREDIT → t.amount ≤ account.balance) :
    ¬ Finalization.restoredBalance t.type account.balance t.amount < 0 := by
  unfold Finalization.restoredBalance
  cases htype : t.type with
  | DEBIT =>
    dsimp only
    omega
  | CREDIT =>
    have := hfunds htype
    dsimp only
    omega

/-- From every reachable state whose balances and amounts fit their columns, an overdue completed
transaction without ledger entry can be reversed, whatever else is overdue, unless it is a credit
that has been spent or a debit whose amount no longer fits into the balance. -/
theorem reversible (hopening : ∀ a ∈ accounts.rows, 0 ≤ a.balance)
    (h : Runs d (initial accounts now) s) (ht : s.db.transactions.find? t.transactionId = some t)
    (hstatus : t.status = .COMPLETED)
    (hunposted : s.db.ledgerEntries.find? t.transactionId = none)
    (hdue : t.createdAt ≤ s.clock - d.config.TRANSACTION_FINALIZATION_TIMEOUT_SECONDS * 1000)
    {account : Account} (haccount : s.db.accounts.find? t.accountId = some account)
    (hstored : s.db.InRange) (hfunds : t.type = .CREDIT → t.amount ≤ account.balance)
    (hrange : t.type = .DEBIT → account.balance + t.amount ≤ maxBigInt) :
    ∃ s', Runs d s s' ∧ s'.db.InRange ∧
      s'.db.transactions.find? t.transactionId = some { t with status := .BLOCKED } ∧
      s'.db.accounts.find? t.accountId =
        some { account with balance := account.balance - t.signedAmount } := by
  have hnonneg := restoredBalance_nonneg
    ((sound_balances hopening (sound h).evolved).1 _ _ haccount) ((consistent h).amount_pos ht)
    hfunds
  have hauth := (consistent h).authorized ht hstatus
  obtain ⟨unused, hunused⟩ := exists_unused (s.db.outboxEvents.rows.map OutboxEvent.id)
  have hcandidate : t.transactionId ∈ Sql.timedOut s.db
      (s.clock - d.config.TRANSACTION_FINALIZATION_TIMEOUT_SECONDS * 1000) := by
    refine List.mem_map.mpr ⟨t, List.mem_filter.mpr ⟨Table.mem_of_find? ht, ?_⟩, rfl⟩
    simp [hstatus, hdue, hunposted, Option.isSome_iff_ne_none.mpr hauth]
  obtain ⟨rest, hrest⟩ := Finalization.findTimedOut_first s.clock unused hcandidate
  have hperform := Finalization.perform_compensateFirst
    (fun _ ↦ ⟨s.clock, ⟨unused, [t.transactionId]⟩⟩) hrest
    (Finalization.perform_compensate _ 2 ht hstatus hunposted haccount hnonneg
      (Table.find?_eq_none.mpr fun x hx hid ↦ hunused (List.mem_map.mpr ⟨x, hx, hid⟩)))
  obtain ⟨s', hrun, hdb, -⟩ := Relational.exists_performed h .timeoutScan
    (fun _ ↦ ⟨unused, [t.transactionId]⟩) (congrArg some (by
      rw [Finalization.compensateTimedOutTransactions_eq, Tx.bind_assoc])) hperform
  refine ⟨s', hrun, ?_, ?_, ?_⟩
  · have hfits := (fits_restoredBalance hstored ht haccount hnonneg).mpr
      fun hexceeds ↦ Int.not_lt.mpr (hrange hexceeds.1) hexceeds.2
    rw [hdb]
    exact ((hstored.setBalance t.accountId hfits).setStatus _ _).addOutboxEvent _
  · rw [hdb]
    change (s.db.setStatus t.transactionId .BLOCKED).transactions.find? _ = _
    rw [Database.transactions_setStatus, Table.find?_modify, if_pos rfl]
    exact congrArg (Option.map _) ht
  · rw [hdb, ← restoredBalance_eq]
    change (s.db.setBalance t.accountId _).accounts.find? _ = _
    rw [Database.accounts_setBalance, Table.find?_modify, if_pos rfl]
    exact congrArg (Option.map _) haccount

/-- The sample debit can be reversed once it is overdue. -/
theorem reversible_overdue : ∃ s t, ∃ account : Account,
    Sample.after (Sample.debit ++ [.tick 100000]) = some s ∧
    s.db.transactions.find? t.transactionId = some t ∧
    ∃ s', Runs Sample.deployment s s' ∧ s'.db.InRange ∧
      s'.db.transactions.find? t.transactionId = some { t with status := .BLOCKED } ∧
      s'.db.accounts.find? t.accountId =
        some { account with balance := account.balance - t.signedAmount } := by
  have hrun : (Sample.after (Sample.debit ++ [.tick 100000])).map (fun s ↦
      ((s.db.transactions.find? "txn-1").map fun t ↦ decide (t.status = .COMPLETED ∧
          t.type = .DEBIT ∧ t.accountId = Sample.accountId ∧ t.createdAt ≤ s.clock - 30 * 1000 ∧
          t.amount = 10),
        (s.db.accounts.find? Sample.accountId).map Account.balance,
        (s.db.ledgerEntries.find? "txn-1").isNone,
        decide ((∀ a ∈ s.db.accounts.rows, Fits a.balance) ∧
          ∀ t ∈ s.db.transactions.rows, Fits t.amount))) =
        some (some true, some 90, true, true) := by
    decide +kernel
  obtain ⟨s, hs, hfacts⟩ := Option.map_eq_some_iff.mp hrun
  simp only [Prod.mk.injEq, Option.isNone_iff_eq_none, decide_eq_true_eq] at hfacts
  obtain ⟨hrow, hfound, hunposted, hbalances, hamounts⟩ := hfacts
  obtain ⟨account, haccount, hbalance⟩ := Option.map_eq_some_iff.mp hfound
  obtain ⟨t, ht, hfields⟩ := Option.map_eq_some_iff.mp hrow
  obtain ⟨hstatus, htype, haccountId, hdue, hamount⟩ := of_decide_eq_true hfields
  have htid : t.transactionId = "txn-1" := Table.key_of_find? ht
  rw [← htid] at ht hunposted
  rw [← haccountId] at haccount
  refine ⟨s, t, account, hs, ht, reversible (by decide) (Relational.runs_of_run hs) ht hstatus
    hunposted hdue haccount ⟨hbalances, hamounts⟩ (fun hcredit ↦ ?_) fun _ ↦ ?_⟩
  · rw [htype] at hcredit
    cases hcredit
  · rw [hbalance, hamount]
    decide

end Banking
