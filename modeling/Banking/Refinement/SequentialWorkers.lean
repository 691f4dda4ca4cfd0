import Banking.Relational.Alone
import Banking.System.Calls
import Mathlib.Data.List.Dedup

/-!
# Workers that run alone

What a delivery to the ledger worker or the finalization worker, and the scan's transaction for one
candidate, leave when nobody else commits.
-/

namespace Banking

open Relational (Env Tx)

variable (env : Nat → Env Supply) {db : Database}

/-! ### The ledger worker -/

namespace Ledger

variable {event : TransactionEvent} {parsed : EventOf TransactionCompletedPayload}

/-- The ledger entry that the third statement inserts. -/
def insertedEntry (payload : TransactionCompletedPayload) (e : Env Supply) : LedgerEntry :=
  ⟨e.supply.id, payload.transactionId, payload.accountId, payload.txnType,
    Js.bigInt payload.amount, Js.bigInt payload.balanceAfter, e.now⟩

/-- An unrecorded event of a completed transaction without entry is posted. -/
theorem perform_post (hnew : db.processedEvents.find? (CONSUMER_NAME, event.eventId) = none)
    (htype : event.eventType = "TransactionCompleted")
    (hparsed : transactionCompletedEventSchema (some event.toJson) = some parsed)
    (hunposted : db.ledgerEntries.find? parsed.payload.transactionId = none)
    (hid : ∀ l ∈ db.ledgerEntries.rows, l.id ≠ (env 2).supply.id)
    (ht : (db.transactions.find? parsed.payload.transactionId).isSome)
    (haccount : (db.accounts.find? parsed.payload.accountId).isSome)
    (hevent : db.outboxEvents.find? (env 3).supply.id = none) :
    (handleEvent event).perform env 0 id db = (some (),
      ((db.addLedgerEntry (insertedEntry parsed.payload (env 2))).addOutboxEvent
        ((ledgerUpdatedEvent parsed.payload).row (env 3).supply.id (env 3).now)).addProcessedEvent
          ⟨event.eventId, CONSUMER_NAME, (env 4).now⟩) := by
  have hall : db.ledgerEntries.rows.all (fun l ↦ l.id ≠ (env 2).supply.id) = true := by
    simpa using hid
  unfold handleEvent Tx.transaction
  rw [Tx.bind_assoc, Tx.perform_select (b := none) rfl (congrArg some hnew)]
  simp only [if_pos htype, postEntry, hparsed, Tx.bind_assoc]
  rw [Tx.perform_select (b := ()) rfl rfl, Tx.perform_bind (b := ()), Tx.perform_bind (b := ()),
    Tx.perform_bind (b := ())]
  · rfl
  · simp [Sql.createProcessedEvent, Sql.createOutboxEvent, Sql.createLedgerEntry, hnew]
  · simp [Sql.createOutboxEvent, Sql.createLedgerEntry, hevent]
  · simp only [Sql.createLedgerEntry, id, hunposted, ht, haccount, hall]
    rfl

/-- An unrecorded event of another type is recorded. -/
theorem perform_skip (hnew : db.processedEvents.find? (CONSUMER_NAME, event.eventId) = none)
    (htype : event.eventType ≠ "TransactionCompleted") :
    (handleEvent event).perform env 0 id db =
      (some (), db.addProcessedEvent ⟨event.eventId, CONSUMER_NAME, (env 1).now⟩) := by
  unfold handleEvent Tx.transaction
  rw [Tx.bind_assoc, Tx.perform_select (b := none) rfl (congrArg some hnew)]
  simp only [if_neg htype]
  rw [Tx.perform_bind (b := ())]
  · rfl
  · simp [Sql.createProcessedEvent, hnew]

end Ledger

/-! ### The finalization worker -/

namespace Finalization

variable {eventId : String} {payload : LedgerUpdatedPayload} {t : Transaction}

/-- An unrecorded event of a completed transaction finalizes it. -/
theorem perform_finalize (hnew : db.processedEvents.find? (CONSUMER_NAME, eventId) = none)
    (ht : db.transactions.find? payload.transactionId = some t)
    (hstatus : t.status = .COMPLETED ∧ t.authorizedAt ≠ none)
    (hevent : db.outboxEvents.find? (env 3).supply.id = none) :
    (Tx.transaction (finalizeInTransaction eventId payload)).perform env 0 id db = (some (),
      ((db.setStatus payload.transactionId .FINALIZED).addOutboxEvent
        ((finalizedEvent payload).row (env 3).supply.id (env 3).now)).addProcessedEvent
          ⟨eventId, CONSUMER_NAME, (env 4).now⟩) := by
  unfold finalizeInTransaction Tx.transaction
  rw [Tx.bind_assoc, Tx.perform_select (b := none) rfl (congrArg some hnew)]
  dsimp only
  rw [Tx.bind_assoc, Tx.perform_select (b := some t) rfl (congrArg some ht)]
  simp only [if_pos hstatus, Tx.bind_assoc]
  rw [Tx.perform_bind (b := ()), Tx.perform_bind (b := ()), Tx.perform_bind (b := ())]
  · rfl
  · simp [Sql.createProcessedEvent, Sql.createOutboxEvent, Sql.updateTransactionStatus, hnew]
  · simp [Sql.createOutboxEvent, Sql.updateTransactionStatus, hevent]
  · simp [Sql.updateTransactionStatus, ht]

/-- An unrecorded event of a transaction that is not completed is recorded. -/
theorem perform_pass (hnew : db.processedEvents.find? (CONSUMER_NAME, eventId) = none)
    (ht : db.transactions.find? payload.transactionId = some t) (hstatus : t.status ≠ .COMPLETED) :
    (Tx.transaction (finalizeInTransaction eventId payload)).perform env 0 id db =
      (some (), db.addProcessedEvent ⟨eventId, CONSUMER_NAME, (env 2).now⟩) := by
  unfold finalizeInTransaction Tx.transaction
  rw [Tx.bind_assoc, Tx.perform_select (b := none) rfl (congrArg some hnew)]
  dsimp only
  rw [Tx.bind_assoc, Tx.perform_select (b := some t) rfl (congrArg some ht)]
  simp only [if_neg fun h : t.status = .COMPLETED ∧ t.authorizedAt ≠ none ↦ hstatus h.1]
  rw [Tx.perform_bind (b := ())]
  · rfl
  · simp [Sql.createProcessedEvent, hnew]

/-! ### The timeout scan -/

variable {account : Account}

/-- A completed transaction without entry is reversed if its account can pay. -/
theorem perform_compensate (n : Nat) (ht : db.transactions.find? t.transactionId = some t)
    (hstatus : t.status = .COMPLETED) (hunposted : db.ledgerEntries.find? t.transactionId = none)
    (haccount : db.accounts.find? t.accountId = some account)
    (hnonneg : ¬ restoredBalance t.type account.balance t.amount < 0)
    (hevent : db.outboxEvents.find? (env (n + 5)).supply.id = none) :
    (Tx.transaction (compensateInTransaction t.transactionId)).perform env n id db = (some (),
      ((db.setBalance t.accountId (restoredBalance t.type account.balance t.amount)).setStatus
        t.transactionId .BLOCKED).addOutboxEvent ((compensatedEvent t (restoredBalance t.type
          account.balance t.amount)).row (env (n + 5)).supply.id (env (n + 5)).now)) := by
  unfold compensateInTransaction Tx.transaction
  rw [Tx.bind_assoc, Tx.perform_select (b := some t) rfl
    (by simp [Sql.selectCompletedForUpdate, ht, hstatus])]
  dsimp only
  rw [Tx.bind_assoc, Tx.perform_select (b := none) rfl (congrArg some hunposted)]
  dsimp only
  rw [Tx.bind_assoc, Tx.perform_select (b := some account.balance) rfl
    (by simp [Sql.selectBalanceForUpdate, haccount])]
  simp only [if_neg hnonneg, Tx.bind_assoc]
  rw [Tx.perform_bind (b := ()), Tx.perform_bind (b := ()), Tx.perform_bind (b := ())]
  · rfl
  · simp [Sql.createOutboxEvent, Sql.updateTransactionStatus, Sql.updateAccountBalance, hevent]
  · simp [Sql.updateTransactionStatus, Sql.updateAccountBalance, ht]
  · simp [Sql.updateAccountBalance, haccount]

/-- The scan up to the end of its first transaction, with the candidates that are left. -/
def compensateFirst (d : Deployment) : Process (List String) := do
  let now ← Tx.query Sql.now
  let cutoff := now - d.config.TRANSACTION_FINALIZATION_TIMEOUT_SECONDS * 1000
  match ← Tx.query (Sql.findTimedOut cutoff 50) with
  | [] => return []
  | candidate :: rest =>
    Tx.transaction (compensateInTransaction candidate)
    return rest

/-- The scan goes on with the candidates that are left. -/
theorem compensateTimedOutTransactions_eq (d : Deployment) :
    compensateTimedOutTransactions d = compensateFirst d >>= compensateEach := by
  rw [compensateTimedOutTransactions, compensateFirst, Tx.bind_assoc]
  refine congrArg (Tx.query Sql.now >>= ·) (funext fun now ↦ ?_)
  rw [Tx.bind_assoc]
  refine congrArg (Tx.query _ >>= ·) (funext fun timedOut ↦ ?_)
  cases timedOut with
  | nil => rfl
  | cons candidate rest =>
    dsimp only
    rw [Tx.bind_assoc, compensateEach]
    rfl

/-- The first part of the scan does what the transaction of its first candidate does. -/
theorem perform_compensateFirst {d : Deployment} {candidate : String} {rest : List String}
    {a : Database} (hfirst : (Sql.findTimedOut
      ((env 0).now - d.config.TRANSACTION_FINALIZATION_TIMEOUT_SECONDS * 1000) 50).result (env 1)
        db = some (candidate :: rest))
    (h : (Tx.transaction (compensateInTransaction candidate)).perform env 2 id db =
      (some (), a)) : (compensateFirst d).perform env 0 id db = (some rest, a) := by
  rw [compensateFirst, Tx.perform_select (b := (env 0).now) rfl rfl,
    Tx.perform_select (b := candidate :: rest) rfl hfirst]
  refine (Tx.perform_map (fun _ ↦ rest) _).trans ?_
  rw [h, Option.map_some]

/-- The overdue transaction that the environment puts first is the first candidate. -/
theorem findTimedOut_first {tid : String} {cutoff : Js.Date} (now : Int) (uuid : String)
    (h : tid ∈ Sql.timedOut db cutoff) :
    ∃ rest, (Sql.findTimedOut cutoff 50).result ⟨now, ⟨uuid, [tid]⟩⟩ db = some (tid :: rest) := by
  have hchosen : ([tid] : List String).dedup.filter
      (fun id ↦ (Sql.timedOut db cutoff).contains id) = [tid] := by
    rw [(List.nodup_singleton tid).dedup]
    simp [h]
  simp only [Sql.findTimedOut, hchosen, List.singleton_append, List.take_succ_cons]
  exact ⟨_, rfl⟩

end Finalization

end Banking
