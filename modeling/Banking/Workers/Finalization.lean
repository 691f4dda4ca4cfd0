import Banking.Transactions.Repository

/-!
# The finalization worker

`handleEvent` and `compensateTimedOutTransactions` of `workers/finalization/index.ts`. The scan
reads its candidates outside any transaction and then runs one transaction for each; an
exception in one of them ends the scan.
-/

namespace Banking.Finalization

open Relational (Tx)

/-- `workers/finalization/index.ts:10`. -/
def CONSUMER_NAME : String := "banking-finalization-service-v1"

/-- `workers/finalization/index.ts:41–58`. -/
def finalizedEvent (payload : LedgerUpdatedPayload) : OutboxEventData where
  eventType := "TransactionFinalized"
  eventVersion := 1
  aggregateId := payload.transactionId
  transactionId := payload.transactionId
  topic := bankingTransactionTopic
  partitionKey := payload.accountId
  payload := .obj [("type", .str "TransactionFinalized"),
    ("transactionId", .str payload.transactionId), ("accountId", .str payload.accountId),
    ("txnType", .str payload.txnType.label), ("amount", .str payload.amount),
    ("balanceAfter", .str payload.balanceAfter)]

/-- The callback of `$transaction`; `workers/finalization/index.ts:17–64`. -/
def finalizeInTransaction (eventId : String) (payload : LedgerUpdatedPayload) :
    Process Unit := do
  match ← Tx.query (Sql.findProcessedEvent CONSUMER_NAME eventId) with
  | some _ => return ()
  | none =>
    match ← Tx.query (Sql.findTransaction payload.transactionId) with
    | none => Tx.throw
    | some transaction =>
      if transaction.status = .COMPLETED ∧ transaction.authorizedAt ≠ none then
        Tx.query (Sql.updateTransactionStatus payload.transactionId .FINALIZED)
        Tx.query (Sql.createOutboxEvent (finalizedEvent payload))
        Tx.query (Sql.createProcessedEvent CONSUMER_NAME eventId)
      else Tx.query (Sql.createProcessedEvent CONSUMER_NAME eventId)

/-- `workers/finalization/index.ts:13–65`. -/
def handleEvent (event : TransactionEvent) : Process Unit :=
  if event.eventType ≠ "LedgerUpdated" then return ()
  else
    match ledgerUpdatedEventSchema (some event.toJson) with
    | none => Tx.throw
    | some parsed => Tx.transaction (finalizeInTransaction event.eventId parsed.payload)

/-- `workers/finalization/index.ts:130–147`. -/
def compensatedEvent (transaction : Transaction) (balanceAfter : Int) : OutboxEventData where
  eventType := "TransactionCompensated"
  eventVersion := 1
  aggregateId := transaction.transactionId
  transactionId := transaction.transactionId
  topic := bankingTransactionTopic
  partitionKey := transaction.accountId
  payload := .obj [("type", .str "TransactionCompensated"),
    ("transactionId", .str transaction.transactionId), ("accountId", .str transaction.accountId),
    ("amount", .str (toString transaction.amount)),
    ("balanceAfter", .str (toString balanceAfter)), ("reason", .str "LEDGER_TIMEOUT")]

/-- `workers/finalization/index.ts:110–113`. -/
def restoredBalance (type : TransactionType) (balance amount : Int) : Int :=
  match type with
  | .DEBIT => balance + amount
  | .CREDIT => balance - amount

/-- The callback of `$transaction` for one candidate; `workers/finalization/index.ts:83–148`. -/
def compensateInTransaction (candidate : String) : Process Unit := do
  match ← Tx.query (Sql.selectCompletedForUpdate candidate) with
  | none => return ()
  | some transaction =>
    match ← Tx.query (Sql.findLedgerEntry transaction.transactionId) with
    | some _ => return ()
    | none =>
      match ← Tx.query (Sql.selectBalanceForUpdate transaction.accountId) with
      | none => Tx.throw
      | some balance =>
        let balanceAfter := restoredBalance transaction.type balance transaction.amount
        if balanceAfter < 0 then return ()
        else
          Tx.query (Sql.updateAccountBalance transaction.accountId balanceAfter)
          Tx.query (Sql.updateTransactionStatus transaction.transactionId .BLOCKED)
          Tx.query (Sql.createOutboxEvent (compensatedEvent transaction balanceAfter))

/-- One transaction for each candidate, in order. -/
def compensateEach : List String → Process Unit
  | [] => return ()
  | candidate :: rest => do
    Tx.transaction (compensateInTransaction candidate)
    compensateEach rest

/-- `workers/finalization/index.ts:67–150`. -/
def compensateTimedOutTransactions (d : Deployment) : Process Unit := do
  let now ← Tx.query Sql.now
  let cutoff := now - d.config.TRANSACTION_FINALIZATION_TIMEOUT_SECONDS * 1000
  let timedOut ← Tx.query (Sql.findTimedOut cutoff 50)
  compensateEach timedOut

end Banking.Finalization
