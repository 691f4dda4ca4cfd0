import Banking.Transactions.Repository

/-!
# The ledger worker

`handleEvent` of `workers/ledger/index.ts`.
-/

namespace Banking.Ledger

open Relational (Tx)

/-- `workers/ledger/index.ts:11`. -/
def CONSUMER_NAME : String := "banking-ledger-service-v1"

/-- `workers/ledger/index.ts:44–61`. -/
def ledgerUpdatedEvent (payload : TransactionCompletedPayload) : OutboxEventData where
  eventType := "LedgerUpdated"
  eventVersion := 1
  aggregateId := payload.transactionId
  transactionId := payload.transactionId
  topic := bankingTransactionTopic
  partitionKey := payload.accountId
  payload := .obj [("type", .str "LedgerUpdated"), ("transactionId", .str payload.transactionId),
    ("accountId", .str payload.accountId), ("txnType", .str payload.txnType.label),
    ("amount", .str payload.amount), ("balanceAfter", .str payload.balanceAfter)]

/-- The branch of a completed transaction; `workers/ledger/index.ts:27–61`. -/
def postEntry (event : TransactionEvent) : Process Unit :=
  match transactionCompletedEventSchema (some event.toJson) with
  | none => Tx.throw
  | some parsed => do
    let payload := parsed.payload
    Tx.query (Sql.selectTransactionForUpdate payload.transactionId)
    Tx.query (Sql.createLedgerEntry payload.transactionId payload.accountId payload.txnType
      (Js.bigInt payload.amount) (Js.bigInt payload.balanceAfter))
    Tx.query (Sql.createOutboxEvent (ledgerUpdatedEvent payload))

/-- `workers/ledger/index.ts:14–68`. -/
def handleEvent (event : TransactionEvent) : Process Unit := Tx.transaction do
  match ← Tx.query (Sql.findProcessedEvent CONSUMER_NAME event.eventId) with
  | some _ => return ()
  | none =>
    if event.eventType = "TransactionCompleted" then
      postEntry event
      Tx.query (Sql.createProcessedEvent CONSUMER_NAME event.eventId)
    else Tx.query (Sql.createProcessedEvent CONSUMER_NAME event.eventId)

end Banking.Ledger
