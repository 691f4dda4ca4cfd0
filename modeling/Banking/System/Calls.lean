import Banking.Transactions.Schemas
import Banking.Workers.Finalization
import Banking.Workers.Ledger

/-!
# The system

The calls whose statements interleave: requests to create a transaction, deliveries of events
to the two workers, and timeout scans. A delivery hands a worker the parsed form of a committed
outbox row. Since rows are never removed and their events never change, this allows every
history of publishing, duplication, retry and reprocessing from the dead letter topic.
-/

namespace Banking

/-- What can be called. -/
inductive Call where
  | create (input : CreateTransactionInput) (request : Request)
  | ledgerEvent (eventId : String)
  | finalizationEvent (eventId : String)
  | timeoutScan

/-- What a call returns. -/
inductive Reply where
  | transaction (result : TransactionResult)
  | done

/-- The event that a consumer decodes from the message published for an outbox row. -/
def delivered (db : Database) (eventId : String) : Option TransactionEvent :=
  (db.outboxEvents.find? eventId).bind fun row ↦ transactionEventSchema (some (serializeEvent row))

/-- The program of a call that starts on the committed database `db`. -/
def begins (d : Deployment) : Call → Database → Option (Process Reply)
  | .create input request, _ => some do
    let result ← create d input request
    return .transaction result
  | .ledgerEvent eventId, db => (delivered db eventId).map fun event ↦ do
    Ledger.handleEvent event
    return .done
  | .finalizationEvent eventId, db => (delivered db eventId).map fun event ↦ do
    Finalization.handleEvent event
    return .done
  | .timeoutScan, _ => some do
    Finalization.compensateTimedOutTransactions d
    return .done

/-- States of the running system. -/
abbrev SystemState := Relational.State Database Lock Supply Call Reply

/-- What can happen in the running system. -/
abbrev SystemAction := Relational.Action Supply Call

/-- Runs of the system. -/
abbrev Runs (d : Deployment) : SystemState → SystemState → Prop := Relational.Runs (begins d)

/-- No call has started, and the accounts hold their opening balances. -/
def initial (accounts : Relational.Table Account.id) (now : Js.Date) : SystemState :=
  Relational.State.initial (Database.opening accounts) now

/-! ### A small deployment

One account, its owner and one debit, for runs that can be executed. -/

namespace Sample

/-- Five transactions and 5 000 000 minor units a minute, and thirty seconds until a timeout. -/
def deployment : Deployment where
  config := ⟨5, 5000000, 30, by decide, by decide, by decide⟩
  hashtextextended _ := 0

/-- The identifier of the account. -/
def accountId : String := "550e8400-e29b-41d4-a716-446655440000"

/-- One account with 100 minor units. -/
def accounts : Relational.Table Account.id :=
  ⟨[⟨accountId, "user-1", 100, .ACTIVE, none, 0, none⟩], by decide⟩

/-- A debit of ten minor units. -/
def input : CreateTransactionInput where
  transactionId := "txn-1"
  accountId := accountId
  type := .DEBIT
  amountMinor := 10
  deviceFingerprint := "device-1"
  transactionId_trimmed := by decide
  transactionId_length := by decide
  accountId_uuid := by decide
  amountMinor_pos := by decide
  deviceFingerprint_trimmed := by decide
  deviceFingerprint_length := by decide

/-- The request of the account's owner. -/
def request : Request := ⟨some ⟨"user-1", .CUSTOMER⟩, some "127.0.0.1", none⟩

/-- The `k`-th generated identifier, for `k` below ten. -/
def uuid (k : Nat) : String := "550e8400-e29b-41d4-a716-44665544001" ++ toString k

/-- Process `i` executes `n` statements with the `k`-th identifier. -/
def execute (i n k : Nat) : List SystemAction := List.replicate n (.exec i ⟨uuid k, []⟩)

/-- Process 0 debits the account. -/
def debit : List SystemAction := .start 0 (.create input request) :: execute 0 13 0

/-- Six debits of the account from one device. -/
def inputs : List CreateTransactionInput :=
  ["txn-1", "txn-2", "txn-3", "txn-4", "txn-5", "txn-6"].filterMap fun transactionId ↦
    createTransactionSchema (some (.obj [("transactionId", .str transactionId),
      ("accountId", .str accountId), ("type", .str "DEBIT"), ("amountMinor", .str "10"),
      ("deviceFingerprint", .str "device-1")]))

/-- The six debits are requested one after the other; the last is blocked. -/
def requests : List SystemAction :=
  inputs.zipIdx.flatMap fun (input, k) ↦ .start k (.create input request) :: execute k 13 k

/-- Process `i` receives the `TransactionCompleted` event of the debit. -/
def post (i k : Nat) : List SystemAction := .start i (.ledgerEvent (uuid 0)) :: execute i 7 k

/-- Process `i` receives the `LedgerUpdated` event with the `e`-th identifier. -/
def finalize (i e k : Nat) : List SystemAction :=
  .start i (.finalizationEvent (uuid e)) :: execute i 7 k

/-- Process `i` scans for timeouts a minute and more after the debit. -/
def reverse (i k : Nat) : List SystemAction :=
  .tick 100000 :: .start i .timeoutScan :: execute i 10 k

/-- The state after a list of actions. -/
def after (actions : List SystemAction) : Option SystemState :=
  Relational.run (begins deployment) (initial accounts 1000) actions

end Sample

end Banking
