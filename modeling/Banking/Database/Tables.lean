import Banking.Js.Json
import Banking.Relational.Table

/-!
# The tables

Rows and unique indexes of `prisma/schema.prisma`, as far as the transaction engine and its
workers read or write them. Integers of `BIGINT` columns are unbounded here; a value outside
the column's range makes the statement throw, which the interleaving semantics allows at every
statement.
-/

namespace Banking

open Js (Date)
open Relational (Table)

/-- `prisma/schema.prisma:20–23`. -/
inductive UserRole where
  | ADMIN
  | CUSTOMER
  deriving DecidableEq

/-- `prisma/schema.prisma:25–28`. -/
inductive AccountStatus where
  | ACTIVE
  | INACTIVE
  deriving DecidableEq

/-- `prisma/schema.prisma:30–33`; the labels of `LedgerType` at `:42–45` are the same. -/
inductive TransactionType where
  | DEBIT
  | CREDIT
  deriving DecidableEq

/-- `prisma/schema.prisma:35–40`. -/
inductive TransactionStatus where
  | PENDING
  | COMPLETED
  | BLOCKED
  | FINALIZED
  deriving DecidableEq

/-- `prisma/schema.prisma:47–51`. -/
inductive OutboxEventStatus where
  | PENDING
  | PROCESSING
  | PUBLISHED
  deriving DecidableEq

/-- The label of a transaction type in JSON. -/
def TransactionType.label : TransactionType → String
  | .DEBIT => "DEBIT"
  | .CREDIT => "CREDIT"

/-- The label of a transaction status in JSON. -/
def TransactionStatus.label : TransactionStatus → String
  | .PENDING => "PENDING"
  | .COMPLETED => "COMPLETED"
  | .BLOCKED => "BLOCKED"
  | .FINALIZED => "FINALIZED"

/-- `prisma/schema.prisma:67–82`. -/
structure Account where
  id : String
  userId : String
  balance : Int
  status : AccountStatus
  fraudFlaggedAt : Option Date
  createdAt : Date
  deletedAt : Option Date

/-- `prisma/schema.prisma:97–110`. -/
structure Transaction where
  id : String
  transactionId : String
  accountId : String
  type : TransactionType
  amount : Int
  status : TransactionStatus
  authorizedAt : Option Date
  createdAt : Date

/-- `prisma/schema.prisma:140–150`. -/
structure LedgerEntry where
  id : String
  transactionId : String
  accountId : String
  type : TransactionType
  amount : Int
  balanceAfter : Int
  createdAt : Date

/-- The columns of an outbox row that its writer supplies. -/
structure OutboxEventData where
  eventType : String
  eventVersion : Int
  aggregateId : String
  transactionId : String
  topic : String
  partitionKey : String
  payload : Json

/-- `prisma/schema.prisma:152–170`. -/
structure OutboxEvent extends OutboxEventData where
  id : String
  status : OutboxEventStatus
  attempts : Nat
  nextAttemptAt : Date
  createdAt : Date
  publishedAt : Option Date
  lastError : Option String

/-- `prisma/schema.prisma:172–178`. -/
structure ProcessedEvent where
  eventId : String
  consumerName : String
  processedAt : Date

/-- A new outbox row: the writer's columns and the defaults of the others. -/
def OutboxEventData.row (data : OutboxEventData) (id : String) (now : Date) : OutboxEvent :=
  { data with
    id
    status := .PENDING
    attempts := 0
    nextAttemptAt := now
    createdAt := now
    publishedAt := none
    lastError := none }

/-- The tables with the unique index that each is looked up by. -/
structure Database where
  accounts : Table Account.id
  transactions : Table Transaction.transactionId
  ledgerEntries : Table LedgerEntry.transactionId
  outboxEvents : Table OutboxEvent.id
  processedEvents : Table (fun p : ProcessedEvent ↦ (p.consumerName, p.eventId))

namespace Database

/-- Accounts before any transaction. -/
def opening (accounts : Table Account.id) : Database :=
  ⟨accounts, .empty, .empty, .empty, .empty⟩

/-- The account exists and belongs to the user. -/
def owns (db : Database) (userId : String) (t : Transaction) : Bool :=
  (db.accounts.find? t.accountId).any (fun a ↦ a.userId = userId)

/-- The transactions of all accounts of a user from `since` on. -/
def recent (db : Database) (userId : String) (since : Date) : List Transaction :=
  db.transactions.rows.filter (fun t ↦ db.owns userId t && since ≤ t.createdAt)

/-! ### Updates -/

/-- Write the absolute balance of an account. -/
def setBalance (id : String) (balance : Int) (db : Database) : Database :=
  { db with accounts := db.accounts.modify id (fun a ↦ { a with balance }) (fun _ ↦ rfl) }

/-- Write the status of a transaction. -/
def setStatus (transactionId : String) (status : TransactionStatus) (db : Database) : Database :=
  { db with
    transactions :=
      db.transactions.modify transactionId (fun t ↦ { t with status }) (fun _ ↦ rfl) }

/-- Insert a transaction. -/
def addTransaction (t : Transaction) (db : Database) : Database :=
  { db with transactions := db.transactions.insert t }

/-- Insert a ledger entry. -/
def addLedgerEntry (e : LedgerEntry) (db : Database) : Database :=
  { db with ledgerEntries := db.ledgerEntries.insert e }

/-- Insert an outbox row. -/
def addOutboxEvent (e : OutboxEvent) (db : Database) : Database :=
  { db with outboxEvents := db.outboxEvents.insert e }

/-- Insert a processed-event row. -/
def addProcessedEvent (p : ProcessedEvent) (db : Database) : Database :=
  { db with processedEvents := db.processedEvents.insert p }

section Projections

variable (db : Database) (id : String) (balance : Int) (status : TransactionStatus)
variable (t : Transaction) (l : LedgerEntry) (e : OutboxEvent) (p : ProcessedEvent)

@[simp] theorem accounts_setBalance : (db.setBalance id balance).accounts =
    db.accounts.modify id (fun a ↦ { a with balance }) (fun _ ↦ rfl) := rfl
@[simp] theorem transactions_setBalance :
    (db.setBalance id balance).transactions = db.transactions := rfl
@[simp] theorem ledgerEntries_setBalance :
    (db.setBalance id balance).ledgerEntries = db.ledgerEntries := rfl
@[simp] theorem outboxEvents_setBalance :
    (db.setBalance id balance).outboxEvents = db.outboxEvents := rfl
@[simp] theorem processedEvents_setBalance :
    (db.setBalance id balance).processedEvents = db.processedEvents := rfl

@[simp] theorem accounts_setStatus : (db.setStatus id status).accounts = db.accounts := rfl
@[simp] theorem transactions_setStatus : (db.setStatus id status).transactions =
    db.transactions.modify id (fun t ↦ { t with status }) (fun _ ↦ rfl) := rfl
@[simp] theorem ledgerEntries_setStatus :
    (db.setStatus id status).ledgerEntries = db.ledgerEntries := rfl
@[simp] theorem outboxEvents_setStatus :
    (db.setStatus id status).outboxEvents = db.outboxEvents := rfl
@[simp] theorem processedEvents_setStatus :
    (db.setStatus id status).processedEvents = db.processedEvents := rfl

@[simp] theorem accounts_addTransaction : (db.addTransaction t).accounts = db.accounts := rfl
@[simp] theorem transactions_addTransaction :
    (db.addTransaction t).transactions = db.transactions.insert t := rfl
@[simp] theorem ledgerEntries_addTransaction :
    (db.addTransaction t).ledgerEntries = db.ledgerEntries := rfl
@[simp] theorem outboxEvents_addTransaction :
    (db.addTransaction t).outboxEvents = db.outboxEvents := rfl
@[simp] theorem processedEvents_addTransaction :
    (db.addTransaction t).processedEvents = db.processedEvents := rfl

@[simp] theorem accounts_addLedgerEntry : (db.addLedgerEntry l).accounts = db.accounts := rfl
@[simp] theorem transactions_addLedgerEntry :
    (db.addLedgerEntry l).transactions = db.transactions := rfl
@[simp] theorem ledgerEntries_addLedgerEntry :
    (db.addLedgerEntry l).ledgerEntries = db.ledgerEntries.insert l := rfl
@[simp] theorem outboxEvents_addLedgerEntry :
    (db.addLedgerEntry l).outboxEvents = db.outboxEvents := rfl
@[simp] theorem processedEvents_addLedgerEntry :
    (db.addLedgerEntry l).processedEvents = db.processedEvents := rfl

@[simp] theorem accounts_addOutboxEvent : (db.addOutboxEvent e).accounts = db.accounts := rfl
@[simp] theorem transactions_addOutboxEvent :
    (db.addOutboxEvent e).transactions = db.transactions := rfl
@[simp] theorem ledgerEntries_addOutboxEvent :
    (db.addOutboxEvent e).ledgerEntries = db.ledgerEntries := rfl
@[simp] theorem outboxEvents_addOutboxEvent :
    (db.addOutboxEvent e).outboxEvents = db.outboxEvents.insert e := rfl
@[simp] theorem processedEvents_addOutboxEvent :
    (db.addOutboxEvent e).processedEvents = db.processedEvents := rfl

@[simp] theorem accounts_addProcessedEvent :
    (db.addProcessedEvent p).accounts = db.accounts := rfl
@[simp] theorem transactions_addProcessedEvent :
    (db.addProcessedEvent p).transactions = db.transactions := rfl
@[simp] theorem ledgerEntries_addProcessedEvent :
    (db.addProcessedEvent p).ledgerEntries = db.ledgerEntries := rfl
@[simp] theorem outboxEvents_addProcessedEvent :
    (db.addProcessedEvent p).outboxEvents = db.outboxEvents := rfl
@[simp] theorem processedEvents_addProcessedEvent :
    (db.addProcessedEvent p).processedEvents = db.processedEvents.insert p := rfl

end Projections

/-- Writing the status of a transaction just inserted is inserting it with that status. -/
theorem setStatus_addTransaction {db : Database} {t : Transaction}
    (h : db.transactions.find? t.transactionId = none) (status : TransactionStatus) :
    (db.addTransaction t).setStatus t.transactionId status =
      db.addTransaction { t with status } := by
  rw [addTransaction, setStatus, addTransaction]
  congr 1
  exact Table.modify_insert_self h (fun t ↦ { t with status }) fun _ ↦ rfl

end Database

end Banking
