import Banking.Database.Tables
import Banking.Relational.Interleaving

/-!
# The statements

What the transaction engine, the ledger worker and the finalization worker ask of PostgreSQL:
the locks each statement waits for and keeps, its result on the committed rows overlaid with the
transaction's own writes, and its write. A result of `none` is a thrown error: a unique or
foreign key violation, or an update of a row that does not exist. Share locks taken for foreign
keys are left out.
-/

namespace Banking

open Js (Date)
open Relational (Env Stmt Tx)

/-- Row locks, advisory locks, and the entries of unique indexes that an insert occupies. -/
inductive Lock where
  | account (id : String)
  | advisory (key : Int)
  | transaction (transactionId : String)
  | transactionId (transactionId : String)
  | transactionPk (id : String)
  | ledgerEntry (transactionId : String)
  | ledgerEntryPk (id : String)
  | outboxEventPk (id : String)
  | processedEvent (consumerName eventId : String)
  deriving DecidableEq

/-- What the environment chooses for a statement: the identifier it generates, and the order in
which a scan without `ORDER BY` meets the rows. -/
structure Supply where
  id : String
  order : List String

/-- A statement with result `β`. -/
abbrev Query (β : Type) := Stmt Database Lock Supply β

/-- A process with result `α`. -/
abbrev Process (α : Type) := Tx Database Lock Supply α

namespace Sql

/-- `Date.now()` and `new Date()`. -/
def now : Query Date where
  result env _ := some env.now

/-- The row of an account that is not deleted. -/
def liveAccount (db : Database) (id : String) : Option Account :=
  (db.accounts.find? id).filter (fun a ↦ a.deletedAt.isNone)

/-- `SELECT … FROM "Account" WHERE "id" = … AND "deletedAt" IS NULL FOR UPDATE`;
`transactions.repository.ts:64–77`. -/
def selectAccountForUpdate (id : String) : Query (Option Account) where
  locks _ db := if (liveAccount db id).isSome then [.account id] else []
  result _ db := some (liveAccount db id)

/-- `SELECT "balance" FROM "Account" WHERE "id" = … FOR UPDATE`; `finalization/index.ts:101–106`. -/
def selectBalanceForUpdate (id : String) : Query (Option Int) where
  locks _ db := if (db.accounts.find? id).isSome then [.account id] else []
  result _ db := some ((db.accounts.find? id).map Account.balance)

/-- `pg_advisory_xact_lock`; `transactions.repository.ts:121–126`. -/
def advisoryXactLock (key : Int) : Query Unit where
  locks _ _ := [.advisory key]
  result _ _ := some ()

/-- `transaction.findUnique({ where: { transactionId } })`. -/
def findTransaction (transactionId : String) : Query (Option Transaction) where
  result _ db := some (db.transactions.find? transactionId)

/-- `transaction.aggregate({ _count })` over a user's transactions;
`transactions.repository.ts:174–186`. -/
def countTransactions (userId : String) (gte : Date) : Query Nat where
  result _ db := some (db.recent userId gte).length

/-- The sum of a user's recent debits. -/
def debitSum (db : Database) (userId : String) (gte : Date) : Int :=
  (((db.recent userId gte).filter (fun t ↦ t.type = .DEBIT)).map Transaction.amount).sum

/-- `transaction.aggregate({ _sum })` over a user's debits, `null` when there is none;
`transactions.repository.ts:187–200`. -/
def sumDebits (userId : String) (gte : Date) : Query (Option Int) where
  result _ db := some (
    if ((db.recent userId gte).filter (fun t ↦ t.type = .DEBIT)).isEmpty then none
    else some (debitSum db userId gte))

/-- `transaction.create`; the identifier and `createdAt` are generated. -/
def createTransaction (transactionId accountId : String) (type : TransactionType) (amount : Int)
    (status : TransactionStatus) (authorizedAt : Date) : Query Transaction where
  locks env _ := [.transactionId transactionId, .transactionPk env.supply.id]
  result env db :=
    if (db.transactions.find? transactionId).isNone &&
        db.transactions.rows.all (fun t ↦ t.id ≠ env.supply.id) &&
        (db.accounts.find? accountId).isSome then
      some ⟨env.supply.id, transactionId, accountId, type, amount, status, some authorizedAt,
        env.now⟩
    else none
  write env _ db := db.addTransaction
    ⟨env.supply.id, transactionId, accountId, type, amount, status, some authorizedAt, env.now⟩

/-- `transaction.update({ where: { transactionId }, data: { status } })`. -/
def updateTransactionStatus (transactionId : String) (status : TransactionStatus) :
    Query Unit where
  locks _ _ := [.transaction transactionId]
  result _ db := (db.transactions.find? transactionId).map (fun _ ↦ ())
  write _ _ db := db.setStatus transactionId status

/-- `account.update({ where: { id }, data: { balance } })`. -/
def updateAccountBalance (id : String) (balance : Int) : Query Unit where
  locks _ _ := [.account id]
  result _ db := (db.accounts.find? id).map (fun _ ↦ ())
  write _ _ db := db.setBalance id balance

/-- `outboxEvent.create`. -/
def createOutboxEvent (data : OutboxEventData) : Query Unit where
  locks env _ := [.outboxEventPk env.supply.id]
  result env db := if (db.outboxEvents.find? env.supply.id).isNone then some () else none
  write env _ db := db.addOutboxEvent (data.row env.supply.id env.now)

/-- `processedEvent.findUnique`. -/
def findProcessedEvent (consumerName eventId : String) : Query (Option ProcessedEvent) where
  result _ db := some (db.processedEvents.find? (consumerName, eventId))

/-- `processedEvent.create`. -/
def createProcessedEvent (consumerName eventId : String) : Query Unit where
  locks _ _ := [.processedEvent consumerName eventId]
  result _ db := if (db.processedEvents.find? (consumerName, eventId)).isNone then some () else none
  write env _ db := db.addProcessedEvent ⟨eventId, consumerName, env.now⟩

/-- `SELECT "id" FROM "Transaction" WHERE "transactionId" = … FOR UPDATE`, whose rows are not
used; `ledger/index.ts:28–33`. -/
def selectTransactionForUpdate (transactionId : String) : Query Unit where
  locks _ db :=
    if (db.transactions.find? transactionId).isSome then [.transaction transactionId] else []
  result _ _ := some ()

/-- `SELECT … FROM "Transaction" WHERE "transactionId" = … AND "status" = 'COMPLETED' FOR UPDATE`;
`finalization/index.ts:84–92`. -/
def selectCompletedForUpdate (transactionId : String) : Query (Option Transaction) where
  locks _ db :=
    if ((db.transactions.find? transactionId).filter (fun t ↦ t.status = .COMPLETED)).isSome then
      [.transaction transactionId]
    else []
  result _ db :=
    some ((db.transactions.find? transactionId).filter (fun t ↦ t.status = .COMPLETED))

/-- `ledgerEntry.findUnique({ where: { transactionId } })`. -/
def findLedgerEntry (transactionId : String) : Query (Option LedgerEntry) where
  result _ db := some (db.ledgerEntries.find? transactionId)

/-- `ledgerEntry.create`; `transactionId` and `accountId` are foreign keys. -/
def createLedgerEntry (transactionId accountId : String) (type : TransactionType)
    (amount balanceAfter : Int) : Query Unit where
  locks env _ := [.ledgerEntry transactionId, .ledgerEntryPk env.supply.id]
  result env db :=
    if (db.ledgerEntries.find? transactionId).isNone &&
        db.ledgerEntries.rows.all (fun e ↦ e.id ≠ env.supply.id) &&
        (db.transactions.find? transactionId).isSome && (db.accounts.find? accountId).isSome then
      some ()
    else none
  write env _ db := db.addLedgerEntry
    ⟨env.supply.id, transactionId, accountId, type, amount, balanceAfter, env.now⟩

/-- The completed, authorized transactions without ledger entry created up to `cutoff`. -/
def timedOut (db : Database) (cutoff : Date) : List String :=
  (db.transactions.rows.filter (fun t ↦ t.status = .COMPLETED && t.createdAt ≤ cutoff &&
    (db.ledgerEntries.find? t.transactionId).isNone && t.authorizedAt.isSome)).map
    Transaction.transactionId

/-- `transaction.findMany({ where, take })`; `finalization/index.ts:71–80`. The rows come in the
order the environment chooses. -/
def findTimedOut (cutoff : Date) (take : Nat) : Query (List String) where
  result env db :=
    let rows := timedOut db cutoff
    let chosen := env.supply.order.dedup.filter (fun id ↦ rows.contains id)
    some ((chosen ++ rows.filter (fun id ↦ !chosen.contains id)).take take)

/-! ### The reading statements -/

/-- Reading the clock changes nothing. -/
theorem now_reads : now.Reads := ⟨fun _ _ ↦ rfl, fun _ _ ↦ rfl, fun _ _ ↦ rfl⟩

/-- Looking up a transaction changes nothing. -/
theorem findTransaction_reads (transactionId : String) : (findTransaction transactionId).Reads :=
  ⟨fun _ _ ↦ rfl, fun _ _ ↦ rfl, fun _ _ ↦ rfl⟩

/-- Counting transactions changes nothing. -/
theorem countTransactions_reads (userId : String) (gte : Date) :
    (countTransactions userId gte).Reads :=
  ⟨fun _ _ ↦ rfl, fun _ _ ↦ rfl, fun _ _ ↦ rfl⟩

/-- Adding up debits changes nothing. -/
theorem sumDebits_reads (userId : String) (gte : Date) : (sumDebits userId gte).Reads :=
  ⟨fun _ _ ↦ rfl, fun _ _ ↦ rfl, fun _ _ ↦ rfl⟩

/-- Looking up a processed event changes nothing. -/
theorem findProcessedEvent_reads (consumerName eventId : String) :
    (findProcessedEvent consumerName eventId).Reads :=
  ⟨fun _ _ ↦ rfl, fun _ _ ↦ rfl, fun _ _ ↦ rfl⟩

/-- Looking up a ledger entry changes nothing. -/
theorem findLedgerEntry_reads (transactionId : String) : (findLedgerEntry transactionId).Reads :=
  ⟨fun _ _ ↦ rfl, fun _ _ ↦ rfl, fun _ _ ↦ rfl⟩

/-- Looking for timed-out transactions changes nothing. -/
theorem findTimedOut_reads (cutoff : Date) (take : Nat) : (findTimedOut cutoff take).Reads :=
  ⟨fun _ _ ↦ rfl, fun _ _ ↦ rfl, fun _ _ ↦ rfl⟩

/-! ### What a result says

One lemma for each statement that can throw or that reports a missing row. -/

section Results

variable {env : Env Supply} {db : Database}

/-- A live account is a row of the table that is not deleted. -/
theorem liveAccount_eq_some {id : String} {a : Account} :
    liveAccount db id = some a ↔ db.accounts.find? id = some a ∧ a.deletedAt = none := by
  simp [liveAccount, Option.filter_eq_some_iff]

/-- `createTransaction` succeeds on an unused `transactionId` only. -/
theorem createTransaction_result {transactionId accountId : String} {type : TransactionType}
    {amount : Int} {status : TransactionStatus} {authorizedAt : Date} {t : Transaction}
    (h : (createTransaction transactionId accountId type amount status authorizedAt).result env db =
      some t) :
    db.transactions.find? transactionId = none ∧ t = ⟨env.supply.id, transactionId, accountId,
      type, amount, status, some authorizedAt, env.now⟩ := by
  simp only [createTransaction] at h
  split at h
  · next hc =>
    cases h
    simp only [Bool.and_eq_true, Option.isNone_iff_eq_none] at hc
    exact ⟨hc.1.1, rfl⟩
  · cases h

/-- `createOutboxEvent` succeeds on an unused identifier only. -/
theorem createOutboxEvent_result {data : OutboxEventData} {u : Unit}
    (h : (createOutboxEvent data).result env db = some u) :
    db.outboxEvents.find? env.supply.id = none := by
  simp only [createOutboxEvent] at h
  split at h
  · next hc => exact Option.isNone_iff_eq_none.mp hc
  · cases h

/-- `createProcessedEvent` succeeds on an unrecorded event only. -/
theorem createProcessedEvent_result {consumerName eventId : String} {u : Unit}
    (h : (createProcessedEvent consumerName eventId).result env db = some u) :
    db.processedEvents.find? (consumerName, eventId) = none := by
  simp only [createProcessedEvent] at h
  split at h
  · next hc => exact Option.isNone_iff_eq_none.mp hc
  · cases h

/-- `createLedgerEntry` succeeds on a transaction without entry only. -/
theorem createLedgerEntry_result {transactionId accountId : String} {type : TransactionType}
    {amount balanceAfter : Int} {u : Unit}
    (h : (createLedgerEntry transactionId accountId type amount balanceAfter).result env db =
      some u) : db.ledgerEntries.find? transactionId = none := by
  simp only [createLedgerEntry] at h
  split at h
  · next hc =>
    simp only [Bool.and_eq_true, Option.isNone_iff_eq_none] at hc
    exact hc.1.1.1
  · cases h

/-- A row selected as completed is a completed row. -/
theorem selectCompletedForUpdate_result {transactionId : String} {t : Transaction}
    (h : (selectCompletedForUpdate transactionId).result env db = some (some t)) :
    db.transactions.find? transactionId = some t ∧ t.status = .COMPLETED := by
  simpa [selectCompletedForUpdate, Option.filter_eq_some_iff] using h

/-- Without debits the sum is `null`, which counts as zero. -/
theorem sumDebits_result {userId : String} {gte : Date} {sum : Option Int}
    (h : (sumDebits userId gte).result env db = some sum) :
    sum.getD 0 = debitSum db userId gte := by
  simp only [sumDebits, Option.some.injEq] at h
  split at h
  · next hc =>
    rw [← h, debitSum, List.isEmpty_iff.mp hc]
    rfl
  · rw [← h]
    rfl

end Results

end Sql

end Banking
