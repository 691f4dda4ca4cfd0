import Banking.Database.Statements
import Banking.Transactions.Schemas

/-!
# The transaction engine

`PrismaTransactionRepository.create` of `transactions.repository.ts`, statement by statement.
The pure decisions between the statements are functions of their own; the clock is read by a
statement of its own wherever the source calls `Date.now()` or `new Date()`, so that time may
pass between the reading and the statement that uses it.
-/

namespace Banking

open Js (Date)
open Relational (Tx)

/-- The numbers of `config/env.ts` that the modelled code reads. -/
structure Config where
  MAX_TXN : Nat
  FRAUD_TXN_AMOUNT : Nat
  TRANSACTION_FINALIZATION_TIMEOUT_SECONDS : Nat
  MAX_TXN_pos : 0 < MAX_TXN
  FRAUD_TXN_AMOUNT_pos : 0 < FRAUD_TXN_AMOUNT
  TRANSACTION_FINALIZATION_TIMEOUT_SECONDS_pos : 0 < TRANSACTION_FINALIZATION_TIMEOUT_SECONDS

/-- A configuration together with PostgreSQL's text hash, of which nothing is assumed. -/
structure Deployment where
  config : Config
  hashtextextended : String → Int

/-- `shared/constants/index.ts:2`. -/
def bankingTransactionTopic : String := "banking.transaction-events.v1"

/-- A string, or `null`. -/
def jsonOrNull : Option String → Json
  | some s => .str s
  | none => .null

/-- `transactions.repository.ts:34–42`; the row's `authorizedAt` is spread along when it was
selected. -/
def toTransactionResponse (transaction : Transaction) (authorizedAt : Option Date) :
    TransactionResponse where
  id := transaction.id
  transactionId := transaction.transactionId
  accountId := transaction.accountId
  type := transaction.type
  amount := toString transaction.amount
  status := transaction.status
  createdAt := transaction.createdAt.toISOString
  authorizedAt := authorizedAt

/-- The checks between the account lock and the advisory lock;
`transactions.repository.ts:86–119`. -/
def refusal (input : CreateTransactionInput) (auth : Auth) (accountInfo : Account) :
    Option TransactionResult :=
  if accountInfo.status = .INACTIVE then some (.failure 409 "Inactive account")
  else if input.type = .DEBIT ∧ auth.userId ≠ accountInfo.userId then
    some (.failure 403 "Unauthorized access")
  else if input.type = .CREDIT ∧ auth.role ≠ .ADMIN then
    if auth.userId = accountInfo.userId then some (.failure 403 "Cannot credit own account")
    else some (.failure 403 "Only authorized admin can credit account")
  else none

/-- The checks of the account and the caller refuse with 403 or 409. -/
theorem refusal_eq_some {input : CreateTransactionInput} {auth : Auth} {account : Account}
    {result : TransactionResult} (h : refusal input auth account = some result) :
    ∃ code message, result = .failure code message ∧ (code = 409 ∨ code = 403) := by
  unfold refusal at h
  split at h
  · cases h
    exact ⟨_, _, rfl, .inl rfl⟩
  · split at h
    · cases h
      exact ⟨_, _, rfl, .inr rfl⟩
    · split at h
      · split at h <;> cases h <;> exact ⟨_, _, rfl, .inr rfl⟩
      · cases h

/-- The request asks for what the existing transaction did. -/
def isSameRequest (input : CreateTransactionInput) (existingTxn : Transaction) : Prop :=
  existingTxn.accountId = input.accountId ∧ existingTxn.type = input.type ∧
    existingTxn.amount = input.amountMinor

instance (input : CreateTransactionInput) (existingTxn : Transaction) :
    Decidable (isSameRequest input existingTxn) :=
  inferInstanceAs (Decidable (_ ∧ _))

/-- The answer to a request whose `transactionId` exists;
`transactions.repository.ts:133–160`. -/
def answerExisting (input : CreateTransactionInput) (existingTxn : Transaction) :
    TransactionResult :=
  if ¬ isSameRequest input existingTxn then .failure 409 "Transaction conflict"
  else if existingTxn.status = .BLOCKED then .failure 422 "Invalid transaction"
  else .success 200 (toTransactionResponse existingTxn existingTxn.authorizedAt)

/-- `transactions.repository.ts:255–260`. -/
def blockReason (exceedsVelocityLimit exceedsAmountLimit : Bool) : String :=
  if exceedsVelocityLimit && exceedsAmountLimit then "VELOCITY_AND_AMOUNT_LIMIT"
  else if exceedsVelocityLimit then "VELOCITY_LIMIT"
  else "AMOUNT_LIMIT"

/-- `transactions.repository.ts:237–262`. -/
def blockedEvent (input : CreateTransactionInput) (resultTxn : Transaction)
    (ipAddress : Option String) (reason : String) : OutboxEventData where
  eventType := "TransactionBlocked"
  eventVersion := 1
  aggregateId := input.transactionId
  transactionId := input.transactionId
  topic := bankingTransactionTopic
  partitionKey := input.accountId
  payload := .obj [("type", .str "TransactionBlocked"),
    ("transactionId", .str resultTxn.transactionId), ("accountId", .str resultTxn.accountId),
    ("txnType", .str resultTxn.type.label), ("amount", .str (toString resultTxn.amount)),
    ("ipAddress", jsonOrNull ipAddress), ("deviceFingerprint", .str input.deviceFingerprint),
    ("reason", .str reason)]

/-- `transactions.repository.ts:284–303`. -/
def completedEvent (input : CreateTransactionInput) (resultTxn : Transaction)
    (balanceAfter : Int) (ipAddress : Option String) : OutboxEventData where
  eventType := "TransactionCompleted"
  eventVersion := 1
  aggregateId := input.transactionId
  transactionId := input.transactionId
  topic := bankingTransactionTopic
  partitionKey := input.accountId
  payload := .obj [("type", .str "TransactionCompleted"),
    ("transactionId", .str resultTxn.transactionId), ("accountId", .str resultTxn.accountId),
    ("txnType", .str resultTxn.type.label), ("amount", .str (toString resultTxn.amount)),
    ("balanceAfter", .str (toString balanceAfter)), ("ipAddress", jsonOrNull ipAddress),
    ("deviceFingerprint", .str input.deviceFingerprint)]

/-- The fraud branch; `transactions.repository.ts:228–268`. -/
def block (input : CreateTransactionInput) (ipAddress : Option String) (resultTxn : Transaction)
    (reason : String) : Process TransactionResult := do
  Tx.query (Sql.updateTransactionStatus input.transactionId .BLOCKED)
  Tx.query (Sql.createOutboxEvent (blockedEvent input resultTxn ipAddress reason))
  return .failure 422 "Invalid transaction"

/-- `transactions.repository.ts:270–275`. -/
def newBalance (type : TransactionType) (balance amount : Int) : Int :=
  match type with
  | .DEBIT => balance - amount
  | .CREDIT => balance + amount

/-- The branch that moves the balance; `transactions.repository.ts:270–308`. -/
def settle (input : CreateTransactionInput) (ipAddress : Option String) (accountInfo : Account)
    (resultTxn : Transaction) : Process TransactionResult := do
  let balanceAfter := newBalance input.type accountInfo.balance resultTxn.amount
  Tx.query (Sql.updateAccountBalance input.accountId balanceAfter)
  Tx.query (Sql.createOutboxEvent (completedEvent input resultTxn balanceAfter ipAddress))
  return .success 201 (toTransactionResponse resultTxn none)

/-- The total that the amount limit is compared with; `transactions.repository.ts:201–205`. -/
def totalTxnAmount (input : CreateTransactionInput) (currentTotalTxnAmount : Int) : Int :=
  if input.type = .DEBIT then currentTotalTxnAmount + input.amountMinor
  else currentTotalTxnAmount

/-- The fraud rules and the insert; `transactions.repository.ts:173–308`. -/
def applyFraudRules (d : Deployment) (input : CreateTransactionInput) (ipAddress : Option String)
    (accountInfo : Account) : Process TransactionResult := do
  let countFrom ← Tx.query Sql.now
  let count ← Tx.query (Sql.countTransactions accountInfo.userId (countFrom - 60000))
  let amtFrom ← Tx.query Sql.now
  let amt ← Tx.query (Sql.sumDebits accountInfo.userId (amtFrom - 60000))
  let authorizedAt ← Tx.query Sql.now
  let resultTxn ← Tx.query (Sql.createTransaction input.transactionId input.accountId input.type
    input.amountMinor .COMPLETED authorizedAt)
  let exceedsVelocityLimit := decide (count + 1 > d.config.MAX_TXN)
  let exceedsAmountLimit :=
    decide (totalTxnAmount input (amt.getD 0) > d.config.FRAUD_TXN_AMOUNT)
  if exceedsVelocityLimit || exceedsAmountLimit then
    block input ipAddress resultTxn (blockReason exceedsVelocityLimit exceedsAmountLimit)
  else settle input ipAddress accountInfo resultTxn

/-- The callback of `$transaction`; `transactions.repository.ts:58–309`. -/
def createInTransaction (d : Deployment) (input : CreateTransactionInput)
    (ipAddress : Option String) (auth : Auth) : Process TransactionResult := do
  match ← Tx.query (Sql.selectAccountForUpdate input.accountId) with
  | none => return .failure 404 "Account not found"
  | some accountInfo =>
    match refusal input auth accountInfo with
    | some result => return result
    | none =>
      Tx.query (Sql.advisoryXactLock (d.hashtextextended accountInfo.userId))
      match ← Tx.query (Sql.findTransaction input.transactionId) with
      | some existingTxn => return answerExisting input existingTxn
      | none =>
        if input.type = .DEBIT ∧ accountInfo.balance ≤ input.amountMinor then
          return .failure 422 "Insufficient balance"
        else applyFraudRules d input ipAddress accountInfo

/-- `PrismaTransactionRepository.create`; `transactions.repository.ts:45–310`. -/
def create (d : Deployment) (input : CreateTransactionInput) (request : Request) :
    Process TransactionResult :=
  match request.auth with
  | none => return .failure 401 "Authentication required"
  | some auth => Tx.transaction (createInTransaction d input request.ipAddress auth)

end Banking
