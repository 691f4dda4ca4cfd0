import Banking.Atomic.Commits
import Banking.Relational.Alone

/-!
# Requests that run alone

What a request does when nobody else commits: it decides from its account, the recent
transactions of the account's owner and the row under its `transactionId`, and then leaves the
database as it is or inserts what it has decided.
-/

namespace Banking

open Js (Date)
open Relational (Env Table Tx)

/-- What a request decides. -/
inductive Decision where
  | answer (result : TransactionResult)
  | block (reason : String)
  | settle (account : Account)

variable (d : Deployment) (input : CreateTransactionInput) (auth : Auth)

/-- The decision of a request that computes its aggregates from `countFrom` and `amtFrom` on. -/
def decision (countFrom amtFrom : Date) (db : Database) : Decision :=
  match Sql.liveAccount db input.accountId with
  | none => .answer (.failure 404 "Account not found")
  | some account =>
    match refusal input auth account with
    | some result => .answer result
    | none =>
      match db.transactions.find? input.transactionId with
      | some existingTxn => .answer (answerExisting input existingTxn)
      | none =>
        if input.type = .DEBIT ∧ account.balance ≤ input.amountMinor then
          .answer (.failure 422 "Insufficient balance")
        else
          let exceedsVelocityLimit :=
            decide ((db.recent account.userId countFrom).length + 1 > d.config.MAX_TXN)
          let exceedsAmountLimit :=
            decide (totalTxnAmount input (Sql.debitSum db account.userId amtFrom) >
              d.config.FRAUD_TXN_AMOUNT)
          if exceedsVelocityLimit || exceedsAmountLimit then
            .block (blockReason exceedsVelocityLimit exceedsAmountLimit)
          else .settle account

/-- The row that the request inserts with the ninth statement. -/
def insertedRow (env : Nat → Env Supply) : Transaction :=
  newTransaction input (env 8).supply.id (env 7).now (env 8).now

/-- The answer to a request after its decision. -/
def Decision.result (env : Nat → Env Supply) : Decision → TransactionResult
  | .answer result => result
  | .block _ => .failure 422 "Invalid transaction"
  | .settle _ => .success 201 (toTransactionResponse (insertedRow input env) none)

/-- What a request leaves after its decision. -/
def Decision.write (ipAddress : Option String) (env : Nat → Env Supply) (db : Database) :
    Decision → Database
  | .answer _ => db
  | .block reason =>
    ((db.addTransaction (insertedRow input env)).setStatus input.transactionId
      .BLOCKED).addOutboxEvent ((blockedEvent input (insertedRow input env) ipAddress reason).row
        (env 10).supply.id (env 10).now)
  | .settle account =>
    let balanceAfter := newBalance input.type account.balance input.amountMinor
    ((db.addTransaction (insertedRow input env)).setBalance input.accountId
      balanceAfter).addOutboxEvent ((completedEvent input (insertedRow input env) balanceAfter
        ipAddress).row (env 10).supply.id (env 10).now)

/-- No row has an identifier that the environment generates. -/
structure Generates (env : Nat → Env Supply) (db : Database) : Prop where
  transaction : ∀ n, ∀ t ∈ db.transactions.rows, t.id ≠ (env n).supply.id
  outboxEvent : ∀ n, db.outboxEvents.find? (env n).supply.id = none

variable {d input auth} {env : Nat → Env Supply} {db : Database} {ipAddress : Option String}

/-- The insert of a request under an unused `transactionId` and a new identifier succeeds. -/
theorem createTransaction_new {account : Account}
    (haccount : db.accounts.find? input.accountId = some account)
    (hfresh : db.transactions.find? input.transactionId = none) {e : Env Supply}
    (hid : ∀ t ∈ db.transactions.rows, t.id ≠ e.supply.id) (authorizedAt : Date) :
    (Sql.createTransaction input.transactionId input.accountId input.type input.amountMinor
      .COMPLETED authorizedAt).result e db =
      some (newTransaction input e.supply.id authorizedAt e.now) := by
  have hall : db.transactions.rows.all (fun t ↦ t.id ≠ e.supply.id) = true := by
    simpa using hid
  simp only [Sql.createTransaction, hfresh, haccount, hall]
  rfl

/-- A blocked request updates its row and writes its event. -/
private theorem perform_block (hevent : db.outboxEvents.find? (env 10).supply.id = none)
    (hfresh : db.transactions.find? input.transactionId = none) (reason : String) :
    (block input ipAddress (insertedRow input env) reason >>= fun result ↦
      (.commit (.pure result) : Process TransactionResult)).perform env 9
        (fun x ↦ x.addTransaction (insertedRow input env)) db =
      (some (.failure 422 "Invalid transaction"),
        (Decision.block reason).write input ipAddress env db) := by
  have hrow : (db.transactions.insert (insertedRow input env)).find? input.transactionId =
      some (insertedRow input env) :=
    Table.find?_insert_self (r := insertedRow input env) hfresh
  simp only [block, Tx.bind_assoc]
  rw [Tx.perform_bind (b := ()) (by simp [Sql.updateTransactionStatus, hrow]),
    Tx.perform_bind (b := ())]
  · rfl
  · simp [Sql.createOutboxEvent, Sql.updateTransactionStatus, hevent]

/-- A settled request writes the balance and its event. -/
private theorem perform_settle (hevent : db.outboxEvents.find? (env 10).supply.id = none)
    {account : Account} (haccount : db.accounts.find? input.accountId = some account) :
    (settle input ipAddress account (insertedRow input env) >>= fun result ↦
      (.commit (.pure result) : Process TransactionResult)).perform env 9
        (fun x ↦ x.addTransaction (insertedRow input env)) db =
      (some (.success 201 (toTransactionResponse (insertedRow input env) none)),
        (Decision.settle account).write input ipAddress env db) := by
  simp only [settle, Tx.bind_assoc]
  rw [Tx.perform_bind (b := ()) (by simp [Sql.updateAccountBalance, haccount]),
    Tx.perform_bind (b := ())]
  · rfl
  · simp [Sql.createOutboxEvent, Sql.updateAccountBalance, hevent]

/-- A request that runs alone answers and leaves what it has decided. -/
private theorem perform_createInTransaction
    (hid : ∀ t ∈ db.transactions.rows, t.id ≠ (env 8).supply.id)
    (hevent : db.outboxEvents.find? (env 10).supply.id = none) :
    (Tx.transaction (createInTransaction d input ipAddress auth)).perform env 0 id db =
      let decided := decision d input auth ((env 3).now - 60000) ((env 5).now - 60000) db
      (some (decided.result input env), decided.write input ipAddress env db) := by
  unfold Tx.transaction createInTransaction
  simp only [Tx.bind_assoc]
  rw [Tx.perform_select (b := Sql.liveAccount db input.accountId) rfl rfl]
  dsimp only [decision]
  cases hlive : Sql.liveAccount db input.accountId with
  | none => rfl
  | some account =>
    obtain ⟨haccount, -⟩ := Sql.liveAccount_eq_some.mp hlive
    dsimp only
    cases refusal input auth account with
    | some result => rfl
    | none =>
      simp only [Tx.bind_assoc]
      rw [Tx.perform_select rfl rfl,
        Tx.perform_select (b := db.transactions.find? input.transactionId) rfl rfl]
      cases hexisting : db.transactions.find? input.transactionId with
      | some existingTxn => rfl
      | none =>
        dsimp only
        split
        · rfl
        · simp only [applyFraudRules, Tx.bind_assoc]
          obtain ⟨amt, hamt⟩ : ∃ amt, (Sql.sumDebits account.userId ((env 5).now - 60000)).result
              (env 6) db = some amt := ⟨_, rfl⟩
          rw [Tx.perform_select rfl rfl,
            Tx.perform_select (b := (db.recent account.userId ((env 3).now - 60000)).length) rfl
              rfl,
            Tx.perform_select rfl rfl, Tx.perform_select rfl hamt, Tx.perform_select rfl rfl,
            Tx.perform_bind (createTransaction_new haccount hexisting hid _),
            Sql.sumDebits_result hamt]
          split
          · exact perform_block hevent hexisting _
          · exact perform_settle hevent haccount

/-- The decision of a request. -/
def decisionOf (d : Deployment) (input : CreateTransactionInput) (request : Request)
    (env : Nat → Env Supply) (db : Database) : Decision :=
  match request.auth with
  | none => .answer (.failure 401 "Authentication required")
  | some auth => decision d input auth ((env 3).now - 60000) ((env 5).now - 60000) db

/-- A request that runs alone answers and leaves what it has decided, if the two identifiers that
it inserts are new. -/
theorem perform_create_of {request : Request}
    (hid : ∀ t ∈ db.transactions.rows, t.id ≠ (env 8).supply.id)
    (hevent : db.outboxEvents.find? (env 10).supply.id = none) :
    (create d input request).perform env 0 id db =
      (some ((decisionOf d input request env db).result input env),
        (decisionOf d input request env db).write input request.ipAddress env db) := by
  unfold create decisionOf
  cases request.auth with
  | none => rfl
  | some auth => exact perform_createInTransaction hid hevent

/-- The same when all generated identifiers are new. -/
theorem perform_create {request : Request} (hnew : Generates env db) :
    (create d input request).perform env 0 id db =
      (some ((decisionOf d input request env db).result input env),
        (decisionOf d input request env db).write input request.ipAddress env db) :=
  perform_create_of (hnew.transaction 8) (hnew.outboxEvent 10)

/-! ### What a decision says -/

/-- A request fails, answers by the row under its `transactionId`, or has found its account and no
such row and inserts one. -/
theorem decisionOf_cases {request : Request} {decided : Decision}
    (h : decisionOf d input request env db = decided) :
    (∃ statusCode message, decided = .answer (.failure statusCode message)) ∨
      (∃ t, db.transactions.find? input.transactionId = some t ∧
        decided = .answer (answerExisting input t)) ∨
      ∃ account, db.accounts.find? input.accountId = some account ∧
        db.transactions.find? input.transactionId = none ∧
        ((∃ reason, decided = .block reason) ∨ decided = .settle account) := by
  subst h
  unfold decisionOf
  split
  · exact .inl ⟨_, _, rfl⟩
  · next auth _ =>
    unfold decision
    split
    · exact .inl ⟨_, _, rfl⟩
    · next account hlive =>
      obtain ⟨haccount, -⟩ := Sql.liveAccount_eq_some.mp hlive
      split
      · next hrefused =>
        obtain ⟨statusCode, message, rfl, -⟩ := refusal_eq_some hrefused
        exact .inl ⟨_, _, rfl⟩
      · split
        · next t ht => exact .inr (.inl ⟨t, ht, rfl⟩)
        · next hfresh =>
          split
          · exact .inl ⟨_, _, rfl⟩
          · refine .inr (.inr ⟨account, haccount, hfresh, ?_⟩)
            dsimp only
            split
            · exact .inl ⟨_, rfl⟩
            · exact .inr rfl

/-! ### What an insert makes of each table -/

/-- What a request inserts after its decision: its row, its event, and a balance or none. -/
structure Insertion where
  row : Transaction
  event : OutboxEvent
  balance : Option Int

/-- Insert. -/
def Insertion.apply (i : Insertion) (db : Database) : Database where
  accounts := i.balance.elim db.accounts fun balance ↦
    (db.setBalance i.row.accountId balance).accounts
  transactions := db.transactions.insert i.row
  ledgerEntries := db.ledgerEntries
  outboxEvents := db.outboxEvents.insert i.event
  processedEvents := db.processedEvents

/-- What a decision inserts. -/
def Decision.insertion (input : CreateTransactionInput) (ipAddress : Option String)
    (env : Nat → Env Supply) : Decision → Option Insertion
  | .answer _ => none
  | .block reason => some
    { row := { insertedRow input env with status := .BLOCKED }
      event := (blockedEvent input (insertedRow input env) ipAddress reason).row
        (env 10).supply.id (env 10).now
      balance := none }
  | .settle account => some
    { row := insertedRow input env
      event := (completedEvent input (insertedRow input env)
        (newBalance input.type account.balance input.amountMinor) ipAddress).row
          (env 10).supply.id (env 10).now
      balance := some (newBalance input.type account.balance input.amountMinor) }

/-- A decision leaves what it inserts. -/
theorem write_eq_insertion {request : Request} {decided : Decision}
    (h : decisionOf d input request env db = decided) :
    decided.write input request.ipAddress env db =
      (decided.insertion input request.ipAddress env).elim db (fun i ↦ i.apply db) := by
  obtain ⟨_, _, rfl⟩ | ⟨t, -, rfl⟩ | ⟨account, -, hfresh, ⟨reason, rfl⟩ | rfl⟩ := decisionOf_cases h
  · rfl
  · rfl
  · have hstatus := Database.setStatus_addTransaction (t := insertedRow input env) hfresh .BLOCKED
    exact congrArg (Database.addOutboxEvent _) hstatus
  · rfl

end Banking
