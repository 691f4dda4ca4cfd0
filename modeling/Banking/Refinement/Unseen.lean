import Banking.Refinement.System
import Banking.Relational.Frame
import Banking.System.Accounts

/-!
# The engine does not see other accounts

A call that does not name an account does not see whether the account is there, as long as no
transaction is on it: the engine looks up the account that is named, those of transactions, and
those in the events of transactions.
-/

namespace Banking.Accounts

open Relational (Stmt Table Tx)

/-- The account is not there, and no transaction is on it. -/
structure Unused (accountId : String) (db : Database) : Prop where
  account : db.accounts.find? accountId = none
  transactions : ∀ t ∈ db.transactions.rows, t.accountId ≠ accountId

/-- The statement does not see whether the account is there. -/
private abbrev Blind {β : Type} (a : Account) (s : Query β) : Prop :=
  s.Ignores (addAccount a) (Unused a.id)

/-- The program does not see whether the account is there. -/
private abbrev Unseen {α : Type} (a : Account) (p : Process α) : Prop :=
  p.Ignores (addAccount a) (Unused a.id)

variable {d : Deployment} {a : Account} {db : Database} {accountId : String} {β : Type}

/-! ### The statements -/

/-- Other accounts are found as before. -/
private theorem find?_addAccount (hne : accountId ≠ a.id) :
    (addAccount a db).accounts.find? accountId = db.accounts.find? accountId :=
  Table.find?_insert_of_ne _ hne.symm

private theorem liveAccount_addAccount (hne : accountId ≠ a.id) :
    Sql.liveAccount (addAccount a db) accountId = Sql.liveAccount db accountId := by
  rw [Sql.liveAccount, find?_addAccount hne, Sql.liveAccount]

/-- The transactions of a user are on other accounts. -/
private theorem recent_addAccount (hdb : Unused a.id db) (userId : String) (since : Js.Date) :
    (addAccount a db).recent userId since = db.recent userId since := by
  refine List.filter_congr fun t ht ↦ ?_
  rw [Database.owns, Database.owns, find?_addAccount (hdb.transactions t ht)]

/-- A statement that looks at no account and writes neither accounts nor transactions. -/
private theorem blind_other {s : Query β}
    (hlocks : ∀ env db, s.locks env (addAccount a db) = s.locks env db)
    (hresult : ∀ env db, s.result env (addAccount a db) = s.result env db)
    (hwrite : ∀ env db, s.write env (addAccount a db) = s.write env db)
    (hcommutes : ∀ env view db, s.write env view (addAccount a db) =
      addAccount a (s.write env view db))
    (haccounts : ∀ env view db, (s.write env view db).accounts = db.accounts)
    (htransactions : ∀ env view db, (s.write env view db).transactions = db.transactions) :
    Blind a s where
  locks env db _ := hlocks env db
  result env db _ := hresult env db
  write env db _ := hwrite env db
  commutes env view db _ := hcommutes env view db
  apart env view db hdb :=
    ⟨(haccounts env view db).symm ▸ hdb.account,
      (htransactions env view db).symm ▸ hdb.transactions⟩

/-- A statement that looks at no account and writes nothing. -/
private theorem blind_select {s : Query β}
    (hlocks : ∀ env db, s.locks env (addAccount a db) = s.locks env db)
    (hresult : ∀ env db, s.result env (addAccount a db) = s.result env db)
    (hwrite : ∀ env view db, s.write env view db = db) : Blind a s :=
  blind_other hlocks hresult
    (fun env db ↦ funext fun x ↦ (hwrite env _ x).trans (hwrite env db x).symm)
    (fun env view db ↦ by rw [hwrite, hwrite]) (fun env view db ↦ by rw [hwrite])
    fun env view db ↦ by rw [hwrite]

private theorem blind_selectAccountForUpdate (hne : accountId ≠ a.id) :
    Blind a (Sql.selectAccountForUpdate accountId) where
  locks env db _ := by simp only [Sql.selectAccountForUpdate, liveAccount_addAccount hne]
  result env db _ := by simp only [Sql.selectAccountForUpdate, liveAccount_addAccount hne]
  write _ _ _ := rfl
  commutes _ _ _ _ := rfl
  apart _ _ _ hdb := hdb

private theorem blind_selectBalanceForUpdate (hne : accountId ≠ a.id) :
    Blind a (Sql.selectBalanceForUpdate accountId) where
  locks env db _ := by simp only [Sql.selectBalanceForUpdate, find?_addAccount hne]
  result env db _ := by simp only [Sql.selectBalanceForUpdate, find?_addAccount hne]
  write _ _ _ := rfl
  commutes _ _ _ _ := rfl
  apart _ _ _ hdb := hdb

private theorem blind_countTransactions (userId : String) (gte : Js.Date) :
    Blind a (Sql.countTransactions userId gte) where
  locks _ _ _ := rfl
  result env db hdb := by simp only [Sql.countTransactions, recent_addAccount hdb]
  write _ _ _ := rfl
  commutes _ _ _ _ := rfl
  apart _ _ _ hdb := hdb

private theorem blind_sumDebits (userId : String) (gte : Js.Date) :
    Blind a (Sql.sumDebits userId gte) where
  locks _ _ _ := rfl
  result env db hdb := by simp only [Sql.sumDebits, Sql.debitSum, recent_addAccount hdb]
  write _ _ _ := rfl
  commutes _ _ _ _ := rfl
  apart _ _ _ hdb := hdb

private theorem blind_createTransaction (hne : accountId ≠ a.id) (transactionId : String)
    (type : TransactionType) (amount : Int) (status : TransactionStatus) (authorizedAt : Js.Date) :
    Blind a (Sql.createTransaction transactionId accountId type amount status authorizedAt) where
  locks _ _ _ := rfl
  result env db _ := by
    simp only [Sql.createTransaction, find?_addAccount hne]
    rfl
  write _ _ _ := rfl
  commutes _ _ _ _ := rfl
  apart _ _ _ hdb := by
    refine ⟨hdb.account, fun t ht ↦ ?_⟩
    rcases Table.mem_rows_insert ht with rfl | hold
    · exact hne
    · exact hdb.transactions t hold

private theorem blind_updateTransactionStatus (transactionId : String)
    (status : TransactionStatus) : Blind a (Sql.updateTransactionStatus transactionId status) where
  locks _ _ _ := rfl
  result _ _ _ := rfl
  write _ _ _ := rfl
  commutes _ _ _ _ := rfl
  apart env view db hdb := by
    refine ⟨hdb.account, fun t ht ↦ ?_⟩
    have hrows : t ∈ (db.setStatus transactionId status).transactions.rows := ht
    rw [Database.transactions_setStatus, Table.rows_modify] at hrows
    obtain ⟨t', ht', rfl⟩ := List.mem_map.mp hrows
    have hold := hdb.transactions t' ht'
    split <;> exact hold

private theorem blind_updateAccountBalance (hne : accountId ≠ a.id) (balance : Int) :
    Blind a (Sql.updateAccountBalance accountId balance) where
  locks _ _ _ := rfl
  result env db _ := by simp only [Sql.updateAccountBalance, find?_addAccount hne]
  write _ _ _ := rfl
  commutes env view db hdb := by
    have haccounts := Table.modify_insert_of_ne hdb.account hne.symm
      (fun account : Account ↦ { account with balance }) (fun _ ↦ rfl)
    simp only [Sql.updateAccountBalance, Database.setBalance, addAccount, haccounts]
  apart env view db hdb := by
    refine ⟨?_, hdb.transactions⟩
    simp only [Sql.updateAccountBalance, Database.accounts_setBalance]
    rw [Table.find?_modify, if_neg hne.symm, hdb.account]

private theorem blind_createLedgerEntry (hne : accountId ≠ a.id) (transactionId : String)
    (type : TransactionType) (amount balanceAfter : Int) :
    Blind a (Sql.createLedgerEntry transactionId accountId type amount balanceAfter) where
  locks _ _ _ := rfl
  result env db _ := by
    simp only [Sql.createLedgerEntry, find?_addAccount hne]
    rfl
  write _ _ _ := rfl
  commutes _ _ _ _ := rfl
  apart _ _ _ hdb := ⟨hdb.account, hdb.transactions⟩

private theorem blind_createOutboxEvent (data : OutboxEventData) :
    Blind a (Sql.createOutboxEvent data) :=
  blind_other (fun _ _ ↦ rfl) (fun _ _ ↦ rfl) (fun _ _ ↦ rfl) (fun _ _ _ ↦ rfl) (fun _ _ _ ↦ rfl)
    fun _ _ _ ↦ rfl

private theorem blind_createProcessedEvent (consumerName eventId : String) :
    Blind a (Sql.createProcessedEvent consumerName eventId) :=
  blind_other (fun _ _ ↦ rfl) (fun _ _ ↦ rfl) (fun _ _ ↦ rfl) (fun _ _ _ ↦ rfl) (fun _ _ _ ↦ rfl)
    fun _ _ _ ↦ rfl

private theorem unseen_select {s : Query β}
    (hlocks : ∀ env db, s.locks env (addAccount a db) = s.locks env db)
    (hresult : ∀ env db, s.result env (addAccount a db) = s.result env db)
    (hwrite : ∀ env view db, s.write env view db = db) : Unseen a (Tx.query s) :=
  Tx.ignores_query (blind_select hlocks hresult hwrite)

/-! ### The calls -/

private theorem unseen_now : Unseen a (Tx.query Sql.now) :=
  unseen_select (fun _ _ ↦ rfl) (fun _ _ ↦ rfl) fun _ _ _ ↦ rfl

private theorem unseen_applyFraudRules {input : CreateTransactionInput}
    (hne : input.accountId ≠ a.id) (ipAddress : Option String) (accountInfo : Account) :
    Unseen a (applyFraudRules d input ipAddress accountInfo) := by
  unfold applyFraudRules
  refine unseen_now.bind fun _ ↦ (Tx.ignores_query (blind_countTransactions _ _)).bind fun _ ↦
    unseen_now.bind fun _ ↦ (Tx.ignores_query (blind_sumDebits _ _)).bind fun _ ↦
    unseen_now.bind fun _ ↦
    (Tx.ignores_query (blind_createTransaction hne _ _ _ _ _)).bind fun row ↦ ?_
  dsimp only
  split
  · exact (Tx.ignores_query (blind_updateTransactionStatus _ _)).bind fun _ ↦
      (Tx.ignores_query (blind_createOutboxEvent _)).bind fun _ ↦ trivial
  · exact (Tx.ignores_query (blind_updateAccountBalance hne _)).bind fun _ ↦
      (Tx.ignores_query (blind_createOutboxEvent _)).bind fun _ ↦ trivial

/-- A request does not see an account that it does not name. -/
private theorem unseen_create {input : CreateTransactionInput} (hne : input.accountId ≠ a.id)
    (request : Request) : Unseen a (create d input request) := by
  unfold create
  split
  · exact trivial
  · refine Tx.Ignores.transaction ?_
    refine (Tx.ignores_query (blind_selectAccountForUpdate hne)).bind fun account ↦ ?_
    split
    · exact trivial
    split
    · exact trivial
    refine (unseen_select (fun _ _ ↦ rfl) (fun _ _ ↦ rfl) fun _ _ _ ↦ rfl).bind fun _ ↦
      (unseen_select (fun _ _ ↦ rfl) (fun _ _ ↦ rfl) fun _ _ _ ↦ rfl).bind fun existing ↦ ?_
    split
    · exact trivial
    split
    · exact trivial
    · exact unseen_applyFraudRules hne _ _

/-- The ledger worker looks up the account that the payload names. -/
private theorem unseen_ledgerEvent {event : TransactionEvent}
    (hne : event.eventType = "TransactionCompleted" → ∀ parsed,
      transactionCompletedEventSchema (some event.toJson) = some parsed →
      parsed.payload.accountId ≠ a.id) : Unseen a (Ledger.handleEvent event) := by
  refine Tx.Ignores.transaction ((unseen_select (fun _ _ ↦ rfl) (fun _ _ ↦ rfl)
    fun _ _ _ ↦ rfl).bind fun found ↦ ?_)
  have hrecord : Unseen a
      (Tx.query (Sql.createProcessedEvent Ledger.CONSUMER_NAME event.eventId)) :=
    Tx.ignores_query (blind_createProcessedEvent _ _)
  split
  · exact trivial
  split
  · next hcompleted =>
    refine Tx.Ignores.bind ?_ fun _ ↦ hrecord
    unfold Ledger.postEntry
    split
    · exact trivial
    · next parsed hparsed =>
      exact (unseen_select (fun _ _ ↦ rfl) (fun _ _ ↦ rfl) fun _ _ _ ↦ rfl).bind fun _ ↦
        (Tx.ignores_query (blind_createLedgerEntry (hne hcompleted parsed hparsed) _ _ _ _)).bind
          fun _ ↦ Tx.ignores_query (blind_createOutboxEvent _)
  · exact hrecord

/-- The finalization worker looks up no account. -/
private theorem unseen_finalizationEvent (event : TransactionEvent) :
    Unseen a (Finalization.handleEvent event) := by
  have hrecord : Unseen a
      (Tx.query (Sql.createProcessedEvent Finalization.CONSUMER_NAME event.eventId)) :=
    Tx.ignores_query (blind_createProcessedEvent _ _)
  unfold Finalization.handleEvent
  split
  · exact trivial
  split
  · exact trivial
  refine Tx.Ignores.transaction ((unseen_select (fun _ _ ↦ rfl) (fun _ _ ↦ rfl)
    fun _ _ _ ↦ rfl).bind fun found ↦ ?_)
  split
  · exact trivial
  refine (unseen_select (fun _ _ ↦ rfl) (fun _ _ ↦ rfl) fun _ _ _ ↦ rfl).bind fun transaction ↦ ?_
  split
  · exact trivial
  split
  · exact (Tx.ignores_query (blind_updateTransactionStatus _ _)).bind fun _ ↦
      (Tx.ignores_query (blind_createOutboxEvent _)).bind fun _ ↦ hrecord
  · exact hrecord

/-- A reversal looks up the account of the transaction that it has read. -/
private theorem unseen_compensateInTransaction (candidate : String) :
    Unseen a (Finalization.compensateInTransaction candidate) := by
  refine Tx.Ignores.query_bind
    (blind_select (fun _ _ ↦ rfl) (fun _ _ ↦ rfl) fun _ _ _ ↦ rfl) fun env view found hview hr ↦ ?_
  cases found with
  | none => exact trivial
  | some transaction =>
    obtain ⟨hrow, -⟩ := Sql.selectCompletedForUpdate_result hr
    have hne : transaction.accountId ≠ a.id :=
      hview.transactions transaction (Table.mem_of_find? hrow)
    refine (unseen_select (fun _ _ ↦ rfl) (fun _ _ ↦ rfl) fun _ _ _ ↦ rfl).bind fun entry ↦ ?_
    split
    · exact trivial
    refine (Tx.ignores_query (blind_selectBalanceForUpdate hne)).bind fun balance ↦ ?_
    split
    · exact trivial
    dsimp only
    split
    · exact trivial
    · exact (Tx.ignores_query (blind_updateAccountBalance hne _)).bind fun _ ↦
        (Tx.ignores_query (blind_updateTransactionStatus _ _)).bind fun _ ↦
        Tx.ignores_query (blind_createOutboxEvent _)

private theorem unseen_compensateEach (candidates : List String) :
    Unseen a (Finalization.compensateEach candidates) := by
  induction candidates with
  | nil => exact trivial
  | cons candidate rest ih =>
    exact (unseen_compensateInTransaction candidate).transaction.bind fun _ ↦ ih

/-- A completed event that is delivered names the account of a transaction. -/
private theorem ne_of_delivered (hc : Consistent db) (hdb : Unused a.id db) {eventId : String}
    {event : TransactionEvent} (hd : delivered db eventId = some event)
    (hcompleted : event.eventType = "TransactionCompleted")
    {parsed : EventOf TransactionCompletedPayload}
    (hparsed : transactionCompletedEventSchema (some event.toJson) = some parsed) :
    parsed.payload.accountId ≠ a.id := by
  obtain ⟨row, hrow, -, htype, hpayload⟩ := hc.delivered hd
  obtain ⟨t, balance, ht, input, ip, hreq, hdata⟩ :=
    hc.completedEvent hrow (htype.symm.trans hcompleted)
  obtain ⟨-, -, hbody⟩ := eventSchema_eq_some hparsed
  have hbody : transactionCompletedPayloadSchema
      (some (completedEvent input t balance ip).payload) = some parsed.payload := by
    rw [← hdata, hpayload]
    exact hbody
  obtain ⟨-, hmove⟩ := completedEvent_parsed hreq hbody
  have haccount : parsed.payload.accountId = t.accountId :=
    congrArg TransactionCompletedPayload.accountId hmove
  exact haccount ▸ hdb.transactions t (Table.mem_of_find? ht)

/-- A call that does not name the account begins alike with and without it, and does not see it. -/
theorem begins_unseen (hc : Consistent db) (hdb : Unused a.id db) {call : Call}
    (hnames : ¬ Names a.id call) {program : Process Reply}
    (hb : begins d call db = some program) :
    begins d call (addAccount a db) = some program ∧
      program.Ignores (addAccount a) (Unused a.id) := by
  refine ⟨by cases call <;> exact hb, ?_⟩
  cases call with
  | create input request =>
    cases hb
    exact (unseen_create hnames request).bind fun _ ↦ trivial
  | ledgerEvent eventId =>
    obtain ⟨event, hd, rfl⟩ := Option.map_eq_some_iff.mp hb
    exact (unseen_ledgerEvent fun hcompleted parsed hparsed ↦
      ne_of_delivered hc hdb hd hcompleted hparsed).bind fun _ ↦ trivial
  | finalizationEvent eventId =>
    obtain ⟨event, -, rfl⟩ := Option.map_eq_some_iff.mp hb
    exact (unseen_finalizationEvent event).bind fun _ ↦ trivial
  | timeoutScan =>
    cases hb
    exact (unseen_now.bind fun _ ↦ (unseen_select (fun _ _ ↦ rfl) (fun _ _ ↦ rfl)
      fun _ _ _ ↦ rfl).bind fun _ ↦ unseen_compensateEach _).bind fun _ ↦ trivial

end Banking.Accounts
