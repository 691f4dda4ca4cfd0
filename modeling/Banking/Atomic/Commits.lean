import Banking.Relational.Guarantee
import Banking.System.Calls

/-!
# Commits as single steps

The abstract model: what one committed transaction does to the committed database, with all
its guards evaluated at the moment of the commit. `Commits d call own` relates the databases
around a commit of `call` by a process that owns the locks `own`. Nothing here speaks of
statements; that the statements of the calls commit nothing else is the refinement theorem.
-/

namespace Banking

open Js (Date)
open Relational (Table)

/-! ### The traces of one transaction -/

/-- The transaction that a fresh request inserts. -/
def newTransaction (input : CreateTransactionInput) (id : String) (authorizedAt createdAt : Date) :
    Transaction :=
  ⟨id, input.transactionId, input.accountId, input.type, input.amountMinor, .COMPLETED,
    some authorizedAt, createdAt⟩

/-- The transaction is what the input asked for. -/
structure Requested (input : CreateTransactionInput) (t : Transaction) : Prop where
  transactionId : input.transactionId = t.transactionId
  accountId : input.accountId = t.accountId
  type : input.type = t.type
  amount : input.amountMinor = t.amount

/-- `e` is the `TransactionCompleted` event of `t`, which left the balance `balance`. -/
def IsCompletedEvent (t : Transaction) (balance : Int) (e : OutboxEvent) : Prop :=
  ∃ input ipAddress, Requested input t ∧
    e.toOutboxEventData = completedEvent input t balance ipAddress

/-- `e` is the `TransactionBlocked` event of `t`. -/
def IsBlockedEvent (t : Transaction) (e : OutboxEvent) : Prop :=
  ∃ input ipAddress reason, Requested input t ∧
    e.toOutboxEventData = blockedEvent input t ipAddress reason

/-- The payload fields that the ledger worker copies. -/
def movement (t : Transaction) (balance : Int) : TransactionCompletedPayload where
  transactionId := t.transactionId
  accountId := t.accountId
  txnType := t.type
  amount := toString t.amount
  balanceAfter := toString balance
  ipAddress := none
  deviceFingerprint := none

/-- `e` is the `LedgerUpdated` event of `t`. -/
def IsLedgerUpdatedEvent (t : Transaction) (balance : Int) (e : OutboxEvent) : Prop :=
  e.toOutboxEventData = Ledger.ledgerUpdatedEvent (movement t balance)

/-- `e` is the `TransactionFinalized` event of `t`. -/
def IsFinalizedEvent (t : Transaction) (balance : Int) (e : OutboxEvent) : Prop :=
  e.toOutboxEventData = Finalization.finalizedEvent
    ⟨t.transactionId, t.accountId, t.type, toString t.amount, toString balance⟩

/-- `e` is a `TransactionCompensated` event of `t`. -/
def IsCompensatedEvent (t : Transaction) (e : OutboxEvent) : Prop :=
  ∃ balance, e.toOutboxEventData = Finalization.compensatedEvent t balance

/-- `l` is the ledger entry of `t`. -/
structure IsEntry (t : Transaction) (balance : Int) (l : LedgerEntry) : Prop where
  transactionId : l.transactionId = t.transactionId
  accountId : l.accountId = t.accountId
  type : l.type = t.type
  amount : l.amount = t.amount
  balanceAfter : l.balanceAfter = balance

/-! ### The steps -/

/-- The consumer has not recorded the event, and the process may record it. -/
structure Unprocessed (own : Lock → Prop) (db : Database) (p : ProcessedEvent) : Prop where
  absent : db.processedEvents.find? (p.consumerName, p.eventId) = none
  owned : own (.processedEvent p.consumerName p.eventId)

/-- `e` is a new row, the outbox has none with its identifier, and the process may insert it. -/
structure Unsent (own : Lock → Prop) (db : Database) (e : OutboxEvent) : Prop where
  absent : db.outboxEvents.find? e.id = none
  owned : own (.outboxEventPk e.id)
  new : ∃ (data : OutboxEventData) (id : String) (now : Date), e = data.row id now

/-- A request that passes the checks of the account, the caller and the balance, with the locks
that it then holds. -/
structure Accepted (d : Deployment) (input : CreateTransactionInput) (request : Request)
    (own : Lock → Prop) (db : Database) (account : Account) : Prop where
  found : db.accounts.find? input.accountId = some account
  live : account.deletedAt = none
  allowed : ∃ auth, request.auth = some auth ∧ refusal input auth account = none
  funded : input.type = .DEBIT → input.amountMinor < account.balance
  ownAccount : own (.account input.accountId)
  ownAdvisory : own (.advisory (d.hashtextextended account.userId))

/-- An accepted request that inserts `row` under an unused `transactionId`. -/
structure Admitted (d : Deployment) (input : CreateTransactionInput) (request : Request)
    (own : Lock → Prop) (db : Database) (account : Account) (row : Transaction) : Prop
    extends Accepted d input request own db account where
  fresh : db.transactions.find? input.transactionId = none
  inserted : ∃ id authorizedAt createdAt, row = newTransaction input id authorizedAt createdAt
  ownTransactionId : own (.transactionId input.transactionId)

/-- An admitted request within both fraud limits. The aggregates start no later than a minute
before the insert. -/
structure Cleared (d : Deployment) (input : CreateTransactionInput) (request : Request)
    (own : Lock → Prop) (db : Database) (account : Account) (row : Transaction) : Prop
    extends Admitted d input request own db account row where
  velocity : ∃ countFrom : Date, countFrom + 60000 ≤ row.createdAt ∧
    (db.recent account.userId countFrom).length + 1 ≤ d.config.MAX_TXN
  amount : ∃ amtFrom : Date, amtFrom + 60000 ≤ row.createdAt ∧
    totalTxnAmount input (Sql.debitSum db account.userId amtFrom) ≤ d.config.FRAUD_TXN_AMOUNT

/-- One committed transaction. -/
inductive Commits (d : Deployment) : Call → (Lock → Prop) → Database → Database → Prop
  /-- A request moves the balance. -/
  | complete {input request own db account row event}
      (h : Cleared d input request own db account row)
      (hevent : event.toOutboxEventData = completedEvent input row
        (newBalance input.type account.balance row.amount) request.ipAddress)
      (hunsent : Unsent own db event) :
      Commits d (.create input request) own db
        (((db.addTransaction row).setBalance input.accountId
          (newBalance input.type account.balance row.amount)).addOutboxEvent event)
  /-- A request is blocked by the fraud rules. -/
  | block {input request own db account row event reason}
      (h : Admitted d input request own db account row)
      (hevent : event.toOutboxEventData = blockedEvent input row request.ipAddress reason)
      (hunsent : Unsent own db event) :
      Commits d (.create input request) own db
        ((db.addTransaction { row with status := .BLOCKED }).addOutboxEvent event)
  /-- The ledger worker posts the entry of a completed transaction, whatever its status is. -/
  | post {eventId own db t balance event entry event' processed}
      (hevent : db.outboxEvents.find? eventId = some event)
      (ht : db.transactions.find? t.transactionId = some t)
      (hcompleted : IsCompletedEvent t balance event)
      (hentry : IsEntry t balance entry)
      (hunposted : db.ledgerEntries.find? entry.transactionId = none)
      (hposted : IsLedgerUpdatedEvent t balance event')
      (hunsent : Unsent own db event')
      (hprocessed : processed.eventId = eventId ∧ processed.consumerName = Ledger.CONSUMER_NAME)
      (hunprocessed : Unprocessed own db processed)
      (hlocks : own (.transaction t.transactionId) ∧ own (.ledgerEntry t.transactionId)) :
      Commits d (.ledgerEvent eventId) own db
        (((db.addLedgerEntry entry).addOutboxEvent event').addProcessedEvent processed)
  /-- The ledger worker records an event of another type. -/
  | skip {eventId own db event processed}
      (hevent : db.outboxEvents.find? eventId = some event)
      (htype : event.eventType ≠ "TransactionCompleted")
      (hprocessed : processed.eventId = eventId ∧ processed.consumerName = Ledger.CONSUMER_NAME)
      (hunprocessed : Unprocessed own db processed) :
      Commits d (.ledgerEvent eventId) own db (db.addProcessedEvent processed)
  /-- The finalization worker finalizes a completed transaction with a ledger entry. -/
  | finalize {eventId own db t balance event entry event' processed}
      (hevent : db.outboxEvents.find? eventId = some event)
      (ht : db.transactions.find? t.transactionId = some t)
      (hstatus : t.status = .COMPLETED)
      (hupdated : IsLedgerUpdatedEvent t balance event)
      (hentry : db.ledgerEntries.find? t.transactionId = some entry)
      (hfinalized : IsFinalizedEvent t balance event')
      (hunsent : Unsent own db event')
      (hprocessed : processed.eventId = eventId ∧
        processed.consumerName = Finalization.CONSUMER_NAME)
      (hunprocessed : Unprocessed own db processed)
      (hlock : own (.transaction t.transactionId)) :
      Commits d (.finalizationEvent eventId) own db
        (((db.setStatus t.transactionId .FINALIZED).addOutboxEvent event').addProcessedEvent
          processed)
  /-- The finalization worker records the ledger event of a transaction that is not completed. -/
  | pass {eventId own db t balance event processed}
      (hevent : db.outboxEvents.find? eventId = some event)
      (ht : db.transactions.find? t.transactionId = some t)
      (hstatus : t.status ≠ .COMPLETED)
      (hupdated : IsLedgerUpdatedEvent t balance event)
      (hprocessed : processed.eventId = eventId ∧
        processed.consumerName = Finalization.CONSUMER_NAME)
      (hunprocessed : Unprocessed own db processed) :
      Commits d (.finalizationEvent eventId) own db (db.addProcessedEvent processed)
  /-- The timeout scan reverses a completed transaction without ledger entry. -/
  | compensate {own db t account balance event}
      (ht : db.transactions.find? t.transactionId = some t)
      (hstatus : t.status = .COMPLETED)
      (hentry : db.ledgerEntries.find? t.transactionId = none)
      (haccount : db.accounts.find? t.accountId = some account)
      (hbalance : balance = Finalization.restoredBalance t.type account.balance t.amount)
      (hnonneg : 0 ≤ balance)
      (hevent : event.toOutboxEventData = Finalization.compensatedEvent t balance)
      (hunsent : Unsent own db event)
      (hlocks : own (.transaction t.transactionId) ∧ own (.account t.accountId)) :
      Commits d .timeoutScan own db
        (((db.setBalance t.accountId balance).setStatus t.transactionId .BLOCKED).addOutboxEvent
          event)

/-- Any number of commits by processes that own only locks in `own`. -/
abbrev Evolves (d : Deployment) : (Lock → Prop) → Database → Database → Prop :=
  Relational.Evolves (Commits d)

variable {d : Deployment} {call : Call} {own : Lock → Prop} {db db' : Database}

/-- More locks allow recording the event too. -/
theorem Unprocessed.mono {own' : Lock → Prop} (ho : ∀ l, own l → own' l)
    {p : ProcessedEvent} (h : Unprocessed own db p) : Unprocessed own' db p :=
  ⟨h.absent, ho _ h.owned⟩

/-- More locks allow the insert too. -/
theorem Unsent.mono {own' : Lock → Prop} (ho : ∀ l, own l → own' l) {e : OutboxEvent}
    (h : Unsent own db e) : Unsent own' db e :=
  ⟨h.absent, ho _ h.owned, h.new⟩

/-- More locks accept the request too. -/
theorem Accepted.mono {own' : Lock → Prop} (ho : ∀ l, own l → own' l)
    {input : CreateTransactionInput} {request : Request} {account : Account}
    (h : Accepted d input request own db account) : Accepted d input request own' db account :=
  { h with
    ownAccount := ho _ h.ownAccount
    ownAdvisory := ho _ h.ownAdvisory }

/-- More locks admit the request too. -/
theorem Admitted.mono {own' : Lock → Prop} (ho : ∀ l, own l → own' l)
    {input : CreateTransactionInput} {request : Request} {account : Account} {row : Transaction}
    (h : Admitted d input request own db account row) :
    Admitted d input request own' db account row :=
  ⟨h.toAccepted.mono ho, h.fresh, h.inserted, ho _ h.ownTransactionId⟩

/-- More locks clear the request too. -/
theorem Cleared.mono {own' : Lock → Prop} (ho : ∀ l, own l → own' l)
    {input : CreateTransactionInput} {request : Request} {account : Account} {row : Transaction}
    (h : Cleared d input request own db account row) :
    Cleared d input request own' db account row :=
  ⟨h.toAdmitted.mono ho, h.velocity, h.amount⟩

/-- Owning more locks never forbids a commit. -/
theorem commits_mono (d : Deployment) : Relational.LockMonotone (Commits d) := by
  intro call own own' b a ho h
  cases h with
  | complete h hevent hunsent =>
    exact .complete (h.mono ho) hevent (hunsent.mono ho)
  | block h hevent hunsent => exact .block (h.mono ho) hevent (hunsent.mono ho)
  | post hevent ht hcompleted hentry hunposted hposted hunsent hprocessed hunprocessed hlocks =>
    exact .post hevent ht hcompleted hentry hunposted hposted (hunsent.mono ho) hprocessed
      (hunprocessed.mono ho) ⟨ho _ hlocks.1, ho _ hlocks.2⟩
  | skip hevent htype hprocessed hunprocessed =>
    exact .skip hevent htype hprocessed (hunprocessed.mono ho)
  | finalize hevent ht hstatus hupdated hentry hfinalized hunsent hprocessed hunprocessed hlock =>
    exact .finalize hevent ht hstatus hupdated hentry hfinalized (hunsent.mono ho) hprocessed
      (hunprocessed.mono ho) (ho _ hlock)
  | pass hevent ht hstatus hupdated hprocessed hunprocessed =>
    exact .pass hevent ht hstatus hupdated hprocessed (hunprocessed.mono ho)
  | compensate ht hstatus hentry haccount hbalance hnonneg hevent hunsent hlocks =>
    exact .compensate ht hstatus hentry haccount hbalance hnonneg hevent (hunsent.mono ho)
      ⟨ho _ hlocks.1, ho _ hlocks.2⟩

/-! ### What a commit does to each table -/

/-- A commit writes at most one balance, of an account it has locked. -/
theorem Commits.accounts (h : Commits d call own db db') :
    db'.accounts = db.accounts ∨
      ∃ id balance, own (.account id) ∧ db'.accounts = (db.setBalance id balance).accounts := by
  cases h with
  | complete h hevent hunsent =>
    exact .inr ⟨_, _, h.ownAccount, rfl⟩
  | compensate ht hstatus hentry haccount hbalance hnonneg hevent hunsent hlocks =>
    exact .inr ⟨_, _, hlocks.2, rfl⟩
  | block h hevent hunsent => exact .inl rfl
  | post => exact .inl rfl
  | skip => exact .inl rfl
  | finalize => exact .inl rfl
  | pass => exact .inl rfl

/-- A commit inserts one fresh transaction under the locks of its owner, finalizes one with a
ledger entry, reverses one without, or leaves the table alone. -/
theorem Commits.transactions (h : Commits d call own db db') :
    db'.transactions = db.transactions ∨
    (∃ (row : Transaction) (account : Account),
      db.transactions.find? row.transactionId = none ∧ own (.transactionId row.transactionId) ∧
      db.accounts.find? row.accountId = some account ∧
      own (.advisory (d.hashtextextended account.userId)) ∧
      db'.transactions = db.transactions.insert row) ∨
    ∃ (t : Transaction) (status : TransactionStatus),
      db.transactions.find? t.transactionId = some t ∧ t.status = .COMPLETED ∧
      own (.transaction t.transactionId) ∧
      (status = .FINALIZED ∧ (db.ledgerEntries.find? t.transactionId).isSome ∨
        status = .BLOCKED ∧ db.ledgerEntries.find? t.transactionId = none) ∧
      db'.transactions = (db.setStatus t.transactionId status).transactions := by
  cases h with
  | complete h hevent hunsent =>
    obtain ⟨id, authorizedAt, createdAt, rfl⟩ := h.inserted
    exact .inr (.inl ⟨_, _, h.fresh, h.ownTransactionId, h.found, h.ownAdvisory, rfl⟩)
  | block h hevent hunsent =>
    obtain ⟨id, authorizedAt, createdAt, rfl⟩ := h.inserted
    exact .inr (.inl ⟨_, _, h.fresh, h.ownTransactionId, h.found, h.ownAdvisory, rfl⟩)
  | post => exact .inl rfl
  | skip => exact .inl rfl
  | finalize hevent ht hstatus hupdated hentry hfinalized hunsent hprocessed hunprocessed hlock =>
    exact .inr (.inr ⟨_, _, ht, hstatus, hlock, .inl ⟨rfl, by simp [hentry]⟩, rfl⟩)
  | pass => exact .inl rfl
  | compensate ht hstatus hentry haccount hbalance hnonneg hevent hunsent hlocks =>
    exact .inr (.inr ⟨_, _, ht, hstatus, hlocks.1, .inr ⟨rfl, hentry⟩, rfl⟩)

/-- A request that commits a change inserts what it asked for under an unused
`transactionId`. -/
theorem Commits.created {input : CreateTransactionInput} {request : Request}
    (h : Commits d (.create input request) own db db') :
    db.transactions.find? input.transactionId = none ∧
      ∃ row, db'.transactions.find? input.transactionId = some row ∧ Requested input row := by
  cases h with
  | complete h hevent hunsent =>
    have hfresh := h.fresh
    obtain ⟨id, authorizedAt, createdAt, rfl⟩ := h.inserted
    refine ⟨hfresh, newTransaction input id authorizedAt createdAt, ?_, ⟨rfl, rfl, rfl, rfl⟩⟩
    exact Table.find?_insert_self (r := newTransaction input id authorizedAt createdAt) hfresh
  | block h hevent hunsent =>
    have hfresh := h.fresh
    obtain ⟨id, authorizedAt, createdAt, rfl⟩ := h.inserted
    refine ⟨hfresh, { newTransaction input id authorizedAt createdAt with status := .BLOCKED }, ?_,
      ⟨rfl, rfl, rfl, rfl⟩⟩
    exact Table.find?_insert_self
      (r := { newTransaction input id authorizedAt createdAt with status := .BLOCKED }) hfresh

/-- A commit inserts at most one fresh ledger entry, of a transaction it has locked. -/
theorem Commits.ledgerEntries (h : Commits d call own db db') :
    db'.ledgerEntries = db.ledgerEntries ∨
    ∃ l : LedgerEntry, db.ledgerEntries.find? l.transactionId = none ∧
      (db.transactions.find? l.transactionId).isSome ∧
      own (.ledgerEntry l.transactionId) ∧ own (.transaction l.transactionId) ∧
      db'.ledgerEntries = db.ledgerEntries.insert l := by
  cases h with
  | post hevent ht hcompleted hentry hunposted hposted hunsent hprocessed hunprocessed hlocks =>
    refine .inr ⟨_, hunposted, ?_, ?_, ?_, rfl⟩
    · simp [hentry.transactionId, ht]
    · rw [hentry.transactionId]
      exact hlocks.2
    · rw [hentry.transactionId]
      exact hlocks.1
  | complete => exact .inl rfl
  | block => exact .inl rfl
  | skip => exact .inl rfl
  | finalize => exact .inl rfl
  | pass => exact .inl rfl
  | compensate => exact .inl rfl

/-- A commit inserts at most one outbox row, a new one under a fresh identifier. -/
theorem Commits.outboxEvents (h : Commits d call own db db') :
    db'.outboxEvents = db.outboxEvents ∨
    ∃ e : OutboxEvent, Unsent own db e ∧ db'.outboxEvents = db.outboxEvents.insert e := by
  cases h with
  | complete h hevent hunsent =>
    exact .inr ⟨_, hunsent, rfl⟩
  | block h hevent hunsent => exact .inr ⟨_, hunsent, rfl⟩
  | post hevent ht hcompleted hentry hunposted hposted hunsent hprocessed hunprocessed hlocks =>
    exact .inr ⟨_, hunsent, rfl⟩
  | finalize hevent ht hstatus hupdated hentry hfinalized hunsent hprocessed hunprocessed hlock =>
    exact .inr ⟨_, hunsent, rfl⟩
  | compensate ht hstatus hentry haccount hbalance hnonneg hevent hunsent hlocks =>
    exact .inr ⟨_, hunsent, rfl⟩
  | skip => exact .inl rfl
  | pass => exact .inl rfl

/-- A commit records at most one processed event, which was not recorded before. -/
theorem Commits.processedEvents (h : Commits d call own db db') :
    db'.processedEvents = db.processedEvents ∨
    ∃ p : ProcessedEvent, db.processedEvents.find? (p.consumerName, p.eventId) = none ∧
      own (.processedEvent p.consumerName p.eventId) ∧
      db'.processedEvents = db.processedEvents.insert p := by
  cases h with
  | post hevent ht hcompleted hentry hunposted hposted hunsent hprocessed hunprocessed hlocks =>
    exact .inr ⟨_, hunprocessed.absent, hunprocessed.owned, rfl⟩
  | skip hevent htype hprocessed hunprocessed =>
    exact .inr ⟨_, hunprocessed.absent, hunprocessed.owned, rfl⟩
  | finalize hevent ht hstatus hupdated hentry hfinalized hunsent hprocessed hunprocessed hlock =>
    exact .inr ⟨_, hunprocessed.absent, hunprocessed.owned, rfl⟩
  | pass hevent ht hstatus hupdated hprocessed hunprocessed =>
    exact .inr ⟨_, hunprocessed.absent, hunprocessed.owned, rfl⟩
  | complete => exact .inl rfl
  | block => exact .inl rfl
  | compensate => exact .inl rfl

/-- A completed event that a commit adds is the event of a request that moves a balance. -/
theorem Commits.completed_event (h : Commits d call own db db') {id : String} {e : OutboxEvent}
    (hnew : db.outboxEvents.find? id ≠ some e) (he : db'.outboxEvents.find? id = some e)
    (htype : e.eventType = "TransactionCompleted") :
    ∃ input request account row, call = .create input request ∧
      Cleared d input request own db account row ∧
      e.toOutboxEventData = completedEvent input row
        (newBalance input.type account.balance row.amount) request.ipAddress ∧
      db' = ((db.addTransaction row).setBalance input.accountId
        (newBalance input.type account.balance row.amount)).addOutboxEvent e := by
  have inserted : ∀ e' : OutboxEvent, db'.outboxEvents = db.outboxEvents.insert e' → e = e' := by
    intro e' hinsert
    rw [hinsert] at he
    exact (Table.eq_or_of_find?_insert he).resolve_right hnew
  cases h with
  | @complete input request _ _ account row event hclear hevent hunsent =>
    obtain rfl := inserted event rfl
    exact ⟨input, request, account, row, rfl, hclear, hevent, rfl⟩
  | block _ hevent =>
    obtain rfl := inserted _ rfl
    rw [hevent] at htype
    simp [blockedEvent] at htype
  | post _ _ _ _ _ hposted =>
    obtain rfl := inserted _ rfl
    rw [hposted] at htype
    simp [Ledger.ledgerUpdatedEvent] at htype
  | finalize _ _ _ _ _ hfinalized =>
    obtain rfl := inserted _ rfl
    rw [hfinalized] at htype
    simp [Finalization.finalizedEvent] at htype
  | compensate _ _ _ _ _ _ hevent =>
    obtain rfl := inserted _ rfl
    rw [hevent] at htype
    simp [Finalization.compensatedEvent] at htype
  | skip => exact absurd he hnew
  | pass => exact absurd he hnew

end Banking
