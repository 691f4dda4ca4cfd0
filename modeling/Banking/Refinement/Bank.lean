import Banking.Atomic.Payloads
import Banking.Bank.Model

/-!
# The engine is a bank

Every commit of the engine is one operation of the bank, or changes nothing that the bank knows. The
event that it adds to the outbox says which: read in the order of the commits, the outbox is the log
of a bank, and that bank has the balances, the transactions and the ledger of the database.
-/

namespace Banking

open Bank (Allowed Movement Operation Payment Posting)
open Relational (Table)

/-! ### What the outbox says -/

/-- The movement that a payload describes. -/
def payloadMovement (payload : Json) : Option (Movement String) := do
  let account ← Zod.string (payloadField "accountId" payload)
  let type ← transactionTypeSchema (payloadField "txnType" payload)
  let amount ← payloadNumber "amount" payload
  return ⟨account, type, amount⟩

/-- The posting that a payload describes. -/
def payloadPosting (payload : Json) : Option (Posting String) := do
  let movement ← payloadMovement payload
  let balanceAfter ← payloadNumber "balanceAfter" payload
  return ⟨movement, balanceAfter⟩

/-- The operation that an outbox row records. -/
def OutboxEventData.operation (data : OutboxEventData) : Option (Operation String String) :=
  if data.eventType = "TransactionCompleted" then do
    let posting ← payloadPosting data.payload
    return .settle data.transactionId posting.movement posting.balanceAfter
  else if data.eventType = "TransactionBlocked" then do
    let movement ← payloadMovement data.payload
    return .refuse data.transactionId movement
  else if data.eventType = "LedgerUpdated" then do
    let posting ← payloadPosting data.payload
    return .post data.transactionId posting
  else if data.eventType = "TransactionFinalized" then do
    let posting ← payloadPosting data.payload
    return .finalize data.transactionId posting
  else if data.eventType = "TransactionCompensated" then do
    let account ← Zod.string (payloadField "accountId" data.payload)
    let amount ← payloadNumber "amount" data.payload
    let balanceAfter ← payloadNumber "balanceAfter" data.payload
    return .giveBack data.transactionId account amount balanceAfter
  else none

/-- The movement of a transaction. -/
def Transaction.movement (t : Transaction) : Movement String := ⟨t.accountId, t.type, t.amount⟩

/-- The posting of a ledger entry. -/
def LedgerEntry.posting (l : LedgerEntry) : Posting String :=
  ⟨⟨l.accountId, l.type, l.amount⟩, l.balanceAfter⟩

/-- A type is read back from its label. -/
private theorem type_of_label (type : TransactionType) :
    transactionTypeSchema (some (.str type.label)) = some type := by
  cases type <;> rfl

variable {e : OutboxEvent} {t : Transaction} {balance : Int}

/-- A payload with the fields of a transaction describes its movement. -/
private theorem payloadMovement_eq {payload : Json} (hamount : 0 ≤ t.amount)
    (ha : payloadField "accountId" payload = some (.str t.accountId))
    (ht : payloadField "txnType" payload = some (.str t.type.label))
    (hn : payloadField "amount" payload = some (.str (toString t.amount))) :
    payloadMovement payload = some t.movement := by
  rw [payloadMovement, ha, ht, type_of_label, payloadNumber_toString hamount hn]
  rfl

/-- A payload with the fields of a transaction and a balance describes its posting. -/
private theorem payloadPosting_eq {payload : Json} (hamount : 0 ≤ t.amount) (hbalance : 0 ≤ balance)
    (ha : payloadField "accountId" payload = some (.str t.accountId))
    (ht : payloadField "txnType" payload = some (.str t.type.label))
    (hn : payloadField "amount" payload = some (.str (toString t.amount)))
    (hb : payloadField "balanceAfter" payload = some (.str (toString balance))) :
    payloadPosting payload = some ⟨t.movement, balance⟩ := by
  rw [payloadPosting, payloadMovement_eq hamount ha ht hn, payloadNumber_toString hbalance hb]
  rfl

/-- A completed event records the settlement of its transaction. -/
theorem IsCompletedEvent.operation (h : IsCompletedEvent t balance e) (hamount : 0 ≤ t.amount)
    (hbalance : 0 ≤ balance) :
    e.toOutboxEventData.operation = some (.settle t.transactionId t.movement balance) := by
  have htype := h.eventType
  have htid := h.transactionId
  obtain ⟨input, ip, -, he⟩ := h
  have hposting : payloadPosting e.payload = some ⟨t.movement, balance⟩ := by
    rw [he]
    exact payloadPosting_eq hamount hbalance rfl rfl rfl rfl
  simp [OutboxEventData.operation, htype, htid, hposting]

/-- A blocked event records the refusal of its transaction. -/
theorem IsBlockedEvent.operation (h : IsBlockedEvent t e) (hamount : 0 ≤ t.amount) :
    e.toOutboxEventData.operation = some (.refuse t.transactionId t.movement) := by
  have htype := h.eventType
  have htid := h.transactionId
  obtain ⟨input, ip, reason, -, he⟩ := h
  have hmovement : payloadMovement e.payload = some t.movement := by
    rw [he]
    exact payloadMovement_eq hamount rfl rfl rfl
  simp [OutboxEventData.operation, htype, htid, hmovement]

/-- A ledger event records the posting of its transaction. -/
theorem IsLedgerUpdatedEvent.operation (h : IsLedgerUpdatedEvent t balance e)
    (hamount : 0 ≤ t.amount) (hbalance : 0 ≤ balance) :
    e.toOutboxEventData.operation = some (.post t.transactionId ⟨t.movement, balance⟩) := by
  have htype := h.eventType
  have htid := h.transactionId
  have hposting : payloadPosting e.payload = some ⟨t.movement, balance⟩ := by
    rw [h]
    exact payloadPosting_eq hamount hbalance rfl rfl rfl rfl
  simp [OutboxEventData.operation, htype, htid, hposting]

/-- A finalized event records the finality of its transaction. -/
theorem IsFinalizedEvent.operation (h : IsFinalizedEvent t balance e) (hamount : 0 ≤ t.amount)
    (hbalance : 0 ≤ balance) :
    e.toOutboxEventData.operation = some (.finalize t.transactionId ⟨t.movement, balance⟩) := by
  have htype := h.eventType
  have htid := h.transactionId
  have hposting : payloadPosting e.payload = some ⟨t.movement, balance⟩ := by
    rw [h]
    exact payloadPosting_eq hamount hbalance rfl rfl rfl rfl
  simp [OutboxEventData.operation, htype, htid, hposting]

/-- A compensated event records that its transaction was given back. -/
theorem compensatedEvent_operation (hamount : 0 ≤ t.amount) (hbalance : 0 ≤ balance)
    (h : e.toOutboxEventData = Finalization.compensatedEvent t balance) :
    e.toOutboxEventData.operation =
      some (.giveBack t.transactionId t.accountId t.amount balance) := by
  have hcompensated : IsCompensatedEvent t e := ⟨balance, h⟩
  have haccount : Zod.string (payloadField "accountId" e.payload) = some t.accountId := by
    rw [h]
    rfl
  have hn : payloadNumber "amount" e.payload = some t.amount :=
    payloadNumber_toString hamount (by rw [h]; rfl)
  have hb : payloadNumber "balanceAfter" e.payload = some balance :=
    payloadNumber_toString hbalance (by rw [h]; rfl)
  simp [OutboxEventData.operation, hcompensated.eventType, hcompensated.transactionId, haccount, hn,
    hb]

/-! ### What the database shows -/

namespace Database

variable (db : Database)

/-- The balances of the accounts. -/
def balances (id : String) : Option Int := (db.accounts.find? id).map Account.balance

/-- The movements and the statuses of the transactions. -/
def decisions (tid : String) : Option (Movement String × TransactionStatus) :=
  (db.transactions.find? tid).map fun t ↦ (t.movement, t.status)

/-- The lines of the ledger. -/
def postings (tid : String) : Option (Posting String) :=
  (db.ledgerEntries.find? tid).map LedgerEntry.posting

variable {db}

/-- A written balance. -/
theorem balances_setBalance {id : String} {account : Account}
    (h : db.accounts.find? id = some account) (balance : Int) :
    (db.setBalance id balance).balances = Function.update db.balances id (some balance) := by
  funext k
  rw [balances, accounts_setBalance, Table.find?_modify]
  by_cases hk : k = id
  · rw [if_pos hk, h, hk, Function.update_self]
    rfl
  · rw [if_neg hk, Function.update_of_ne hk, balances]

/-- A new transaction. -/
theorem decisions_addTransaction (h : db.transactions.find? t.transactionId = none) :
    (db.addTransaction t).decisions =
      Function.update db.decisions t.transactionId (some (t.movement, t.status)) := by
  funext k
  rw [decisions, transactions_addTransaction, Table.find?_insert h]
  by_cases hk : t.transactionId = k
  · rw [if_pos hk, ← hk, Function.update_self]
    rfl
  · rw [if_neg hk, Function.update_of_ne (Ne.symm hk), decisions]

/-- A written status. -/
theorem decisions_setStatus (h : db.transactions.find? t.transactionId = some t)
    (status : TransactionStatus) :
    (db.setStatus t.transactionId status).decisions =
      Function.update db.decisions t.transactionId (some (t.movement, status)) := by
  funext k
  rw [decisions, transactions_setStatus, Table.find?_modify]
  by_cases hk : k = t.transactionId
  · rw [if_pos hk, h, hk, Function.update_self]
    rfl
  · rw [if_neg hk, Function.update_of_ne hk, decisions]

/-- A new ledger entry. -/
theorem postings_addLedgerEntry {l : LedgerEntry}
    (h : db.ledgerEntries.find? l.transactionId = none) :
    (db.addLedgerEntry l).postings =
      Function.update db.postings l.transactionId (some l.posting) := by
  funext k
  rw [postings, ledgerEntries_addLedgerEntry, Table.find?_insert h]
  by_cases hk : l.transactionId = k
  · rw [if_pos hk, ← hk, Function.update_self]
    rfl
  · rw [if_neg hk, Function.update_of_ne (Ne.symm hk), postings]

end Database

/-- The bank has the balances, the transactions and the ledger of the database. -/
structure Shows (db : Database) (b : Bank String String) : Prop where
  balances : b.balance = db.balances
  decisions : b.decisions = db.decisions
  postings : b.posting = db.postings

namespace Shows

variable {db : Database} {b : Bank String String}

/-- The balance of an account. -/
theorem balance_eq (h : Shows db b) {id : String} {account : Account}
    (ha : db.accounts.find? id = some account) : b.balance id = some account.balance := by
  rw [h.balances, Database.balances, ha]
  rfl

/-- A `transactionId` that is not used. -/
theorem payment_eq_none (h : Shows db b) {tid : String}
    (ht : db.transactions.find? tid = none) : b.payment tid = none := by
  have hdecision := congrFun h.decisions tid
  rw [Database.decisions, ht] at hdecision
  exact Option.map_eq_none_iff.mp hdecision

/-- The payment of a transaction. -/
theorem exists_payment (h : Shows db b) (ht : db.transactions.find? t.transactionId = some t) :
    ∃ payment, b.payment t.transactionId = some payment ∧ payment.movement = t.movement ∧
      payment.status = t.status := by
  have hdecision := congrFun h.decisions t.transactionId
  rw [Database.decisions, ht] at hdecision
  obtain ⟨payment, hpayment, heq⟩ := Option.map_eq_some_iff.mp hdecision
  exact ⟨payment, hpayment, congrArg Prod.fst heq, congrArg Prod.snd heq⟩

/-- The posting of a ledger entry, or none. -/
theorem posting_eq (h : Shows db b) (tid : String) :
    b.posting tid = (db.ledgerEntries.find? tid).map LedgerEntry.posting :=
  congrFun h.postings tid

end Shows

/-! ### The log of the bank -/

/-- The bank that a log leads to from the accounts' opening balances. -/
abbrev replayed (accounts : Table Account.id) (log : List (Operation String String)) :
    Bank String String :=
  (Bank.reducer String String).replay (.opening (Database.opening accounts).balances) log

/-- But for announcements the outbox is the log of a bank, and the bank is the one that the database
shows. -/
structure Recorded (accounts : Table Account.id) (db : Database)
    (log : List (Operation String String)) : Prop where
  operations : db.engineEvents.map (fun e ↦ e.toOutboxEventData.operation) = log.map some
  legal : (Bank.reducer String String).Legal (.opening (Database.opening accounts).balances) log
  bank : Shows db (replayed accounts log)
  /-- A payment with a completed event left the balance that the event says. -/
  left : ∀ e ∈ db.outboxEvents.rows, ∀ {t balance}, IsCompletedEvent t balance e →
    ∃ payment, (replayed accounts log).payment t.transactionId = some payment ∧
      payment.left = some balance

variable {accounts : Table Account.id} {db db' : Database} {log : List (Operation String String)}

/-- An empty outbox is an empty log. -/
theorem recorded_opening (accounts : Table Account.id) :
    Recorded accounts (.opening accounts) [] where
  operations := rfl
  legal := trivial
  bank := ⟨rfl, rfl, rfl⟩
  left := fun _ he ↦ absurd he List.not_mem_nil

/-- What consumers record does not matter to the bank. -/
theorem Recorded.addProcessedEvent (h : Recorded accounts db log) (p : ProcessedEvent) :
    Recorded accounts (db.addProcessedEvent p) log :=
  ⟨h.operations, h.legal, ⟨h.bank.balances, h.bank.decisions, h.bank.postings⟩, h.left⟩

/-- An announcement records no operation of the bank. -/
theorem eventType_of_operation {data : OutboxEventData} {o : Operation String String}
    (h : data.operation = some o) : data.eventType ≠ "AccountFraudFlagged" := by
  intro hflagged
  simp [OutboxEventData.operation, hflagged] at h

/-- A commit that adds an event performs the operation that the event records. -/
theorem Recorded.append (h : Recorded accounts db log) {o : Operation String String}
    (hfresh : db.outboxEvents.find? e.id = none)
    (hrows : db'.outboxEvents = db.outboxEvents.insert e)
    (hop : e.toOutboxEventData.operation = some o) (ho : Allowed (replayed accounts log) o)
    (hbank : Shows db' ((replayed accounts log).apply o))
    (hleft : ∀ {t balance}, IsCompletedEvent t balance e →
      ∃ payment, ((replayed accounts log).apply o).payment t.transactionId = some payment ∧
        payment.left = some balance) : Recorded accounts db' (log ++ [o]) := by
  have happend : db'.outboxEvents.rows = db.outboxEvents.rows ++ [e] := by
    rw [hrows, Table.rows_insert hfresh]
  have hlast : replayed accounts (log ++ [o]) = (replayed accounts log).apply o :=
    Relational.Reducer.replay_concat _ log o
  refine ⟨?_, h.legal.concat ho, hlast ▸ hbank, fun x hx t balance hcompleted ↦ ?_⟩
  · have hevents : db'.engineEvents = db.engineEvents ++ [e] := by
      have hkept : decide (e.eventType ≠ "AccountFraudFlagged") = true :=
        decide_eq_true (eventType_of_operation hop)
      rw [Database.engineEvents, happend, List.filter_append, List.filter_singleton, hkept,
        cond_true, Database.engineEvents]
    rw [hevents, List.map_append, List.map_append, h.operations, List.map_singleton, hop]
    rfl
  · rw [hlast]
    rw [happend] at hx
    rcases List.mem_append.mp hx with hold | hnew
    · obtain ⟨payment, hpayment, hbalance⟩ := h.left x hold hcompleted
      obtain ⟨payment', hpayment', hsame⟩ := Bank.left_apply ho hpayment
      exact ⟨payment', hpayment', hsame.trans hbalance⟩
    · exact hleft (List.mem_singleton.mp hnew ▸ hcompleted)

section

variable {d : Deployment} {call : Call} {own : Lock → Prop}

/-- An event of another type than a completed event says nothing of what a payment left. -/
private theorem left_of_type {b : Bank String String} (htype : e.eventType ≠ "TransactionCompleted")
    {t : Transaction} {balance : Int} (hcompleted : IsCompletedEvent t balance e) :
    ∃ payment, b.payment t.transactionId = some payment ∧ payment.left = some balance :=
  absurd hcompleted.eventType htype

/-- A request that moves a balance settles a payment. -/
private theorem Recorded.complete (h : Recorded accounts db log) (hsolvent : Solvent db)
    {input : CreateTransactionInput} {request : Request} {account : Account} {row : Transaction}
    (hclear : Cleared d input request own db account row)
    (hevent : e.toOutboxEventData = completedEvent input row
      (newBalance input.type account.balance row.amount) request.ipAddress)
    (hfresh : db.outboxEvents.find? e.id = none) :
    ∃ o, Recorded accounts (((db.addTransaction row).setBalance input.accountId
      (newBalance input.type account.balance row.amount)).addOutboxEvent e) (log ++ [o]) := by
  have hnonneg := hclear.newBalance_nonneg hsolvent
  have hunused := hclear.fresh
  obtain ⟨id, authorizedAt, createdAt, rfl⟩ := hclear.inserted
  let row := newTransaction input id authorizedAt createdAt
  let balance := newBalance input.type account.balance row.amount
  have hcompleted : IsCompletedEvent row balance e := ⟨input, _, ⟨rfl, rfl, rfl, rfl⟩, hevent⟩
  have hop := hcompleted.operation (Int.le_of_lt input.amountMinor_pos) hnonneg
  refine ⟨_, h.append (o := .settle row.transactionId row.movement balance) hfresh rfl hop
    (.settle (h.bank.payment_eq_none hunused) input.amountMinor_pos
      (h.bank.balance_eq hclear.found) hclear.funded (newBalance_eq row account.balance))
    ⟨?_, ?_, h.bank.postings⟩ fun {t n} hc ↦ ?_⟩
  · change Function.update (replayed accounts log).balance input.accountId (some balance) =
      ((db.addTransaction row).setBalance input.accountId balance).balances
    have hfound : (db.addTransaction row).accounts.find? input.accountId = some account :=
      hclear.found
    rw [h.bank.balances, Database.balances_setBalance hfound]
    rfl
  · change ((replayed accounts log).record row.transactionId
      ⟨row.movement, some balance, .COMPLETED⟩).decisions = (db.addTransaction row).decisions
    rw [Bank.decisions_record, h.bank.decisions, Database.decisions_addTransaction hunused]
    rfl
  · have htid : t.transactionId = row.transactionId :=
      hc.transactionId.symm.trans hcompleted.transactionId
    rw [htid, hc.balance_unique hevent]
    exact ⟨_, Function.update_self _ _ _, rfl⟩

/-- A request that is blocked refuses a payment. -/
private theorem Recorded.block (h : Recorded accounts db log) {input : CreateTransactionInput}
    {request : Request} {account : Account} {row : Transaction} {reason : String}
    (hadmitted : Admitted d input request own db account row)
    (hevent : e.toOutboxEventData = blockedEvent input row request.ipAddress reason)
    (hfresh : db.outboxEvents.find? e.id = none) :
    ∃ o, Recorded accounts ((db.addTransaction { row with status := .BLOCKED }).addOutboxEvent e)
      (log ++ [o]) := by
  have hunused := hadmitted.fresh
  obtain ⟨id, authorizedAt, createdAt, rfl⟩ := hadmitted.inserted
  let row := newTransaction input id authorizedAt createdAt
  have hblocked : IsBlockedEvent row e := ⟨input, _, _, ⟨rfl, rfl, rfl, rfl⟩, hevent⟩
  have hop := hblocked.operation (Int.le_of_lt input.amountMinor_pos)
  refine ⟨_, h.append (o := .refuse row.transactionId row.movement) hfresh rfl hop
    (.refuse (h.bank.payment_eq_none hunused) input.amountMinor_pos
      (Option.isSome_of_eq_some (h.bank.balance_eq hadmitted.found)))
    ⟨h.bank.balances, ?_, h.bank.postings⟩ (left_of_type (by simp [hblocked.eventType]))⟩
  change ((replayed accounts log).record row.transactionId
    ⟨row.movement, none, .BLOCKED⟩).decisions =
      (db.addTransaction { row with status := .BLOCKED }).decisions
  rw [Bank.decisions_record, h.bank.decisions,
    Database.decisions_addTransaction (t := { row with status := .BLOCKED }) hunused]
  rfl

/-- The ledger worker posts a payment. -/
private theorem Recorded.post (h : Recorded accounts db log) (hc : Consistent db) (hn : Nonneg db)
    {eventId : String} {t : Transaction} {balance : Int} {event : OutboxEvent} {entry : LedgerEntry}
    (hfind : db.outboxEvents.find? eventId = some event)
    (ht : db.transactions.find? t.transactionId = some t)
    (hcompleted : IsCompletedEvent t balance event) (hentry : IsEntry t balance entry)
    (hunposted : db.ledgerEntries.find? entry.transactionId = none)
    (hposted : IsLedgerUpdatedEvent t balance e) (hfresh : db.outboxEvents.find? e.id = none) :
    ∃ o, Recorded accounts ((db.addLedgerEntry entry).addOutboxEvent e) (log ++ [o]) := by
  obtain ⟨payment, hpayment, hmovement, -⟩ := h.bank.exists_payment ht
  obtain ⟨payment', hpayment', hleft⟩ := h.left event (Table.mem_of_find? hfind) hcompleted
  obtain rfl := Option.some.inj (hpayment.symm.trans hpayment')
  have hop := hposted.operation (Int.le_of_lt (hc.amount_pos ht)) (hn hfind hcompleted)
  have hposting : entry.posting = ⟨t.movement, balance⟩ := by
    rw [LedgerEntry.posting, hentry.accountId, hentry.type, hentry.amount, hentry.balanceAfter]
    rfl
  have hnone : (replayed accounts log).posting t.transactionId = none := by
    rw [h.bank.posting_eq, ← hentry.transactionId, hunposted]
    rfl
  refine ⟨_, h.append hfresh rfl hop (.post hpayment hmovement.symm hleft hnone)
    ⟨h.bank.balances, h.bank.decisions, ?_⟩ (left_of_type (by simp [hposted.eventType]))⟩
  change Function.update (replayed accounts log).posting t.transactionId
    (some ⟨t.movement, balance⟩) = (db.addLedgerEntry entry).postings
  rw [h.bank.postings, Database.postings_addLedgerEntry hunposted, hentry.transactionId, hposting]

/-- The finalization worker makes a payment final. -/
private theorem Recorded.finalize (h : Recorded accounts db log) (hc : Consistent db)
    (hn : Nonneg db) {eventId : String} {t : Transaction} {balance : Int} {event : OutboxEvent}
    {entry : LedgerEntry} (hfind : db.outboxEvents.find? eventId = some event)
    (ht : db.transactions.find? t.transactionId = some t) (hstatus : t.status = .COMPLETED)
    (hupdated : IsLedgerUpdatedEvent t balance event)
    (hentry : db.ledgerEntries.find? t.transactionId = some entry)
    (hfinalized : IsFinalizedEvent t balance e) (hfresh : db.outboxEvents.find? e.id = none) :
    ∃ o, Recorded accounts ((db.setStatus t.transactionId .FINALIZED).addOutboxEvent e)
      (log ++ [o]) := by
  obtain ⟨payment, hpayment, hmovement, hpaymentStatus⟩ := h.bank.exists_payment ht
  -- the ledger event has the balance of the entry
  obtain ⟨t', balance', l, ht', hl, hentry', hbalance, hevent⟩ :=
    hc.of_posted hn hfind (.inl hupdated.eventType)
  rw [hupdated.transactionId] at ht' hl
  obtain rfl := Option.some.inj (ht.symm.trans ht')
  obtain rfl := Option.some.inj (hentry.symm.trans hl)
  have hupdated' : IsLedgerUpdatedEvent t balance' event := hevent.resolve_right fun hf ↦ by
    have htypes := hupdated.eventType.symm.trans hf.eventType
    simp at htypes
  have hfinal := hupdated.finalized_congr hupdated' hfinalized
  have hop := hfinal.operation (Int.le_of_lt (hc.amount_pos ht)) hbalance
  have hposting : (replayed accounts log).posting t.transactionId =
      some ⟨t.movement, balance'⟩ := by
    rw [h.bank.posting_eq, hentry, Option.map_some, LedgerEntry.posting, hentry'.accountId,
      hentry'.type, hentry'.amount, hentry'.balanceAfter]
    rfl
  refine ⟨_, h.append hfresh rfl hop (.finalize hpayment (hpaymentStatus.trans hstatus) hposting)
    ⟨h.bank.balances, ?_, h.bank.postings⟩ (left_of_type (by simp [hfinalized.eventType]))⟩
  change ((replayed accounts log).setStatus t.transactionId .FINALIZED).decisions =
    (db.setStatus t.transactionId .FINALIZED).decisions
  rw [Bank.decisions_setStatus hpayment, h.bank.decisions, Database.decisions_setStatus ht,
    hmovement]

/-- The timeout scan gives a payment back. -/
private theorem Recorded.compensate (h : Recorded accounts db log) (hc : Consistent db)
    {t : Transaction} {account : Account} {balance : Int}
    (ht : db.transactions.find? t.transactionId = some t) (hstatus : t.status = .COMPLETED)
    (hentry : db.ledgerEntries.find? t.transactionId = none)
    (haccount : db.accounts.find? t.accountId = some account)
    (hbalance : balance = Finalization.restoredBalance t.type account.balance t.amount)
    (hnonneg : 0 ≤ balance) (hevent : e.toOutboxEventData = Finalization.compensatedEvent t balance)
    (hfresh : db.outboxEvents.find? e.id = none) :
    ∃ o, Recorded accounts (((db.setBalance t.accountId balance).setStatus t.transactionId
      .BLOCKED).addOutboxEvent e) (log ++ [o]) := by
  obtain ⟨payment, hpayment, hmovement, hpaymentStatus⟩ := h.bank.exists_payment ht
  have hop := compensatedEvent_operation (Int.le_of_lt (hc.amount_pos ht)) hnonneg hevent
  have hnone : (replayed accounts log).posting t.transactionId = none := by
    rw [h.bank.posting_eq, hentry]
    rfl
  have haccount' : (replayed accounts log).balance payment.movement.account =
      some account.balance := hmovement ▸ h.bank.balance_eq haccount
  have hafter : balance = account.balance - payment.movement.signedAmount := by
    rw [hmovement, hbalance]
    exact restoredBalance_eq t account.balance
  have hallowed := Allowed.giveBack hpayment (hpaymentStatus.trans hstatus) hnone haccount' hafter
    hnonneg
  rw [hmovement] at hallowed
  have htype : e.eventType ≠ "TransactionCompleted" := by
    simp [hevent, Finalization.compensatedEvent]
  refine ⟨_, h.append hfresh rfl hop hallowed ⟨?_, ?_, h.bank.postings⟩ (left_of_type htype)⟩
  · change Function.update (replayed accounts log).balance t.accountId (some balance) =
      (db.setBalance t.accountId balance).balances
    rw [h.bank.balances, Database.balances_setBalance haccount]
  · change ((replayed accounts log).setStatus t.transactionId .BLOCKED).decisions =
      (db.setStatus t.transactionId .BLOCKED).decisions
    rw [Bank.decisions_setStatus hpayment, h.bank.decisions, Database.decisions_setStatus ht,
      hmovement]

/-- Every commit is one operation of the bank, or none. -/
theorem Commits.recorded (hcommit : Commits d call own db db') (hc : Consistent db)
    (hs : Solvent db) (hn : Nonneg db) (h : Recorded accounts db log) :
    ∃ later, Recorded accounts db' (log ++ later) := by
  cases hcommit with
  | complete hclear hevent hunsent =>
    obtain ⟨o, ho⟩ := h.complete hs hclear hevent hunsent.absent
    exact ⟨[o], ho⟩
  | block hadmitted hevent hunsent =>
    obtain ⟨o, ho⟩ := h.block hadmitted hevent hunsent.absent
    exact ⟨[o], ho⟩
  | post hfind ht hcompleted hentry hunposted hposted hunsent =>
    obtain ⟨o, ho⟩ :=
      h.post hc hn hfind ht hcompleted hentry hunposted hposted hunsent.absent
    exact ⟨[o], ho.addProcessedEvent _⟩
  | finalize hfind ht hstatus hupdated hentry hfinalized hunsent =>
    obtain ⟨o, ho⟩ :=
      h.finalize hc hn hfind ht hstatus hupdated hentry hfinalized hunsent.absent
    exact ⟨[o], ho.addProcessedEvent _⟩
  | compensate ht hstatus hentry haccount hbalance hnonneg hevent hunsent =>
    obtain ⟨o, ho⟩ :=
      h.compensate hc ht hstatus hentry haccount hbalance hnonneg hevent hunsent.absent
    exact ⟨[o], ho⟩
  | skip =>
    rw [← log.append_nil] at h
    exact ⟨[], h.addProcessedEvent _⟩
  | pass =>
    rw [← log.append_nil] at h
    exact ⟨[], h.addProcessedEvent _⟩

/-- Further commits only add to the log. -/
theorem Recorded.evolves (h : Recorded accounts db log) (hc : Consistent db) (hs : Solvent db)
    (hn : Nonneg db) (he : Evolves d own db db') :
    ∃ later, Recorded accounts db' (log ++ later) := by
  have hstart : ∃ later, Recorded accounts db (log ++ later) := ⟨[], by rwa [List.append_nil]⟩
  refine (Relational.Evolves.invariant (P := fun db ↦ (Consistent db ∧ Solvent db ∧ Nonneg db) ∧
    ∃ later, Recorded accounts db (log ++ later)) (fun _ _ _ hcommit hb ↦ ?_) he
    ⟨⟨hc, hs, hn⟩, hstart⟩).2
  obtain ⟨⟨hc, hs, hn⟩, later, hrecorded⟩ := hb
  obtain ⟨more, hmore⟩ := hcommit.recorded hc hs hn hrecorded
  exact ⟨⟨hc.step hcommit, hs.step hcommit, hn.step hs hcommit⟩, later ++ more,
    List.append_assoc log later more ▸ hmore⟩

end

end Banking
