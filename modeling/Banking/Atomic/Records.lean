import Banking.Atomic.Stages
import Banking.Atomic.Stability

/-!
# Records

Where the database keeps the record of a transaction, and how each write changes it.
-/

namespace Banking

open Relational (Table)

namespace Database

/-- The outbox rows of one transaction, in the order of their insertion. -/
def trail (db : Database) (transactionId : String) : List OutboxEvent :=
  db.outboxEvents.rows.filter (fun e ↦ e.transactionId = transactionId)

/-- The outbox rows that are not announcements of the fraud worker. -/
def engineEvents (db : Database) : List OutboxEvent :=
  db.outboxEvents.rows.filter (fun e ↦ e.eventType ≠ "AccountFraudFlagged")

/-- The consumer has recorded the event. -/
def hasProcessed (db : Database) (consumer eventId : String) : Bool :=
  (db.processedEvents.find? (consumer, eventId)).isSome

/-- The consumer has recorded an event of the given type of this transaction. -/
def handled (db : Database) (consumer eventType transactionId : String) : Bool :=
  (db.trail transactionId).any
    (fun e ↦ decide (e.eventType = eventType) && db.hasProcessed consumer e.id)

end Database

/-- The record of a transaction. -/
def Database.record (db : Database) (transactionId : String) : Record where
  transaction := db.transactions.find? transactionId
  entry := db.ledgerEntries.find? transactionId
  events := db.trail transactionId
  posted := db.handled Ledger.CONSUMER_NAME "TransactionCompleted" transactionId
  settled := db.handled Finalization.CONSUMER_NAME "LedgerUpdated" transactionId

/-- The number of outbox rows of one type filed under a transaction. -/
def Database.eventCount (db : Database) (transactionId eventType : String) : Nat :=
  db.outboxEvents.rows.countP
    (fun e ↦ decide (e.transactionId = transactionId) && decide (e.eventType = eventType))

/-- Outbox rows are counted in the record of their transaction. -/
theorem Database.eventCount_eq (db : Database) (transactionId eventType : String) :
    db.eventCount transactionId eventType = (db.record transactionId).types.count eventType := by
  rw [Database.eventCount, Record.types, List.count_eq_countP, List.countP_map, Database.record,
    Database.trail, List.countP_filter]
  refine List.countP_congr fun e _ ↦ ?_
  simp [and_comm]

/-- Filed events stay filed. -/
theorem Evolves.eventCount_pos {d : Deployment} {own : Lock → Prop} {db db' : Database}
    (h : Evolves d own db db') {tid eventType : String} (hpos : 0 < db.eventCount tid eventType) :
    0 < db'.eventCount tid eventType := by
  obtain ⟨e, he, hfiled⟩ := List.countP_pos_iff.mp hpos
  exact List.countP_pos_iff.mpr
    ⟨e, Table.mem_of_find? (h.outboxEvent (Table.find?_of_mem he)), hfiled⟩

/-! ### How the writes change a record -/

section Records

variable {db : Database}

/-- An outbox row is filed under its own transaction. -/
theorem Database.mem_trail {e : OutboxEvent} {id : String}
    (h : db.outboxEvents.find? id = some e) : e ∈ (db.record e.transactionId).events :=
  List.mem_filter.mpr ⟨Table.mem_of_find? h, by simp⟩

/-- The events of a record are outbox rows filed under its transaction. -/
theorem Database.mem_record {e : OutboxEvent} {tid : String} (h : e ∈ (db.record tid).events) :
    db.outboxEvents.find? e.id = some e ∧ e.transactionId = tid := by
  obtain ⟨hrow, htid⟩ := List.mem_filter.mp h
  exact ⟨Table.find?_of_mem hrow, by simpa using htid⟩

/-- A balance is in no record. -/
theorem record_setBalance (id : String) (balance : Int) (tid : String) :
    (db.setBalance id balance).record tid = db.record tid := rfl

/-- A fresh transaction enters its own record. -/
theorem record_addTransaction {t : Transaction}
    (ht : db.transactions.find? t.transactionId = none) (tid : String) :
    (db.addTransaction t).record tid = { db.record tid with
      transaction := if t.transactionId = tid then some t else (db.record tid).transaction } := by
  have hfind : (db.addTransaction t).transactions.find? tid = _ := Table.find?_insert ht tid
  rw [Database.record, hfind]
  rfl

/-- A status changes the record of its transaction. -/
theorem record_setStatus (db : Database) {t : Transaction}
    (ht : db.transactions.find? t.transactionId = some t) (status : TransactionStatus)
    (tid : String) :
    (db.setStatus t.transactionId status).record tid = { db.record tid with
      transaction := if t.transactionId = tid then some { t with status }
        else (db.record tid).transaction } := by
  rw [Database.record, Database.transactions_setStatus, Table.find?_modify, ht]
  by_cases htid : tid = t.transactionId
  · rw [if_pos htid, if_pos htid.symm]
    rfl
  · rw [if_neg htid, if_neg (Ne.symm htid)]
    rfl

/-- A fresh ledger entry enters the record of its transaction. -/
theorem record_addLedgerEntry {l : LedgerEntry}
    (hl : db.ledgerEntries.find? l.transactionId = none) (tid : String) :
    (db.addLedgerEntry l).record tid = { db.record tid with
      entry := if l.transactionId = tid then some l else (db.record tid).entry } := by
  have hfind : (db.addLedgerEntry l).ledgerEntries.find? tid = _ := Table.find?_insert hl tid
  rw [Database.record, hfind]
  rfl

/-- A new outbox row goes to the end of the trail of its transaction. -/
theorem trail_addOutboxEvent (db : Database) {e : OutboxEvent}
    (he : db.outboxEvents.find? e.id = none) (tid : String) :
    (db.addOutboxEvent e).trail tid =
      db.trail tid ++ if e.transactionId = tid then [e] else [] := by
  rw [Database.trail, Database.outboxEvents_addOutboxEvent, Table.rows_insert he,
    List.filter_append]
  by_cases htid : e.transactionId = tid <;> simp [Database.trail, htid]

/-- An event that no consumer has recorded adds itself to its record and nothing else. -/
theorem record_addOutboxEvent (db : Database) {e : OutboxEvent}
    (he : db.outboxEvents.find? e.id = none)
    (hnew : ∀ consumer, db.hasProcessed consumer e.id = false) (tid : String) :
    (db.addOutboxEvent e).record tid = { db.record tid with
      events := (db.record tid).events ++ if e.transactionId = tid then [e] else [] } := by
  have hhandled : ∀ consumer type,
      (db.addOutboxEvent e).handled consumer type tid = db.handled consumer type tid := by
    intro consumer type
    have hsame : (db.addOutboxEvent e).hasProcessed = db.hasProcessed := rfl
    rw [Database.handled, trail_addOutboxEvent db he, List.any_append, hsame]
    by_cases htid : e.transactionId = tid <;> simp [Database.handled, htid, hnew]
  rw [Database.record, hhandled, hhandled, trail_addOutboxEvent db he]
  rfl

private theorem hasProcessed_addProcessedEvent {p : ProcessedEvent}
    (hp : db.processedEvents.find? (p.consumerName, p.eventId) = none) (consumer id : String) :
    (db.addProcessedEvent p).hasProcessed consumer id =
      (decide (p.consumerName = consumer ∧ p.eventId = id) || db.hasProcessed consumer id) := by
  have hfind : (db.addProcessedEvent p).processedEvents.find? (consumer, id) = _ :=
    Table.find?_insert hp (consumer, id)
  rw [Database.hasProcessed, hfind]
  by_cases hk : p.consumerName = consumer ∧ p.eventId = id
  · simp [hk]
  · have hne : (p.consumerName, p.eventId) ≠ (consumer, id) := by
      intro heq
      cases heq
      exact hk ⟨rfl, rfl⟩
    simp [hk, hne, Database.hasProcessed]

private theorem handled_addProcessedEvent {p : ProcessedEvent} {e : OutboxEvent}
    (he : db.outboxEvents.find? p.eventId = some e)
    (hp : db.processedEvents.find? (p.consumerName, p.eventId) = none)
    (consumer type tid : String) :
    (db.addProcessedEvent p).handled consumer type tid =
      (db.handled consumer type tid ||
        decide (p.consumerName = consumer ∧ e.eventType = type ∧ e.transactionId = tid)) := by
  rw [Bool.eq_iff_iff]
  have htrail : (db.addProcessedEvent p).trail tid = db.trail tid := rfl
  simp only [Database.handled, htrail, hasProcessed_addProcessedEvent hp, Bool.or_eq_true,
    List.any_eq_true, Bool.and_eq_true, decide_eq_true_eq]
  constructor
  · rintro ⟨x, hx, htype, ⟨hconsumer, hid⟩ | hold⟩
    · right
      obtain ⟨hfind, htid⟩ := Database.mem_record hx
      rw [← hid, he] at hfind
      cases hfind
      exact ⟨hconsumer, htype, htid⟩
    · exact .inl ⟨x, hx, htype, hold⟩
  · rintro (⟨x, hx, htype, hold⟩ | ⟨hconsumer, htype, rfl⟩)
    · exact ⟨x, hx, htype, .inr hold⟩
    · exact ⟨e, Database.mem_trail he, htype, .inl ⟨hconsumer, (Table.key_of_find? he).symm⟩⟩

/-- Recording an event changes at most the record of its transaction. -/
theorem record_addProcessedEvent (db : Database) {p : ProcessedEvent} {e : OutboxEvent}
    (he : db.outboxEvents.find? p.eventId = some e)
    (hp : db.processedEvents.find? (p.consumerName, p.eventId) = none) (tid : String) :
    (db.addProcessedEvent p).record tid = { db.record tid with
      posted := (db.record tid).posted || decide (p.consumerName = Ledger.CONSUMER_NAME ∧
        e.eventType = "TransactionCompleted" ∧ e.transactionId = tid)
      settled := (db.record tid).settled || decide (p.consumerName = Finalization.CONSUMER_NAME ∧
        e.eventType = "LedgerUpdated" ∧ e.transactionId = tid) } := by
  rw [Database.record, handled_addProcessedEvent he hp, handled_addProcessedEvent he hp]
  rfl

end Records

end Banking
