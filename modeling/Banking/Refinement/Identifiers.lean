import Banking.Atomic.Commits
import Banking.Relational.Footprint
import Mathlib.Data.Fintype.EquivFin

/-!
# Generated identifiers are locked

`Commits` says under which locks a process uses a `transactionId`, but not the identifiers that it
generates for transactions and ledger entries. Each insert locks the one it generates.
-/

namespace Banking

open Relational (Footprint Table Tx)

/-- The identifiers of new transactions and ledger entries are locked. -/
structure Identified (own : Lock → Prop) (b a : Database) : Prop where
  transactions : ∀ t ∈ a.transactions.rows, own (.transactionPk t.id) ∨
    ∃ t' ∈ b.transactions.rows, t'.id = t.id
  ledgerEntries : ∀ l ∈ a.ledgerEntries.rows, own (.ledgerEntryPk l.id) ∨
    ∃ l' ∈ b.ledgerEntries.rows, l'.id = l.id

namespace Identified

variable {own own' : Lock → Prop} {b c a : Database}

/-- Writes that lock the identifiers they generate compose. -/
theorem footprint : Footprint Identified where
  refl own b := ⟨fun t ht ↦ .inr ⟨t, ht, rfl⟩, fun l hl ↦ .inr ⟨l, hl, rfl⟩⟩
  trans h k := by
    refine ⟨fun t ht ↦ ?_, fun l hl ↦ ?_⟩
    · rcases k.transactions t ht with hown | ⟨t', ht', he⟩
      · exact .inl hown
      · exact he ▸ h.transactions t' ht'
    · rcases k.ledgerEntries l hl with hown | ⟨l', hl', he⟩
      · exact .inl hown
      · exact he ▸ h.ledgerEntries l' hl'
  mono ho h :=
    ⟨fun t ht ↦ (h.transactions t ht).imp_left (ho _),
      fun l hl ↦ (h.ledgerEntries l hl).imp_left (ho _)⟩

/-- A write that leaves both tables alone. -/
theorem of_eq (htransactions : a.transactions = b.transactions)
    (hledger : a.ledgerEntries = b.ledgerEntries) : Identified own b a where
  transactions t ht := .inr ⟨t, htransactions ▸ ht, rfl⟩
  ledgerEntries l hl := .inr ⟨l, hledger ▸ hl, rfl⟩

/-- A new identifier that nobody else has locked stays new among the transactions. -/
theorem transaction_new (h : Identified own b a) {id : String} (hlock : ¬ own (.transactionPk id))
    (hnew : ∀ t ∈ b.transactions.rows, t.id ≠ id) : ∀ t ∈ a.transactions.rows, t.id ≠ id := by
  rintro t ht rfl
  rcases h.transactions t ht with hown | ⟨t', ht', he⟩
  · exact hlock hown
  · exact hnew t' ht' he

/-- A new identifier that nobody else has locked stays new among the ledger entries. -/
theorem ledgerEntry_new (h : Identified own b a) {id : String} (hlock : ¬ own (.ledgerEntryPk id))
    (hnew : ∀ l ∈ b.ledgerEntries.rows, l.id ≠ id) : ∀ l ∈ a.ledgerEntries.rows, l.id ≠ id := by
  rintro l hl rfl
  rcases h.ledgerEntries l hl with hown | ⟨l', hl', he⟩
  · exact hlock hown
  · exact hnew l' hl' he

end Identified

/-- There is always an identifier that has not been used. -/
theorem exists_unused (used : List String) : ∃ id, id ∉ used := by
  obtain ⟨id, hid⟩ := Infinite.exists_notMem_finset used.toFinset
  exact ⟨id, fun h ↦ hid (List.mem_toFinset.mpr h)⟩

variable {d : Deployment} {α : Type}

/-! ### The statements -/

/-- A statement that inserts neither. -/
private theorem locks_other {s : Query α}
    (htransactions : ∀ env view db, (s.write env view db).transactions = db.transactions)
    (hledger : ∀ env view db, (s.write env view db).ledgerEntries = db.ledgerEntries) :
    (Tx.query s).Locks Identified :=
  Tx.locks_query fun env view db ↦ .of_eq (htransactions env view db) (hledger env view db)

private theorem locks_createTransaction {transactionId accountId : String} {type : TransactionType}
    {amount : Int} {status : TransactionStatus} {authorizedAt : Js.Date} :
    (Tx.query (Sql.createTransaction transactionId accountId type amount status
      authorizedAt)).Locks Identified := by
  refine Tx.locks_query fun env view db ↦ ⟨fun t ht ↦ ?_, fun l hl ↦ .inr ⟨l, hl, rfl⟩⟩
  rcases Table.mem_rows_insert ht with rfl | hold
  · exact .inl (by simp [Sql.createTransaction])
  · exact .inr ⟨t, hold, rfl⟩

private theorem locks_createLedgerEntry {transactionId accountId : String} {type : TransactionType}
    {amount balanceAfter : Int} :
    (Tx.query (Sql.createLedgerEntry transactionId accountId type amount balanceAfter)).Locks
      Identified := by
  refine Tx.locks_query fun env view db ↦ ⟨fun t ht ↦ .inr ⟨t, ht, rfl⟩, fun l hl ↦ ?_⟩
  rcases Table.mem_rows_insert hl with rfl | hold
  · exact .inl (by simp [Sql.createLedgerEntry])
  · exact .inr ⟨l, hold, rfl⟩

private theorem locks_updateStatus {transactionId : String} {status : TransactionStatus} :
    (Tx.query (Sql.updateTransactionStatus transactionId status)).Locks Identified := by
  refine Tx.locks_query fun env view db ↦ ⟨fun t ht ↦ ?_, fun l hl ↦ .inr ⟨l, hl, rfl⟩⟩
  have hrows : t ∈ (db.setStatus transactionId status).transactions.rows := ht
  rw [Database.transactions_setStatus, Table.rows_modify] at hrows
  obtain ⟨t', ht', rfl⟩ := List.mem_map.mp hrows
  refine .inr ⟨t', ht', ?_⟩
  split <;> rfl

private theorem locks_createOutboxEvent {data : OutboxEventData} :
    (Tx.query (Sql.createOutboxEvent data)).Locks Identified :=
  locks_other (fun _ _ _ ↦ rfl) fun _ _ _ ↦ rfl

private theorem locks_createProcessedEvent {consumerName eventId : String} :
    (Tx.query (Sql.createProcessedEvent consumerName eventId)).Locks Identified :=
  locks_other (fun _ _ _ ↦ rfl) fun _ _ _ ↦ rfl

/-- A statement that writes nothing. -/
private theorem locks_select {s : Query α} (h : ∀ env view, s.write env view = id) :
    (Tx.query s).Locks Identified :=
  locks_other (fun env view db ↦ by rw [h]; rfl) fun env view db ↦ by rw [h]; rfl

/-! ### The calls -/

private theorem locks_create (input : CreateTransactionInput) (request : Request) :
    (create d input request).Locks Identified := by
  unfold create
  split
  · exact trivial
  · refine Tx.Locks.transaction ((locks_select fun _ _ ↦ rfl).bind fun account ↦ ?_)
    split
    · exact trivial
    split
    · exact trivial
    refine (locks_select fun _ _ ↦ rfl).bind fun _ ↦ (locks_select fun _ _ ↦ rfl).bind fun _ ↦ ?_
    split
    · exact trivial
    split
    · exact trivial
    refine (locks_select fun _ _ ↦ rfl).bind fun _ ↦ (locks_select fun _ _ ↦ rfl).bind fun _ ↦
      (locks_select fun _ _ ↦ rfl).bind fun _ ↦ (locks_select fun _ _ ↦ rfl).bind fun _ ↦
      (locks_select fun _ _ ↦ rfl).bind fun _ ↦ locks_createTransaction.bind fun row ↦ ?_
    dsimp only
    split
    · exact locks_updateStatus.bind fun _ ↦ locks_createOutboxEvent.bind fun _ ↦ trivial
    · exact (locks_other (fun _ _ _ ↦ rfl) fun _ _ _ ↦ rfl).bind fun _ ↦
        locks_createOutboxEvent.bind fun _ ↦ trivial

private theorem locks_ledgerEvent (event : TransactionEvent) :
    (Ledger.handleEvent event).Locks Identified := by
  refine Tx.Locks.transaction ((locks_select fun _ _ ↦ rfl).bind fun found ↦ ?_)
  split
  · exact trivial
  split
  · refine Tx.Locks.bind ?_ fun _ ↦ locks_createProcessedEvent
    unfold Ledger.postEntry
    split
    · exact trivial
    · exact (locks_select fun _ _ ↦ rfl).bind fun _ ↦ locks_createLedgerEntry.bind fun _ ↦
        locks_createOutboxEvent
  · exact locks_createProcessedEvent

private theorem locks_finalizationEvent (event : TransactionEvent) :
    (Finalization.handleEvent event).Locks Identified := by
  unfold Finalization.handleEvent
  split
  · exact trivial
  split
  · exact trivial
  refine Tx.Locks.transaction ((locks_select fun _ _ ↦ rfl).bind fun found ↦ ?_)
  split
  · exact trivial
  refine (locks_select fun _ _ ↦ rfl).bind fun transaction ↦ ?_
  split
  · exact trivial
  split
  · exact locks_updateStatus.bind fun _ ↦ locks_createOutboxEvent.bind fun _ ↦
      locks_createProcessedEvent
  · exact locks_createProcessedEvent

private theorem locks_compensateInTransaction (candidate : String) :
    (Finalization.compensateInTransaction candidate).Locks Identified := by
  refine (locks_select fun _ _ ↦ rfl).bind fun transaction ↦ ?_
  split
  · exact trivial
  refine (locks_select fun _ _ ↦ rfl).bind fun entry ↦ ?_
  split
  · exact trivial
  refine (locks_select fun _ _ ↦ rfl).bind fun balance ↦ ?_
  split
  · exact trivial
  dsimp only
  split
  · exact trivial
  · exact (locks_other (fun _ _ _ ↦ rfl) fun _ _ _ ↦ rfl).bind fun _ ↦
      locks_updateStatus.bind fun _ ↦ locks_createOutboxEvent

private theorem locks_compensateEach (candidates : List String) :
    (Finalization.compensateEach candidates).Locks Identified := by
  induction candidates with
  | nil => exact trivial
  | cons candidate rest ih =>
    exact (locks_compensateInTransaction candidate).transaction.bind fun _ ↦ ih

/-- Every call locks the identifiers it generates. -/
theorem locks_begins {call : Call} {db : Database} {program : Process Reply}
    (h : begins d call db = some program) : program.Locks Identified := by
  cases call with
  | create input request =>
    cases h
    exact (locks_create input request).bind fun _ ↦ trivial
  | ledgerEvent eventId =>
    obtain ⟨event, -, rfl⟩ := Option.map_eq_some_iff.mp h
    exact (locks_ledgerEvent event).bind fun _ ↦ trivial
  | finalizationEvent eventId =>
    obtain ⟨event, -, rfl⟩ := Option.map_eq_some_iff.mp h
    exact (locks_finalizationEvent event).bind fun _ ↦ trivial
  | timeoutScan =>
    cases h
    refine Tx.Locks.bind ?_ fun _ ↦ trivial
    exact (locks_select fun _ _ ↦ rfl).bind fun _ ↦ (locks_select fun _ _ ↦ rfl).bind
      fun candidates ↦ locks_compensateEach candidates

end Banking
