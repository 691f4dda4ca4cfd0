import Banking.Atomic.Journal
import Banking.Relational.Writes

/-!
# The reasons of blocked events

`Commits` leaves open what a blocked event gives as its reason. Only one statement of one call
writes such an event, so what its writer says of the reason holds of all of them.
-/

namespace Banking

open Relational (Tx)

/-- Every blocked event gives one of the reasons of the fraud rules. -/
def Reasoned (db : Database) : Prop :=
  ∀ {id e}, db.outboxEvents.find? id = some e → e.eventType = "TransactionBlocked" →
    ∃ velocity amount, payloadField "reason" e.payload = some (.str (blockReason velocity amount))

variable {d : Deployment} {α : Type}

/-- An insert keeps the reasons if it inserts an event with a reason, or of another type. -/
private theorem keeps_createOutboxEvent {data : OutboxEventData}
    (h : data.eventType = "TransactionBlocked" → ∃ velocity amount,
      payloadField "reason" data.payload = some (.str (blockReason velocity amount))) :
    (Tx.query (Sql.createOutboxEvent data)).Keeps Reasoned := by
  refine Tx.keeps_query fun env view db hdb {id e} he htype ↦ ?_
  rcases Relational.Table.eq_or_of_find?_insert he with rfl | hold
  · exact h htype
  · exact hdb hold htype

/-- A statement that leaves the outbox alone keeps the reasons. -/
private theorem keeps_other {s : Query α}
    (h : ∀ env view db, (s.write env view db).outboxEvents = db.outboxEvents) :
    (Tx.query s).Keeps Reasoned := by
  refine Tx.keeps_query fun env view db hdb {id e} he ↦ ?_
  rw [h] at he
  exact hdb he

private theorem keeps_create (input : CreateTransactionInput) (request : Request) :
    (create d input request).Keeps Reasoned := by
  unfold create
  split
  · exact trivial
  · refine Tx.Keeps.transaction ((keeps_other fun _ _ _ ↦ rfl).bind fun account ↦ ?_)
    split
    · exact trivial
    split
    · exact trivial
    refine (keeps_other fun _ _ _ ↦ rfl).bind fun _ ↦ (keeps_other fun _ _ _ ↦ rfl).bind fun _ ↦ ?_
    split
    · exact trivial
    split
    · exact trivial
    refine (keeps_other fun _ _ _ ↦ rfl).bind fun _ ↦ (keeps_other fun _ _ _ ↦ rfl).bind fun _ ↦
      (keeps_other fun _ _ _ ↦ rfl).bind fun _ ↦ (keeps_other fun _ _ _ ↦ rfl).bind fun _ ↦
      (keeps_other fun _ _ _ ↦ rfl).bind fun _ ↦ (keeps_other fun _ _ _ ↦ rfl).bind fun row ↦ ?_
    dsimp only
    split
    · refine (keeps_other fun _ _ _ ↦ rfl).bind fun _ ↦
        (keeps_createOutboxEvent fun _ ↦ ⟨_, _, rfl⟩).bind fun _ ↦ trivial
    · refine (keeps_other fun _ _ _ ↦ rfl).bind fun _ ↦
        (keeps_createOutboxEvent fun htype ↦ ?_).bind fun _ ↦ trivial
      exact absurd htype (by simp [completedEvent])

private theorem keeps_ledgerEvent (event : TransactionEvent) :
    (Ledger.handleEvent event).Keeps Reasoned := by
  refine Tx.Keeps.transaction ((keeps_other fun _ _ _ ↦ rfl).bind fun found ↦ ?_)
  split
  · exact trivial
  split
  · refine Tx.Keeps.bind ?_ fun _ ↦ keeps_other fun _ _ _ ↦ rfl
    unfold Ledger.postEntry
    split
    · exact trivial
    · refine (keeps_other fun _ _ _ ↦ rfl).bind fun _ ↦ (keeps_other fun _ _ _ ↦ rfl).bind fun _ ↦
        keeps_createOutboxEvent fun htype ↦ ?_
      exact absurd htype (by simp [Ledger.ledgerUpdatedEvent])
  · exact keeps_other fun _ _ _ ↦ rfl

private theorem keeps_finalizationEvent (event : TransactionEvent) :
    (Finalization.handleEvent event).Keeps Reasoned := by
  unfold Finalization.handleEvent
  split
  · exact trivial
  split
  · exact trivial
  refine Tx.Keeps.transaction ((keeps_other fun _ _ _ ↦ rfl).bind fun found ↦ ?_)
  split
  · exact trivial
  refine (keeps_other fun _ _ _ ↦ rfl).bind fun transaction ↦ ?_
  split
  · exact trivial
  split
  · refine (keeps_other fun _ _ _ ↦ rfl).bind fun _ ↦
      (keeps_createOutboxEvent fun htype ↦ ?_).bind fun _ ↦ keeps_other fun _ _ _ ↦ rfl
    exact absurd htype (by simp [Finalization.finalizedEvent])
  · exact keeps_other fun _ _ _ ↦ rfl

private theorem keeps_compensateInTransaction (candidate : String) :
    (Finalization.compensateInTransaction candidate).Keeps Reasoned := by
  refine (keeps_other fun _ _ _ ↦ rfl).bind fun transaction ↦ ?_
  split
  · exact trivial
  refine (keeps_other fun _ _ _ ↦ rfl).bind fun entry ↦ ?_
  split
  · exact trivial
  refine (keeps_other fun _ _ _ ↦ rfl).bind fun balance ↦ ?_
  split
  · exact trivial
  dsimp only
  split
  · exact trivial
  · refine (keeps_other fun _ _ _ ↦ rfl).bind fun _ ↦ (keeps_other fun _ _ _ ↦ rfl).bind fun _ ↦
      keeps_createOutboxEvent fun htype ↦ ?_
    exact absurd htype (by simp [Finalization.compensatedEvent])

private theorem keeps_compensateEach (candidates : List String) :
    (Finalization.compensateEach candidates).Keeps Reasoned := by
  induction candidates with
  | nil => exact trivial
  | cons candidate rest ih =>
    exact (keeps_compensateInTransaction candidate).transaction.bind fun _ ↦ ih

/-- Every call keeps the reasons. -/
private theorem keeps_begins {call : Call} {db : Database} {program : Process Reply}
    (h : begins d call db = some program) : program.Keeps Reasoned := by
  cases call with
  | create input request =>
    cases h
    exact (keeps_create input request).bind fun _ ↦ trivial
  | ledgerEvent eventId =>
    obtain ⟨event, -, rfl⟩ := Option.map_eq_some_iff.mp h
    exact (keeps_ledgerEvent event).bind fun _ ↦ trivial
  | finalizationEvent eventId =>
    obtain ⟨event, -, rfl⟩ := Option.map_eq_some_iff.mp h
    exact (keeps_finalizationEvent event).bind fun _ ↦ trivial
  | timeoutScan =>
    cases h
    refine Tx.Keeps.bind ?_ fun _ ↦ trivial
    refine (keeps_other fun _ _ _ ↦ rfl).bind fun _ ↦ (keeps_other fun _ _ _ ↦ rfl).bind
      fun candidates ↦ ?_
    exact keeps_compensateEach candidates

/-- In every reachable state, every blocked event gives a reason. -/
theorem reasoned {accounts : Relational.Table Account.id} {now : Js.Date} {s : SystemState}
    (h : Runs d (initial accounts now) s) : Reasoned s.db := by
  refine Relational.keeps_runs keeps_begins (fun {id e} he ↦ ?_) h
  simp [Database.opening] at he

end Banking
