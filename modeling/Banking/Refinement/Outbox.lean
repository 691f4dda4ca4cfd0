import Banking.Outbox.Steps
import Banking.Refinement.System

/-!
# The engine and its publishers

The engine and the publishers share the outbox table. Every commit of the engine is the creation
of a new event in the system of the publishers, or leaves the outbox alone; no step of a publisher
changes what the engine put there; and a message in Kafka is the serialized form of a committed
event, which is what a delivery hands to a worker.
-/

namespace Banking

open Relational (Table)

/-- The outbox holds the events of the database, each in the version that the publishers left. -/
def Tracks (db : Database) (s : Outbox.State) : Prop :=
  ∀ id, Option.Rel Outbox.SameEvent (db.outboxEvents.find? id) (s.rows.find? id)

namespace Tracks

variable {d : Deployment} {call : Call} {own : Lock → Prop} {db db' : Database}
  {s s' : Outbox.State}

/-- Before the first event the outbox is empty. -/
theorem opening (accounts : Table Account.id) (clock : Nat → Js.Date) :
    Tracks (.opening accounts) (.initial clock) := fun _ ↦ .none

/-- The outbox has a version of every event of the database. -/
theorem row (h : Tracks db s) {id : String} {e : OutboxEvent}
    (he : db.outboxEvents.find? id = some e) :
    ∃ row, s.rows.find? id = some row ∧ Outbox.SameEvent e row := by
  have hrel := h id
  rw [he] at hrel
  cases hrow : s.rows.find? id with
  | none =>
    rw [hrow] at hrel
    cases hrel
  | some row =>
    rw [hrow] at hrel
    cases hrel with
    | some hsame => exact ⟨row, rfl, hsame⟩

/-- Every row of the outbox is a version of an event of the database. -/
theorem event (h : Tracks db s) {id : String} {row : OutboxEvent}
    (hrow : s.rows.find? id = some row) :
    ∃ e, db.outboxEvents.find? id = some e ∧ Outbox.SameEvent e row := by
  have hrel := h id
  rw [hrow] at hrel
  cases he : db.outboxEvents.find? id with
  | none =>
    rw [he] at hrel
    cases hrel
  | some e =>
    rw [he] at hrel
    cases hrel with
    | some hsame => exact ⟨e, rfl, hsame⟩

/-- An event that the database lacks is not in the outbox. -/
theorem absent (h : Tracks db s) {id : String} (hnone : db.outboxEvents.find? id = none) :
    s.rows.find? id = none := by
  cases hrow : s.rows.find? id with
  | none => rfl
  | some row =>
    obtain ⟨e, he, -⟩ := h.event hrow
    rw [hnone] at he
    cases he

/-- A commit of the engine creates one event in the outbox, or none. -/
theorem commit (h : Tracks db s) (hc : Commits d call own db db') :
    ∃ s', Outbox.Runs s s' ∧ Tracks db' s' := by
  rcases hc.outboxEvents with hsame | ⟨e, hunsent, hinsert⟩
  · refine ⟨s, .refl, fun id ↦ ?_⟩
    rw [hsame]
    exact h id
  · obtain ⟨data, id, now, rfl⟩ := hunsent.new
    have hfresh : s.rows.find? id = none := h.absent hunsent.absent
    have hstep : Outbox.step s (.create data id now) = some { s with
        rows := s.rows.insert (data.row id now)
        lastWrite := Function.update s.lastWrite id now } := by
      simp only [Outbox.step, hfresh]
    refine ⟨_, .single ⟨_, hstep⟩, fun k ↦ ?_⟩
    rw [hinsert, Table.find?_insert (r := data.row id now) hunsent.absent,
      Table.find?_insert (r := data.row id now) hfresh]
    by_cases hk : (data.row id now).id = k
    · rw [if_pos hk, if_pos hk]
      exact .some (.refl _)
    · rw [if_neg hk, if_neg hk]
      exact h k

/-- A step of the publishers that creates no event leaves those of the engine. -/
theorem publish (h : Tracks db s) (hs : s.Safe) {a : Outbox.Action}
    (hcreate : ∀ data id now, a ≠ .create data id now) (hstep : Outbox.step s a = some s') :
    Tracks db s' := by
  intro id
  cases he : db.outboxEvents.find? id with
  | none =>
    rw [Outbox.absent_step hcreate hstep (h.absent he)]
    exact .none
  | some e =>
    obtain ⟨row, hrow, hsame⟩ := h.row he
    obtain ⟨row', hrow', hsame'⟩ := (Outbox.safe_step hstep hs).2.row hrow
    rw [hrow']
    exact .some (hsame.trans hsame')

/-- What a consumer decodes from a message in Kafka is what a delivery of the system hands to a
worker. -/
theorem delivered (h : Tracks db s) (hs : s.Safe) {m : Outbox.Delivery} (hm : m ∈ s.deliveries) :
    ∃ eventId, Banking.delivered db eventId = transactionEventSchema (some m.message.value) := by
  obtain ⟨e, ⟨row, hrow, hknown⟩, hmessage⟩ := hs.sent m hm
  obtain ⟨event, hevent, hsame⟩ := h.event hrow
  refine ⟨e.id, ?_⟩
  rw [Banking.delivered, hevent, Option.bind_some, hmessage, hknown.message]
  exact congrArg (fun x : Outbox.KafkaMessage ↦ transactionEventSchema (some x.value))
    hsame.message

end Tracks

/-- Along every run of the engine the outbox receives its events, in the order of their commits. -/
theorem outbox_follows {d : Deployment} {accounts : Table Account.id} {now : Js.Date}
    {s : SystemState} (h : Runs d (initial accounts now) s) (clock : Nat → Js.Date) :
    ∃ t, Outbox.Runs (.initial clock) t ∧ Tracks s.db t := by
  refine Relational.Evolves.invariant
    (P := fun db ↦ ∃ t, Outbox.Runs (.initial clock) t ∧ Tracks db t) ?_ (sound h).evolved
    ⟨_, .refl, .opening accounts clock⟩
  rintro call b x hc ⟨t, ht, htracks⟩
  obtain ⟨t', ht', htracks'⟩ := htracks.commit hc
  exact ⟨t', ht.trans ht', htracks'⟩

end Banking
