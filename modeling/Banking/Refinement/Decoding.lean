import Banking.Atomic.Lifecycle
import Banking.Events.Format

/-!
# What a decoded event says

A worker reads an outbox row through two schemas, the envelope when the message is decoded and
the stricter schema of the event type in the handler. Whatever passes both carries the fields of
the transaction that the row was written for.
-/

namespace Banking

open Zod (Schema)

/-! ### The envelope -/

/-- A delivered event is a committed outbox row with its type trimmed and its payload copied. -/
theorem delivered_eq_some {db : Database} {eventId : String} {event : TransactionEvent}
    (h : delivered db eventId = some event) :
    ∃ row, db.outboxEvents.find? eventId = some row ∧ event.eventId = eventId ∧
      event.eventType = Js.trim row.eventType ∧
      Zod.record (some row.payload) = some event.payload := by
  obtain ⟨row, hrow, hevent⟩ := Option.bind_eq_some_iff.mp h
  obtain ⟨hid, htype, hpayload⟩ := eventSchema_eq_some hevent
  refine ⟨row, hrow, ?_, ?_, hpayload⟩
  · obtain ⟨hid, -⟩ := Zod.refine_eq_some.mp hid
    rw [← Relational.Table.key_of_find? hrow]
    exact (Option.some.inj hid).symm
  · obtain ⟨htrim, -⟩ := Zod.refine_eq_some.mp htype
    obtain ⟨text, htext, htrim⟩ := Zod.transform_eq_some.mp htrim
    cases htext
    exact htrim.symm

/-- The types that are written need no trimming. -/
theorem trim_eventType {s : String} (h : s ∈ ["TransactionCompleted",
    "TransactionBlocked", "LedgerUpdated", "TransactionFinalized", "TransactionCompensated"]) :
    Js.trim s = s ∧ 1 ≤ Js.length s := by
  simp only [List.mem_cons, List.not_mem_nil, or_false] at h
  rcases h with rfl | rfl | rfl | rfl | rfl <;> decide

/-- The payloads that are written are copied as they are. -/
theorem Consistent.record_payload {db : Database} (h : Consistent db) {id : String}
    {row : OutboxEvent} (hrow : db.outboxEvents.find? id = some row) :
    ∃ fields, row.payload = .obj fields ∧ Zod.record (some row.payload) = some fields := by
  obtain ⟨t, -, -, hfiled⟩ := h.filed hrow
  cases hfiled with
  | completed hcompleted =>
    obtain ⟨input, ip, -, hdata⟩ := hcompleted
    rw [hdata]
    exact ⟨_, rfl, by cases ip <;> rfl⟩
  | blocked hblocked =>
    obtain ⟨input, ip, reason, -, hdata⟩ := hblocked
    rw [hdata]
    exact ⟨_, rfl, by cases ip <;> rfl⟩
  | ledgerUpdated hupdated =>
    rw [IsLedgerUpdatedEvent] at hupdated
    rw [hupdated]
    exact ⟨_, rfl, rfl⟩
  | finalized hfinalized =>
    rw [IsFinalizedEvent] at hfinalized
    rw [hfinalized]
    exact ⟨_, rfl, rfl⟩
  | compensated hcompensated =>
    obtain ⟨balance, hdata⟩ := hcompensated
    rw [hdata]
    exact ⟨_, rfl, rfl⟩

/-- A delivered event is a committed outbox row. -/
theorem Consistent.delivered {db : Database} (h : Consistent db) {eventId : String}
    {event : TransactionEvent} (hd : delivered db eventId = some event) :
    ∃ row, db.outboxEvents.find? eventId = some row ∧ event.eventId = eventId ∧
      event.eventType = row.eventType ∧ row.payload = .obj event.payload := by
  obtain ⟨row, hrow, hid, htype, hpayload⟩ := delivered_eq_some hd
  obtain ⟨fields, hfields, hrecord⟩ := h.record_payload hrow
  obtain rfl := Option.some.inj (hrecord.symm.trans hpayload)
  exact ⟨row, hrow, hid, htype.trans (trim_eventType (h.eventType hrow)).1, hfields⟩

/-! ### The payloads -/

section Payloads

variable {input : CreateTransactionInput} {t : Transaction} {balance : Int}

private theorem transactionId_parsed (hreq : Requested input t) {s : String}
    (h : Zod.boundedString 100 (some (.str t.transactionId)) = some s) : s = t.transactionId := by
  rw [← hreq.transactionId, Zod.boundedString_str input.transactionId_trimmed
    input.transactionId_length.1 input.transactionId_length.2] at h
  exact (Option.some.inj h).symm.trans hreq.transactionId

private theorem type_parsed {type type' : TransactionType}
    (h : transactionTypeSchema (some (.str type.label)) = some type') : type' = type := by
  cases type <;> exact (Option.some.inj h).symm

private theorem refine_parsed {p : String → Bool} {s s' : String}
    (h : Zod.string.refine p (some (.str s)) = some s') : s' = s ∧ p s = true := by
  obtain ⟨hs, hp⟩ := Zod.refine_eq_some.mp h
  cases hs
  exact ⟨rfl, hp⟩

/-- A completed event whose payload is accepted left a balance that is not negative, and its
payload carries the movement. -/
theorem completedEvent_parsed {ipAddress : Option String} {p : TransactionCompletedPayload}
    (hreq : Requested input t)
    (h : transactionCompletedPayloadSchema
      (some (completedEvent input t balance ipAddress).payload) = some p) :
    0 ≤ balance ∧ { p with ipAddress := none, deviceFingerprint := none } = movement t balance := by
  obtain ⟨fields, hfields, h⟩ := Zod.strictObject_eq_some h
  cases hfields
  simp only [Option.bind_eq_bind, Option.bind_eq_some_iff, Option.pure_def] at h
  obtain ⟨_, -, tid, htid, account, haccount, type, htype, amount, hamount, after, hafter,
    _, -, _, -, he⟩ := h
  cases he
  obtain ⟨rfl, hdigits⟩ := refine_parsed hafter
  obtain ⟨rfl, -⟩ := refine_parsed haccount
  obtain ⟨rfl, -⟩ := refine_parsed hamount
  refine ⟨Js.nonneg_of_isDigits_toString hdigits, ?_⟩
  rw [movement, transactionId_parsed hreq htid, type_parsed htype]

/-- A blocked event whose payload is accepted carries the transaction and its account. -/
theorem blockedEvent_parsed {ipAddress : Option String} {reason : String}
    {p : TransactionBlockedPayload} (hreq : Requested input t)
    (h : transactionBlockedPayloadSchema
      (some (blockedEvent input t ipAddress reason).payload) = some p) :
    p.transactionId = t.transactionId ∧ p.accountId = t.accountId := by
  obtain ⟨fields, hfields, h⟩ := Zod.strictObject_eq_some h
  cases hfields
  simp only [Option.bind_eq_bind, Option.bind_eq_some_iff, Option.pure_def] at h
  obtain ⟨_, -, tid, htid, account, haccount, _, -, _, -, _, -, _, -, _, -, he⟩ := h
  cases he
  obtain ⟨rfl, -⟩ := refine_parsed haccount
  exact ⟨transactionId_parsed hreq htid, rfl⟩

/-- The identifier of a requested transaction is accepted. -/
theorem Requested.transactionId_accepted (hreq : Requested input t) :
    Zod.boundedString 100 (some (.str t.transactionId)) = some t.transactionId := by
  rw [← hreq.transactionId]
  exact Zod.boundedString_str input.transactionId_trimmed input.transactionId_length.1
    input.transactionId_length.2

/-- The account of a requested transaction is accepted. -/
theorem Requested.accountId_accepted (hreq : Requested input t) :
    Zod.uuid (some (.str t.accountId)) = some t.accountId :=
  Zod.refine_str (hreq.accountId ▸ input.accountId_uuid)

/-- The amount of a requested transaction is accepted. -/
theorem Requested.amount_accepted (hreq : Requested input t) :
    amountSchema (some (.str (toString t.amount))) = some (toString t.amount) :=
  Zod.refine_str (Js.isPositiveDigits_toString (hreq.amount ▸ input.amountMinor_pos))

private theorem deviceFingerprint_accepted (input : CreateTransactionInput) :
    Zod.trimmedString (some (.str input.deviceFingerprint)) = some input.deviceFingerprint :=
  Zod.trimmedString_str input.deviceFingerprint_trimmed input.deviceFingerprint_length.1

/-- A balance that is not negative is accepted. -/
theorem balance_accepted (hbalance : 0 ≤ balance) :
    balanceSchema (some (.str (toString balance))) = some (toString balance) :=
  Zod.refine_str (Js.isDigits_toString hbalance)

/-- A completed event that left a balance that is not negative has an accepted payload. -/
theorem completedEvent_accepted {ipAddress : Option String} (hreq : Requested input t)
    (hbalance : 0 ≤ balance) :
    transactionCompletedPayloadSchema (some (completedEvent input t balance ipAddress).payload) =
      some ⟨t.transactionId, t.accountId, t.type, toString t.amount, toString balance,
        some ipAddress, some input.deviceFingerprint⟩ :=
  completedPayload_accepted hreq.transactionId_accepted hreq.accountId_accepted
    hreq.amount_accepted (balance_accepted hbalance) (deviceFingerprint_accepted input)

/-- A blocked event with a reason has an accepted payload. -/
theorem blockedEvent_accepted {ipAddress : Option String} {reason : String}
    (hreq : Requested input t) (hreason : Zod.trimmedString (some (.str reason)) = some reason) :
    transactionBlockedPayloadSchema (some (blockedEvent input t ipAddress reason).payload) =
      some ⟨t.transactionId, t.accountId, t.type, toString t.amount, some ipAddress,
        some input.deviceFingerprint, reason⟩ :=
  blockedPayload_accepted hreq.transactionId_accepted hreq.accountId_accepted
    hreq.amount_accepted (deviceFingerprint_accepted input) hreason

/-- The movement of a completed event. -/
def postedPayload (t : Transaction) (balance : Int) : LedgerUpdatedPayload :=
  ⟨t.transactionId, t.accountId, t.type, toString t.amount, toString balance⟩

/-- A ledger event of a balance that is not negative has an accepted payload. -/
theorem ledgerUpdatedEvent_accepted (hreq : Requested input t) (hbalance : 0 ≤ balance) :
    ledgerUpdatedPayloadSchema (some (Ledger.ledgerUpdatedEvent (movement t balance)).payload) =
      some (postedPayload t balance) :=
  postedPayload_accepted "LedgerUpdated" hreq.transactionId_accepted hreq.accountId_accepted
    hreq.amount_accepted (balance_accepted hbalance)

/-- A finalized event of a balance that is not negative has an accepted payload. -/
theorem finalizedEvent_accepted (hreq : Requested input t) (hbalance : 0 ≤ balance) :
    finalizedPayloadSchema (some (Finalization.finalizedEvent (postedPayload t balance)).payload) =
      some (postedPayload t balance) :=
  postedPayload_accepted "TransactionFinalized" hreq.transactionId_accepted
    hreq.accountId_accepted hreq.amount_accepted (balance_accepted hbalance)

/-- A ledger event whose payload is accepted carries the movement. -/
theorem ledgerUpdatedEvent_parsed {p : LedgerUpdatedPayload} (hreq : Requested input t)
    (h : ledgerUpdatedPayloadSchema
      (some (Ledger.ledgerUpdatedEvent (movement t balance)).payload) = some p) :
    p = ⟨t.transactionId, t.accountId, t.type, toString t.amount, toString balance⟩ := by
  obtain ⟨fields, hfields, h⟩ := Zod.strictObject_eq_some h
  cases hfields
  simp only [Option.bind_eq_bind, Option.bind_eq_some_iff, Option.pure_def] at h
  obtain ⟨_, -, tid, htid, account, haccount, type, htype, amount, hamount, after, hafter,
    he⟩ := h
  cases he
  obtain ⟨rfl, -⟩ := refine_parsed hafter
  obtain ⟨rfl, -⟩ := refine_parsed haccount
  obtain ⟨rfl, -⟩ := refine_parsed hamount
  obtain rfl : tid = t.transactionId := transactionId_parsed hreq htid
  obtain rfl : type = t.type := type_parsed htype
  rfl

end Payloads

end Banking
