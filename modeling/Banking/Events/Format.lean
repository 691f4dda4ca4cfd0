import Banking.Events.Topic
import Banking.Transactions.Repository

/-!
# The format of events

What consumers accept of an outbox row: the envelope field by field, and the payloads of the four
types that have a schema of their own. A parsed payload stands for an object again.
-/

namespace Banking

open Zod (Schema)

/-! ### Parsed payloads as values -/

/-- A field that may be missing. -/
def optionalField (key : String) (value : Option Json) : List (String × Json) :=
  value.toList.map (key, ·)

/-- The object that a parsed completed payload is. -/
def TransactionCompletedPayload.toJson (p : TransactionCompletedPayload) : Json :=
  .obj ([("type", .str "TransactionCompleted"), ("transactionId", .str p.transactionId),
    ("accountId", .str p.accountId), ("txnType", .str p.txnType.label), ("amount", .str p.amount),
    ("balanceAfter", .str p.balanceAfter)] ++
    optionalField "ipAddress" (p.ipAddress.map jsonOrNull) ++
    optionalField "deviceFingerprint" (p.deviceFingerprint.map .str))

/-- The object that a parsed blocked payload is. -/
def TransactionBlockedPayload.toJson (p : TransactionBlockedPayload) : Json :=
  .obj ([("type", .str "TransactionBlocked"), ("transactionId", .str p.transactionId),
    ("accountId", .str p.accountId), ("txnType", .str p.txnType.label),
    ("amount", .str p.amount)] ++ optionalField "ipAddress" (p.ipAddress.map jsonOrNull) ++
    optionalField "deviceFingerprint" (p.deviceFingerprint.map .str) ++ [("reason", .str p.reason)])

/-- The object that a parsed payload of a ledger or finalized event is. -/
def LedgerUpdatedPayload.toJson (type : String) (p : LedgerUpdatedPayload) : Json :=
  .obj [("type", .str type), ("transactionId", .str p.transactionId),
    ("accountId", .str p.accountId), ("txnType", .str p.txnType.label), ("amount", .str p.amount),
    ("balanceAfter", .str p.balanceAfter)]

/-- The event with its payload parsed further. -/
def EventOf.withPayload {P Q : Type} (event : EventOf P) (payload : Q) : EventOf Q where
  eventId := event.eventId
  eventType := event.eventType
  eventVersion := event.eventVersion
  aggregateId := event.aggregateId
  transactionId := event.transactionId
  occurredAt := event.occurredAt
  payload := payload

/-- A stricter schema accepts the event and leaves its payload as it is. -/
def Accepts {P : Type} (schema : Schema (EventOf P)) (toJson : P → Json)
    (event : TransactionEvent) : Prop :=
  ∃ payload, schema (some event.toJson) = some (event.withPayload payload) ∧
    toJson payload = .obj event.payload

/-- What a consumer reads of an outbox row. -/
structure Reads (e : OutboxEvent) (event : TransactionEvent) : Prop where
  decoded : transactionEventSchema (some (serializeEvent e)) = some event
  eventId : event.eventId = e.id
  eventType : event.eventType = e.eventType
  eventVersion : event.eventVersion = e.eventVersion
  aggregateId : event.aggregateId = e.aggregateId
  transactionId : event.transactionId = e.transactionId
  occurredAt : event.occurredDate = some e.createdAt
  payload : .obj event.payload = e.payload
  completed : e.eventType = "TransactionCompleted" →
    Accepts transactionCompletedEventSchema TransactionCompletedPayload.toJson event
  blocked : e.eventType = "TransactionBlocked" →
    Accepts transactionBlockedEventSchema TransactionBlockedPayload.toJson event
  ledgerUpdated : e.eventType = "LedgerUpdated" →
    Accepts ledgerUpdatedEventSchema (LedgerUpdatedPayload.toJson "LedgerUpdated") event
  finalized : e.eventType = "TransactionFinalized" →
    Accepts transactionFinalizedEventSchema (LedgerUpdatedPayload.toJson "TransactionFinalized")
      event

/-! ### Payloads -/

section Payloads

variable {tid account amount after device reason : String} {type : TransactionType}
  {ipAddress : Option String}

private theorem type_accepted (type : TransactionType) :
    transactionTypeSchema (some (.str type.label)) = some type := by
  cases type <;> rfl

private theorem ipAddress_accepted (ipAddress : Option String) :
    Zod.string.nullable.optional (some (jsonOrNull ipAddress)) = some (some ipAddress) := by
  cases ipAddress <;> rfl

private theorem literal_accepted (type : String) :
    Zod.literal type (some (.str type)) = some type := Zod.refine_str (by simp)

/-- A completed payload whose fields pass their checks is accepted. -/
theorem completedPayload_accepted
    (htid : Zod.boundedString 100 (some (.str tid)) = some tid)
    (haccount : Zod.uuid (some (.str account)) = some account)
    (hamount : amountSchema (some (.str amount)) = some amount)
    (hafter : balanceSchema (some (.str after)) = some after)
    (hdevice : Zod.trimmedString (some (.str device)) = some device) :
    transactionCompletedPayloadSchema (some (.obj [("type", .str "TransactionCompleted"),
      ("transactionId", .str tid), ("accountId", .str account), ("txnType", .str type.label),
      ("amount", .str amount), ("balanceAfter", .str after), ("ipAddress", jsonOrNull ipAddress),
      ("deviceFingerprint", .str device)])) =
      some ⟨tid, account, type, amount, after, some ipAddress, some device⟩ := by
  rw [transactionCompletedPayloadSchema, Zod.strictObject_obj (by rfl)]
  refine Option.bind_eq_some_iff.mpr ⟨_, literal_accepted _, ?_⟩
  refine Option.bind_eq_some_iff.mpr ⟨_, htid, ?_⟩
  refine Option.bind_eq_some_iff.mpr ⟨_, haccount, ?_⟩
  refine Option.bind_eq_some_iff.mpr ⟨_, type_accepted type, ?_⟩
  refine Option.bind_eq_some_iff.mpr ⟨_, hamount, ?_⟩
  refine Option.bind_eq_some_iff.mpr ⟨_, hafter, ?_⟩
  refine Option.bind_eq_some_iff.mpr ⟨_, ipAddress_accepted ipAddress, ?_⟩
  exact Option.bind_eq_some_iff.mpr ⟨_, Zod.optional_some hdevice, rfl⟩

/-- A blocked payload whose fields pass their checks is accepted. -/
theorem blockedPayload_accepted
    (htid : Zod.boundedString 100 (some (.str tid)) = some tid)
    (haccount : Zod.uuid (some (.str account)) = some account)
    (hamount : amountSchema (some (.str amount)) = some amount)
    (hdevice : Zod.trimmedString (some (.str device)) = some device)
    (hreason : Zod.trimmedString (some (.str reason)) = some reason) :
    transactionBlockedPayloadSchema (some (.obj [("type", .str "TransactionBlocked"),
      ("transactionId", .str tid), ("accountId", .str account), ("txnType", .str type.label),
      ("amount", .str amount), ("ipAddress", jsonOrNull ipAddress),
      ("deviceFingerprint", .str device), ("reason", .str reason)])) =
      some ⟨tid, account, type, amount, some ipAddress, some device, reason⟩ := by
  rw [transactionBlockedPayloadSchema, Zod.strictObject_obj (by rfl)]
  refine Option.bind_eq_some_iff.mpr ⟨_, literal_accepted _, ?_⟩
  refine Option.bind_eq_some_iff.mpr ⟨_, htid, ?_⟩
  refine Option.bind_eq_some_iff.mpr ⟨_, haccount, ?_⟩
  refine Option.bind_eq_some_iff.mpr ⟨_, type_accepted type, ?_⟩
  refine Option.bind_eq_some_iff.mpr ⟨_, hamount, ?_⟩
  refine Option.bind_eq_some_iff.mpr ⟨_, ipAddress_accepted ipAddress, ?_⟩
  refine Option.bind_eq_some_iff.mpr ⟨_, Zod.optional_some hdevice, ?_⟩
  exact Option.bind_eq_some_iff.mpr ⟨_, hreason, rfl⟩

/-- The payloads of ledger and finalized events differ in their type only. -/
theorem postedPayload_accepted (literal : String)
    (htid : Zod.boundedString 100 (some (.str tid)) = some tid)
    (haccount : Zod.uuid (some (.str account)) = some account)
    (hamount : amountSchema (some (.str amount)) = some amount)
    (hafter : balanceSchema (some (.str after)) = some after) :
    (Zod.strictObject ["type", "transactionId", "accountId", "txnType", "amount", "balanceAfter"]
      fun field ↦ do
        let _ ← Zod.literal literal (field "type")
        let transactionId ← Zod.boundedString 100 (field "transactionId")
        let accountId ← Zod.uuid (field "accountId")
        let txnType ← transactionTypeSchema (field "txnType")
        let amount ← amountSchema (field "amount")
        let balanceAfter ← balanceSchema (field "balanceAfter")
        return LedgerUpdatedPayload.mk transactionId accountId txnType amount balanceAfter)
      (some (.obj [("type", .str literal), ("transactionId", .str tid), ("accountId", .str account),
        ("txnType", .str type.label), ("amount", .str amount), ("balanceAfter", .str after)])) =
      some ⟨tid, account, type, amount, after⟩ := by
  rw [Zod.strictObject_obj (by rfl)]
  refine Option.bind_eq_some_iff.mpr ⟨_, literal_accepted literal, ?_⟩
  refine Option.bind_eq_some_iff.mpr ⟨_, htid, ?_⟩
  refine Option.bind_eq_some_iff.mpr ⟨_, haccount, ?_⟩
  refine Option.bind_eq_some_iff.mpr ⟨_, type_accepted type, ?_⟩
  refine Option.bind_eq_some_iff.mpr ⟨_, hamount, ?_⟩
  exact Option.bind_eq_some_iff.mpr ⟨_, hafter, rfl⟩

end Payloads

/-! ### Envelopes -/

/-- The writer's columns of a row pass the checks of the envelope. -/
structure WellFormed (e : OutboxEventData) (fields : List (String × Json)) : Prop where
  eventType : Zod.trimmedString (some (.str e.eventType)) = some e.eventType
  eventVersion : e.eventVersion = 1
  aggregateId : Zod.trimmedString (some (.str e.aggregateId)) = some e.aggregateId
  transactionId : Zod.boundedString 100 (some (.str e.transactionId)) = some e.transactionId
  payload : e.payload = .obj fields
  recorded : Zod.record (some (.obj fields)) = some fields

/-- The event of a row with these fields. -/
def OutboxEvent.event (e : OutboxEvent) (fields : List (String × Json)) : TransactionEvent where
  eventId := e.id
  eventType := e.eventType
  eventVersion := e.eventVersion
  aggregateId := e.aggregateId
  transactionId := e.transactionId
  occurredAt := e.createdAt.toISOString
  payload := fields

variable {e : OutboxEvent} {fields : List (String × Json)}

/-- A row that is well formed passes as an envelope with any payload schema that accepts its
payload. -/
theorem WellFormed.accepted (h : WellFormed e.toOutboxEventData fields)
    (hid : Zod.isUuid e.id = true)
    (hyear : 0 ≤ e.createdAt.getUTCFullYear ∧ e.createdAt.getUTCFullYear ≤ 9999) {P : Type}
    {type : Schema String} {schema : Schema P} {p : P}
    (htype : type (some (.str e.eventType)) = some e.eventType)
    (hpayload : schema (some (.obj fields)) = some p) :
    eventSchema type schema (some (e.event fields).toJson) =
      some ((e.event fields).withPayload p) := by
  have huuid : Zod.uuid (some (.str e.id)) = some e.id := Zod.refine_str hid
  have hversion : Zod.positiveInt (some (.num e.eventVersion)) = some e.eventVersion := by
    rw [h.eventVersion]
    rfl
  have hdate : Zod.isoDatetime (some (.str e.createdAt.toISOString)) =
      some e.createdAt.toISOString := Zod.refine_str (Js.parse_toISOString hyear).1
  rw [eventSchema, EventOf.toJson, Zod.strictObject_obj (by rfl)]
  refine Option.bind_eq_some_iff.mpr ⟨_, huuid, ?_⟩
  refine Option.bind_eq_some_iff.mpr ⟨_, htype, ?_⟩
  refine Option.bind_eq_some_iff.mpr ⟨_, hversion, ?_⟩
  refine Option.bind_eq_some_iff.mpr ⟨_, h.aggregateId, ?_⟩
  refine Option.bind_eq_some_iff.mpr ⟨_, h.transactionId, ?_⟩
  refine Option.bind_eq_some_iff.mpr ⟨_, hdate, ?_⟩
  exact Option.bind_eq_some_iff.mpr ⟨_, hpayload, rfl⟩

/-- A row that is well formed, and whose payload is accepted if its type has a schema, is read. -/
theorem WellFormed.reads (h : WellFormed e.toOutboxEventData fields) (hid : Zod.isUuid e.id = true)
    (hyear : 0 ≤ e.createdAt.getUTCFullYear ∧ e.createdAt.getUTCFullYear ≤ 9999)
    (hcompleted : e.eventType = "TransactionCompleted" → ∃ p,
      transactionCompletedPayloadSchema (some (.obj fields)) = some p ∧ p.toJson = .obj fields)
    (hblocked : e.eventType = "TransactionBlocked" → ∃ p,
      transactionBlockedPayloadSchema (some (.obj fields)) = some p ∧ p.toJson = .obj fields)
    (hupdated : e.eventType = "LedgerUpdated" → ∃ p,
      ledgerUpdatedPayloadSchema (some (.obj fields)) = some p ∧
        p.toJson "LedgerUpdated" = .obj fields)
    (hfinalized : e.eventType = "TransactionFinalized" → ∃ p,
      finalizedPayloadSchema (some (.obj fields)) = some p ∧
        p.toJson "TransactionFinalized" = .obj fields) : Reads e (e.event fields) where
  decoded := by
    have hserialized : serializeEvent e = (e.event fields).toJson := by
      rw [serializeEvent, h.payload]
      rfl
    rw [hserialized]
    exact h.accepted hid hyear h.eventType h.recorded
  eventId := rfl
  eventType := rfl
  eventVersion := rfl
  aggregateId := rfl
  transactionId := rfl
  occurredAt := (Js.parse_toISOString hyear).2
  payload := h.payload.symm
  completed htype := by
    obtain ⟨p, hp, hsame⟩ := hcompleted htype
    exact ⟨p, h.accepted hid hyear (htype ▸ Zod.refine_str (by simp)) hp, hsame⟩
  blocked htype := by
    obtain ⟨p, hp, hsame⟩ := hblocked htype
    exact ⟨p, h.accepted hid hyear (htype ▸ Zod.refine_str (by simp)) hp, hsame⟩
  ledgerUpdated htype := by
    obtain ⟨p, hp, hsame⟩ := hupdated htype
    exact ⟨p, h.accepted hid hyear (htype ▸ Zod.refine_str (by simp)) hp, hsame⟩
  finalized htype := by
    obtain ⟨p, hp, hsame⟩ := hfinalized htype
    exact ⟨p, h.accepted hid hyear (htype ▸ Zod.refine_str (by simp)) hp, hsame⟩

end Banking
