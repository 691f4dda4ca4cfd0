import Banking.Database.Tables

/-!
# Event schemas

The envelope and the payloads of `outbox-events.schema.ts` that the ledger worker, the
finalization worker and the replay read, and the serialized form that the publisher sends.
A rejected value is `none`; the handlers turn it into an exception.
-/

namespace Banking

open Zod (Schema)

/-- A parsed event with payloads `P`; `outbox-events.schema.ts:53–65`. -/
structure EventOf (P : Type) where
  eventId : String
  eventType : String
  eventVersion : Int
  aggregateId : String
  transactionId : String
  occurredAt : String
  payload : P

/-- An event whose payload is any object. -/
abbrev TransactionEvent := EventOf (List (String × Json))

/-- The envelope with the schemas of its type and payload left open. -/
def eventSchema {P : Type} (eventType : Schema String) (payload : Schema P) :
    Schema (EventOf P) :=
  Zod.strictObject ["eventId", "eventType", "eventVersion", "aggregateId", "transactionId",
    "occurredAt", "payload"] fun field ↦ do
    let eventId ← Zod.uuid (field "eventId")
    let eventType ← eventType (field "eventType")
    let eventVersion ← Zod.positiveInt (field "eventVersion")
    let aggregateId ← Zod.trimmedString (field "aggregateId")
    let transactionId ← Zod.boundedString 100 (field "transactionId")
    let occurredAt ← Zod.isoDatetime (field "occurredAt")
    let payload ← payload (field "payload")
    return { eventId, eventType, eventVersion, aggregateId, transactionId, occurredAt, payload }

/-- `outbox-events.schema.ts:53–65`. -/
def transactionEventSchema : Schema TransactionEvent :=
  eventSchema Zod.trimmedString Zod.record

/-- `z.enum(['DEBIT', 'CREDIT'])`. -/
def transactionTypeSchema : Schema TransactionType
  | some (.str "DEBIT") => some .DEBIT
  | some (.str "CREDIT") => some .CREDIT
  | _ => none

/-- `z.string().regex(/^[1-9]\d*$/)`. -/
def amountSchema : Schema String := Zod.string.refine Js.isPositiveDigits

/-- `z.string().regex(/^\d+$/)`. -/
def balanceSchema : Schema String := Zod.string.refine Js.isDigits

/-- The payload of a `TransactionCompleted` event. -/
structure TransactionCompletedPayload where
  transactionId : String
  accountId : String
  txnType : TransactionType
  amount : String
  balanceAfter : String
  ipAddress : Option (Option String)
  deviceFingerprint : Option String

/-- `outbox-events.schema.ts:40–51`. -/
def transactionCompletedPayloadSchema : Schema TransactionCompletedPayload :=
  Zod.strictObject ["type", "transactionId", "accountId", "txnType", "amount", "balanceAfter",
    "ipAddress", "deviceFingerprint"] fun field ↦ do
    let _ ← Zod.literal "TransactionCompleted" (field "type")
    let transactionId ← Zod.boundedString 100 (field "transactionId")
    let accountId ← Zod.uuid (field "accountId")
    let txnType ← transactionTypeSchema (field "txnType")
    let amount ← amountSchema (field "amount")
    let balanceAfter ← balanceSchema (field "balanceAfter")
    let ipAddress ← Zod.string.nullable.optional (field "ipAddress")
    let deviceFingerprint ← Zod.trimmedString.optional (field "deviceFingerprint")
    return { transactionId, accountId, txnType, amount, balanceAfter, ipAddress,
             deviceFingerprint }

/-- `outbox-events.schema.ts:67–70`. -/
def transactionCompletedEventSchema : Schema (EventOf TransactionCompletedPayload) :=
  eventSchema (Zod.literal "TransactionCompleted") transactionCompletedPayloadSchema

/-- The payload of a `LedgerUpdated` event. -/
structure LedgerUpdatedPayload where
  transactionId : String
  accountId : String
  txnType : TransactionType
  amount : String
  balanceAfter : String

/-- `outbox-events.schema.ts:90–99`. -/
def ledgerUpdatedPayloadSchema : Schema LedgerUpdatedPayload :=
  Zod.strictObject ["type", "transactionId", "accountId", "txnType", "amount", "balanceAfter"]
    fun field ↦ do
    let _ ← Zod.literal "LedgerUpdated" (field "type")
    let transactionId ← Zod.boundedString 100 (field "transactionId")
    let accountId ← Zod.uuid (field "accountId")
    let txnType ← transactionTypeSchema (field "txnType")
    let amount ← amountSchema (field "amount")
    let balanceAfter ← balanceSchema (field "balanceAfter")
    return { transactionId, accountId, txnType, amount, balanceAfter }

/-- `outbox-events.schema.ts:88–100`. -/
def ledgerUpdatedEventSchema : Schema (EventOf LedgerUpdatedPayload) :=
  eventSchema (Zod.literal "LedgerUpdated") ledgerUpdatedPayloadSchema

/-- The payload of a `TransactionBlocked` event. -/
structure TransactionBlockedPayload where
  transactionId : String
  accountId : String
  txnType : TransactionType
  amount : String
  ipAddress : Option (Option String)
  deviceFingerprint : Option String
  reason : String

/-- `outbox-events.schema.ts:74–85`. -/
def transactionBlockedPayloadSchema : Schema TransactionBlockedPayload :=
  Zod.strictObject ["type", "transactionId", "accountId", "txnType", "amount", "ipAddress",
    "deviceFingerprint", "reason"] fun field ↦ do
    let _ ← Zod.literal "TransactionBlocked" (field "type")
    let transactionId ← Zod.boundedString 100 (field "transactionId")
    let accountId ← Zod.uuid (field "accountId")
    let txnType ← transactionTypeSchema (field "txnType")
    let amount ← amountSchema (field "amount")
    let ipAddress ← Zod.string.nullable.optional (field "ipAddress")
    let deviceFingerprint ← Zod.trimmedString.optional (field "deviceFingerprint")
    let reason ← Zod.trimmedString (field "reason")
    return { transactionId, accountId, txnType, amount, ipAddress, deviceFingerprint, reason }

/-- `outbox-events.schema.ts:72–86`. -/
def transactionBlockedEventSchema : Schema (EventOf TransactionBlockedPayload) :=
  eventSchema (Zod.literal "TransactionBlocked") transactionBlockedPayloadSchema

/-- The payload of a `TransactionFinalized` event has the fields of a `LedgerUpdated` payload. -/
abbrev TransactionFinalizedPayload := LedgerUpdatedPayload

/-- `outbox-events.schema.ts:102–111`. -/
def finalizedPayloadSchema : Schema TransactionFinalizedPayload :=
  Zod.strictObject ["type", "transactionId", "accountId", "txnType", "amount", "balanceAfter"]
    fun field ↦ do
    let _ ← Zod.literal "TransactionFinalized" (field "type")
    let transactionId ← Zod.boundedString 100 (field "transactionId")
    let accountId ← Zod.uuid (field "accountId")
    let txnType ← transactionTypeSchema (field "txnType")
    let amount ← amountSchema (field "amount")
    let balanceAfter ← balanceSchema (field "balanceAfter")
    return { transactionId, accountId, txnType, amount, balanceAfter }

/-- `outbox-events.schema.ts:113–116`. -/
def transactionFinalizedEventSchema : Schema (EventOf TransactionFinalizedPayload) :=
  eventSchema (Zod.literal "TransactionFinalized") finalizedPayloadSchema

/-- The value whose text `serializeEvent` returns; `outbox-publisher/index.ts:17–27`. -/
def serializeEvent (event : OutboxEvent) : Json :=
  .obj [("eventId", .str event.id), ("eventType", .str event.eventType),
    ("eventVersion", .num event.eventVersion), ("aggregateId", .str event.aggregateId),
    ("transactionId", .str event.transactionId),
    ("occurredAt", .str event.createdAt.toISOString), ("payload", event.payload)]

/-- An event as the value that a stricter schema parses again. -/
def EventOf.toJson (event : TransactionEvent) : Json :=
  .obj [("eventId", .str event.eventId), ("eventType", .str event.eventType),
    ("eventVersion", .num event.eventVersion), ("aggregateId", .str event.aggregateId),
    ("transactionId", .str event.transactionId), ("occurredAt", .str event.occurredAt),
    ("payload", .obj event.payload)]

/-! ### What the envelope accepts -/

/-- What an accepted envelope took from its fields. -/
theorem eventSchema_eq_some {P : Type} {eventType : Schema String} {payload : Schema P}
    {fields : List (String × Json)} {event : EventOf P}
    (h : eventSchema eventType payload (some (.obj fields)) = some event) :
    Zod.uuid (fields.lookup "eventId") = some event.eventId ∧
      eventType (fields.lookup "eventType") = some event.eventType ∧
      payload (fields.lookup "payload") = some event.payload := by
  simp only [eventSchema, Zod.strictObject] at h
  split at h
  · simp only [Option.bind_eq_bind, Option.bind_eq_some_iff, Option.pure_def] at h
    obtain ⟨eventId, hid, type, htype, version, -, aggregate, -, tid, -, occurredAt, -, body, hbody,
      he⟩ := h
    cases he
    exact ⟨hid, htype, hbody⟩
  · cases h

end Banking
