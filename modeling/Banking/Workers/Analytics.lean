import Banking.Events.Topic
import Banking.Relational.Interleaving

/-!
# The analytics worker

`handleEvent` of `workers/analytics/index.ts` on the tables that it writes, and the deliveries
whose statements interleave. The metrics that it reads for its log are left out.
-/

namespace Banking.Analytics

open Js (Date)
open Relational (Stmt Table Tx)

/-! ### The tables -/

/-- `prisma/schema.prisma:128–138`. -/
structure AnalyticsMetric where
  bucketStart : Date
  completedCount : Int
  completedAmount : Int
  finalizedCount : Int
  finalizedAmount : Int
  deriving DecidableEq

/-- The committed rows. -/
structure Database where
  analyticsMetrics : Table AnalyticsMetric.bucketStart
  processedEvents : Table (fun p : ProcessedEvent ↦ (p.consumerName, p.eventId))

namespace Database

/-- Add a row, or update the one with the key; `update` keeps the key. -/
def upsertMetric (bucketStart : Date) (create : AnalyticsMetric)
    (update : AnalyticsMetric → AnalyticsMetric)
    (hupdate : ∀ m, (update m).bucketStart = m.bucketStart) (db : Database) : Database :=
  { db with
    analyticsMetrics :=
      match db.analyticsMetrics.find? bucketStart with
      | none => db.analyticsMetrics.insert create
      | some _ => db.analyticsMetrics.modify bucketStart update hupdate }

/-- Add a processed-event row. -/
def addProcessedEvent (p : ProcessedEvent) (db : Database) : Database :=
  { db with processedEvents := db.processedEvents.insert p }

end Database

/-! ### The statements -/

/-- Row locks of metrics and entries of the unique index of processed events. -/
inductive Lock where
  | metric (bucketStart : Date)
  | processedEvent (consumerName eventId : String)
  deriving DecidableEq

/-- A statement with result `β`. -/
abbrev Query (β : Type) := Stmt Database Lock Unit β

/-- A process with result `α`. -/
abbrev Process (α : Type) := Tx Database Lock Unit α

namespace Sql

/-- `processedEvent.findUnique`. -/
def findProcessedEvent (consumerName eventId : String) : Query (Option ProcessedEvent) where
  result _ db := some (db.processedEvents.find? (consumerName, eventId))

/-- `processedEvent.create`. -/
def createProcessedEvent (consumerName eventId : String) : Query Unit where
  locks _ _ := [.processedEvent consumerName eventId]
  result _ db := if (db.processedEvents.find? (consumerName, eventId)).isNone then some () else none
  write env _ db := db.addProcessedEvent ⟨eventId, consumerName, env.now⟩

/-- `analyticsMetric.upsert`. -/
def upsertMetric (bucketStart : Date) (create : AnalyticsMetric)
    (update : AnalyticsMetric → AnalyticsMetric)
    (hupdate : ∀ m, (update m).bucketStart = m.bucketStart) : Query Unit where
  locks _ _ := [.metric bucketStart]
  result _ _ := some ()
  write _ _ db := db.upsertMetric bucketStart create update hupdate

end Sql

/-! ### The handler -/

/-- `workers/analytics/index.ts:11`. -/
def CONSUMER_NAME : String := "banking-analytics-service-v1"

/-- `workers/analytics/index.ts:14–23`. -/
def hourBucket (date : Date) : Date :=
  Date.UTC date.getUTCFullYear date.getUTCMonth date.getUTCDate date.getUTCHours

/-- The upsert of a completed transaction; `workers/analytics/index.ts:39–50`. -/
def upsertCompleted (occurredAt : Date) (amount : Int) : Query Unit :=
  Sql.upsertMetric (hourBucket occurredAt)
    { bucketStart := hourBucket occurredAt, completedCount := 1, completedAmount := amount,
      finalizedCount := 0, finalizedAmount := 0 }
    (fun m ↦ { m with
      completedCount := m.completedCount + 1
      completedAmount := m.completedAmount + amount })
    (fun _ ↦ rfl)

/-- The upsert of a finalized transaction; `workers/analytics/index.ts:53–64`. -/
def upsertFinalized (occurredAt : Date) (amount : Int) : Query Unit :=
  Sql.upsertMetric (hourBucket occurredAt)
    { bucketStart := hourBucket occurredAt, completedCount := 0, completedAmount := 0,
      finalizedCount := 1, finalizedAmount := amount }
    (fun m ↦ { m with
      finalizedCount := m.finalizedCount + 1
      finalizedAmount := m.finalizedAmount + amount })
    (fun _ ↦ rfl)

/-- Count the event, if it is of one of the two types; `workers/analytics/index.ts:37–65`. An
invalid date makes the upsert throw. -/
def aggregate (event : TransactionEvent) : Process Unit :=
  if event.eventType = "TransactionCompleted" then
    match transactionCompletedEventSchema (some event.toJson), event.occurredDate with
    | some parsed, some occurredAt =>
      Tx.query (upsertCompleted occurredAt (Js.bigInt parsed.payload.amount))
    | _, _ => Tx.throw
  else if event.eventType = "TransactionFinalized" then
    match transactionFinalizedEventSchema (some event.toJson), event.occurredDate with
    | some parsed, some occurredAt =>
      Tx.query (upsertFinalized occurredAt (Js.bigInt parsed.payload.amount))
    | _, _ => Tx.throw
  else return ()

/-- `workers/analytics/index.ts:25–87`. -/
def handleEvent (event : TransactionEvent) : Process Unit := Tx.transaction do
  match ← Tx.query (Sql.findProcessedEvent CONSUMER_NAME event.eventId) with
  | some _ => return ()
  | none =>
    aggregate event
    Tx.query (Sql.createProcessedEvent CONSUMER_NAME event.eventId)

/-! ### The system -/

/-- A delivery starts the handler on the event with the identifier. -/
def begins (topic : Topic) (eventId : String) (_ : Database) : Option (Process Unit) :=
  (topic.event eventId).map handleEvent

/-- States of the running worker instances. -/
abbrev SystemState := Relational.State Database Lock Unit String Unit

/-- What can happen in the running worker instances. -/
abbrev SystemAction := Relational.Action Unit String

/-- Histories of deliveries. -/
abbrev Runs (topic : Topic) : SystemState → SystemState → Prop := Relational.Runs (begins topic)

/-- Nothing has been delivered. -/
def initial (now : Date) : SystemState := Relational.State.initial ⟨.empty, .empty⟩ now

end Banking.Analytics
