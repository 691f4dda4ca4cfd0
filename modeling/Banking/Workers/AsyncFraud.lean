import Banking.Events.Topic
import Banking.System.Calls

/-!
# The asynchronous fraud worker

`handleEvent` of `workers/async-fraud/index.ts` over the tables of the engine and the table of
fraud signals, and deliveries of outbox rows whose statements interleave. The messages of one
partition are handled one at a time.
-/

namespace Banking.AsyncFraud

open Js (Date)
open Relational (Stmt Table Tx)

/-! ### The tables -/

/-- `prisma/schema.prisma:112–126`. -/
structure FraudSignal where
  accountId : String
  signalType : String
  signalValue : String
  transactionId : String
  observedAt : Date
  deriving DecidableEq

/-- The unique key of a signal. -/
def FraudSignal.key (r : FraudSignal) : String × String × String :=
  (r.signalType, r.signalValue, r.transactionId)

/-- The committed rows. -/
structure Database extends Banking.Database where
  fraudSignals : Table FraudSignal.key

/-- A type and a value that transactions may share. -/
structure Signal where
  signalType : String
  signalValue : String
  deriving DecidableEq

namespace Database

/-- Insert a signal; a row with its key is kept. -/
def addSignal (db : Database) (r : FraudSignal) : Database :=
  { db with fraudSignals := db.fraudSignals.insert r }

/-- Insert signals. -/
def addSignals (rows : List FraudSignal) (db : Database) : Database := rows.foldl addSignal db

/-- The rows with a signal observed between two times. -/
def matching (db : Database) (signal : Signal) (gte lte : Date) : List FraudSignal :=
  db.fraudSignals.rows.filter fun r ↦
    r.signalType == signal.signalType && r.signalValue == signal.signalValue &&
      decide (gte ≤ r.observedAt) && decide (r.observedAt ≤ lte)

/-- Flag an account. -/
def setFraudFlaggedAt (id : String) (t : Date) (db : Database) : Database :=
  { db with
    accounts := db.accounts.modify id (fun a ↦ { a with fraudFlaggedAt := some t }) (fun _ ↦ rfl) }

end Database

/-! ### The statements -/

/-- The locks of the engine's tables, entries of the unique index of signals, and the turn of a
partition. -/
inductive Lock where
  | engine (l : Banking.Lock)
  | fraudSignal (key : String × String × String)
  | partition (p : Nat)
  deriving DecidableEq

/-- A statement with result `β`. -/
abbrev Query (β : Type) := Stmt Database Lock Supply β

/-- A process with result `α`. -/
abbrev Process (α : Type) := Tx Database Lock Supply α

namespace Sql

/-- A statement on the engine's tables. -/
def onEngine {β : Type} (q : Banking.Query β) : Query β where
  locks env db := (q.locks env db.toDatabase).map .engine
  result env db := q.result env db.toDatabase
  write env view db := { db with toDatabase := q.write env view.toDatabase db.toDatabase }

/-- Wait for the turn of a partition; it ends with the transaction. -/
def awaitPartition (p : Nat) : Query Unit where
  locks _ _ := [.partition p]
  result _ _ := some ()

/-- `fraudSignal.createMany` with `skipDuplicates`; `accountId` and `transactionId` are foreign
keys. -/
def createSignals (rows : List FraudSignal) : Query Unit where
  locks _ _ := rows.map fun r ↦ .fraudSignal r.key
  result _ db :=
    if rows.all (fun r ↦ (db.accounts.find? r.accountId).isSome &&
        (db.transactions.find? r.transactionId).isSome) then some ()
    else none
  write _ _ db := db.addSignals rows

/-- `fraudSignal.count`. -/
def countSignals (signal : Signal) (gte lte : Date) : Query Nat where
  result _ db := some (db.matching signal gte lte).length

/-- `account.findUnique({ where: { id }, select: { fraudFlaggedAt: true } })`. -/
def findFraudFlaggedAt (id : String) : Query (Option (Option Date)) where
  result _ db := some ((db.accounts.find? id).map Account.fraudFlaggedAt)

/-- `account.update({ where: { id }, data: { fraudFlaggedAt } })`. -/
def updateFraudFlaggedAt (id : String) (t : Date) : Query Unit where
  locks _ _ := [.engine (.account id)]
  result _ db := (db.accounts.find? id).map (fun _ ↦ ())
  write _ _ db := db.setFraudFlaggedAt id t

end Sql

/-! ### The handler -/

/-- `workers/async-fraud/index.ts:12`. -/
def CONSUMER_NAME : String := "banking-async-fraud-service-v1"

/-- `workers/async-fraud/index.ts:13`. -/
def WINDOW_MS : Int := 60000

/-- `workers/async-fraud/index.ts:14`. -/
def SUSPICIOUS_COUNT : Nat := 5

/-- What the two payloads have in common. -/
structure Payload where
  transactionId : String
  accountId : String
  ipAddress : Option (Option String)
  deviceFingerprint : Option String

/-- `workers/async-fraud/index.ts:36–39`. -/
def parsePayload (event : TransactionEvent) : Option Payload :=
  if event.eventType = "TransactionCompleted" then
    (transactionCompletedEventSchema (some event.toJson)).map fun parsed ↦
      ⟨parsed.payload.transactionId, parsed.payload.accountId, parsed.payload.ipAddress,
        parsed.payload.deviceFingerprint⟩
  else
    (transactionBlockedEventSchema (some event.toJson)).map fun parsed ↦
      ⟨parsed.payload.transactionId, parsed.payload.accountId, parsed.payload.ipAddress,
        parsed.payload.deviceFingerprint⟩

/-- The signals of a payload; missing and empty texts are none.
`workers/async-fraud/index.ts:41–51`. -/
def signalsOf (payload : Payload) : List Signal :=
  [(payload.deviceFingerprint.filter (· ≠ "")).map (Signal.mk "DEVICE"),
    (payload.ipAddress.join.filter (· ≠ "")).map (Signal.mk "IP")].filterMap id

/-- The rows of a transaction's signals; `workers/async-fraud/index.ts:54–60`. -/
def signalRows (payload : Payload) (observedAt : Date) : List FraudSignal :=
  (signalsOf payload).map fun signal ↦
    { accountId := payload.accountId, signalType := signal.signalType,
      signalValue := signal.signalValue, transactionId := payload.transactionId, observedAt }

/-- Whether one of the signals was observed too often; `workers/async-fraud/index.ts:64–88`. -/
def anySuspicious (observedAt : Date) : List Signal → Process Bool
  | [] => return false
  | signal :: rest => do
    let count ← Tx.query (Sql.countSignals signal (observedAt - WINDOW_MS) observedAt)
    let suspicious ← anySuspicious observedAt rest
    return decide (SUSPICIOUS_COUNT < count) || suspicious

/-- `workers/async-fraud/index.ts:102–117`. -/
def accountFraudFlaggedEvent (payload : Payload) (observedAt : Date) : OutboxEventData where
  eventType := "AccountFraudFlagged"
  eventVersion := 1
  aggregateId := payload.accountId
  transactionId := payload.transactionId
  topic := bankingTransactionTopic
  partitionKey := payload.accountId
  payload := .obj [("type", .str "AccountFraudFlagged"), ("accountId", .str payload.accountId),
    ("transactionId", .str payload.transactionId), ("reason", .str "DEVICE_OR_IP_VELOCITY"),
    ("flaggedAt", .str observedAt.toISOString)]

/-- Flag the account, unless it is flagged; `workers/async-fraud/index.ts:91–119`. -/
def flagAccount (payload : Payload) (observedAt : Date) : Process Unit := do
  match ← Tx.query (Sql.findFraudFlaggedAt payload.accountId) with
  | some none =>
    Tx.query (Sql.updateFraudFlaggedAt payload.accountId observedAt)
    Tx.query (Sql.onEngine (Banking.Sql.createOutboxEvent
      (accountFraudFlaggedEvent payload observedAt)))
  | _ => return ()

/-- Record what a transaction shows and judge it; `workers/async-fraud/index.ts:36–119`. An invalid
date makes the first statement throw. -/
def observe (event : TransactionEvent) : Process Unit :=
  match parsePayload event, event.occurredDate with
  | some payload, some observedAt => do
    Tx.query (Sql.createSignals (signalRows payload observedAt))
    let suspicious ← anySuspicious observedAt (signalsOf payload)
    if suspicious then flagAccount payload observedAt
  | _, _ => Tx.throw

/-- `workers/async-fraud/index.ts:17–125`. -/
def handleEvent (event : TransactionEvent) : Process Unit :=
  if event.eventType ≠ "TransactionCompleted" ∧ event.eventType ≠ "TransactionBlocked" then
    return ()
  else Tx.transaction do
    match ← Tx.query
      (Sql.onEngine (Banking.Sql.findProcessedEvent CONSUMER_NAME event.eventId)) with
    | some _ => return ()
    | none =>
      observe event
      Tx.query (Sql.onEngine (Banking.Sql.createProcessedEvent CONSUMER_NAME event.eventId))

/-! ### The system -/

/-- A delivery waits for the partition of its key and starts the handler on the event. -/
def begins (partition : String → Nat) (eventId : String) (db : Database) :
    Option (Process Unit) := do
  let row ← db.outboxEvents.find? eventId
  let event ← delivered db.toDatabase eventId
  return do
    Tx.query (Sql.awaitPartition (partition row.partitionKey))
    handleEvent event

/-- States of the running worker instances. -/
abbrev SystemState := Relational.State Database Lock Supply String Unit

/-- What can happen in the running worker instances. -/
abbrev SystemAction := Relational.Action Supply String

/-- Histories of deliveries. -/
abbrev Runs (partition : String → Nat) : SystemState → SystemState → Prop :=
  Relational.Runs (begins partition)

/-- Nothing has been delivered of the engine's events. -/
def initial (engine : Banking.Database) (now : Date) : SystemState :=
  Relational.State.initial { engine with fraudSignals := .empty } now

end Banking.AsyncFraud
