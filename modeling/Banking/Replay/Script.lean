import Banking.Replay.Routes

/-!
# The replay script

`scripts/replay-events.ts`: it rebuilds the balances of all accounts, or of one, from the completed
events of the outbox, and lists the events that it read.
-/

namespace Banking

/-- The values of `--account-id=` and `--transaction-id=`; `replay-events.ts:4–5`. -/
structure ReplayArguments where
  accountId : Option String
  transactionId : Option String

/-- What the script prints; the balances by account. -/
structure ReplayReport where
  eventCount : Nat
  rebuiltBalances : String → Option String
  trace : List Json

/-- `outboxEvent.findMany({ where: { eventType: 'TransactionCompleted' }, orderBy: … })`;
`replay-events.ts:8–20`. Events of the same time come in the order `ties`. -/
def findReplayEvents (ties : String → String → Int) (db : Database) : List OutboxEvent :=
  (db.outboxEvents.rows.filter (fun e ↦ e.eventType = "TransactionCompleted")).insertionSort
    (fun left right ↦ compareEvents ties (left.createdAt, left.id) (right.createdAt, right.id) ≤ 0)

/-- `(event.payload as { accountId?: string }).accountId`, which throws on `null`. -/
def payloadAccountId : Json → Option (Option Json)
  | .null => none
  | .obj fields => some (fields.lookup "accountId")
  | _ => some none

/-- An entry of the trace; `replay-events.ts:44–50`. -/
def traceEvent (event : OutboxEvent) : Option Json :=
  (payloadAccountId event.payload).map fun accountId ↦
    .obj ([("eventId", .str event.id), ("transactionId", .str event.transactionId)] ++
      accountId.toList.map (fun id ↦ ("accountId", id)) ++
      [("eventType", .str event.eventType), ("createdAt", .str event.createdAt.toISOString)])

/-- `replay-events.ts:7–55`; an empty argument is as good as none. The result is `none` on an
exception. -/
def replayEvents (ties : String → String → Int) (collation : Collation) (db : Database)
    (arguments : ReplayArguments) : Option ReplayReport := do
  let accountId := arguments.accountId.filter (· ≠ "")
  let events := findReplayEvents ties db
  let accountEvents : List OutboxEvent := match accountId with
    | some id => events.filter (fun event ↦ isAccountPayload id event.payload)
    | none => events
  let balances ← rebuildBalances collation (accountEvents.map OutboxEvent.replay)
  let traceEvents : List OutboxEvent := match arguments.transactionId.filter (· ≠ "") with
    | some id => events.filter (fun event ↦ event.transactionId = id)
    | none => accountEvents
  let trace ← traceEvents.mapM traceEvent
  return {
    eventCount := accountEvents.length
    rebuiltBalances := fun id ↦
      if accountId = none ∨ accountId = some id then (balances id).map toString else none
    trace }

end Banking
