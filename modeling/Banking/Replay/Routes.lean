import Banking.Replay.Service
import Banking.Transactions.Schemas

/-!
# The replay routes

`GET /accounts/:accountId` and `GET /transactions/:transactionId` of `replay.routes.ts`.
Authentication and the role check before the handlers admit every authenticated user, since
`requireRole` names both roles.
-/

namespace Banking

open Js (Date)

/-- `replay.routes.ts:9–27`. -/
def serializeReplayEvent (event : OutboxEvent) : Json :=
  .obj [("eventId", .str event.id), ("eventType", .str event.eventType),
    ("eventVersion", .num event.eventVersion), ("transactionId", .str event.transactionId),
    ("aggregateId", .str event.aggregateId), ("payload", event.payload),
    ("createdAt", .str event.createdAt.toISOString)]

/-- The data of the answer; `replay.routes.ts:106–114`. -/
structure AccountReplay where
  accountId : String
  fraudFlaggedAt : Option String
  eventCount : Nat
  rebuiltBalance : String
  events : List Json

/-- What the route answers. -/
inductive ReplayAnswer where
  | data (replay : AccountReplay)
  | failure (statusCode : Nat) (message : String)

/-- `outboxEvent.findMany({ where: { eventType: 'TransactionCompleted' }, orderBy: … })`;
`replay.routes.ts:85–97`. -/
def findCompletedEvents (collation : Collation) (db : Database) : List OutboxEvent :=
  (db.outboxEvents.rows.filter (fun e ↦ e.eventType = "TransactionCompleted")).insertionSort
    (fun left right ↦ compareEvents collation.orderBy
      (left.createdAt, left.id) (right.createdAt, right.id) ≤ 0)

/-- The payload is an object whose `accountId` is the account; `replay.routes.ts:98–103`. -/
def isAccountPayload (accountId : String) : Json → Bool
  | .obj fields =>
    match fields.lookup "accountId" with
    | some (.str id) => id == accountId
    | _ => false
  | _ => false

/-- The row as the rebuild reads it. -/
def OutboxEvent.replay (event : OutboxEvent) : ReplayEvent :=
  ⟨event.id, event.transactionId, event.createdAt, event.payload⟩

/-- `replay.routes.ts:68–115`; `none` is an exception. -/
def replayAccount (collation : Collation) (db : Database) (auth : Auth) (accountId : String) :
    Option ReplayAnswer :=
  match db.accounts.find? accountId with
  | none => some (.failure 404 "Account not found")
  | some account =>
    if auth.role ≠ .ADMIN ∧ auth.userId ≠ account.userId then
      some (.failure 403 "Unauthorized access")
    else do
      let events := findCompletedEvents collation db
      let accountEvents := events.filter (fun event ↦ isAccountPayload accountId event.payload)
      let balances ← rebuildBalances collation (accountEvents.map OutboxEvent.replay)
      let rebuiltBalance := (balances accountId).getD 0
      return .data {
        accountId
        fraudFlaggedAt := account.fraudFlaggedAt.map Date.toISOString
        eventCount := accountEvents.length
        rebuiltBalance := toString rebuiltBalance
        events := accountEvents.map serializeReplayEvent }

/-- The completed events of an account, in the order of the outbox. -/
def Database.accountEvents (db : Database) (accountId : String) : List OutboxEvent :=
  db.outboxEvents.rows.filter
    (fun e ↦ decide (e.eventType = "TransactionCompleted") && isAccountPayload accountId e.payload)

variable {collation : Collation} {db : Database} {auth : Auth} {accountId : String}

/-- The route keeps the completed events of the account, in its own order. -/
theorem accountEvents_perm (collation : Collation) (db : Database) (accountId : String) :
    ((findCompletedEvents collation db).filter
      (fun event ↦ isAccountPayload accountId event.payload)).Perm
      (db.accountEvents accountId) := by
  refine ((List.perm_insertionSort _ _).filter _).trans (List.Perm.of_eq ?_)
  rw [List.filter_filter, Database.accountEvents]
  exact List.filter_congr fun e _ ↦ Bool.and_comm _ _

/-- For the owner and for an administrator, the route answers with a balance if the schema accepts
the payload of every completed event of the account, and the balance is the sum over them. -/
theorem replayAccount_rebuilt {account : Account} (ha : db.accounts.find? accountId = some account)
    (hauth : auth.role = .ADMIN ∨ auth.userId = account.userId) (n : Int) :
    (∃ replay, replayAccount collation db auth accountId = some (.data replay) ∧
        replay.rebuiltBalance = toString n) ↔
      (∀ e ∈ db.accountEvents accountId,
        (transactionCompletedPayloadSchema (some e.payload)).isSome = true) ∧
      ((db.accountEvents accountId).map
        (fun e ↦ replayedAmount accountId e.replay)).sum = n := by
  have hallowed : ¬ (auth.role ≠ .ADMIN ∧ auth.userId ≠ account.userId) := by
    rintro ⟨hrole, huser⟩
    exact hauth.elim hrole huser
  have hperm := accountEvents_perm collation db accountId
  simp only [replayAccount, ha, if_neg hallowed]
  generalize (findCompletedEvents collation db).filter _ = events at hperm ⊢
  have hparse : (rebuildBalances collation (events.map OutboxEvent.replay)).isSome = true ↔
      ∀ e ∈ db.accountEvents accountId,
        (transactionCompletedPayloadSchema (some e.payload)).isSome = true := by
    rw [rebuildBalances_isSome, List.forall_mem_map]
    exact forall_congr' fun e ↦ imp_congr_left hperm.mem_iff
  cases hbalances : rebuildBalances collation (events.map OutboxEvent.replay) with
  | none =>
    rw [hbalances] at hparse
    constructor
    · rintro ⟨replay, hreplay, -⟩
      cases hreplay
    · rintro ⟨haccepted, -⟩
      exact absurd (hparse.mpr haccepted) (by simp)
  | some balances =>
    rw [hbalances] at hparse
    have hsum := rebuildBalances_getD accountId hbalances
    rw [List.map_map, (hperm.map _).sum_eq] at hsum
    constructor
    · rintro ⟨replay, hreplay, htext⟩
      cases hreplay
      exact ⟨hparse.mp rfl, hsum.symm.trans (Js.toString_injective htext)⟩
    · rintro ⟨-, hn⟩
      exact ⟨_, rfl, congrArg toString (hsum.trans hn)⟩

end Banking
