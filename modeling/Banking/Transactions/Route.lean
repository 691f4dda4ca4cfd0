import Banking.Realtime.Service
import Banking.Transactions.Schemas

/-!
# Posting a transaction

`POST /transactions` of `transactions.route.ts` up to the call of the transaction engine: the body
is parsed and a pending event is published before anything is decided.
-/

namespace Banking

/-- What is published for a request; `transactions.route.ts:22–26`. -/
def pendingEvent (input : CreateTransactionInput) : RealtimeTransactionEvent where
  transactionId := input.transactionId
  eventType := "TransactionPending"
  data := .obj [("transactionId", .str input.transactionId), ("status", .str "PENDING")]

/-- The input that `transactionService.create` is called with, and the calls that the pending event
makes; `transactions.route.ts:20–27`. `none` is an exception. -/
def postTransaction (body : Option Json) (events : Listeners) :
    Option (CreateTransactionInput × ListenerCalls) := do
  let input ← createTransactionSchema body
  let called ← publishRealtimeEvent (pendingEvent input) events
  return (input, called)

/-- A valid body reaches the engine unless publishing throws. -/
theorem postTransaction_of_valid {body : Option Json} {input : CreateTransactionInput}
    (hinput : createTransactionSchema body = some input) (events : Listeners) :
    postTransaction body events =
      (publishRealtimeEvent (pendingEvent input) events).map fun called ↦ (input, called) := by
  simp only [postTransaction, hinput, Option.bind_eq_bind, Option.bind_some]
  cases publishRealtimeEvent (pendingEvent input) events <;> rfl

end Banking
