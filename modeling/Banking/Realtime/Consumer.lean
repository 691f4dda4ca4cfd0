import Banking.Realtime.Service
import Banking.Workers.Consumer

/-!
# The realtime consumer

`realtime.consumer.ts`: every message of the main topic is published to the listeners of its
transaction. Nothing is retried; an exception of `eachMessage` is left to kafkajs.
-/

namespace Banking.RealtimeConsumer

open Consumer (Bytes Runtime)

/-- The event that a message is decoded to; `none` is an exception. -/
def decode (runtime : Runtime) (rawValue : String) : Option TransactionEvent := do
  let json ← (runtime.parse rawValue).toOption
  transactionEventSchema (some json)

/-- What is published for an event; `realtime.consumer.ts:25–29`. -/
def realtimeEvent (event : TransactionEvent) : RealtimeTransactionEvent :=
  ⟨event.transactionId, event.eventType, .obj event.payload⟩

/-- The calls that `eachMessage` makes; `realtime.consumer.ts:21–30`. `none` is an exception. -/
def eachMessage (runtime : Runtime) (value : Option Bytes) (events : Listeners) :
    Option ListenerCalls :=
  match value.map runtime.toString with
  | none => some []
  | some rawValue =>
    if rawValue = "" then some []
    else do
      let event ← decode runtime rawValue
      publishRealtimeEvent (realtimeEvent event) events

end Banking.RealtimeConsumer
