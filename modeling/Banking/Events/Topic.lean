import Banking.Events.Schemas
import Banking.Js.Calendar

/-!
# The topic

The events that consumers decode from the messages of the topic. An identifier determines its
event, and a message may be delivered any number of times.
-/

namespace Banking

open Js (Date)

/-- The decoded events by their identifiers. -/
structure Topic where
  event : String → Option TransactionEvent
  eventId : ∀ {id e}, event id = some e → e.eventId = id
  decoded : ∀ {id e}, event id = some e → ∃ value, transactionEventSchema (some value) = some e

/-- The topic of a list of messages; of the events with one identifier the first counts. -/
def Topic.ofMessages (messages : List Json) : Topic where
  event id := (messages.filterMap (fun m ↦ transactionEventSchema (some m))).find?
    (fun e ↦ e.eventId = id)
  eventId h := by simpa using List.find?_some h
  decoded h := by
    obtain ⟨message, -, hevent⟩ := List.mem_filterMap.mp (List.mem_of_find?_eq_some h)
    exact ⟨message, hevent⟩

/-- `new Date(event.occurredAt)`. -/
def EventOf.occurredDate {P : Type} (event : EventOf P) : Option Date := Date.parse event.occurredAt

end Banking
