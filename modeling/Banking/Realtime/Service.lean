import Banking.Js.EventEmitter
import Banking.Js.Json

/-!
# The realtime service

`realtime.service.ts`: one emitter per process, with the `transactionId` as the event name. A
listener is named by the request that it belongs to.
-/

namespace Banking

/-- `realtime.service.ts:3–7`. -/
structure RealtimeTransactionEvent where
  transactionId : String
  eventType : String
  data : Json

/-- What a listener is called with: the event, or the name that `newListener` and
`removeListener` pass. -/
inductive ListenerArgument where
  | event (event : RealtimeTransactionEvent)
  | name (name : String)

/-- `event.eventType` of the argument of a listener; `none` is `undefined`. -/
def ListenerArgument.eventType : ListenerArgument → Option String
  | .event e => some e.eventType
  | .name _ => none

/-- `event.data` of the argument of a listener; `none` is `undefined`. -/
def ListenerArgument.data : ListenerArgument → Option Json
  | .event e => some e.data
  | .name _ => none

/-- The listeners of a process, each named by its request. -/
abbrev Listeners := Js.EventEmitter Nat

/-- Calls of listeners in order, each with its argument. -/
abbrev ListenerCalls := List (Nat × ListenerArgument)

/-- `publishRealtimeEvent`; `realtime.service.ts:12–14`: the calls that it makes. `none` is an
exception. -/
def publishRealtimeEvent (event : RealtimeTransactionEvent) (events : Listeners) :
    Option ListenerCalls :=
  events.emit event.transactionId (.event event)

/-- `subscribeToTransaction`; `realtime.service.ts:16–20`: the calls for `newListener`, and the
listeners afterwards. -/
def subscribeToTransaction (transactionId : String) (listener : Nat) (events : Listeners) :
    ListenerCalls × Listeners :=
  (events.calls "newListener" (.name transactionId), events.on transactionId listener)

/-- What `subscribeToTransaction` returns; `realtime.service.ts:21`: the listeners afterwards, and
the calls for `removeListener` if a listener was removed. -/
def unsubscribe (transactionId : String) (listener : Nat) (events : Listeners) :
    ListenerCalls × Listeners :=
  let remaining := events.off transactionId listener
  (if (transactionId, listener) ∈ events.registered then
    remaining.calls "removeListener" (.name transactionId) else [], remaining)

/-- Subscribing calls listeners with the name that is subscribed to. -/
theorem subscribeToTransaction_argument (transactionId : String) (listener : Nat)
    (events : Listeners) : ∀ call ∈ (subscribeToTransaction transactionId listener events).1,
      call.2 = .name transactionId :=
  fun _ hcall ↦ (Js.EventEmitter.mem_calls.mp hcall).2

/-- Unsubscribing calls listeners with the name that was subscribed to. -/
theorem unsubscribe_argument (transactionId : String) (listener : Nat) (events : Listeners) :
    ∀ call ∈ (unsubscribe transactionId listener events).1, call.2 = .name transactionId := by
  intro call hcall
  simp only [unsubscribe] at hcall
  split at hcall
  · exact (Js.EventEmitter.mem_calls.mp hcall).2
  · cases hcall

end Banking
