import Banking.Realtime.Consumer
import Banking.System.Calls
import Banking.Transactions.Route
import Banking.Transactions.StreamSteps

/-!
# The system with the live streams of an API process

One API process answers requests to post a transaction and keeps event streams open, while the
workers and the other API processes go on as before. Its consumer receives the events of committed
outbox rows, at any time and any number of times, and those of the fraud worker.
-/

namespace Banking.Live

/-- The system, and the streams of one API process. -/
structure State where
  system : SystemState
  streams : EventStream.State

/-- What can happen next. -/
inductive Action where
  | system (a : SystemAction)
  /-- `POST /transactions` in this process; the engine runs as process `i`. -/
  | post (i : Nat) (body : Option Json) (request : Request)
  /-- The consumer receives the message published for an outbox row. -/
  | deliver (eventId : String)
  /-- The consumer receives an event of the fraud worker. -/
  | flagged (event : TransactionEvent)
  /-- A stream is requested, its lookup ends, its heartbeat fires or its client disconnects. -/
  | stream (a : EventStream.Action)

/-- A step of the streams. -/
def State.stream (s : State) (a : EventStream.Action) : Option State :=
  (EventStream.step s.streams a).map fun streams ↦ { s with streams }

/-- Publishing is left to the other actions. -/
def isPublish : EventStream.Action → Bool
  | .publish _ => true
  | _ => false

/-- One step. A request without authentication, with an invalid body, or whose pending event
throws, is answered without the engine. -/
def step (d : Deployment) (s : State) : Action → Option State
  | .system a => (Relational.step (begins d) s.system a).map fun system ↦ { s with system }
  | .post i body request =>
    match request.auth, postTransaction body s.streams.events with
    | some _, some (input, called) =>
      (Relational.step (begins d) s.system (.start i (.create input request))).map fun system ↦
        ⟨system, s.streams.call called⟩
    | _, _ => some s
  | .deliver eventId =>
    (delivered s.system.db eventId).bind fun event ↦
      s.stream (.publish (RealtimeConsumer.realtimeEvent event))
  | .flagged event =>
    if event.eventType = "AccountFraudFlagged" then
      s.stream (.publish (RealtimeConsumer.realtimeEvent event))
    else none
  | .stream a => if isPublish a then none else s.stream a

/-- No call has started, and there are no streams. -/
def initial (accounts : Relational.Table Account.id) (now : Js.Date) : State :=
  ⟨Banking.initial accounts now, .initial⟩

end Banking.Live
