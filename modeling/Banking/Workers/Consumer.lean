import Banking.Events.Schemas
import Banking.Relational.Transitions

/-!
# Kafka consumers

`consumer-utils.ts` and `consumer-runtime.ts`: the retry loop of a message, and a worker process
that runs it for every message Kafka hands over. The handler, the sleep and the send to the
dead-letter queue may end in any way at every attempt, and a signal may arrive at any moment.
-/

namespace Banking.Consumer

open Js (Date)

/-! ### Messages -/

/-- The contents of a `Buffer`. -/
abbrev Bytes := List UInt8

/-- What the runtime does with text: `Buffer.toString`, `JSON.parse` with the message of its
`SyntaxError`, and the message of a `ZodError`. -/
structure Runtime where
  toString : Bytes → String
  parse : String → Except String Json
  zodMessage : Json → String

/-- The fields of kafkajs' `EachMessagePayload` that are read. -/
structure EachMessagePayload where
  topic : String
  partition : Nat
  offset : String
  key : Option Bytes
  value : Option Bytes

/-- A message for the dead-letter queue; the value is the text of the JSON. -/
structure DlqMessage where
  topic : String
  key : Option String
  value : Json

/-- A worker: its name, its configuration and its runtime. -/
structure Worker where
  runtime : Runtime
  consumerName : String
  CONSUMER_MAX_RETRIES : Nat
  CONSUMER_RETRY_BASE_MS : Nat

/-- `shared/constants/index.ts:3`. -/
def bankingTransactionDlqTopic : String := "banking.transaction-events.v1.dlq"

variable (w : Worker)

/-- `payload.message.value?.toString()`. -/
def rawValue (payload : EachMessagePayload) : Option String :=
  payload.value.map w.runtime.toString

/-- `consumer-utils.ts:15–18`. -/
def retryDelayMs (retryNumber : Nat) : Nat :=
  let exponent := min retryNumber 16
  min (w.CONSUMER_RETRY_BASE_MS * 2 ^ exponent) 60000

/-- `consumer-utils.ts:20–26`; the error is the message of the exception. -/
def decodeTransactionEvent (payload : EachMessagePayload) : Except String TransactionEvent :=
  match rawValue w payload with
  | none => .error "Kafka message has no value"
  | some raw =>
    if raw = "" then .error "Kafka message has no value"
    else do
      let json ← w.runtime.parse raw
      match transactionEventSchema (some json) with
      | some event => .ok event
      | none => .error (w.runtime.zodMessage json)

/-- `payload.message.value?.toString() ?? null`; `consumer-utils.ts:48`. -/
def originalValue (payload : EachMessagePayload) : Json :=
  match rawValue w payload with
  | some raw => .str raw
  | none => .null

/-- What `publishToDlq` sends; `consumer-utils.ts:34–52`. -/
def dlqMessage (payload : EachMessagePayload) (error : String) (attempts : Nat)
    (failedAt : Date) : DlqMessage where
  topic := bankingTransactionDlqTopic
  key := payload.key.map w.runtime.toString
  value := .obj [("consumer", .str w.consumerName), ("sourceTopic", .str payload.topic),
    ("sourcePartition", .num payload.partition), ("sourceOffset", .str payload.offset),
    ("failedAt", .str failedAt.toISOString), ("attempts", .num attempts),
    ("error", .str error), ("originalValue", originalValue w payload)]

/-- The field `originalValue` of a dead-letter message. -/
def DlqMessage.originalValue (message : DlqMessage) : Option Json :=
  match message.value with
  | .obj fields => fields.lookup "originalValue"
  | _ => none

/-! ### The retry loop -/

/-- Where `processWithRetry` is; `lastError` is the message of the last error, if any. -/
inductive Retry where
  /-- At `await handler()`. -/
  | attempting (attempt : Nat)
  /-- At `await sleep(…)`. -/
  | sleeping (attempt milliseconds : Nat) (lastError : String)
  /-- At `await publishDlq(…)`. -/
  | publishing (lastError : Option String)
  | resolved
  | rejected (error : String)

/-- `options.maxAttempts ?? config.CONSUMER_MAX_RETRIES + 1`, without the option. -/
def maxAttempts : Nat := w.CONSUMER_MAX_RETRIES + 1

namespace Retry

/-- The head of the loop; `consumer-utils.ts:75`. -/
def loop (maxAttempts attempt : Nat) (lastError : Option String) : Retry :=
  if attempt < maxAttempts then .attempting attempt else .publishing lastError

/-- The handler throws; `consumer-utils.ts:79–83`. -/
def failed (maxAttempts attempt : Nat) (error : String) : Retry :=
  if attempt + 1 = maxAttempts then .publishing (some error)
  else .sleeping attempt (retryDelayMs w attempt) error

end Retry

/-! ### The process -/

/-- One call of `eachMessage`. -/
structure Delivery where
  payload : EachMessagePayload
  retry : Retry

/-- What the calls have done. -/
inductive Effect where
  /-- `onEvent` completed on the event in call `k`. -/
  | completed (k : Nat) (event : TransactionEvent)
  /-- Call `k` sent the message to the dead-letter queue. -/
  | deadLettered (k : Nat) (message : DlqMessage)

/-- The call that an effect belongs to. -/
def Effect.call : Effect → Nat
  | .completed k _ => k
  | .deadLettered k _ => k

/-- A worker process: its flag, whether the consumer has stopped, the calls of `eachMessage` in
order, and their effects in order. -/
structure State where
  shuttingDown : Bool
  stopped : Bool
  deliveries : List Delivery
  effects : List Effect

/-- What can happen next. -/
inductive Action where
  /-- SIGINT or SIGTERM arrives. -/
  | signal
  /-- `consumer.stop()` takes effect. -/
  | stop
  | eachMessage (payload : EachMessagePayload)
  /-- The handler of call `k` ends; `none` if `onEvent` completes. A message that cannot be
  decoded throws whatever `onEvent` would have done. -/
  | handler (k : Nat) (error : Option String)
  /-- The sleep of call `k` ends. -/
  | wake (k : Nat)
  /-- The send of call `k` ends; `none` if it is acknowledged. A failed send may have been
  delivered. -/
  | published (k : Nat) (failedAt : Date) (error : Option String) (delivered : Bool)

namespace State

/-- The process has started. -/
def initial : State := ⟨false, false, [], []⟩

/-- Call `k` goes on. -/
def setRetry (s : State) (k : Nat) (d : Delivery) (retry : Retry) : State :=
  { s with deliveries := s.deliveries.set k { d with retry } }

/-- Add an effect. -/
def record (s : State) (effect : Effect) : State := { s with effects := s.effects ++ [effect] }

end State

/-- One step of the process; `consumer-runtime.ts:24–54`. -/
def step (s : State) : Action → Option State
  | .signal => some { s with shuttingDown := true }
  | .stop => if s.shuttingDown then some { s with stopped := true } else none
  | .eachMessage payload =>
    if s.stopped then none
    else
      -- `if (shuttingDown) return`
      let retry := if s.shuttingDown then .resolved else Retry.loop (maxAttempts w) 0 none
      some { s with deliveries := s.deliveries ++ [⟨payload, retry⟩] }
  | .handler k error =>
    match s.deliveries[k]? with
    | some d =>
      match d.retry with
      | .attempting attempt =>
        match decodeTransactionEvent w d.payload, error with
        | .error error, _ => some (s.setRetry k d (.failed w (maxAttempts w) attempt error))
        | .ok _, some error => some (s.setRetry k d (.failed w (maxAttempts w) attempt error))
        | .ok event, none => some ((s.record (.completed k event)).setRetry k d .resolved)
      | _ => none
    | none => none
  | .wake k =>
    match s.deliveries[k]? with
    | some d =>
      match d.retry with
      | .sleeping attempt _ lastError =>
        some (s.setRetry k d (.loop (maxAttempts w) (attempt + 1) (some lastError)))
      | _ => none
    | none => none
  | .published k failedAt error delivered =>
    match s.deliveries[k]? with
    | some d =>
      match d.retry with
      | .publishing lastError =>
        let message := dlqMessage w d.payload (lastError.getD "undefined") (maxAttempts w) failedAt
        match error with
        | none => some ((s.record (.deadLettered k message)).setRetry k d .resolved)
        | some error =>
          let s := if delivered then s.record (.deadLettered k message) else s
          some (s.setRetry k d (.rejected error))
      | _ => none
    | none => none

/-- Finitely many steps. -/
abbrev Runs : State → State → Prop := Relational.Steps (step w)

end Banking.Consumer
