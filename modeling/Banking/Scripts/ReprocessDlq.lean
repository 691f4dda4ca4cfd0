import Banking.Transactions.Repository
import Banking.Workers.Consumer
import Mathlib.Logic.Function.Basic

/-!
# Reprocessing the dead-letter queue

`scripts/reprocess-dlq.ts`: what a run of the script does with one message of the dead-letter
queue, and runs of the script one after the other, each in a consumer group of its own process id.
-/

namespace Banking.Consumer

/-- `Buffer.from(text)`, which kafkajs applies to the strings of a message. -/
def utf8 (text : String) : Bytes := text.toByteArray.data.toList

/-- The bytes are the encoding of a text. -/
def IsUtf8 (bytes : Bytes) : Prop := ∃ text, utf8 text = bytes

/-- A message as Kafka keeps it. -/
structure KafkaMessage where
  topic : String
  key : Option Bytes
  value : Option Bytes

/-- The message that Kafka keeps of a dead letter with this text. -/
def DlqMessage.stored (message : DlqMessage) (text : String) : KafkaMessage :=
  ⟨message.topic, message.key.map utf8, some (utf8 text)⟩

/-- `(JSON.parse(rawValue) as { originalValue?: unknown }).originalValue`; `null` has no fields. -/
def originalValueOf : Json → Except String (Option Json)
  | .null => .error "null is not an object"
  | .obj fields => .ok (fields.lookup "originalValue")
  | _ => .ok none

/-- The message that the script sends to the main topic; `reprocess-dlq.ts:22–38`. -/
def reprocessed (runtime : Runtime) (message : KafkaMessage) : Except String KafkaMessage :=
  match message.value.map runtime.toString with
  | none => .error "DLQ message has no value"
  | some rawValue =>
    if rawValue = "" then .error "DLQ message has no value"
    else do
      let dlqEvent ← runtime.parse rawValue
      match ← originalValueOf dlqEvent with
      | some (.str originalValue) => return {
          topic := bankingTransactionTopic
          key := (message.key.map runtime.toString).map utf8
          value := some (utf8 originalValue) }
      | _ => throw "DLQ message does not contain originalValue"

/-! ### Runs of the script -/

namespace Reprocess

/-- A message of the queue that a run has sent to the main topic, or whose offset it has
committed. -/
structure Mark where
  run : Nat
  partition : Nat
  offset : Nat
  deriving DecidableEq

/-- A run of the script: its number, its process id and the next offset of each partition. -/
structure Run where
  number : Nat
  pid : Nat
  position : Nat → Nat

/-- The queue, the committed offsets of each consumer group, the current run, the number of runs so
far, and what they have sent and committed. -/
structure State where
  log : Nat → List KafkaMessage
  committed : String → Nat → Option Nat
  active : Option Run
  started : Nat
  sent : List Mark
  commits : List Mark

/-- How the handler ends on a message that the script accepts. -/
inductive Outcome where
  /-- The send rejects; the message may have been delivered. -/
  | unsent (delivered : Bool)
  /-- The commit rejects; it may have been applied. -/
  | uncommitted (applied : Bool)
  | committed

/-- What can happen next. -/
inductive Action where
  /-- A dead letter is written. -/
  | append (partition : Nat) (message : KafkaMessage)
  /-- The script is started in a process. -/
  | start (pid : Nat)
  /-- The message at the position of a partition is handed over. -/
  | eachMessage (partition : Nat) (outcome : Outcome)
  /-- The consumer fetches its offsets again, after an exception or a rebalance. -/
  | rejoin
  /-- The script stops or dies. -/
  | stop

/-- `reprocess-dlq.ts:5–7`. -/
def groupId (pid : Nat) : String := "banking-dlq-reprocessor-" ++ toString pid

namespace State

/-- No run yet, and nothing in the queue. -/
def initial : State := ⟨fun _ ↦ [], fun _ _ ↦ none, none, 0, [], []⟩

/-- Where a group goes on: at its committed offset, else at the beginning. -/
def resume (s : State) (pid : Nat) (partition : Nat) : Nat :=
  (s.committed (groupId pid) partition).getD 0

/-- The run sends the message at its position. -/
def send (s : State) (run : Run) (partition : Nat) : State :=
  { s with sent := s.sent ++ [⟨run.number, partition, run.position partition⟩] }

/-- The run commits the offset after its position; `reprocess-dlq.ts:40–46`. -/
def commit (s : State) (run : Run) (partition : Nat) : State :=
  let offsets := Function.update (s.committed (groupId run.pid)) partition
    (some (run.position partition + 1))
  { s with
    committed := Function.update s.committed (groupId run.pid) offsets
    commits := s.commits ++ [⟨run.number, partition, run.position partition⟩] }

/-- The run goes on to the next message. -/
def advance (s : State) (run : Run) (partition : Nat) : State :=
  { s with active := some { run with
      position := Function.update run.position partition (run.position partition + 1) } }

/-- The handler on a message that the script accepts. -/
def handle (s : State) (run : Run) (partition : Nat) : Outcome → State
  | .unsent delivered => if delivered then s.send run partition else s
  | .uncommitted applied =>
    let s := s.send run partition
    if applied then s.commit run partition else s
  | .committed => ((s.send run partition).commit run partition).advance run partition

end State

/-- One step. A message that the script throws on stays where it is. -/
def step (runtime : Runtime) (s : State) : Action → Option State
  | .append partition message =>
    some { s with log := Function.update s.log partition (s.log partition ++ [message]) }
  | .start pid =>
    match s.active with
    | none => some { s with
        active := some ⟨s.started, pid, s.resume pid⟩
        started := s.started + 1 }
    | some _ => none
  | .eachMessage partition outcome =>
    match s.active with
    | some run =>
      match (s.log partition)[run.position partition]? with
      | some message =>
        match reprocessed runtime message with
        | .ok _ => some (s.handle run partition outcome)
        | .error _ => some s
      | none => none
    | none => none
  | .rejoin =>
    match s.active with
    | some run => some { s with active := some { run with position := s.resume run.pid } }
    | none => none
  | .stop =>
    match s.active with
    | some _ => some { s with active := none }
    | none => none

end Reprocess

end Banking.Consumer
