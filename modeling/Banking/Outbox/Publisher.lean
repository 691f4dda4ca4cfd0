import Banking.Events.Schemas
import Banking.Outbox.Repository
import Banking.Relational.Transitions

/-!
# Outbox publishers

Any number of processes run `outbox-publisher/index.ts` on one outbox table, each with a clock of
its own. Between any two awaited calls of a process the others go on, new events are committed,
and processes are told to stop or crash. A database call that throws, or whose process crashes,
may have been executed, may be executed later, or may be lost; a failed Kafka send may have been
delivered.
-/

namespace Banking.Outbox

open Js (Date)

/-! ### The program -/

/-- `outbox-publisher/index.ts:7`. -/
def BATCH_SIZE : Nat := 100

/-- `outbox-publisher/index.ts:9`. -/
def PROCESSING_LEASE_MS : Nat := 30000

/-- `outbox-publisher/index.ts:10`. -/
def RETRY_BASE_MS : Nat := 1000

/-- `outbox-publisher/index.ts:11`. -/
def RETRY_MAX_MS : Nat := 60000

/-- `outbox-publisher/index.ts:12`. -/
def MAX_ERROR_LENGTH : Nat := 2000

/-- `outbox-publisher/index.ts:29–32`, of the text of the error. -/
def errorMessage (message : String) : String := Js.sliceTo MAX_ERROR_LENGTH message

/-- `outbox-publisher/index.ts:34–37`. -/
def retryDelayMs (attempts : Nat) : Nat :=
  let exponent := min (attempts - 1) 16
  min (RETRY_BASE_MS * 2 ^ exponent) RETRY_MAX_MS

/-- What a send hands to Kafka; the value is the text of the JSON. -/
structure KafkaMessage where
  topic : String
  key : String
  value : Json

/-- `outbox-publisher/index.ts:41–50`. -/
def message (event : OutboxEvent) : KafkaMessage :=
  ⟨event.topic, event.partitionKey, serializeEvent event⟩

/-- The row and the lease that a publisher holds on it. -/
def lease (event : OutboxEvent) : UpdateClaimedOutboxEventInput := ⟨event.id, event.nextAttemptAt⟩

/-- The input of the reschedule in the `catch` block; `outbox-publisher/index.ts:61–74`. -/
def retry (event : OutboxEvent) (error : String) (now : Date) : RescheduleOutboxEventInput :=
  { lease event with
    lastError := errorMessage error
    nextAttemptAt := now + retryDelayMs event.attempts }

/-- Where a publisher is. -/
inductive Phase where
  /-- At the head of `while (!shuttingDown)`; `outbox-publisher/index.ts:82`. -/
  | loop
  | claiming (input : ClaimPendingOutboxEventsInput)
  /-- At the head of `for (const event of events)`; `outbox-publisher/index.ts:93`. -/
  | batch (events : List OutboxEvent)
  | sending (event : OutboxEvent) (rest : List OutboxEvent)
  | marking (event : OutboxEvent) (rest : List OutboxEvent) (publishedAt : Date)
  | rescheduling (event : OutboxEvent) (rest : List OutboxEvent) (error : String) (now : Date)
  | sleeping
  | stopped

/-- One process. -/
structure Publisher where
  shuttingDown : Bool
  phase : Phase

/-- `if (!shuttingDown) await Bun.sleep(…)`; `outbox-publisher/index.ts:101`. -/
def Publisher.afterBatch (x : Publisher) : Phase := if x.shuttingDown then .loop else .sleeping

/-- What a publisher does on its own, given its clock; `none` while it waits for an answer. -/
def Publisher.proceed (now : Date) (x : Publisher) : Option Phase :=
  match x.phase with
  | .loop =>
    if x.shuttingDown then some .stopped
    else some (.claiming ⟨now, now + PROCESSING_LEASE_MS, BATCH_SIZE⟩)
  | .batch (event :: rest) =>
    if x.shuttingDown then some x.afterBatch else some (.sending event rest)
  | .batch [] => some x.afterBatch
  | .sleeping => some .loop
  | _ => none

/-- A database call. The clock reading that a reschedule was computed from is kept beside it. -/
inductive Statement where
  | claim (input : ClaimPendingOutboxEventsInput)
  | mark (input : UpdateClaimedOutboxEventInput) (publishedAt : Date)
  | reschedule (input : RescheduleOutboxEventInput) (now : Date)

/-- The call whose answer a publisher awaits. -/
def Phase.awaited : Phase → Option Statement
  | .claiming input => some (.claim input)
  | .marking event _ publishedAt => some (.mark (lease event) publishedAt)
  | .rescheduling event _ error now => some (.reschedule (retry event error now) now)
  | _ => none

/-- Where a publisher goes on when the awaited call answers; `taken` are the rows of a claim. -/
def Publisher.answered (taken : List OutboxEvent) (x : Publisher) : Phase :=
  match x.phase with
  | .claiming _ => .batch taken
  | .marking _ rest _ => .batch rest
  | .rescheduling _ rest _ _ => .batch rest
  | phase => phase

/-- Where a publisher goes on when the awaited call throws: `publish` catches what marking throws
and lets what rescheduling throws escape to the `catch` of the iteration. -/
def Publisher.rejected (error : String) (now : Date) (x : Publisher) : Phase :=
  match x.phase with
  | .marking event rest _ => .rescheduling event rest error now
  | .claiming _ => x.afterBatch
  | .rescheduling _ _ _ _ => x.afterBatch
  | phase => phase

/-! ### The statements -/

namespace Statement

/-- The clock reading that a call was computed from. -/
def readAt : Statement → Date
  | .claim input => input.now
  | .mark _ publishedAt => publishedAt
  | .reschedule _ now => now

/-- The database can execute the call with this choice of rows. -/
def executable (chosen : List String) (rows : Rows) : Statement → Bool
  | .claim input => isChoice input rows chosen
  | .mark _ _ => true
  | .reschedule _ _ => true

/-- The table after the call. -/
def rows (chosen : List String) (rows : Rows) : Statement → Rows
  | .claim input => (claimPendingOutboxEvents input chosen rows).1
  | .mark input publishedAt => (markOutboxEventPublished input publishedAt rows).1
  | .reschedule input _ => (rescheduleOutboxEvent input rows).1

/-- The rows that the call returns. -/
def taken (chosen : List String) (rows : Rows) : Statement → List OutboxEvent
  | .claim input => (claimPendingOutboxEvents input chosen rows).2
  | .mark _ _ => []
  | .reschedule _ _ => []

/-- The call writes the row. -/
def writes (chosen : List String) (row : OutboxEvent) : Statement → Bool
  | .claim _ => decide (row.id ∈ chosen)
  | .mark input _ => decide (Held input row)
  | .reschedule input _ => decide (Held input.toUpdateClaimedOutboxEventInput row)

/-- The version of the row that the call leaves if it writes the row. -/
def written : Statement → OutboxEvent → OutboxEvent
  | .claim input => claimed input.leaseExpiresAt
  | .mark _ publishedAt => published publishedAt
  | .reschedule input _ => rescheduled input

end Statement

/-! ### The system -/

/-- A message in Kafka, and whether its sender was told so. -/
structure Delivery where
  message : KafkaMessage
  acknowledged : Bool

/-- The outbox table, what Kafka has received, the clocks, the processes, and the calls that their
processes have given up. `lastWrite` is the clock reading behind the last write of each row. -/
structure State where
  rows : Rows
  deliveries : List Delivery
  clock : Nat → Date
  publisher : Nat → Option Publisher
  late : List Statement
  lastWrite : String → Date

/-- What can happen next. -/
inductive Action where
  /-- A transaction commits a new event. -/
  | create (data : OutboxEventData) (id : String) (now : Date)
  | start (p : Nat)
  | tick (p : Nat) (now : Date)
  | shutdown (p : Nat)
  | crash (p : Nat) (delivered : Bool)
  | proceed (p : Nat)
  | acknowledge (p : Nat)
  | sendFails (p : Nat) (delivered : Bool) (error : String)
  | answer (p : Nat) (chosen : List String)
  | reject (p : Nat) (error : String)
  /-- The `k`-th call that was given up is executed after all. -/
  | late (k : Nat) (chosen : List String)

namespace State

/-- An empty table, and no process has started. -/
def initial (clock : Nat → Date) : State :=
  ⟨.empty, [], clock, fun _ ↦ none, [], fun _ ↦ 0⟩

/-- Replace what process `p` is doing. -/
def setPhase (s : State) (p : Nat) (x : Publisher) (phase : Phase) : State :=
  { s with publisher := Function.update s.publisher p (some { x with phase }) }

/-- Add a message to Kafka if it got there. -/
def deliver (s : State) (event : OutboxEvent) (delivered acknowledged : Bool) : State :=
  if delivered then { s with deliveries := s.deliveries ++ [⟨message event, acknowledged⟩] } else s

/-- Execute a call on the table. -/
def executeStatement (s : State) (statement : Statement) (chosen : List String) : Option State :=
  if statement.executable chosen s.rows then
    some { s with
      rows := statement.rows chosen s.rows
      lastWrite := fun id ↦
        if (s.rows.find? id).any (statement.writes chosen) then statement.readAt
        else s.lastWrite id }
  else none

/-- A send that is under way when its process ends may still reach Kafka. -/
def interrupt (s : State) (phase : Phase) (delivered : Bool) : State :=
  match phase with
  | .sending event _ => s.deliver event delivered false
  | _ => s

/-- Keep a call whose process no longer waits for it. -/
def giveUp (s : State) (phase : Phase) : State :=
  { s with late := s.late ++ phase.awaited.toList }

end State

/-- One step of the system. -/
def step (s : State) : Action → Option State
  | .create data id now =>
    match s.rows.find? id with
    | none => some { s with
        rows := s.rows.insert (data.row id now)
        lastWrite := Function.update s.lastWrite id now }
    | some _ => none
  | .start p =>
    match s.publisher p with
    | none => some { s with publisher := Function.update s.publisher p (some ⟨false, .loop⟩) }
    | some _ => none
  | .tick p now =>
    if s.clock p ≤ now then some { s with clock := Function.update s.clock p now } else none
  | .shutdown p => do
    let x ← s.publisher p
    let x := { x with shuttingDown := true }
    return { s with publisher := Function.update s.publisher p (some x) }
  | .crash p delivered => do
    let x ← s.publisher p
    let s := (s.interrupt x.phase delivered).giveUp x.phase
    return { s with publisher := Function.update s.publisher p none }
  | .proceed p => do
    let x ← s.publisher p
    let phase ← x.proceed (s.clock p)
    return s.setPhase p x phase
  | .acknowledge p => do
    let x ← s.publisher p
    match x.phase with
    | .sending event rest =>
      some ((s.deliver event true true).setPhase p x (.marking event rest (s.clock p)))
    | _ => none
  | .sendFails p delivered error => do
    let x ← s.publisher p
    match x.phase with
    | .sending event rest =>
      some ((s.deliver event delivered false).setPhase p x
        (.rescheduling event rest error (s.clock p)))
    | _ => none
  | .answer p chosen => do
    let x ← s.publisher p
    let statement ← x.phase.awaited
    let s' ← s.executeStatement statement chosen
    return s'.setPhase p x (x.answered (statement.taken chosen s.rows))
  | .reject p error => do
    let x ← s.publisher p
    let _ ← x.phase.awaited
    return (s.giveUp x.phase).setPhase p x (x.rejected error (s.clock p))
  | .late k chosen => do
    let statement ← s.late[k]?
    let s' ← s.executeStatement statement chosen
    return { s' with late := s'.late.eraseIdx k }

/-- Finitely many steps. -/
abbrev Runs : State → State → Prop := Relational.Steps step

/-! ### What a step can do -/

/-- The ways of one step, with what each of them finds and leaves. -/
inductive StepKind (s : State) : Action → State → Prop
  | create {data id now} (hfresh : s.rows.find? id = none) :
      StepKind s (.create data id now) { s with
        rows := s.rows.insert (data.row id now)
        lastWrite := Function.update s.lastWrite id now }
  | start {p} (hnone : s.publisher p = none) :
      StepKind s (.start p)
        { s with publisher := Function.update s.publisher p (some ⟨false, .loop⟩) }
  | tick {p now} (hle : s.clock p ≤ now) :
      StepKind s (.tick p now) { s with clock := Function.update s.clock p now }
  | shutdown {p x} (hx : s.publisher p = some x) :
      StepKind s (.shutdown p)
        { s with publisher := Function.update s.publisher p (some { x with shuttingDown := true }) }
  | crash {p x delivered} (hx : s.publisher p = some x) :
      StepKind s (.crash p delivered) { (s.interrupt x.phase delivered).giveUp x.phase with
        publisher := Function.update ((s.interrupt x.phase delivered).giveUp x.phase).publisher p
          none }
  | proceed {p x phase} (hx : s.publisher p = some x)
      (hphase : x.proceed (s.clock p) = some phase) :
      StepKind s (.proceed p) (s.setPhase p x phase)
  | acknowledge {p x event rest} (hx : s.publisher p = some x)
      (hphase : x.phase = .sending event rest) :
      StepKind s (.acknowledge p)
        ((s.deliver event true true).setPhase p x (.marking event rest (s.clock p)))
  | sendFails {p x event rest delivered error} (hx : s.publisher p = some x)
      (hphase : x.phase = .sending event rest) :
      StepKind s (.sendFails p delivered error)
        ((s.deliver event delivered false).setPhase p x
          (.rescheduling event rest error (s.clock p)))
  | answer {p x statement chosen t} (hx : s.publisher p = some x)
      (hawaited : x.phase.awaited = some statement)
      (ht : s.executeStatement statement chosen = some t) :
      StepKind s (.answer p chosen)
        (t.setPhase p x (x.answered (statement.taken chosen s.rows)))
  | reject {p x statement error} (hx : s.publisher p = some x)
      (hawaited : x.phase.awaited = some statement) :
      StepKind s (.reject p error)
        ((s.giveUp x.phase).setPhase p x (x.rejected error (s.clock p)))
  | late {k statement chosen t} (hk : s.late[k]? = some statement)
      (ht : s.executeStatement statement chosen = some t) :
      StepKind s (.late k chosen) { t with late := t.late.eraseIdx k }

/-- Every step is of one of these kinds. -/
theorem step_kind {s s' : State} {a : Action} (h : step s a = some s') : StepKind s a s' := by
  cases a with
  | create data id now =>
    simp only [step] at h
    split at h
    · next hfresh =>
      cases h
      exact .create hfresh
    · cases h
  | start p =>
    simp only [step] at h
    split at h
    · next hnone =>
      cases h
      exact .start hnone
    · cases h
  | tick p now =>
    simp only [step] at h
    split at h
    · next hle =>
      cases h
      exact .tick hle
    · cases h
  | shutdown p =>
    obtain ⟨x, hx, hs⟩ := Option.bind_eq_some_iff.mp h
    cases hs
    exact .shutdown hx
  | crash p delivered =>
    obtain ⟨x, hx, hs⟩ := Option.bind_eq_some_iff.mp h
    cases hs
    exact .crash hx
  | proceed p =>
    obtain ⟨x, hx, hs⟩ := Option.bind_eq_some_iff.mp h
    obtain ⟨phase, hphase, hs⟩ := Option.bind_eq_some_iff.mp hs
    cases hs
    exact .proceed hx hphase
  | acknowledge p =>
    obtain ⟨x, hx, hs⟩ := Option.bind_eq_some_iff.mp h
    split at hs
    · next event rest hphase =>
      cases hs
      exact .acknowledge hx hphase
    · cases hs
  | sendFails p delivered error =>
    obtain ⟨x, hx, hs⟩ := Option.bind_eq_some_iff.mp h
    split at hs
    · next event rest hphase =>
      cases hs
      exact .sendFails hx hphase
    · cases hs
  | answer p chosen =>
    obtain ⟨x, hx, hs⟩ := Option.bind_eq_some_iff.mp h
    obtain ⟨statement, hawaited, hs⟩ := Option.bind_eq_some_iff.mp hs
    obtain ⟨t, ht, hs⟩ := Option.bind_eq_some_iff.mp hs
    cases hs
    exact .answer hx hawaited ht
  | reject p error =>
    obtain ⟨x, hx, hs⟩ := Option.bind_eq_some_iff.mp h
    obtain ⟨statement, hawaited, hs⟩ := Option.bind_eq_some_iff.mp hs
    cases hs
    exact .reject hx hawaited
  | late k chosen =>
    obtain ⟨statement, hk, hs⟩ := Option.bind_eq_some_iff.mp h
    obtain ⟨t, ht, hs⟩ := Option.bind_eq_some_iff.mp hs
    cases hs
    exact .late hk ht

/-- An executed call touches the table and the record of its last writes only. -/
theorem executeStatement_eq {s t : State} {statement : Statement} {chosen : List String}
    (h : s.executeStatement statement chosen = some t) :
    statement.executable chosen s.rows = true ∧ t.rows = statement.rows chosen s.rows ∧
      t.deliveries = s.deliveries ∧ t.clock = s.clock ∧ t.publisher = s.publisher ∧
      t.late = s.late := by
  unfold State.executeStatement at h
  split at h
  · next hexecutable =>
    cases h
    exact ⟨hexecutable, rfl, rfl, rfl, rfl, rfl⟩
  · cases h

/-- A message that reaches Kafka changes nothing else. -/
theorem deliver_eq (s : State) (event : OutboxEvent) (delivered acknowledged : Bool) :
    (s.deliver event delivered acknowledged).rows = s.rows ∧
      (s.deliver event delivered acknowledged).clock = s.clock ∧
      (s.deliver event delivered acknowledged).publisher = s.publisher ∧
      (s.deliver event delivered acknowledged).late = s.late := by
  unfold State.deliver
  split <;> exact ⟨rfl, rfl, rfl, rfl⟩

/-- A send that its process leaves changes nothing but what Kafka has received. -/
theorem interrupt_eq (s : State) (phase : Phase) (delivered : Bool) :
    (s.interrupt phase delivered).rows = s.rows ∧
      (s.interrupt phase delivered).clock = s.clock ∧
      (s.interrupt phase delivered).publisher = s.publisher ∧
      (s.interrupt phase delivered).late = s.late := by
  unfold State.interrupt
  split
  · exact deliver_eq s _ delivered false
  · exact ⟨rfl, rfl, rfl, rfl⟩

end Banking.Outbox
