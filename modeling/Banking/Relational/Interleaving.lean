import Banking.Relational.Program
import Banking.Relational.Transitions

/-!
# Interleaved processes under READ COMMITTED

Library `Relational`. Any number of processes run statement by statement in any order. Each
statement sees the committed database overlaid with the process's own pending writes, waits
while another process owns a lock it needs, and keeps its locks until the transaction ends.
A commit publishes all pending writes at once; an exception, a lost connection or a crash
drops them. Unique indexes are locks as well: an insert waits for the uncommitted insert of
the same key and looks the key up once it may go on.
-/

namespace Relational

/-- How a process ended: with a reply, by an exception of its own, or by a failure of the
connection, the server or the machine it ran on. -/
inductive Outcome (Reply : Type) where
  | returned (reply : Reply)
  | threw
  | failed

/-- A process between two statements, or after its end. `pending` is the uncommitted part. -/
inductive Phase (D Lock Supply Reply : Type) where
  | running (program : Tx D Lock Supply Reply) (pending : D → D)
  | done (outcome : Outcome Reply)

/-- One process: the call it runs and the committed database it started from. -/
structure Session (D Lock Supply Call Reply : Type) where
  call : Call
  born : D
  phase : Phase D Lock Supply Reply

/-- One committed transaction with the committed databases around it. -/
structure Commit (D Call : Type) where
  session : Nat
  call : Call
  before : D
  after : D

/-- The committed database, the clock, the lock table, the processes and the commits so far. -/
structure State (D Lock Supply Call Reply : Type) where
  db : D
  clock : Int
  owner : Lock → Option Nat
  session : Nat → Option (Session D Lock Supply Call Reply)
  log : List (Commit D Call)

/-- What can happen next: a call starts, a process executes its next statement, a process is
cut off, or time passes. -/
inductive Action (Supply Call : Type) where
  | start (i : Nat) (call : Call)
  | exec (i : Nat) (supply : Supply)
  | fail (i : Nat)
  | tick (now : Int)

variable {D Lock Supply Call Reply : Type}

namespace State

/-- Nothing has started on the database `db`. -/
def initial (db : D) (now : Int) : State D Lock Supply Call Reply :=
  ⟨db, now, fun _ ↦ none, fun _ ↦ none, []⟩

/-- Replace what process `i` is doing. -/
def setSession (s : State D Lock Supply Call Reply) (i : Nat)
    (x : Session D Lock Supply Call Reply) : State D Lock Supply Call Reply :=
  { s with session := fun j ↦ if j = i then some x else s.session j }

/-- Give up every lock of process `i`. -/
def release (s : State D Lock Supply Call Reply) (i : Nat) : State D Lock Supply Call Reply :=
  { s with owner := fun l ↦ if s.owner l = some i then none else s.owner l }

/-- The databases around the commits of process `i`, in order. -/
def commitsOf (s : State D Lock Supply Call Reply) (i : Nat) : List (D × D) :=
  (s.log.filter (fun c ↦ c.session = i)).map (fun c ↦ (c.before, c.after))

/-- End process `i`; what it has not committed is rolled back. -/
def finish (s : State D Lock Supply Call Reply) (i : Nat) (call : Call) (born : D)
    (outcome : Outcome Reply) : State D Lock Supply Call Reply :=
  (s.release i).setSession i ⟨call, born, .done outcome⟩

/-- Publish the pending writes of process `i` and go on with `next`. -/
def publish (s : State D Lock Supply Call Reply) (i : Nat) (call : Call) (born : D)
    (pending : D → D) (next : Tx D Lock Supply Reply) : State D Lock Supply Call Reply :=
  { (s.release i).setSession i ⟨call, born, .running next id⟩ with
    db := pending s.db
    log := s.log ++ [⟨i, call, s.db, pending s.db⟩] }

variable [DecidableEq Lock]

/-- No other process owns any of the locks. -/
def granted (s : State D Lock Supply Call Reply) (i : Nat) (locks : List Lock) : Bool :=
  locks.all (fun l ↦ s.owner l = none || s.owner l = some i)

/-- Record process `i` as the owner of the locks. -/
def acquire (s : State D Lock Supply Call Reply) (i : Nat) (locks : List Lock) :
    State D Lock Supply Call Reply :=
  { s with owner := fun l ↦ if l ∈ locks then some i else s.owner l }

/-- Execute the next piece of process `i`, or wait. -/
def advance (s : State D Lock Supply Call Reply) (i : Nat) (call : Call) (born : D)
    (pending : D → D) (supply : Supply) :
    Tx D Lock Supply Reply → Option (State D Lock Supply Call Reply)
  | .pure r => some (s.finish i call born (.returned r))
  | .throw => some (s.finish i call born .threw)
  | .commit next => some (s.publish i call born pending next)
  | .stmt locks write next =>
    let env : Env Supply := ⟨s.clock, supply⟩
    let view := pending s.db
    if s.granted i (locks env view) then
      some ((s.acquire i (locks env view)).setSession i
        ⟨call, born, .running (next env view) (fun db ↦ write env view (pending db))⟩)
    else none

end State

variable [DecidableEq Lock]

/-- One step of the system; `begins` says what program a call runs, given the database that is
committed when it starts. -/
def step (begins : Call → D → Option (Tx D Lock Supply Reply))
    (s : State D Lock Supply Call Reply) :
    Action Supply Call → Option (State D Lock Supply Call Reply)
  | .start i call =>
    match s.session i, begins call s.db with
    | none, some program => some (s.setSession i ⟨call, s.db, .running program id⟩)
    | _, _ => none
  | .exec i supply =>
    match s.session i with
    | some ⟨call, born, .running program pending⟩ => s.advance i call born pending supply program
    | _ => none
  | .fail i =>
    match s.session i with
    | some ⟨call, born, .running _ _⟩ => some (s.finish i call born .failed)
    | _ => none
  | .tick now => if s.clock ≤ now then some { s with clock := now } else none

/-- Execute a list of actions. -/
def run (begins : Call → D → Option (Tx D Lock Supply Reply))
    (s : State D Lock Supply Call Reply) (actions : List (Action Supply Call)) :
    Option (State D Lock Supply Call Reply) :=
  execute (step begins) s actions

/-- Finitely many steps, each of which meets `allow` in the state before it. -/
def RunsUnder (begins : Call → D → Option (Tx D Lock Supply Reply))
    (allow : State D Lock Supply Call Reply → Action Supply Call → Prop) :
    State D Lock Supply Call Reply → State D Lock Supply Call Reply → Prop :=
  StepsUnder (step begins) allow

/-- Finitely many steps. -/
def Runs (begins : Call → D → Option (Tx D Lock Supply Reply)) :
    State D Lock Supply Call Reply → State D Lock Supply Call Reply → Prop :=
  Steps (step begins)

/-- Execute a list of actions as long as each of them passes `check`. -/
def runUnder (begins : Call → D → Option (Tx D Lock Supply Reply))
    (check : State D Lock Supply Call Reply → Action Supply Call → Bool)
    (s : State D Lock Supply Call Reply) (actions : List (Action Supply Call)) :
    Option (State D Lock Supply Call Reply) :=
  executeUnder (step begins) check s actions

variable {begins : Call → D → Option (Tx D Lock Supply Reply)}
variable {s s' : State D Lock Supply Call Reply}

/-- A run under a condition is a run. -/
theorem RunsUnder.runs {allow : State D Lock Supply Call Reply → Action Supply Call → Prop}
    (h : RunsUnder begins allow s s') : Runs begins s s' :=
  StepsUnder.steps h

/-- An executed list of actions is a run. -/
theorem runs_of_run {actions : List (Action Supply Call)}
    (h : run begins s actions = some s') : Runs begins s s' :=
  steps_of_execute h

/-- A checked list of actions is a run under the check. -/
theorem runsUnder_of_run {check : State D Lock Supply Call Reply → Action Supply Call → Bool}
    {actions : List (Action Supply Call)} (h : runUnder begins check s actions = some s') :
    RunsUnder begins (fun s a ↦ check s a = true) s s' :=
  stepsUnder_of_execute h

/-! ### What a step can do -/

/-- The ways of one step: a start, a statement, a commit, an end, or the passing of time. -/
inductive StepKind (begins : Call → D → Option (Tx D Lock Supply Reply))
    (s : State D Lock Supply Call Reply) :
    Action Supply Call → State D Lock Supply Call Reply → Prop
  | start {i call program} (free : s.session i = none) (h : begins call s.db = some program) :
      StepKind begins s (.start i call) (s.setSession i ⟨call, s.db, .running program id⟩)
  | stmt {i supply call born locks write next pending}
      (h : s.session i = some ⟨call, born, .running (.stmt locks write next) pending⟩)
      (free : ∀ l ∈ locks ⟨s.clock, supply⟩ (pending s.db),
        s.owner l = none ∨ s.owner l = some i) :
      StepKind begins s (.exec i supply)
        ((s.acquire i (locks ⟨s.clock, supply⟩ (pending s.db))).setSession i
          ⟨call, born, .running (next ⟨s.clock, supply⟩ (pending s.db))
            (fun db ↦ write ⟨s.clock, supply⟩ (pending s.db) (pending db))⟩)
  | commit {i supply call born next pending}
      (h : s.session i = some ⟨call, born, .running (.commit next) pending⟩) :
      StepKind begins s (.exec i supply) (s.publish i call born pending next)
  | done {i supply call born program pending outcome}
      (h : s.session i = some ⟨call, born, .running program pending⟩)
      (ends : program = .throw ∧ outcome = .threw ∨
        ∃ r, program = .pure r ∧ outcome = .returned r) :
      StepKind begins s (.exec i supply) (s.finish i call born outcome)
  | fail {i call born program pending}
      (h : s.session i = some ⟨call, born, .running program pending⟩) :
      StepKind begins s (.fail i) (s.finish i call born .failed)
  | tick {now} (h : s.clock ≤ now) : StepKind begins s (.tick now) { s with clock := now }

/-- Every step is of one of these kinds. -/
theorem step_kind {a : Action Supply Call} (h : step begins s a = some s') :
    StepKind begins s a s' := by
  cases a with
  | start i call =>
    simp only [step] at h
    split at h
    · next hs hb =>
      cases h
      exact .start hs hb
    · cases h
  | exec i supply =>
    simp only [step] at h
    split at h
    · next call born program pending hs =>
      cases program with
      | pure r =>
        cases h
        exact .done hs (.inr ⟨r, rfl, rfl⟩)
      | throw =>
        cases h
        exact .done hs (.inl ⟨rfl, rfl⟩)
      | commit next =>
        cases h
        exact .commit hs
      | stmt locks write next =>
        simp only [State.advance] at h
        split at h
        · next hg =>
          cases h
          refine .stmt hs fun l hl ↦ ?_
          simpa using List.all_eq_true.mp hg l hl
        · cases h
    · cases h
  | fail i =>
    simp only [step] at h
    split at h
    · next call born program pending hs =>
      cases h
      exact .fail hs
    · cases h
  | tick now =>
    simp only [step] at h
    split at h
    · next ht =>
      cases h
      exact .tick ht
    · cases h

end Relational
