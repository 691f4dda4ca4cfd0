import Banking.Workers.Consumer

/-!
# The retry loop on its own

One call of `processWithRetry` of `consumer-utils.ts`, run against given outcomes of the handler,
the sleeps and the send to the dead-letter queue. It takes the turns that the worker process
interleaves with those of its other calls.
-/

namespace Banking.Consumer

/-- What the loop calls. -/
inductive RetryEffect where
  | handler
  | sleep (milliseconds : Nat)
  | publishDlq (error : Option String) (attempts : Nat)
  deriving DecidableEq

/-- How the calls end: the handler's and the sleeps in order, from 0, and `publishDlq`. An error
stands for itself. -/
structure Outcomes where
  handler : Nat → Except String Unit
  sleep : Nat → Except String Unit
  publishDlq : Except String Unit

variable (w : Worker) (maxAttempts : Nat) (o : Outcomes)

/-- The next call and what follows it; `consumer-utils.ts:75–86`. Nothing follows the end. -/
def Retry.turn : Retry → Option (RetryEffect × Retry)
  | .attempting attempt => some (.handler, match o.handler attempt with
    | .ok () => .resolved
    | .error error => .failed w maxAttempts attempt error)
  | .sleeping attempt milliseconds lastError => some (.sleep milliseconds,
    match o.sleep attempt with
    | .ok () => .loop maxAttempts (attempt + 1) (some lastError)
    | .error error => .rejected error)
  | .publishing lastError => some (.publishDlq lastError maxAttempts, match o.publishDlq with
    | .ok () => .resolved
    | .error error => .rejected error)
  | .resolved => none
  | .rejected _ => none

/-- At most `fuel` turns: the calls, and where they lead. -/
def Retry.run : Nat → Retry → List RetryEffect × Retry
  | 0, retry => ([], retry)
  | fuel + 1, retry =>
    match retry.turn w maxAttempts o with
    | none => ([], retry)
    | some (effect, next) =>
      let (effects, last) := run fuel next
      (effect :: effects, last)

/-- `processWithRetry` with `options.maxAttempts`; `consumer-utils.ts:55–91`. Each attempt takes two
turns at most, and the send one. -/
def processWithRetry : List RetryEffect × Retry :=
  Retry.run w maxAttempts o (2 * maxAttempts + 1) (.loop maxAttempts 0 none)

end Banking.Consumer
