import Banking.Events.Schemas
import Banking.Relational.Tally
import Mathlib.Data.List.Sort
import Mathlib.Logic.Function.Basic

/-!
# Rebuilding balances

`rebuildBalances` of `replay.service.ts`: the events are sorted by time and identifier, and each
payload adds to or takes from the balance of its account. A payload that the schema rejects makes
the whole rebuild throw.
-/

namespace Banking

open Js (Date)
open Relational (tally valuesAt tally_concat tally_perm getD_tally valuesAt_cons)

/-- `replay.service.ts:3–8`. -/
structure ReplayEvent where
  id : String
  transactionId : String
  createdAt : Date
  payload : Json

/-- The two orders on strings that decide between events of the same time, of which nothing is
assumed: the database's for `ORDER BY` and `localeCompare`. -/
structure Collation where
  orderBy : String → String → Int
  localeCompare : String → String → Int

/-- Time first, then the identifiers; `replay.service.ts:13–16`. -/
def compareEvents (compareIds : String → String → Int) (left right : Date × String) : Int :=
  let byTime := left.1 - right.1
  if byTime = 0 then compareIds left.2 right.2 else byTime

/-- `[...events].sort(…)`; `replay.service.ts:13–16`. -/
def orderedEvents (collation : Collation) (events : List ReplayEvent) : List ReplayEvent :=
  events.insertionSort (fun left right ↦ compareEvents collation.localeCompare
    (left.createdAt, left.id) (right.createdAt, right.id) ≤ 0)

/-- A map from accounts to balances, by its `get`. -/
abbrev Balances := String → Option Int

/-- What a payload does to the balance of its account; `replay.service.ts:21–24`. -/
def TransactionCompletedPayload.apply (payload : TransactionCompletedPayload) (previous : Int) :
    Int :=
  match payload.txnType with
  | .DEBIT => previous - Js.bigInt payload.amount
  | .CREDIT => previous + Js.bigInt payload.amount

/-- One turn of the loop; `replay.service.ts:18–26`. -/
def replayEvent (balances : Balances) (event : ReplayEvent) : Option Balances := do
  let payload ← transactionCompletedPayloadSchema (some event.payload)
  let previous := (balances payload.accountId).getD 0
  return Function.update balances payload.accountId (some (payload.apply previous))

/-- `replay.service.ts:10–29`; `none` is an exception. -/
def rebuildBalances (collation : Collation) (events : List ReplayEvent) : Option Balances :=
  (orderedEvents collation events).foldlM replayEvent (fun _ ↦ none)

/-! ### What the loop adds up -/

/-- What an event adds to the balance of an account. -/
def replayedAmount (accountId : String) (event : ReplayEvent) : Int :=
  match transactionCompletedPayloadSchema (some event.payload) with
  | some payload => if payload.accountId = accountId then payload.apply 0 else 0
  | none => 0

variable {collation : Collation} {events : List ReplayEvent} {event : ReplayEvent}
variable {balances start : Balances} {accountId : String}

/-- A payload moves any balance by the same amount. -/
theorem TransactionCompletedPayload.apply_eq (payload : TransactionCompletedPayload) (n : Int) :
    payload.apply n = n + payload.apply 0 := by
  unfold TransactionCompletedPayload.apply
  cases payload.txnType <;> simp only <;> omega

/-- An accepted event as an amount that is filed under its account. -/
def ReplayEvent.movement (event : ReplayEvent) : Option (String × Int) :=
  (transactionCompletedPayloadSchema (some event.payload)).map
    fun payload ↦ (payload.accountId, payload.apply 0)

/-- One turn of the loop files one amount. -/
private theorem replayEvent_tally (done : List (String × Int)) (event : ReplayEvent) :
    replayEvent (tally done) event = event.movement.map fun item ↦ tally (done ++ [item]) := by
  unfold replayEvent ReplayEvent.movement
  cases transactionCompletedPayloadSchema (some event.payload) with
  | none => rfl
  | some payload =>
    simp only [Option.bind_eq_bind, Option.bind_some, Option.pure_def, Option.map_some,
      Option.some.injEq]
    funext accountId
    rw [tally_concat, Function.update_apply, payload.apply_eq]
    by_cases haccount : payload.accountId = accountId
    · rw [if_pos haccount.symm, if_pos haccount, haccount]
    · rw [if_neg (Ne.symm haccount), if_neg haccount]

private theorem foldlM_tally (done : List (String × Int)) :
    events.foldlM replayEvent (tally done) = some balances ↔
      (∀ event ∈ events, event.movement.isSome = true) ∧
        balances = tally (done ++ events.filterMap ReplayEvent.movement) := by
  induction events generalizing done with
  | nil => simpa using eq_comm
  | cons event events ih =>
    rw [List.foldlM_cons, replayEvent_tally, List.forall_mem_cons]
    cases hmovement : event.movement with
    | none => simp
    | some item =>
      rw [Option.map_some, Option.bind_eq_bind, Option.bind_some, ih,
        List.filterMap_cons_some hmovement, List.append_assoc, List.singleton_append]
      simp

private theorem orderedEvents_perm (collation : Collation) (events : List ReplayEvent) :
    (orderedEvents collation events).Perm events := List.perm_insertionSort _ events

/-- A rebuild succeeds if the schema accepts every payload, and then adds up the amounts under
each account, in whatever order the events are given. -/
theorem rebuildBalances_eq_some :
    rebuildBalances collation events = some balances ↔
      (∀ event ∈ events, event.movement.isSome = true) ∧
        balances = tally (events.filterMap ReplayEvent.movement) := by
  have hempty : (fun _ ↦ none : Balances) = tally [] := rfl
  have hperm := orderedEvents_perm collation events
  have htally : tally ((orderedEvents collation events).filterMap ReplayEvent.movement) =
      tally (events.filterMap ReplayEvent.movement) :=
    funext (tally_perm (hperm.filterMap _))
  rw [rebuildBalances, hempty, foldlM_tally, List.nil_append, htally]
  simp only [hperm.mem_iff]

/-- A rebuild succeeds if the schema accepts every payload. -/
theorem rebuildBalances_isSome :
    (rebuildBalances collation events).isSome = true ↔
      ∀ event ∈ events, (transactionCompletedPayloadSchema (some event.payload)).isSome = true := by
  rw [Option.isSome_iff_exists]
  simp only [rebuildBalances_eq_some, exists_and_left, exists_eq, and_true, ReplayEvent.movement,
    Option.isSome_map]

/-- A rebuilt balance is the sum over the events, in whatever order they are given. -/
theorem rebuildBalances_getD (accountId : String)
    (h : rebuildBalances collation events = some balances) :
    (balances accountId).getD 0 = (events.map (replayedAmount accountId)).sum := by
  obtain ⟨-, rfl⟩ := rebuildBalances_eq_some.mp h
  rw [getD_tally]
  clear h
  induction events with
  | nil => rfl
  | cons event events ih =>
    rw [List.map_cons, List.sum_cons, ← ih, replayedAmount, List.filterMap_cons,
      ReplayEvent.movement]
    cases transactionCompletedPayloadSchema (some event.payload) with
    | none => exact (Int.zero_add _).symm
    | some payload =>
      simp only [Option.map_some, valuesAt_cons]
      split
      · rw [List.sum_cons]
      · exact (Int.zero_add _).symm

end Banking
