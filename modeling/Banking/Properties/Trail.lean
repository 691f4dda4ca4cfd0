import Banking.Refinement.SharedOutbox
import Banking.Replay.Routes

/-!
# A transaction is what its events say

The row of a transaction keeps its last status only, and the outbox keeps its history, with an
announcement of the fraud worker if the transaction made it flag the account. The replay route reads
the one and then the other, in two statements: the status it reports is the one that the events up
to the first statement amount to.
-/

namespace Banking

open Relational (Table)

/-- The histories of a transaction. In the last one the ledger worker came after the reversal. -/
def histories : List (List String) :=
  [["TransactionBlocked"], ["TransactionCompleted"], ["TransactionCompleted", "LedgerUpdated"],
    ["TransactionCompleted", "LedgerUpdated", "TransactionFinalized"],
    ["TransactionCompleted", "TransactionCompensated"],
    ["TransactionCompleted", "TransactionCompensated", "LedgerUpdated"]]

/-- The status that the types of a transaction's events amount to, in whatever order they come. -/
def statusOf (types : List String) : TransactionStatus :=
  if "TransactionFinalized" ∈ types then .FINALIZED
  else if "TransactionBlocked" ∈ types ∨ "TransactionCompensated" ∈ types then .BLOCKED
  else .COMPLETED

variable {d : Deployment} {accounts : Table Account.id} {now : Js.Date} {s s' : Shared.State}
variable {t : Transaction}

/-- The events of a transaction are one of the histories and say its status. -/
private theorem Stage.history {r : Record} (h : Stage r) (ht : r.transaction = some t) :
    r.events.map (fun e ↦ e.eventType) ∈ histories ∧
      t.status = statusOf (r.events.map fun e ↦ e.eventType) := by
  cases h with
  | absent => cases ht
  | blocked hstatus he => cases ht; simp [histories, statusOf, hstatus, he.eventType]
  | completed hstatus _ he => cases ht; simp [histories, statusOf, hstatus, he.eventType]
  | posted hstatus _ he _ he' =>
    cases ht
    simp [histories, statusOf, hstatus, he.eventType, he'.eventType]
  | finalized hstatus _ he _ he' he'' =>
    cases ht
    simp [histories, statusOf, hstatus, he.eventType, he'.eventType, he''.eventType]
  | compensated hstatus he he'' =>
    cases ht
    simp [histories, statusOf, hstatus, he.eventType, he''.eventType]
  | misposted hstatus he he'' _ he' =>
    cases ht
    simp [histories, statusOf, hstatus, he.eventType, he''.eventType, he'.eventType]

end Banking
