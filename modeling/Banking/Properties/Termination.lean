import Banking.Properties.RefreshTokens
import Banking.Refinement.AuthLocks
import Banking.Refinement.Locks
import Banking.Relational.Termination

/-!
# Every call ends

However many requests, deliveries to the two workers and timeout scans are under way, and whatever
has happened before, the running calls end under every schedule: none of them goes on forever, and
they do not come to a stop before all have ended. So do the calls of the authentication service.
-/

namespace Banking

open Relational (Table Terminates)

variable {d : Deployment} {accounts : Table Account.id} {now : Js.Date} {s : SystemState}

/-- From every reachable state the running calls end. -/
theorem every_call_ends (h : Runs d (initial accounts now) s) : Terminates (begins d) s := by
  have : Nonempty Supply := ⟨⟨"", []⟩⟩
  exact Relational.terminates_of_acyclic h fun _ ht w ↦ w.acyclic held_mono (orderly (h.trans ht))

namespace Sample

/-- Process 0 has locked the account for its debit, and process 1 waits for it with the same. -/
def crowded : List SystemAction :=
  .start 0 (.create input request) :: .start 1 (.create input request) :: execute 0 1 0

/-- A request that waits for another. -/
theorem every_call_ends_crowded : ∃ s, after crowded = some s ∧
    (Relational.step (begins deployment) s (.exec 1 ⟨uuid 1, []⟩)).isNone ∧
    Terminates (begins deployment) s := by
  have hwaits : (after crowded).map (fun s ↦
      (Relational.step (begins deployment) s (.exec 1 ⟨uuid 1, []⟩)).isNone) = some true := by
    decide +kernel
  obtain ⟨s, hs, hnone⟩ := Option.map_eq_some_iff.mp hwaits
  exact ⟨s, hs, hnone, every_call_ends (Relational.runs_of_run hs)⟩

end Sample

end Banking

namespace Banking.Auth

open Relational (Table Terminates)

variable {d : Deployment} {users : Table User.id} {now : Js.Date} {s : SystemState}

/-- From every reachable state the running registrations, logins, refreshes and logouts end. -/
theorem every_request_ends (h : Runs d (initial users now) s) : Terminates (begins d) s := by
  have : Nonempty Supply := ⟨⟨"", ""⟩⟩
  exact Relational.terminates_of_acyclic h fun _ ht w ↦ waits_acyclic (h.trans ht) w

namespace Sample

/-- After a login process 1 has revoked the session for a refresh, and process 2 is about to. -/
def contended : List SystemAction :=
  .start 0 (.login "user@example.com" "secret") :: execute 0 7 "token-1" ++
    [.start 1 (.refresh "token-1"), .start 2 (.refresh "token-1")] ++
    execute 1 5 "token-2" ++ execute 2 4 "token-3"

/-- Two refreshes with one token, the second of which waits for the first. -/
theorem every_request_ends_contended : ∃ s,
    Relational.run (begins deployment) (initial customers 1000) contended = some s ∧
      (Relational.step (begins deployment) s (.exec 2 ⟨"", "token-3"⟩)).isNone ∧
      Terminates (begins deployment) s := by
  have hwaits : (Relational.run (begins deployment) (initial customers 1000) contended).map
      (fun s ↦ (Relational.step (begins deployment) s (.exec 2 ⟨"", "token-3"⟩)).isNone) =
      some true := by
    decide +kernel
  obtain ⟨s, hs, hnone⟩ := Option.map_eq_some_iff.mp hwaits
  exact ⟨s, hs, hnone, every_request_ends (Relational.runs_of_run hs)⟩

end Sample

end Banking.Auth
