import Banking.Refinement.Locks

/-!
# No deadlock

However many requests, deliveries to the two workers and timeout scans interleave, no processes
wait for one another in a circle.
-/

namespace Banking

open Relational (Table Waits)

variable {d : Deployment} {accounts : Table Account.id} {now : Js.Date} {s : SystemState}

/-- In no reachable state does the wait-for graph have a cycle, whichever processes wait and
however far each has got with the locks of its statement. -/
theorem no_deadlock (h : Runs d (initial accounts now) s) (w : Waits s) (i : Nat) :
    ¬ Relation.TransGen w.For i i :=
  w.acyclic held_mono (orderly h) i

namespace Sample

/-- Process 0 has locked the account for its debit, and process 1 begins the same debit. -/
def contended : List SystemAction :=
  .start 0 (.create input request) :: execute 0 1 0 ++ [.start 1 (.create input request)]

/-- A run in which one request waits for another. -/
theorem no_deadlock_contended : ∃ s, after contended = some s ∧ ∃ w : Waits s,
    w.For 1 0 ∧ ∀ i, ¬ Relation.TransGen w.For i i := by
  obtain ⟨s, hs⟩ : ∃ s, after contended = some s := Option.isSome_iff_exists.mp rfl
  have hfacts : (after contended).map (fun s ↦ (s.owner (.account accountId),
      s.needed 1 ⟨uuid 1, []⟩)) = some (some 0, [.account accountId]) := by decide
  rw [hs] at hfacts
  simp only [Option.map_some, Option.some.injEq, Prod.mk.injEq] at hfacts
  obtain ⟨howner, hneeded⟩ := hfacts
  let w : Waits s := ⟨fun i ↦ if i = 1 then some ([], .account accountId) else none, by
    intro i held l hi
    split at hi
    · next h1 =>
      cases hi
      exact ⟨_, [], h1 ▸ hneeded, by simp⟩
    · cases hi⟩
  exact ⟨s, hs, w, ⟨by decide, [], _, rfl, .inl howner⟩,
    fun i ↦ no_deadlock (Relational.runs_of_run hs) w i⟩

end Sample

end Banking
