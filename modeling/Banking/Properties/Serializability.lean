import Banking.Refinement.SerialWorkers
import Banking.Refinement.System

/-!
# The interleaved system is serializable

Statements run at READ COMMITTED: each reads what is committed when it runs, and other processes
commit between two statements of a transaction. The row, key and advisory locks are enough for the
outcome to be that of some serial execution, the one in the order of the commits.
-/

namespace Banking

open Relational (Linked Promised Table)

variable {d : Deployment} {accounts : Table Account.id} {now : Js.Date} {s : SystemState}
variable {db : Database}

/-- Every call keeps its promises from where it starts. -/
private theorem promises_begins (hc : Consistent db) {call : Call} {program : Process Reply}
    (hb : begins d call db = some program) :
    Relational.Promises (LockedCommits d) (SerialEffect d call) (SerialEnds d call db) program
      (fun _ ↦ False) id [db] [] db := by
  cases call with
  | create input request =>
    cases hb
    exact promises_create
  | ledgerEvent eventId =>
    obtain ⟨event, hd, rfl⟩ := Option.map_eq_some_iff.mp hb
    exact promises_ledgerEvent hd
  | finalizationEvent eventId =>
    obtain ⟨event, hd, rfl⟩ := Option.map_eq_some_iff.mp hb
    exact promises_finalizationEvent hc hd
  | timeoutScan =>
    cases hb
    exact promises_timeoutScan

/-- Every process of a reachable state keeps its promises, or has ended as it promised. -/
theorem promised (h : Runs d (initial accounts now) s) :
    Promised (LockedCommits d) (SerialEffect d) (SerialEnds d) (Database.opening accounts) s := by
  refine Promised.runs (lockedCommits_mono d) (fun t ht i call born next pending hi ↦ ?_)
    (fun t ht call program hb ↦ promises_begins (consistent ht) hb) h
  have hidentified := (Relational.Footed.runs Identified.footprint locks_begins ht i call born
    (.commit next) pending hi).2 t.db
  have hcommit := (sound ht).commit hi
  generalize pending t.db = a at hidentified hcommit
  cases hcommit with
  | refl => exact Relational.Evolves.refl _
  | single hcommit => exact .single ⟨hcommit, hidentified⟩

namespace Sample

end Sample

namespace Sample

end Sample

end Banking
