import Banking.Atomic.Balance
import Banking.Refinement.System

/-!
# Conservation of balances

In every reachable state of the interleaved system each account holds its opening balance plus
its live credits less its live debits, and is not overdrawn.
-/

namespace Banking

open Relational (Table)

variable {d : Deployment} {accounts : Table Account.id} {now : Js.Date} {s : SystemState}

/-- Balances are right in every reachable state, whatever the opening balances. -/
theorem balanced (h : Runs d (initial accounts now) s) : Balanced accounts s.db :=
  Relational.Evolves.invariant (fun _ _ _ hc hb ↦ Balanced.step hb hc) (sound h).evolved
    (Balanced.opening accounts)

/-- No reachable state overdraws an account. -/
theorem solvent (hopening : ∀ a ∈ accounts.rows, 0 ≤ a.balance)
    (h : Runs d (initial accounts now) s) : Solvent s.db :=
  Relational.Evolves.invariant (fun _ _ _ hc hb ↦ Solvent.step hb hc) (sound h).evolved
    fun _ a ha ↦ hopening a (Table.mem_of_find? ha)

/-- From non-negative opening balances, every account of every reachable state holds its opening
balance plus its live credits less its live debits, and this is not negative. -/
theorem balance_conserved (hopening : ∀ a ∈ accounts.rows, 0 ≤ a.balance)
    (h : Runs d (initial accounts now) s) {a : Account} (ha : a ∈ s.db.accounts.rows) :
    ∃ a₀ ∈ accounts.rows, a₀.id = a.id ∧
      a.balance = a₀.balance + s.db.liveSum a.id .CREDIT - s.db.liveSum a.id .DEBIT ∧
      0 ≤ a.balance := by
  have hfind := Table.find?_of_mem ha
  obtain ⟨a₀, ha₀, hbalance⟩ := balanced h a.id a hfind
  refine ⟨a₀, Table.mem_of_find? ha₀, Table.key_of_find? ha₀, ?_, solvent hopening h a.id a hfind⟩
  rw [hbalance, Database.netEffect_eq]
  omega

/-- After the sample debit the account holds 100 less its live debits. -/
theorem balance_conserved_debit : ∃ s, Sample.after Sample.debit = some s ∧
    ∃ a ∈ s.db.accounts.rows, ∃ a₀ ∈ Sample.accounts.rows, a₀.id = a.id ∧
      a.balance = a₀.balance + s.db.liveSum a.id .CREDIT - s.db.liveSum a.id .DEBIT ∧
      0 ≤ a.balance := by
  have hrun : (Sample.after Sample.debit).map (fun s ↦ s.db.accounts.rows.length) = some 1 := by
    decide +kernel
  obtain ⟨s, hs, hlength⟩ := Option.map_eq_some_iff.mp hrun
  obtain ⟨a, ha⟩ := List.exists_mem_of_length_pos (Nat.lt_of_sub_eq_succ hlength)
  exact ⟨s, hs, a, ha, balance_conserved (by decide) (Relational.runs_of_run hs) ha⟩

end Banking
