import Banking.Atomic.FraudGate
import Banking.Refinement.Answers
import Mathlib.Data.List.Perm.Subperm

/-!
# The fraud gate on calls

The calls of a user that returned 201 within one minute are within both fraud limits, however
the statements of concurrent calls interleave.
-/

namespace Banking

open Js (Date)
open Relational (Table)

variable {d : Deployment} {accounts : Table Account.id} {now : Date} {s : SystemState}

/-- Every window of every reachable database is within the limits. -/
theorem gate (h : Runs d (initial accounts now) s) : Gate d s.db := by
  have hboth : Consistent s.db ∧ Gate d s.db :=
    Relational.Evolves.invariant (P := fun x ↦ Consistent x ∧ Gate d x)
      (fun _ _ _ hc ⟨hcons, hgate⟩ ↦ ⟨hcons.step hc, hgate.step hcons hc⟩) (sound h).evolved
      ⟨.opening accounts, .opening d accounts⟩
  exact hboth.2

/-- Rows of a window, each at most once, are no more than the window. -/
private theorem limits_of_subset (h : Gate d s.db) (hc : Consistent s.db) {userId : String}
    {start : Date} {rows : List Transaction} (hnodup : rows.Nodup)
    (hsub : rows ⊆ s.db.window userId start) :
    rows.length ≤ d.config.MAX_TXN ∧ debits rows ≤ d.config.FRAUD_TXN_AMOUNT := by
  obtain ⟨chosen, hperm, hchosen⟩ := hnodup.subperm hsub
  have hpos : ∀ t ∈ s.db.window userId start, 0 < t.amount := fun t ht ↦
    hc.amount_pos (Table.find?_of_mem (List.mem_filter.mp ht).1)
  have hdebits : debits rows = debits chosen := ((hperm.filter _).map _).sum_eq.symm
  constructor
  · calc rows.length = chosen.length := hperm.length_eq.symm
      _ ≤ (s.db.window userId start).length := hchosen.length_le
      _ ≤ d.config.MAX_TXN := h.count userId start
  · calc debits rows = debits chosen := hdebits
      _ ≤ debits (s.db.window userId start) := debits_le hchosen hpos
      _ ≤ d.config.FRAUD_TXN_AMOUNT := h.amount userId start

/-- A call passed in the minute from `start` on, on an account of the user. -/
def PassedIn (s : SystemState) (userId : String) (start : Date) (i : Nat) : Prop :=
  ∃ t, passed s i = some t ∧ s.db.owns userId t = true ∧ start ≤ t.createdAt ∧
    t.createdAt ≤ start + 60000

private theorem rows_subset (h : Runs d (initial accounts now) s) {userId : String}
    {start : Date} {calls : List Nat} (hcalls : ∀ i ∈ calls, PassedIn s userId start i) :
    calls.filterMap (passed s) ⊆ s.db.window userId start := by
  intro t ht
  obtain ⟨i, hi, hpassed⟩ := List.mem_filterMap.mp ht
  obtain ⟨t', hpassed', howns, hstart, hend⟩ := hcalls i hi
  obtain rfl := Option.some.inj (hpassed.symm.trans hpassed')
  obtain ⟨hrow, e, he, htype, htid⟩ := mem_of_passed h hpassed
  refine List.mem_filter.mpr ⟨hrow, ?_⟩
  have hcompleted : s.db.hasCompleted t.transactionId = true :=
    List.any_eq_true.mpr ⟨e, htid ▸ Database.mem_trail he, by simp [htype]⟩
  simp [Database.inWindow, howns, hstart, hend, hcompleted]

/-- Every call that returned 201 has its row, and of every user and every closed interval of
60 000 ms, the calls that passed in it on accounts of the user are at most `MAX_TXN`, and their
debits sum to at most `FRAUD_TXN_AMOUNT`. -/
theorem fraud_gate (h : Runs d (initial accounts now) s) :
    (∀ i input request born data, s.session i =
        some ⟨.create input request, born, .done (.returned (.transaction (.success 201 data)))⟩ →
      ∃ t ∈ s.db.transactions.rows, passed s i = some t ∧
        t.transactionId = input.transactionId ∧ t.accountId = input.accountId ∧
        t.type = input.type ∧ t.amount = input.amountMinor) ∧
    ∀ (userId : String) (start : Date) (calls : List Nat), calls.Nodup →
      (∀ i ∈ calls, PassedIn s userId start i) →
        calls.length ≤ d.config.MAX_TXN ∧
          debits (calls.filterMap (passed s)) ≤ d.config.FRAUD_TXN_AMOUNT := by
  constructor
  · intro i input request born data hi
    obtain ⟨c, hc, -, row, status, hpassed, hrow⟩ := passed_of_answer h hi
    have hreq := hpassed.requested
    exact ⟨_, (mem_of_passed h hrow).1, hrow, hreq.transactionId.symm, hreq.accountId.symm,
      hreq.type.symm, hreq.amount.symm⟩
  · intro userId start calls hnodup hcalls
    have hinjective : ∀ i j t, passed s i = some t → passed s j = some t → i = j :=
      fun _ _ _ ↦ passed_injective h
    have hlength : (calls.filterMap (passed s)).length = calls.length := by
      rw [List.length_filterMap_eq_countP, List.countP_eq_length]
      intro i hi
      obtain ⟨t, ht, -⟩ := hcalls i hi
      simp [ht]
    have hlimits := limits_of_subset (gate h) (consistent h)
      (hnodup.filterMap hinjective) (rows_subset h hcalls)
    exact hlength ▸ hlimits

namespace Sample

/-- Process `i` passed in the first minute, on an account of the owner. -/
def passedInFirst (s : SystemState) (i : Nat) : Bool :=
  match passed s i with
  | some t => s.db.owns "user-1" t && decide (0 ≤ t.createdAt ∧ t.createdAt ≤ 60000)
  | none => false

theorem passedIn_of_first {s : SystemState} {i : Nat} (h : passedInFirst s i = true) :
    PassedIn s "user-1" 0 i := by
  rw [passedInFirst] at h
  split at h
  · next t ht =>
    obtain ⟨howns, hwindow⟩ := Bool.and_eq_true_iff.mp h
    obtain ⟨hstart, hend⟩ := of_decide_eq_true hwindow
    exact ⟨t, ht, howns, hstart, hend⟩
  · cases h

end Sample

/-- Of six debits within a minute five pass, which is the limit, and the sixth does not. -/
theorem fraud_gate_limit : ∃ s, Sample.after Sample.requests = some s ∧
    passed s 5 = none ∧ (∀ i ∈ [0, 1, 2, 3, 4], PassedIn s "user-1" 0 i) ∧
      [0, 1, 2, 3, 4].length = Sample.deployment.config.MAX_TXN ∧
      [0, 1, 2, 3, 4].length ≤ Sample.deployment.config.MAX_TXN ∧
      debits ([0, 1, 2, 3, 4].filterMap (passed s)) ≤
        Sample.deployment.config.FRAUD_TXN_AMOUNT := by
  have hrun : (Sample.after Sample.requests).map (fun s ↦ ((passed s 5).isNone,
      [0, 1, 2, 3, 4].all (Sample.passedInFirst s))) = some (true, true) := by
    decide +kernel
  obtain ⟨s, hs, hpair⟩ := Option.map_eq_some_iff.mp hrun
  obtain ⟨hnone, hall⟩ := Prod.mk.inj hpair
  have hin : ∀ i ∈ [0, 1, 2, 3, 4], PassedIn s "user-1" 0 i := fun i hi ↦
    Sample.passedIn_of_first (List.all_eq_true.mp hall i hi)
  exact ⟨s, hs, Option.isNone_iff_eq_none.mp hnone, hin, rfl,
    (fraud_gate (Relational.runs_of_run hs)).2 "user-1" 0 [0, 1, 2, 3, 4] (by decide) hin⟩

end Banking
