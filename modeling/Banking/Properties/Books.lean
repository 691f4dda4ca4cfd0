import Banking.Properties.EventFormat
import Banking.Refinement.Bank
import Banking.Refinement.SharedOutbox

/-!
# The outbox is the log of a bank

However the statements of requests, workers and scans interleave, the committed database is that of
a bank whose operations happen one at a time, and the outbox is its log: whoever reads the rows in
the order of their commits, and skips the announcements of the fraud worker, can rebuild the
balances, the transactions and the ledger, and can go on from there when more rows are committed.
-/

namespace Banking

open Relational (Table)

variable {d : Deployment} {accounts : Table Account.id} {now : Js.Date} {s s' : Shared.State}

/-- Accounts that are not overdrawn open a bank with sound books. -/
private theorem sound_opening (hopening : ∀ a ∈ accounts.rows, 0 ≤ a.balance) :
    (Bank.opening (P := String) (Database.opening accounts).balances).Sound := by
  refine Bank.sound_opening fun {id n} hn ↦ ?_
  obtain ⟨a, ha, rfl⟩ := Option.map_eq_some_iff.mp hn
  exact hopening a (Table.mem_of_find? ha)

/-- What the outbox of the engine records, that of both writers does. -/
private theorem recorded_shared (h : Shared.Runs d (Shared.initial accounts now) s)
    {log : List (Bank.Operation String String)} (hlog : Recorded accounts s.engine.db log) :
    Recorded accounts s.database log where
  operations := by
    have hrows : s.database.engineEvents = s.engine.db.outboxEvents.rows := (Shared.merged h).rows
    have hengine : s.engine.db.engineEvents = s.engine.db.outboxEvents.rows :=
      List.filter_eq_self.mpr fun e he ↦
        decide_eq_true (Shared.eventType_ne (consistent (Shared.engine_runs h)) he)
    rw [hrows, ← hengine]
    exact hlog.operations
  legal := hlog.legal
  bank := by
    refine ⟨hlog.bank.balances.trans (funext fun id ↦ ?_), hlog.bank.decisions,
      hlog.bank.postings⟩
    rw [Database.balances, Database.balances, s.find?_account, Option.map_map]
    rfl
  left := by
    intro e he t balance hcompleted
    refine hlog.left e ?_ hcompleted
    rw [← (Shared.merged h).rows]
    refine List.mem_filter.mpr ⟨he, decide_eq_true ?_⟩
    rw [hcompleted.eventType]
    decide

/-- In every reachable state the outbox, but for announcements, is the log of a bank that the
database shows, later rows only add to it, and the books of the bank are sound. -/
theorem outbox_is_log (hopening : ∀ a ∈ accounts.rows, 0 ≤ a.balance)
    (h : Shared.Runs d (Shared.initial accounts now) s) (hs : Shared.Runs d s s') :
    ∃ log later, Recorded accounts s.database log ∧ Recorded accounts s'.database (log ++ later) ∧
      (replayed accounts (log ++ later)).Sound := by
  have hengine := Shared.engine_runs h
  have hevolved := (sound hengine).evolved
  have hstart : Evolves d (fun _ ↦ True) (.opening accounts) (.opening accounts) := .refl _
  obtain ⟨hsolvent, hnonneg⟩ := sound_balances hopening hstart
  obtain ⟨log, hlog⟩ := (recorded_opening accounts).evolves (Consistent.opening accounts) hsolvent
    hnonneg hevolved
  obtain ⟨hsolvent', hnonneg'⟩ := sound_balances hopening hevolved
  obtain ⟨later, hlater⟩ := hlog.evolves (consistent hengine) hsolvent' hnonneg'
    (evolves hengine (Shared.engine_runs hs))
  exact ⟨log, later, recorded_shared h hlog, recorded_shared (h.trans hs) hlater,
    (sound_opening hopening).replay hlater.legal⟩

/-- The log of the sample debit and, after its account was flagged, of its posting. -/
theorem outbox_is_log_posted : ∃ s s' log later,
    Relational.execute (Shared.step Sample.deployment) (Shared.initial Sample.accounts 1000)
      (Sample.debit.map .engine) = some s ∧
    Relational.execute (Shared.step Sample.deployment) s
      (.flag (Sample.uuid 0) (Sample.uuid 9) 1000 :: (Sample.post 1 1).map .engine) = some s' ∧
    log.length = 1 ∧ later.length = 1 ∧ s'.database.outboxEvents.rows.length = 3 ∧
    Recorded Sample.accounts s.database log ∧
    Recorded Sample.accounts s'.database (log ++ later) := by
  have hrun : (do
      let s ← Relational.execute (Shared.step Sample.deployment)
        (Shared.initial Sample.accounts 1000) (Sample.debit.map .engine)
      let s' ← Relational.execute (Shared.step Sample.deployment) s
        (.flag (Sample.uuid 0) (Sample.uuid 9) 1000 :: (Sample.post 1 1).map .engine)
      return (s.database.engineEvents.length, s'.database.engineEvents.length,
        s'.database.outboxEvents.rows.length)) = some (1, 2, 3) := by
    decide +kernel
  obtain ⟨s, hs, hrun⟩ := Option.bind_eq_some_iff.mp hrun
  obtain ⟨s', hs', hlengths⟩ := Option.bind_eq_some_iff.mp hrun
  obtain ⟨hbefore, hlengths⟩ := Prod.mk.inj (Option.some.inj hlengths)
  obtain ⟨hafter, hrows⟩ := Prod.mk.inj hlengths
  obtain ⟨log, later, hlog, hlater, -⟩ := outbox_is_log (by decide)
    (Relational.steps_of_execute hs) (Relational.steps_of_execute hs')
  have hfirst := congrArg List.length hlog.operations
  have hsecond := congrArg List.length hlater.operations
  rw [List.length_map, List.length_map, hbefore] at hfirst
  rw [List.length_map, List.length_map, hafter, List.length_append, ← hfirst] at hsecond
  exact ⟨s, s', log, later, hs, hs', hfirst.symm, by omega, hrows, hlog, hlater⟩

end Banking
