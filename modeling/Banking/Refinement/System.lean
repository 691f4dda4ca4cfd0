import Banking.Refinement.Create
import Banking.Refinement.Workers

/-!
# The system refines its commits

Every reachable committed database is reached by steps of `Commits` alone, with the history of
calls and commits that `Relational.Sound` keeps. Invariants of commits are invariants of every
run of the interleaved statements.
-/

namespace Banking

open Relational (Outcome Safe Table)

/-- How a call that started on `born` may end. -/
def Ends (d : Deployment) : Call → Database → Outcome Reply → List (Database × Database) → Prop
  | .create input request, born => CreateEnds d input request born
  | _, _ => fun _ _ ↦ True

variable {d : Deployment} {accounts : Table Account.id} {now : Js.Date} {s s' : SystemState}

/-- Every call is safe from where it starts. -/
theorem safe_begins {db₀ : Database} (h₀ : Consistent db₀) (call : Call) (db : Database)
    (program : Process Reply) (now : Int) (he : Evolves d (fun _ ↦ True) db₀ db)
    (hb : begins d call db = some program) :
    Safe (Commits d) call (Ends d call db) program (fun _ ↦ False) id [] now db := by
  cases call with
  | create input request =>
    cases hb
    exact safe_create
  | ledgerEvent eventId =>
    obtain ⟨event, hd, rfl⟩ := Option.map_eq_some_iff.mp hb
    exact safe_ledgerEvent (h₀.evolves he) hd
  | finalizationEvent eventId =>
    obtain ⟨event, hd, rfl⟩ := Option.map_eq_some_iff.mp hb
    exact safe_finalizationEvent (h₀.evolves he) hd
  | timeoutScan =>
    cases hb
    exact safe_timeoutScan

/-- What holds of a state reached from the accounts' opening balances. -/
abbrev Sound (d : Deployment) (accounts : Table Account.id) : SystemState → Prop :=
  Relational.Sound (begins d) (Commits d) (Ends d) (Database.opening accounts)

/-- Every reachable state is sound. -/
theorem sound (h : Runs d (initial accounts now) s) : Sound d accounts s :=
  (Relational.Sound.initial now).runs (commits_mono d) (safe_begins (.opening accounts)) h

/-- Every reachable database is consistent. -/
theorem consistent (h : Runs d (initial accounts now) s) : Consistent s.db :=
  (Consistent.opening accounts).evolves (sound h).evolved

/-- Along a run from a reachable state the database evolves. -/
theorem evolves (h : Runs d (initial accounts now) s) (hs : Runs d s s') :
    Evolves d (fun _ ↦ True) s.db s'.db :=
  (sound h).evolves (commits_mono d) (safe_begins (.opening accounts)) hs

/-- Along a run the outbox grows at its end only. -/
theorem outbox_prefix (h : Runs d (initial accounts now) s) (hs : Runs d s s') :
    s.db.outboxEvents.rows <+: s'.db.outboxEvents.rows := by
  refine Relational.Evolves.invariant
    (P := fun db ↦ s.db.outboxEvents.rows <+: db.outboxEvents.rows)
    (fun _ b a hc hb ↦ hb.trans ?_) (evolves h hs) (List.prefix_refl _)
  rcases hc.outboxEvents with hsame | ⟨e, hunsent, hrows⟩
  · simp only [hsame, List.prefix_refl]
  · rw [hrows, Table.rows_insert hunsent.absent]
    exact List.prefix_append _ _

/-- A call that had not started in `s` starts on a database later than that of `s`. -/
theorem evolves_born (h : Runs d (initial accounts now) s) (hs : Runs d s s') {i : Nat}
    {x : Relational.Session Database Lock Supply Call Reply} (hi : s.session i = none)
    (hx : s'.session i = some x) : Evolves d (fun _ ↦ True) s.db x.born :=
  (sound h).evolves_born (commits_mono d) (safe_begins (.opening accounts)) hs hi hx

/-- The account of every transaction exists. -/
theorem exists_account (h : Runs d (initial accounts now) s) {t : Transaction}
    (ht : s.db.transactions.find? t.transactionId = some t) :
    ∃ account, s.db.accounts.find? t.accountId = some account := by
  refine Relational.Evolves.invariant (P := fun db ↦ ∀ id t, db.transactions.find? id = some t →
    ∃ account, db.accounts.find? t.accountId = some account) (fun call b a hc hb id t ht ↦ ?_)
    (sound h).evolved (fun id t ht ↦ by simp [Database.opening] at ht) _ t ht
  have hlater : ∀ {id account}, b.accounts.find? id = some account →
      ∃ account, a.accounts.find? id = some account := by
    intro id account haccount
    obtain ⟨balance, hbalance⟩ := Evolves.account (d := d) (.single hc) haccount
    exact ⟨_, hbalance⟩
  rcases hc.transactions with he | ⟨row, account, -, -, haccount, -, he⟩ |
    ⟨t', status, ht', -, -, -, he⟩
  · obtain ⟨account, haccount⟩ := hb id t (he ▸ ht)
    exact hlater haccount
  · rw [he] at ht
    rcases Table.eq_or_of_find?_insert ht with rfl | hold
    · exact hlater haccount
    · obtain ⟨account, haccount⟩ := hb id t hold
      exact hlater haccount
  · rw [he, Database.transactions_setStatus, Table.find?_modify] at ht
    split at ht
    · rw [ht'] at ht
      cases ht
      obtain ⟨account, haccount⟩ := hb _ t' ht'
      exact hlater haccount
    · obtain ⟨account, haccount⟩ := hb id t ht
      exact hlater haccount

end Banking
