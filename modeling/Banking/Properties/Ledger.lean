import Banking.Refinement.System

/-!
# The ledger and reversed transactions

The ledger worker locks the transaction row of a completed event and does not look at its
status. A delivery that arrives after the timeout scan has reversed the transaction posts its
entry all the same. Runs without such a delivery never post a reversed transaction.
-/

namespace Banking

open Relational (Table)

/-- The ledger carries live transactions only. -/
structure LedgerSound (db : Database) : Prop where
  /-- Every ledger entry belongs to a completed or finalized transaction. -/
  live : ∀ l ∈ db.ledgerEntries.rows, ∃ t, db.transactions.find? l.transactionId = some t ∧
    (t.status = .COMPLETED ∨ t.status = .FINALIZED)
  /-- A compensated transaction has neither a ledger entry nor a ledger event. -/
  reversed : ∀ tid, 0 < db.eventCount tid "TransactionCompensated" →
    db.ledgerEntries.find? tid = none ∧ db.eventCount tid "LedgerUpdated" = 0

/-- No ledger handler is about to commit a `TransactionCompleted` event that it has not recorded
and whose transaction is `BLOCKED`. -/
def timely (s : SystemState) : SystemAction → Bool
  | .exec i _ =>
    match s.session i with
    | some ⟨.ledgerEvent eventId, _, .running (.commit _) _⟩ =>
      !(s.db.outboxEvents.find? eventId).any fun e ↦
        decide (e.eventType = "TransactionCompleted") &&
          (s.db.processedEvents.find? (Ledger.CONSUMER_NAME, eventId)).isNone &&
          (s.db.transactions.find? e.transactionId).any fun t ↦ decide (t.status = .BLOCKED)
    | _ => true
  | _ => true

/-- No entry belongs to a blocked transaction. -/
private def Unblocked (db : Database) : Prop :=
  ∀ tid l t, db.ledgerEntries.find? tid = some l → db.transactions.find? tid = some t →
    t.status ≠ .BLOCKED

private theorem ledgerSound_of_unblocked {db : Database} (hc : Consistent db)
    (h : Unblocked db) : LedgerSound db := by
  constructor
  case live =>
    intro l hl
    have hfind := Table.find?_of_mem hl
    obtain ⟨t, -, -, ht, -⟩ := (hc.stage l.transactionId).entry hfind
    have hstatus := (hc.stage l.transactionId).status_of_entry ht (congrArg Option.isSome hfind)
    have hne := h l.transactionId l t hfind ht
    exact ⟨t, ht, by simpa [hne] using hstatus⟩
  case reversed =>
    intro tid hcount
    rw [Database.eventCount_eq] at hcount
    obtain ⟨t, ht, hblocked⟩ := (hc.stage tid).blocked_of_compensated hcount
    have hnone : db.ledgerEntries.find? tid = none := by
      cases hl : db.ledgerEntries.find? tid with
      | none => rfl
      | some l => exact absurd hblocked (h tid l t hl ht)
    refine ⟨hnone, ?_⟩
    rw [Database.eventCount_eq, (hc.stage tid).count_updated]
    exact if_neg (by simp [Database.record, hnone])

private theorem unblocked_step {d : Deployment} {call : Call} {own : Lock → Prop}
    {db db' : Database} (hc : Consistent db) (h : Unblocked db)
    (hcommit : Commits d call own db db')
    (hpost : ∀ eventId e t, call = .ledgerEvent eventId →
      db.outboxEvents.find? eventId = some e → e.eventType = "TransactionCompleted" →
      db.processedEvents.find? (Ledger.CONSUMER_NAME, eventId) = none →
      db.transactions.find? e.transactionId = some t → t.status ≠ .BLOCKED) :
    Unblocked db' := by
  intro tid l t hl ht
  cases hcommit with
  | complete hclear hevent hunsent =>
    rcases Table.eq_or_of_find?_insert ht with rfl | hold
    · obtain ⟨id, authorizedAt, createdAt, rfl⟩ := hclear.inserted
      simp [newTransaction]
    · exact h tid l t hl hold
  | @block input request _ _ account row event reason hadm hevent hunsent =>
    rcases Table.eq_or_of_find?_insert ht with rfl | hold
    · obtain ⟨id, authorizedAt, createdAt, rfl⟩ := hadm.inserted
      have htid : (newTransaction input id authorizedAt createdAt).transactionId = tid :=
        Table.key_of_find? (r := { newTransaction input id authorizedAt createdAt with
          status := .BLOCKED }) ht
      have hnone := hc.unposted hadm.fresh
      rw [← htid] at hl
      exact absurd (hl.symm.trans hnone) (by simp)
    · exact h tid l t hl hold
  | @post eventId _ _ t' _ event entry _ processed hfind _ hcompleted hentry hnone _ _ hprocessed
      hunprocessed =>
    rcases Table.eq_or_of_find?_insert hl with rfl | hold
    · have htid : l.transactionId = tid := Table.key_of_find? hl
      refine hpost eventId event t rfl hfind hcompleted.eventType ?_ ?_
      · rw [← hprocessed.1, ← hprocessed.2]
        exact hunprocessed.absent
      · rw [hcompleted.transactionId, ← hentry.transactionId, htid]
        exact ht
    · exact h tid l t hold ht
  | @finalize _ _ _ t' =>
    change (db.setStatus t'.transactionId .FINALIZED).transactions.find? tid = some t at ht
    rw [Database.transactions_setStatus, Table.find?_modify] at ht
    split at ht
    · obtain ⟨t'', -, rfl⟩ := Option.map_eq_some_iff.mp ht
      simp
    · exact h tid l t hl ht
  | @compensate _ _ t' _ _ _ _ _ hnone =>
    change (db.setStatus t'.transactionId .BLOCKED).transactions.find? tid = some t at ht
    rw [Database.transactions_setStatus, Table.find?_modify] at ht
    split at ht
    · next htid =>
      rw [← htid] at hnone
      exact absurd (hl.symm.trans hnone) (by simp)
    · exact h tid l t hl ht
  | skip => exact h tid l t hl ht
  | pass => exact h tid l t hl ht

variable {d : Deployment} {accounts : Table Account.id} {now : Js.Date} {s : SystemState}

private theorem not_blocked_of_timely {i : Nat} {supply : Supply} {eventId : String}
    {born : Database} {next : Process Reply} {pending : Database → Database}
    (hi : s.session i = some ⟨.ledgerEvent eventId, born, .running (.commit next) pending⟩)
    (h : timely s (.exec i supply) = true) {e : OutboxEvent}
    (he : s.db.outboxEvents.find? eventId = some e) (htype : e.eventType = "TransactionCompleted")
    (hnone : s.db.processedEvents.find? (Ledger.CONSUMER_NAME, eventId) = none) {t : Transaction}
    (ht : s.db.transactions.find? e.transactionId = some t) : t.status ≠ .BLOCKED := by
  simpa [timely, hi, he, htype, hnone, ht] using h

private theorem unblocked
    (h : Relational.RunsUnder (begins d) (fun s a ↦ timely s a = true) (initial accounts now) s) :
    Unblocked s.db := by
  induction h with
  | refl =>
    intro tid l t hl
    simp [initial, Relational.State.initial, Database.opening] at hl
  | @tail s s' hrun hstep ih =>
    obtain ⟨a, hallow, ha⟩ := hstep
    have hreach : Runs d (initial accounts now) s := Relational.RunsUnder.runs hrun
    rcases Relational.db_step ha with
      ⟨hd, -⟩ | ⟨i, supply, call, born, next, pending, rfl, hi, hlog⟩
    · rw [hd]
      exact ih
    · have hnext : Runs d (initial accounts now) s' := hreach.tail ⟨_, ha⟩
      obtain ⟨-, hcommit, -⟩ := (sound hnext).commits ⟨i, call, s.db, s'.db⟩ (by simp [hlog])
      rcases (Relation.reflGen_iff _ _ _).mp hcommit with hsame | hcommit
      · change s'.db = s.db at hsame
        rw [hsame]
        exact ih
      · apply unblocked_step (consistent hreach) ih hcommit
        rintro eventId e t rfl he htype hnone ht
        exact not_blocked_of_timely hi hallow he htype hnone ht

/-- In every run in which no ledger handler commits an unrecorded `TransactionCompleted` event of
a `BLOCKED` transaction, every state reached has a sound ledger. -/
theorem ledger_sound_of_timely
    (h : Relational.RunsUnder (begins d) (fun s a ↦ timely s a = true) (initial accounts now) s) :
    LedgerSound s.db :=
  ledgerSound_of_unblocked (consistent (Relational.RunsUnder.runs h)) (unblocked h)

/-- The sample debit, posted in time and scanned afterwards, leaves a sound ledger. -/
theorem ledger_sound_of_timely_debit : ∃ s,
    Relational.runUnder (begins Sample.deployment) timely (initial Sample.accounts 1000)
      (Sample.debit ++ Sample.post 1 1 ++ [.tick 100000, .start 2 .timeoutScan] ++
        Sample.execute 2 3 2) = some s ∧
      s.db.ledgerEntries.rows.length = 1 ∧ LedgerSound s.db := by
  have hrun : (Relational.runUnder (begins Sample.deployment) timely
      (initial Sample.accounts 1000)
      (Sample.debit ++ Sample.post 1 1 ++ [.tick 100000, .start 2 .timeoutScan] ++
        Sample.execute 2 3 2)).map (fun s ↦ s.db.ledgerEntries.rows.length) = some 1 := by
    decide +kernel
  obtain ⟨s, hs, hlength⟩ := Option.map_eq_some_iff.mp hrun
  exact ⟨s, hs, hlength, ledger_sound_of_timely (Relational.runsUnder_of_run hs)⟩

/-- A delivery after the timeout posts a transaction that has been given back. -/
theorem late_delivery_posts_reversed : ∃ s,
    Sample.after (Sample.debit ++ Sample.reverse 1 1 ++ Sample.post 2 2) = some s ∧
      Runs Sample.deployment (initial Sample.accounts 1000) s ∧ ¬ LedgerSound s.db := by
  have hrun : (Sample.after (Sample.debit ++ Sample.reverse 1 1 ++ Sample.post 2 2)).map (fun s ↦
      (s.db.eventCount "txn-1" "TransactionCompensated",
        s.db.eventCount "txn-1" "LedgerUpdated")) = some (1, 1) := by
    decide +kernel
  obtain ⟨s, hs, hcounts⟩ := Option.map_eq_some_iff.mp hrun
  obtain ⟨hcompensated, hupdated⟩ := Prod.mk.inj hcounts
  refine ⟨s, hs, Relational.runs_of_run hs, fun h ↦ ?_⟩
  have hnone := (h.reversed "txn-1" (by omega)).2
  omega

end Banking
