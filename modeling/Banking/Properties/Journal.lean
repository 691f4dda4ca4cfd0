import Banking.Atomic.Journal
import Banking.Refinement.System

/-!
# The events record the balance

The completed and the compensated events of an account, in the order of their commits, lead from
its opening balance to its live balance: each records the balance of the one before, changed by
the amount of its own transaction.
-/

namespace Banking

open Relational (Table)

/-- The events of an account that record a balance, in the order of their commits. -/
def Database.journal (db : Database) (accountId : String) : List OutboxEvent :=
  db.outboxEvents.rows.filter fun e ↦
    (decide (e.eventType = "TransactionCompleted") ||
      decide (e.eventType = "TransactionCompensated")) && isAccountPayload accountId e.payload

/-- What an event says has happened to the balance: its transaction, or the reversal of it. -/
def OutboxEvent.change (e : OutboxEvent) (t : Transaction) : Int :=
  if e.eventType = "TransactionCompleted" then t.signedAmount else -t.signedAmount

/-- The events lead from one balance to another: each carries as `balanceAfter` the balance before
it, changed by what its transaction on the account did. -/
def Leads (db : Database) (accountId : String) : Int → List OutboxEvent → Int → Prop
  | balance, [], last => balance = last
  | balance, e :: events, last => ∃ t after, db.transactions.find? e.transactionId = some t ∧
      t.accountId = accountId ∧
      payloadField "balanceAfter" e.payload = some (.str (toString after)) ∧
      after = balance + e.change t ∧ Leads db accountId after events last

/-- The journal of every account leads from its opening balance to its live balance. -/
def Journaled (accounts : Table Account.id) (db : Database) : Prop :=
  ∀ id a, db.accounts.find? id = some a →
    ∃ a₀, accounts.find? id = some a₀ ∧ Leads db id a₀.balance (db.journal id) a.balance

variable {d : Deployment} {call : Call} {own : Lock → Prop} {db db' : Database}
variable {accounts : Table Account.id} {accountId : String}

/-! ### What a commit adds to a journal -/

/-- A chain does not depend on the statuses of the transactions. -/
private theorem Leads.evolves (he : Evolves d own db db') :
    ∀ {events balance last}, Leads db accountId balance events last →
      Leads db' accountId balance events last := by
  intro events
  induction events with
  | nil => exact id
  | cons e events ih =>
    rintro balance last ⟨t, after, ht, haccount, hrecorded, hafter, hrest⟩
    obtain ⟨status, ht', -⟩ := he.transaction ht
    exact ⟨{ t with status }, after, ht', haccount, hrecorded, hafter, ih hrest⟩

/-- A chain is extended at its end. -/
private theorem Leads.append {e : OutboxEvent} {t : Transaction} {after : Int}
    (ht : db.transactions.find? e.transactionId = some t) (haccount : t.accountId = accountId)
    (hrecorded : payloadField "balanceAfter" e.payload = some (.str (toString after))) :
    ∀ {events balance last}, Leads db accountId balance events last →
      after = last + e.change t → Leads db accountId balance (events ++ [e]) after := by
  intro events
  induction events with
  | nil =>
    rintro balance last rfl hafter
    exact ⟨t, after, ht, haccount, hrecorded, hafter, rfl⟩
  | cons x events ih =>
    rintro balance last ⟨t', after', ht', haccount', hrecorded', hafter', hrest⟩ hafter
    exact ⟨t', after', ht', haccount', hrecorded', hafter', ih hrest hafter⟩

private theorem journal_insert {e : OutboxEvent} (hfresh : db.outboxEvents.find? e.id = none)
    (hrows : db'.outboxEvents = db.outboxEvents.insert e) (accountId : String) :
    db'.journal accountId = db.journal accountId ++ [e].filter fun e ↦
      (decide (e.eventType = "TransactionCompleted") ||
        decide (e.eventType = "TransactionCompensated")) &&
          isAccountPayload accountId e.payload := by
  rw [Database.journal, hrows, Table.rows_insert hfresh, List.filter_append]
  rfl

private theorem journal_other {e : OutboxEvent} (hunsent : Unsent own db e)
    (hrows : db'.outboxEvents = db.outboxEvents.insert e)
    (htype : e.eventType ≠ "TransactionCompleted" ∧ e.eventType ≠ "TransactionCompensated") :
    db'.journal = db.journal := by
  funext accountId
  rw [journal_insert hunsent.absent hrows]
  simp [htype.1, htype.2]

private theorem journal_same (h : db'.outboxEvents = db.outboxEvents) :
    db'.journal = db.journal := by
  funext accountId
  rw [Database.journal, Database.journal, h]

/-- A commit appends to every journal. -/
theorem Commits.journal_prefix (h : Commits d call own db db') (accountId : String) :
    db.journal accountId <+: db'.journal accountId := by
  rcases h.outboxEvents with hsame | ⟨e, hunsent, hrows⟩
  · exact ⟨[], by rw [journal_same hsame, List.append_nil]⟩
  · rw [journal_insert hunsent.absent hrows]
    exact List.prefix_append _ _

/-- A commit that writes no balance and records none keeps the journals right. -/
private theorem Journaled.keep (h : Journaled accounts db) (he : Evolves d own db db')
    (haccounts : db'.accounts = db.accounts) (hjournal : db'.journal = db.journal) :
    Journaled accounts db' := by
  intro id a ha
  rw [haccounts] at ha
  obtain ⟨a₀, ha₀, hleads⟩ := h id a ha
  exact ⟨a₀, ha₀, hjournal ▸ hleads.evolves he⟩

/-- A commit that writes a balance and records it keeps the journals right. -/
private theorem Journaled.move (h : Journaled accounts db) (he : Evolves d own db db')
    {id₀ : String} {account : Account} {balance : Int} {e : OutboxEvent} {t : Transaction}
    (hfound : db.accounts.find? id₀ = some account)
    (haccounts : db'.accounts = (db.setBalance id₀ balance).accounts)
    (hunsent : Unsent own db e) (hrows : db'.outboxEvents = db.outboxEvents.insert e)
    (ht : db'.transactions.find? e.transactionId = some t) (haccount : t.accountId = id₀)
    (hpayload : ∀ id, isAccountPayload id e.payload = (id₀ == id))
    (htype : e.eventType = "TransactionCompleted" ∨ e.eventType = "TransactionCompensated")
    (hrecorded : payloadField "balanceAfter" e.payload = some (.str (toString balance)))
    (hbalance : balance = account.balance + e.change t) : Journaled accounts db' := by
  intro id a ha
  have hcounts : (decide (e.eventType = "TransactionCompleted") ||
      decide (e.eventType = "TransactionCompensated")) = true := by
    rcases htype with htype | htype <;> simp [htype]
  rw [haccounts, Database.accounts_setBalance, Table.find?_modify] at ha
  by_cases hid : id = id₀
  · subst hid
    rw [if_pos rfl, hfound] at ha
    cases ha
    obtain ⟨a₀, ha₀, hleads⟩ := h id account hfound
    refine ⟨a₀, ha₀, ?_⟩
    rw [journal_insert hunsent.absent hrows, List.filter_cons_of_pos (by simp [hcounts, hpayload])]
    exact (hleads.evolves he).append ht haccount hrecorded hbalance
  · rw [if_neg hid] at ha
    obtain ⟨a₀, ha₀, hleads⟩ := h id a ha
    refine ⟨a₀, ha₀, ?_⟩
    rw [journal_insert hunsent.absent hrows,
      List.filter_cons_of_neg (by simp [hpayload, Ne.symm hid]), List.filter_nil, List.append_nil]
    exact hleads.evolves he

/-- Every commit keeps the journals right. -/
theorem Journaled.step (h : Journaled accounts db) (hc : Commits d call own db db') :
    Journaled accounts db' := by
  have he : Evolves d own db db' := Relational.Evolves.single hc
  cases hc with
  | @complete input request _ _ account row event hclear hevent hunsent =>
    obtain ⟨id, authorizedAt, createdAt, rfl⟩ := hclear.inserted
    refine h.move he hclear.found rfl hunsent rfl
      (t := newTransaction input id authorizedAt createdAt) ?_ rfl ?_ ?_ ?_ ?_
    · rw [hevent]
      exact Table.find?_insert_self (r := newTransaction input id authorizedAt createdAt)
        hclear.fresh
    · intro id'
      rw [hevent]
      rfl
    · rw [hevent]
      exact .inl rfl
    · rw [hevent]
      rfl
    · rw [OutboxEvent.change, hevent, if_pos (by simp [completedEvent])]
      exact newBalance_eq (newTransaction input id authorizedAt createdAt) account.balance
  | @compensate _ _ t account balance event ht hstatus hentry hfound hbalance hnonneg hevent
      hunsent hlocks =>
    refine h.move he hfound rfl hunsent rfl (t := { t with status := .BLOCKED }) ?_ rfl ?_ ?_ ?_ ?_
    · rw [hevent]
      change (db.setStatus t.transactionId .BLOCKED).transactions.find? t.transactionId = _
      rw [Database.transactions_setStatus, Table.find?_modify, if_pos rfl, ht]
      rfl
    · intro id'
      rw [hevent]
      rfl
    · rw [hevent]
      exact .inr rfl
    · rw [hevent]
      rfl
    · rw [OutboxEvent.change, hevent, if_neg (by simp [Finalization.compensatedEvent])]
      rw [hbalance, restoredBalance_eq, Int.sub_eq_add_neg]
      rfl
  | block hadm hevent hunsent =>
    exact h.keep he rfl (journal_other hunsent rfl (by rw [hevent]; simp [blockedEvent]))
  | post hevent ht hcompleted hentry hunposted hposted hunsent =>
    exact h.keep he rfl
      (journal_other hunsent rfl (by rw [hposted]; simp [Ledger.ledgerUpdatedEvent]))
  | finalize hevent ht hstatus hupdated hentry hfinalized hunsent =>
    exact h.keep he rfl
      (journal_other hunsent rfl (by rw [hfinalized]; simp [Finalization.finalizedEvent]))
  | skip => exact h.keep he rfl rfl
  | pass => exact h.keep he rfl rfl

/-! ### Runs -/

variable {now : Js.Date} {s s' : SystemState}

/-- In every reachable state the journals are right, whatever the opening balances. -/
theorem journaled (h : Runs d (initial accounts now) s) : Journaled accounts s.db :=
  Relational.Evolves.invariant (fun _ _ _ hc hj ↦ Journaled.step hj hc) (sound h).evolved
    fun _ a ha ↦ ⟨a, ha, rfl⟩

/-- Along a run journals grow at their ends only. -/
theorem journal_prefix (h : Runs d (initial accounts now) s) (hs : Runs d s s')
    (accountId : String) : s.db.journal accountId <+: s'.db.journal accountId :=
  Relational.Evolves.invariant (P := fun x ↦ s.db.journal accountId <+: x.journal accountId)
    (fun _ _ _ hc hp ↦ hp.trans (hc.journal_prefix accountId)) (evolves h hs) (List.prefix_refl _)

/-- In every reachable state the completed and the compensated events of every account, in the
order of their commits, lead from its opening balance to its live balance. -/
theorem journal_faithful (h : Runs d (initial accounts now) s) {a : Account}
    (ha : a ∈ s.db.accounts.rows) :
    ∃ a₀ ∈ accounts.rows, a₀.id = a.id ∧
      Leads s.db a.id a₀.balance (s.db.journal a.id) a.balance ∧
      ∀ s', Runs d s s' → s.db.journal a.id <+: s'.db.journal a.id := by
  obtain ⟨a₀, ha₀, hleads⟩ := journaled h a.id a (Table.find?_of_mem ha)
  exact ⟨a₀, Table.mem_of_find? ha₀, Table.key_of_find? ha₀, hleads,
    fun _ hs ↦ journal_prefix h hs a.id⟩

/-- After the sample debit and its reversal two events lead back to the opening balance. -/
theorem journal_faithful_reversal : ∃ s,
    Sample.after (Sample.debit ++ Sample.reverse 1 1) = some s ∧
      ∃ a ∈ s.db.accounts.rows, (s.db.journal a.id).length = 2 ∧
        ∃ a₀ ∈ Sample.accounts.rows, a₀.id = a.id ∧
          Leads s.db a.id a₀.balance (s.db.journal a.id) a.balance ∧
          ∀ s', Runs Sample.deployment s s' → s.db.journal a.id <+: s'.db.journal a.id := by
  have hrun : (Sample.after (Sample.debit ++ Sample.reverse 1 1)).map (fun s ↦
      s.db.accounts.rows.map fun a ↦ (s.db.journal a.id).length) = some [2] := by
    decide +kernel
  obtain ⟨s, hs, hlengths⟩ := Option.map_eq_some_iff.mp hrun
  obtain ⟨a, ha, hlength⟩ := List.mem_map.mp (hlengths ▸ List.mem_singleton.mpr rfl)
  exact ⟨s, hs, a, ha, hlength, journal_faithful (Relational.runs_of_run hs) ha⟩

end Banking
