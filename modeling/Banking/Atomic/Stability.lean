import Banking.Atomic.Commits

/-!
# What locks and history keep

What commits of other processes cannot change. A locked row stays as it is, an absent key whose
index entry is locked stays absent, and the advisory lock of a user freezes the fraud aggregates
of that user. Without any lock, accounts keep everything but their balance, transactions keep
everything but their status, and ledger entries, outbox rows and processed events stay.
-/

namespace Banking

open Js (Date)
open Relational (Table)

variable {d : Deployment} {call : Call} {own : Lock → Prop} {db db' : Database}

/-- What some locks allow, all locks allow. -/
theorem Evolves.all (h : Evolves d own db db') : Evolves d (fun _ ↦ True) db db' :=
  h.mono (commits_mono d) fun _ _ ↦ trivial

/-- What commits beside many locks happens beside fewer of them. -/
theorem Evolves.fewer {own' : Lock → Prop} (h : Evolves d (fun l ↦ ¬ own' l) db db')
    (ho : ∀ l, own l → own' l) : Evolves d (fun l ↦ ¬ own l) db db' :=
  h.mono (commits_mono d) fun l hn hown ↦ hn (ho l hown)

/-! ### Accounts -/

private theorem Commits.account (h : Commits d call own db db') {id : String} {a : Account}
    (ha : db.accounts.find? id = some a) :
    ∃ balance, db'.accounts.find? id = some { a with balance } := by
  rcases h.accounts with he | ⟨id', balance, -, he⟩
  · exact ⟨a.balance, by rw [he, ha]⟩
  · rw [he, Database.accounts_setBalance, Table.find?_modify]
    split
    · next hid => exact ⟨balance, by rw [← hid, ha]; rfl⟩
    · exact ⟨a.balance, ha⟩

private theorem Commits.account_absent (h : Commits d call own db db') {id : String}
    (ha : db.accounts.find? id = none) : db'.accounts.find? id = none := by
  rcases h.accounts with he | ⟨id', balance, -, he⟩
  · rw [he, ha]
  · rw [he, Database.accounts_setBalance, Table.find?_modify]
    split
    · next hid => rw [← hid, ha]; rfl
    · exact ha

/-- Accounts keep everything but their balance. -/
theorem Evolves.account (h : Evolves d own db db') {id : String} {a : Account}
    (ha : db.accounts.find? id = some a) :
    ∃ balance, db'.accounts.find? id = some { a with balance } := by
  refine Relational.Evolves.invariant
    (P := fun x ↦ ∃ balance, x.accounts.find? id = some { a with balance }) ?_ h ⟨a.balance, ha⟩
  rintro call b x hc ⟨balance, hb⟩
  obtain ⟨balance', hx⟩ := hc.account hb
  exact ⟨balance', hx⟩

/-- No commit opens an account. -/
theorem Evolves.account_absent (h : Evolves d own db db') {id : String}
    (ha : db.accounts.find? id = none) : db'.accounts.find? id = none :=
  Relational.Evolves.invariant (P := fun x ↦ x.accounts.find? id = none)
    (fun _ _ _ hc ↦ hc.account_absent) h ha

/-- A locked account keeps its balance. -/
theorem Evolves.account_locked (h : Evolves d own db db') {id : String}
    (hid : ¬ own (.account id)) : db'.accounts.find? id = db.accounts.find? id := by
  refine Relational.Evolves.invariant
    (P := fun x ↦ x.accounts.find? id = db.accounts.find? id) ?_ h rfl
  intro call b x hc hb
  rcases hc.accounts with he | ⟨id', balance, hown, he⟩
  · rw [he, hb]
  · have hne : id ≠ id' := by
      rintro rfl
      exact hid hown
    rw [he, Database.accounts_setBalance, Table.find?_modify, if_neg hne, hb]

/-- Who owns a transaction never changes. -/
theorem Evolves.owns (h : Evolves d own db db') (userId : String) (t : Transaction) :
    db'.owns userId t = db.owns userId t := by
  unfold Database.owns
  cases ha : db.accounts.find? t.accountId with
  | none => rw [h.account_absent ha]
  | some a =>
    obtain ⟨balance, ha'⟩ := h.account ha
    rw [ha']
    rfl

/-! ### Transactions -/

private theorem Commits.transaction (h : Commits d call own db db') {id : String}
    {t : Transaction} (ht : db.transactions.find? id = some t) :
    ∃ status, db'.transactions.find? id = some { t with status } ∧
      (status ≠ t.status → t.status = .COMPLETED ∧ own (.transaction id)) := by
  rcases h.transactions with he | ⟨row, -, -, -, -, -, he⟩ | ⟨t', status, ht', hs, hown, -, he⟩
  · exact ⟨t.status, by rw [he, ht], fun hne ↦ absurd rfl hne⟩
  · exact ⟨t.status, by rw [he, Table.find?_insert_of_some ht], fun hne ↦ absurd rfl hne⟩
  · rw [he, Database.transactions_setStatus, Table.find?_modify]
    split
    · next hid =>
      subst hid
      rw [ht] at ht'
      cases ht'
      exact ⟨status, by rw [ht]; rfl, fun _ ↦ ⟨hs, hown⟩⟩
    · exact ⟨t.status, ht, fun hne ↦ absurd rfl hne⟩

/-- Transactions keep everything but their status, and only a completed one changes that. -/
theorem Evolves.transaction (h : Evolves d own db db') {id : String} {t : Transaction}
    (ht : db.transactions.find? id = some t) :
    ∃ status, db'.transactions.find? id = some { t with status } ∧
      (status ≠ t.status → t.status = .COMPLETED ∧ own (.transaction id)) := by
  refine Relational.Evolves.invariant (P := fun x ↦ ∃ status,
    x.transactions.find? id = some { t with status } ∧
      (status ≠ t.status → t.status = .COMPLETED ∧ own (.transaction id))) ?_ h
    ⟨t.status, ht, fun hne ↦ absurd rfl hne⟩
  rintro call b x hc ⟨status, hb, himp⟩
  obtain ⟨status', hx, himp'⟩ := hc.transaction hb
  refine ⟨status', hx, fun hne ↦ ?_⟩
  by_cases hs : status = t.status
  · rw [← hs]
    exact himp' (hs ▸ hne)
  · exact himp hs

/-- A transaction that is not completed stays as it is. -/
theorem Evolves.transaction_settled (h : Evolves d own db db') {id : String} {t : Transaction}
    (ht : db.transactions.find? id = some t) (hs : t.status ≠ .COMPLETED) :
    db'.transactions.find? id = some t := by
  obtain ⟨status, ht', himp⟩ := h.transaction ht
  by_cases he : status = t.status
  · rw [ht', he]
  · exact absurd (himp he).1 hs

/-- A locked transaction stays as it is. -/
theorem Evolves.transaction_locked (h : Evolves d own db db') {id : String} {t : Transaction}
    (ht : db.transactions.find? id = some t) (hid : ¬ own (.transaction id)) :
    db'.transactions.find? id = some t := by
  obtain ⟨status, ht', himp⟩ := h.transaction ht
  by_cases he : status = t.status
  · rw [ht', he]
  · exact absurd (himp he).2 hid

/-- A `transactionId` whose index entry is locked stays unused. -/
theorem Evolves.transaction_absent (h : Evolves d own db db') {id : String}
    (ht : db.transactions.find? id = none) (hid : ¬ own (.transactionId id)) :
    db'.transactions.find? id = none := by
  refine Relational.Evolves.invariant (P := fun x ↦ x.transactions.find? id = none) ?_ h ht
  intro call b x hc hb
  rcases hc.transactions with he | ⟨row, -, -, hown, -, -, he⟩ | ⟨t', status, ht', -, -, -, he⟩
  · rw [he, hb]
  · have hne : row.transactionId ≠ id := by
      rintro rfl
      exact hid hown
    rw [he, Table.find?_insert_of_ne _ hne, hb]
  · have hne : id ≠ t'.transactionId := by
      rintro rfl
      rw [hb] at ht'
      cases ht'
    rw [he, Database.transactions_setStatus, Table.find?_modify, if_neg hne, hb]

/-! ### Ledger entries -/

/-- Ledger entries stay. -/
theorem Evolves.ledgerEntry (h : Evolves d own db db') {id : String} {l : LedgerEntry}
    (hl : db.ledgerEntries.find? id = some l) : db'.ledgerEntries.find? id = some l := by
  refine Relational.Evolves.invariant (P := fun x ↦ x.ledgerEntries.find? id = some l) ?_ h hl
  intro call b x hc hb
  rcases hc.ledgerEntries with he | ⟨l', -, -, -, -, he⟩
  · rw [he, hb]
  · rw [he, Table.find?_insert_of_some hb]

/-- A transaction without ledger entry gets none while its row or its index entry is locked. -/
theorem Evolves.ledgerEntry_absent (h : Evolves d own db db') {id : String}
    (hl : db.ledgerEntries.find? id = none)
    (hid : ¬ own (.ledgerEntry id) ∨ ¬ own (.transaction id)) :
    db'.ledgerEntries.find? id = none := by
  refine Relational.Evolves.invariant (P := fun x ↦ x.ledgerEntries.find? id = none) ?_ h hl
  intro call b x hc hb
  rcases hc.ledgerEntries with he | ⟨l', -, -, hown, hown', he⟩
  · rw [he, hb]
  · have hne : l'.transactionId ≠ id := by
      rintro rfl
      exact hid.elim (· hown) (· hown')
    rw [he, Table.find?_insert_of_ne _ hne, hb]

/-- A completed transaction with a ledger entry stays completed until it is finalized. -/
theorem Evolves.status_posted (h : Evolves d own db db') {id : String} {t : Transaction}
    {l : LedgerEntry} (ht : db.transactions.find? id = some t) (hs : t.status = .COMPLETED)
    (hl : db.ledgerEntries.find? id = some l) :
    ∃ status, db'.transactions.find? id = some { t with status } ∧
      (status = .COMPLETED ∨ status = .FINALIZED) := by
  have key : (∃ status, db'.transactions.find? id = some { t with status } ∧
      (status = .COMPLETED ∨ status = .FINALIZED)) ∧ db'.ledgerEntries.find? id = some l := by
    refine Relational.Evolves.invariant (P := fun x ↦ (∃ status,
      x.transactions.find? id = some { t with status } ∧
        (status = .COMPLETED ∨ status = .FINALIZED)) ∧ x.ledgerEntries.find? id = some l) ?_ h
      ⟨⟨t.status, ht, .inl hs⟩, hl⟩
    rintro call b x hc ⟨⟨status, hb, hst⟩, hlb⟩
    refine ⟨?_, Evolves.ledgerEntry (Relational.Evolves.single hc) hlb⟩
    rcases hc.transactions with he | ⟨row, -, -, -, -, -, he⟩ | ⟨t', status', -, -, -, hkind, he⟩
    · exact ⟨status, by rw [he, hb], hst⟩
    · exact ⟨status, by rw [he, Table.find?_insert_of_some hb], hst⟩
    · rw [he, Database.transactions_setStatus, Table.find?_modify]
      split
      · next hid =>
        subst hid
        -- a reversal would need the entry to be missing
        rcases hkind with ⟨rfl, -⟩ | ⟨-, hnone⟩
        · exact ⟨.FINALIZED, by rw [hb]; rfl, .inr rfl⟩
        · rw [hlb] at hnone
          cases hnone
      · exact ⟨status, hb, hst⟩
  exact key.1

/-! ### Outbox rows and processed events -/

/-- Outbox rows stay. -/
theorem Evolves.outboxEvent (h : Evolves d own db db') {id : String} {e : OutboxEvent}
    (he : db.outboxEvents.find? id = some e) : db'.outboxEvents.find? id = some e := by
  refine Relational.Evolves.invariant (P := fun x ↦ x.outboxEvents.find? id = some e) ?_ h he
  intro call b x hc hb
  rcases hc.outboxEvents with hx | ⟨e', -, hx⟩
  · rw [hx, hb]
  · rw [hx, Table.find?_insert_of_some hb]

/-- An identifier whose index entry is locked stays unused. -/
theorem Evolves.outboxEvent_absent (h : Evolves d own db db') {id : String}
    (he : db.outboxEvents.find? id = none) (hid : ¬ own (.outboxEventPk id)) :
    db'.outboxEvents.find? id = none := by
  refine Relational.Evolves.invariant (P := fun x ↦ x.outboxEvents.find? id = none) ?_ h he
  intro call b x hc hb
  rcases hc.outboxEvents with hx | ⟨e', hunsent, hx⟩
  · rw [hx, hb]
  · have hne : e'.id ≠ id := by
      rintro rfl
      exact hid hunsent.owned
    rw [hx, Table.find?_insert_of_ne _ hne, hb]

/-- An event whose index entry is locked stays unprocessed. -/
theorem Evolves.processedEvent_absent (h : Evolves d own db db') {consumer id : String}
    (hp : db.processedEvents.find? (consumer, id) = none)
    (hid : ¬ own (.processedEvent consumer id)) :
    db'.processedEvents.find? (consumer, id) = none := by
  refine Relational.Evolves.invariant
    (P := fun x ↦ x.processedEvents.find? (consumer, id) = none) ?_ h hp
  intro call b x hc hb
  rcases hc.processedEvents with hx | ⟨p', -, hown, hx⟩
  · rw [hx, hb]
  · have hne : (p'.consumerName, p'.eventId) ≠ (consumer, id) := by
      intro he
      cases he
      exact hid hown
    rw [hx, ← hb]
    exact Table.find?_insert_of_ne _ hne

/-! ### The fraud aggregates -/

private theorem Commits.recent_map (h : Commits d call own db db') {userId : String}
    (hown : ¬ own (.advisory (d.hashtextextended userId))) (since : Date) {α : Type}
    (g : Transaction → α) (hg : ∀ t status, g { t with status } = g t) :
    (db'.recent userId since).map g = (db.recent userId since).map g := by
  have howns : ∀ t, db'.owns userId t = db.owns userId t :=
    Evolves.owns (Relational.Evolves.single h) userId
  simp only [Database.recent, howns]
  rcases h.transactions with he | ⟨row, a, hfresh, -, ha, hadv, he⟩ | ⟨t', status, -, -, -, -, he⟩
  · rw [he]
  · have hrow : db.owns userId row = false := by
      have hne : a.userId ≠ userId := by
        rintro rfl
        exact hown hadv
      simp [Database.owns, ha, hne]
    rw [he, Table.rows_insert hfresh, List.filter_append]
    simp [hrow]
  · rw [he, Database.transactions_setStatus, Table.rows_modify, List.filter_map, List.map_map]
    have hpred : ((fun t : Transaction ↦ db.owns userId t && decide (since ≤ t.createdAt)) ∘
        fun r ↦ if r.transactionId = t'.transactionId then { r with status } else r) =
        fun t ↦ db.owns userId t && decide (since ≤ t.createdAt) := by
      funext r
      simp only [Function.comp_apply]
      split <;> rfl
    rw [hpred]
    apply List.map_congr_left
    intro r _
    simp only [Function.comp_apply]
    split
    · exact hg r status
    · rfl

/-- While the advisory lock of a user is held, nothing but statuses changes among the
transactions of that user. -/
theorem Evolves.recent_map (h : Evolves d own db db') {userId : String}
    (hown : ¬ own (.advisory (d.hashtextextended userId))) (since : Date) {α : Type}
    (g : Transaction → α) (hg : ∀ t status, g { t with status } = g t) :
    (db'.recent userId since).map g = (db.recent userId since).map g := by
  refine Relational.Evolves.invariant (P := fun x ↦
    (x.recent userId since).map g = (db.recent userId since).map g) ?_ h rfl
  intro call b x hc hb
  rw [hc.recent_map hown since g hg, hb]

/-- The advisory lock freezes the number of recent transactions. -/
theorem Evolves.count_locked (h : Evolves d own db db') {userId : String}
    (hown : ¬ own (.advisory (d.hashtextextended userId))) (since : Date) :
    (db'.recent userId since).length = (db.recent userId since).length := by
  have hmap := congrArg List.length (h.recent_map hown since (fun _ ↦ ()) fun _ _ ↦ rfl)
  simpa using hmap

private theorem debitSum_eq (db : Database) (userId : String) (since : Date) :
    Sql.debitSum db userId since = ((((db.recent userId since).map
      (fun t ↦ (t.type, t.amount))).filter (fun p ↦ p.1 = TransactionType.DEBIT)).map
        Prod.snd).sum := by
  rw [Sql.debitSum, List.filter_map, List.map_map]
  rfl

/-- The advisory lock freezes the sum of recent debits. -/
theorem Evolves.debitSum_locked (h : Evolves d own db db') {userId : String}
    (hown : ¬ own (.advisory (d.hashtextextended userId))) (since : Date) :
    Sql.debitSum db' userId since = Sql.debitSum db userId since := by
  rw [debitSum_eq, debitSum_eq,
    h.recent_map hown since (fun t ↦ (t.type, t.amount)) fun _ _ ↦ rfl]

/-! ### Guards that locks keep -/

/-- The insert of an outbox row finds its identifier unused and locks it. -/
theorem Unsent.of_result (db : Database) {env : Relational.Env Supply} {view : Database}
    {data : OutboxEventData} {u : Unit} (h : (Sql.createOutboxEvent data).result env view = some u)
    (hview : view.outboxEvents = db.outboxEvents) :
    Unsent (fun l ↦ own l ∨ l ∈ (Sql.createOutboxEvent data).locks env view) db
      (data.row env.supply.id env.now) :=
  ⟨hview ▸ Sql.createOutboxEvent_result h, .inr (List.mem_singleton.mpr rfl), _, _, _, rfl⟩

/-- The insert of a processed event finds it unrecorded and locks it. -/
theorem Unprocessed.of_result (db : Database) {env : Relational.Env Supply} {view : Database}
    {consumerName eventId : String} {u : Unit}
    (h : (Sql.createProcessedEvent consumerName eventId).result env view = some u)
    (hview : view.processedEvents = db.processedEvents) :
    Unprocessed (fun l ↦ own l ∨ l ∈ (Sql.createProcessedEvent consumerName eventId).locks env view)
      db ⟨eventId, consumerName, env.now⟩ :=
  ⟨hview ▸ Sql.createProcessedEvent_result h, .inr (List.mem_singleton.mpr rfl)⟩

/-- A commit of another process cannot use the identifier of an outbox row to be inserted. -/
theorem Unsent.evolves {e : OutboxEvent} (h : Unsent own db e)
    (he : Evolves d (fun l ↦ ¬ own l) db db') : Unsent own db' e :=
  ⟨he.outboxEvent_absent h.absent (fun hn ↦ hn h.owned), h.owned, h.new⟩

/-- A commit of another process cannot record an event to be recorded. -/
theorem Unprocessed.evolves {p : ProcessedEvent} (h : Unprocessed own db p)
    (he : Evolves d (fun l ↦ ¬ own l) db db') : Unprocessed own db' p :=
  ⟨he.processedEvent_absent h.absent (fun hn ↦ hn h.owned), h.owned⟩

/-- An accepted request stays accepted under its locks. -/
theorem Accepted.evolves {input : CreateTransactionInput} {request : Request} {account : Account}
    (h : Accepted d input request own db account) (he : Evolves d (fun l ↦ ¬ own l) db db') :
    Accepted d input request own db' account :=
  { h with found := (he.account_locked fun hn ↦ hn h.ownAccount).trans h.found }

/-- An admitted request stays admitted under its locks. -/
theorem Admitted.evolves {input : CreateTransactionInput} {request : Request} {account : Account}
    {row : Transaction} (h : Admitted d input request own db account row)
    (he : Evolves d (fun l ↦ ¬ own l) db db') :
    Admitted d input request own db' account row :=
  ⟨h.toAccepted.evolves he, he.transaction_absent h.fresh fun hn ↦ hn h.ownTransactionId,
    h.inserted, h.ownTransactionId⟩

/-- A cleared request stays cleared under its locks. -/
theorem Cleared.evolves {input : CreateTransactionInput} {request : Request} {account : Account}
    {row : Transaction} (h : Cleared d input request own db account row)
    (he : Evolves d (fun l ↦ ¬ own l) db db') :
    Cleared d input request own db' account row := by
  have hown : ¬ ¬ own (.advisory (d.hashtextextended account.userId)) := fun hn ↦ hn h.ownAdvisory
  obtain ⟨countFrom, hcountFrom, hcount⟩ := h.velocity
  obtain ⟨amtFrom, hamtFrom, hamt⟩ := h.amount
  exact ⟨h.toAdmitted.evolves he,
    ⟨countFrom, hcountFrom, by rw [he.count_locked hown]; exact hcount⟩,
    ⟨amtFrom, hamtFrom, by rw [he.debitSum_locked hown]; exact hamt⟩⟩

end Banking
