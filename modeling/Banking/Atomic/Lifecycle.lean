import Banking.Atomic.Records

/-!
# The life of one transaction

Every commit takes the record of every transaction from stage to stage (`Consistent.step`). What
the outbox, the ledger and the status of a transaction say about each other is read off the
stages.
-/

namespace Banking

open Relational (Table)

/-! ### The invariant -/

/-- Every record is in a stage, and consumers have recorded outbox rows only. -/
structure Consistent (db : Database) : Prop where
  stage : ∀ tid, Stage (db.record tid)
  recorded : ∀ consumer id, db.hasProcessed consumer id = true →
    (db.outboxEvents.find? id).isSome

namespace Consistent

variable {d : Deployment} {call : Call} {own : Lock → Prop} {db db' : Database}

/-- Nothing has happened to any transaction. -/
theorem opening (accounts : Table Account.id) : Consistent (Database.opening accounts) where
  stage _ := .absent
  recorded _ _ h := by simp [Database.hasProcessed, Database.opening] at h

/-- No consumer has recorded an identifier that the outbox does not have. -/
theorem unrecorded (h : Consistent db) {id : String} (hid : db.outboxEvents.find? id = none)
    (consumer : String) : db.hasProcessed consumer id = false := by
  cases hp : db.hasProcessed consumer id with
  | false => rfl
  | true =>
    have := h.recorded consumer id hp
    simp [hid] at this

private theorem stage_complete (h : Consistent db) {row : Transaction} {event : OutboxEvent}
    {account : String} {balance : Int}
    (hfresh : db.transactions.find? row.transactionId = none) (hstatus : row.status = .COMPLETED)
    (hauth : row.authorizedAt ≠ none) (hevent : IsCompletedEvent row balance event)
    (habsent : db.outboxEvents.find? event.id = none) (tid : String) :
    Stage ((((db.addTransaction row).setBalance account balance).addOutboxEvent event).record
      tid) := by
  rw [record_addOutboxEvent ((db.addTransaction row).setBalance account balance) habsent
      (h.unrecorded habsent), record_setBalance,
    record_addTransaction hfresh, hevent.transactionId]
  by_cases htid : row.transactionId = tid
  · subst htid
    simpa using (h.stage _).complete hfresh hstatus hauth hevent
  · simpa [htid] using h.stage tid

private theorem stage_block (h : Consistent db) {row : Transaction} {event : OutboxEvent}
    (hfresh : db.transactions.find? row.transactionId = none) (hstatus : row.status = .BLOCKED)
    (hevent : IsBlockedEvent row event) (habsent : db.outboxEvents.find? event.id = none)
    (tid : String) : Stage (((db.addTransaction row).addOutboxEvent event).record tid) := by
  rw [record_addOutboxEvent (db.addTransaction row) habsent (h.unrecorded habsent),
    record_addTransaction hfresh,
    hevent.transactionId]
  by_cases htid : row.transactionId = tid
  · subst htid
    simpa using (h.stage _).block hfresh hstatus hevent
  · simpa [htid] using h.stage tid

private theorem stage_post (h : Consistent db) {t : Transaction} {balance : Int}
    {event event' : OutboxEvent} {entry : LedgerEntry} {p : ProcessedEvent}
    (hfind : db.outboxEvents.find? p.eventId = some event)
    (ht : db.transactions.find? t.transactionId = some t)
    (hevent : IsCompletedEvent t balance event) (hentry : IsEntry t balance entry)
    (hnone : db.ledgerEntries.find? entry.transactionId = none)
    (hevent' : IsLedgerUpdatedEvent t balance event')
    (habsent : db.outboxEvents.find? event'.id = none)
    (hconsumer : p.consumerName = Ledger.CONSUMER_NAME)
    (hp : db.processedEvents.find? (p.consumerName, p.eventId) = none) (tid : String) :
    Stage ((((db.addLedgerEntry entry).addOutboxEvent event').addProcessedEvent p).record
      tid) := by
  rw [record_addProcessedEvent ((db.addLedgerEntry entry).addOutboxEvent event')
      (Table.find?_insert_of_some hfind) hp,
    record_addOutboxEvent (db.addLedgerEntry entry) habsent (h.unrecorded habsent),
    record_addLedgerEntry hnone, hevent'.transactionId, hevent.transactionId,
    hentry.transactionId, hconsumer, hevent.eventType]
  by_cases htid : t.transactionId = tid
  · subst htid
    have hmem := Database.mem_trail hfind
    rw [hevent.transactionId] at hmem
    rw [hentry.transactionId] at hnone
    simpa [Ledger.CONSUMER_NAME, Finalization.CONSUMER_NAME] using
      (h.stage _).post ht hnone hmem hevent hentry hevent'
  · simpa [htid] using h.stage tid

private theorem stage_skip (h : Consistent db) {event : OutboxEvent} {p : ProcessedEvent}
    (hfind : db.outboxEvents.find? p.eventId = some event)
    (htype : event.eventType ≠ "TransactionCompleted")
    (hconsumer : p.consumerName = Ledger.CONSUMER_NAME)
    (hp : db.processedEvents.find? (p.consumerName, p.eventId) = none) (tid : String) :
    Stage ((db.addProcessedEvent p).record tid) := by
  rw [record_addProcessedEvent db hfind hp, hconsumer]
  simpa [htype, Ledger.CONSUMER_NAME, Finalization.CONSUMER_NAME] using h.stage tid

private theorem stage_finalize (h : Consistent db) {t : Transaction} {balance : Int}
    {event event' : OutboxEvent} {entry : LedgerEntry} {p : ProcessedEvent}
    (hfind : db.outboxEvents.find? p.eventId = some event)
    (ht : db.transactions.find? t.transactionId = some t) (hstatus : t.status = .COMPLETED)
    (hevent : IsLedgerUpdatedEvent t balance event)
    (hentry : db.ledgerEntries.find? t.transactionId = some entry)
    (hevent' : IsFinalizedEvent t balance event')
    (habsent : db.outboxEvents.find? event'.id = none)
    (hconsumer : p.consumerName = Finalization.CONSUMER_NAME)
    (hp : db.processedEvents.find? (p.consumerName, p.eventId) = none) (tid : String) :
    Stage ((((db.setStatus t.transactionId .FINALIZED).addOutboxEvent event').addProcessedEvent
      p).record tid) := by
  rw [record_addProcessedEvent ((db.setStatus t.transactionId .FINALIZED).addOutboxEvent event')
      (Table.find?_insert_of_some hfind) hp,
    record_addOutboxEvent (db.setStatus t.transactionId .FINALIZED) habsent
      (h.unrecorded habsent),
    record_setStatus db ht, hevent'.transactionId, hevent.transactionId, hconsumer,
    hevent.eventType]
  by_cases htid : t.transactionId = tid
  · subst htid
    have hmem := Database.mem_trail hfind
    rw [hevent.transactionId] at hmem
    simpa [Ledger.CONSUMER_NAME, Finalization.CONSUMER_NAME] using
      (h.stage _).finalize ht hstatus hentry hmem hevent hevent'
  · simpa [htid] using h.stage tid

private theorem stage_pass (h : Consistent db) {t : Transaction} {balance : Int}
    {event : OutboxEvent} {p : ProcessedEvent}
    (hfind : db.outboxEvents.find? p.eventId = some event)
    (ht : db.transactions.find? t.transactionId = some t) (hstatus : t.status ≠ .COMPLETED)
    (hevent : IsLedgerUpdatedEvent t balance event)
    (hconsumer : p.consumerName = Finalization.CONSUMER_NAME)
    (hp : db.processedEvents.find? (p.consumerName, p.eventId) = none) (tid : String) :
    Stage ((db.addProcessedEvent p).record tid) := by
  rw [record_addProcessedEvent db hfind hp, hevent.transactionId, hconsumer, hevent.eventType]
  by_cases htid : t.transactionId = tid
  · subst htid
    have hmem := Database.mem_trail hfind
    rw [hevent.transactionId] at hmem
    simpa [Ledger.CONSUMER_NAME, Finalization.CONSUMER_NAME] using
      (h.stage _).pass ht hstatus hmem hevent
  · simpa [htid] using h.stage tid

private theorem stage_compensate (h : Consistent db) {t : Transaction} {event : OutboxEvent}
    {account : String} {balance : Int}
    (ht : db.transactions.find? t.transactionId = some t) (hstatus : t.status = .COMPLETED)
    (hnone : db.ledgerEntries.find? t.transactionId = none)
    (hevent : IsCompensatedEvent t event) (habsent : db.outboxEvents.find? event.id = none)
    (tid : String) :
    Stage ((((db.setBalance account balance).setStatus t.transactionId .BLOCKED).addOutboxEvent
      event).record tid) := by
  rw [record_addOutboxEvent ((db.setBalance account balance).setStatus t.transactionId .BLOCKED)
      habsent (h.unrecorded habsent),
    record_setStatus (db.setBalance account balance) ht, record_setBalance, hevent.transactionId]
  by_cases htid : t.transactionId = tid
  · subst htid
    simpa using (h.stage _).compensate ht hstatus hnone hevent
  · simpa [htid] using h.stage tid

/-- Every commit keeps the records in their stages. -/
private theorem stage_step (h : Consistent db) (hc : Commits d call own db db') (tid : String) :
    Stage (db'.record tid) := by
  cases hc with
  | @complete input request _ _ account row event hadm hevent hunsent =>
    obtain ⟨id, authorizedAt, createdAt, rfl⟩ := hadm.inserted
    exact h.stage_complete hadm.fresh rfl (by simp [newTransaction])
      ⟨input, request.ipAddress, ⟨rfl, rfl, rfl, rfl⟩, hevent⟩ hunsent.absent tid
  | @block input request _ _ account row event reason hadm hevent hunsent =>
    obtain ⟨id, authorizedAt, createdAt, rfl⟩ := hadm.inserted
    have hfresh : db.transactions.find? ({ newTransaction input id authorizedAt createdAt with
        status := .BLOCKED } : Transaction).transactionId = none := hadm.fresh
    exact h.stage_block hfresh rfl
      ⟨input, request.ipAddress, reason, ⟨rfl, rfl, rfl, rfl⟩, hevent⟩ hunsent.absent tid
  | post hfind ht hevent hentry hnone hevent' hunsent hp hunprocessed =>
    exact h.stage_post (hp.1 ▸ hfind) ht hevent hentry hnone hevent' hunsent.absent hp.2
      hunprocessed.absent tid
  | skip hfind htype hp hunprocessed =>
    exact h.stage_skip (hp.1 ▸ hfind) htype hp.2 hunprocessed.absent tid
  | finalize hfind ht hstatus hevent hentry hevent' hunsent hp hunprocessed =>
    exact h.stage_finalize (hp.1 ▸ hfind) ht hstatus hevent hentry hevent' hunsent.absent hp.2
      hunprocessed.absent tid
  | pass hfind ht hstatus hevent hp hunprocessed =>
    exact h.stage_pass (hp.1 ▸ hfind) ht hstatus hevent hp.2 hunprocessed.absent tid
  | @compensate _ _ t account balance event ht hstatus hnone haccount hbalance hnonneg hevent
      hunsent =>
    exact h.stage_compensate ht hstatus hnone ⟨balance, hevent⟩ hunsent.absent tid

/-- A recorded event is an outbox row, before and after a commit. -/
private theorem recorded_step (h : Consistent db) (hc : Commits d call own db db')
    (consumer id : String) (hrec : db'.hasProcessed consumer id = true) :
    (db'.outboxEvents.find? id).isSome := by
  have hold : (db.outboxEvents.find? id).isSome → (db'.outboxEvents.find? id).isSome := by
    intro hid
    obtain ⟨e, he⟩ := Option.isSome_iff_exists.mp hid
    rw [(Evolves.outboxEvent (Relational.Evolves.single hc) he)]
    rfl
  by_cases hprev : db.hasProcessed consumer id = true
  · exact hold (h.recorded consumer id hprev)
  · -- the record is new, so the commit is one of the four that add a processed event
    have hnew : ∀ p : ProcessedEvent, db'.processedEvents = db.processedEvents.insert p →
        (db.outboxEvents.find? p.eventId).isSome → (db'.outboxEvents.find? id).isSome := by
      intro p hp he
      by_cases hk : (p.consumerName, p.eventId) = (consumer, id)
      · cases hk
        exact hold he
      · refine absurd ?_ hprev
        rw [Database.hasProcessed, hp] at hrec
        rw [Database.hasProcessed, ← hrec]
        exact congrArg Option.isSome (Table.find?_insert_of_ne db.processedEvents (r := p) hk).symm
    cases hc with
    | complete => exact absurd hrec hprev
    | block => exact absurd hrec hprev
    | compensate => exact absurd hrec hprev
    | post hfind _ _ _ _ _ _ hp => exact hnew _ rfl (by rw [hp.1, hfind]; rfl)
    | skip hfind _ hp => exact hnew _ rfl (by rw [hp.1, hfind]; rfl)
    | finalize hfind _ _ _ _ _ _ hp => exact hnew _ rfl (by rw [hp.1, hfind]; rfl)
    | pass hfind _ _ _ hp => exact hnew _ rfl (by rw [hp.1, hfind]; rfl)

/-- Every commit keeps the invariant. -/
theorem step (h : Consistent db) (hc : Commits d call own db db') : Consistent db' :=
  ⟨h.stage_step hc, h.recorded_step hc⟩

/-- Every evolution keeps the invariant. -/
theorem evolves (h : Consistent db) (he : Evolves d own db db') : Consistent db' :=
  Relational.Evolves.invariant (fun _ _ _ hc hb ↦ step hb hc) he h

/-! ### What an outbox row says -/

/-- An outbox row that exists belongs to the record of its transaction. -/
theorem filed (h : Consistent db) {id : String} {e : OutboxEvent}
    (he : db.outboxEvents.find? id = some e) :
    ∃ t, db.transactions.find? t.transactionId = some t ∧ t.transactionId = e.transactionId ∧
      Filed (db.record e.transactionId) t e := by
  obtain ⟨t, ht, hfiled⟩ := (h.stage e.transactionId).filed (Database.mem_trail he)
  have hkey : t.transactionId = e.transactionId := Table.key_of_find? ht
  exact ⟨t, hkey ▸ ht, hkey, hfiled⟩

/-- The types of the outbox rows. -/
theorem eventType (h : Consistent db) {id : String} {e : OutboxEvent}
    (he : db.outboxEvents.find? id = some e) :
    e.eventType ∈ ["TransactionCompleted", "TransactionBlocked", "LedgerUpdated",
      "TransactionFinalized", "TransactionCompensated"] := by
  obtain ⟨t, -, -, hfiled⟩ := h.filed he
  cases hfiled with
  | completed hc => simp [hc.eventType]
  | blocked hb => simp [hb.eventType]
  | ledgerUpdated hu => simp [hu.eventType]
  | finalized hf => simp [hf.eventType]
  | compensated hc => simp [hc.eventType]

/-- A completed event belongs to a transaction, whatever has become of it. -/
theorem completedEvent (h : Consistent db) {id : String} {e : OutboxEvent}
    (he : db.outboxEvents.find? id = some e) (htype : e.eventType = "TransactionCompleted") :
    ∃ t balance, db.transactions.find? t.transactionId = some t ∧
      IsCompletedEvent t balance e := by
  obtain ⟨t, ht, -, hfiled⟩ := h.filed he
  cases hfiled with
  | completed hc => exact ⟨t, _, ht, hc⟩
  | blocked hb => simp [hb.eventType] at htype
  | ledgerUpdated hu => simp [hu.eventType] at htype
  | finalized hf => simp [hf.eventType] at htype
  | compensated hc => simp [hc.eventType] at htype

/-- A ledger event belongs to a transaction with an entry. -/
theorem ledgerUpdatedEvent (h : Consistent db) {id : String} {e : OutboxEvent}
    (he : db.outboxEvents.find? id = some e) (htype : e.eventType = "LedgerUpdated") :
    ∃ t balance, db.transactions.find? t.transactionId = some t ∧
      IsLedgerUpdatedEvent t balance e ∧ (∃ input, Requested input t) ∧
      ∃ l, db.ledgerEntries.find? t.transactionId = some l := by
  obtain ⟨t, ht, hkey, hfiled⟩ := h.filed he
  cases hfiled with
  | completed hc => simp [hc.eventType] at htype
  | blocked hb => simp [hb.eventType] at htype
  | @ledgerUpdated b c l hu hc hl =>
    obtain ⟨input, -, hreq, -⟩ := hc
    exact ⟨t, b, ht, hu, ⟨input, hreq⟩, l, hkey ▸ hl⟩
  | finalized hf => simp [hf.eventType] at htype
  | compensated hc => simp [hc.eventType] at htype

/-! ### What a row says -/

/-- Every row is what some input asked for. -/
theorem requested (h : Consistent db) {tid : String} {t : Transaction}
    (ht : db.transactions.find? tid = some t) : ∃ input, Requested input t := by
  have hs := h.stage tid
  have hr : (db.record tid).transaction = some t := ht
  generalize db.record tid = r at hs hr
  have key : (∃ balance e, IsCompletedEvent t balance e) ∨ (∃ e, IsBlockedEvent t e) := by
    cases hs with
    | absent => cases hr
    | blocked _ hb => cases hr; exact .inr ⟨_, hb⟩
    | completed _ _ hc => cases hr; exact .inl ⟨_, _, hc⟩
    | posted _ _ hc => cases hr; exact .inl ⟨_, _, hc⟩
    | finalized _ _ hc => cases hr; exact .inl ⟨_, _, hc⟩
    | compensated _ hc => cases hr; exact .inl ⟨_, _, hc⟩
    | misposted _ hc => cases hr; exact .inl ⟨_, _, hc⟩
  rcases key with ⟨_, _, input, _, hreq, _⟩ | ⟨_, input, _, _, hreq, _⟩
  · exact ⟨input, hreq⟩
  · exact ⟨input, hreq⟩

/-- Every row has a positive amount. -/
theorem amount_pos (h : Consistent db) {tid : String} {t : Transaction}
    (ht : db.transactions.find? tid = some t) : 0 < t.amount := by
  obtain ⟨input, hreq⟩ := h.requested ht
  exact hreq.amount ▸ input.amountMinor_pos

/-- An unused `transactionId` has no ledger entry. -/
theorem unposted (h : Consistent db) {tid : String} (ht : db.transactions.find? tid = none) :
    db.ledgerEntries.find? tid = none := by
  have hs := h.stage tid
  have hr : (db.record tid).transaction = none := ht
  change (db.record tid).entry = none
  generalize db.record tid = r at hs hr
  cases hs with
  | absent => rfl
  | _ => cases hr

/-- A completed transaction is authorized. -/
theorem authorized (h : Consistent db) {tid : String} {t : Transaction}
    (ht : db.transactions.find? tid = some t) (hstatus : t.status = .COMPLETED) :
    t.authorizedAt ≠ none := by
  have hs := h.stage tid
  have hr : (db.record tid).transaction = some t := ht
  generalize db.record tid = r at hs hr
  cases hs with
  | absent => cases hr
  | blocked hb => cases hr; simp [hb] at hstatus
  | completed _ hauth => cases hr; exact hauth
  | posted _ hauth => cases hr; exact hauth
  | finalized hf => cases hr; simp [hf] at hstatus
  | compensated hb => cases hr; simp [hb] at hstatus
  | misposted hb => cases hr; simp [hb] at hstatus

/-- The ledger event of a finalized transaction has been recorded by the finalization worker. -/
theorem finalized_recorded (h : Consistent db) {t : Transaction} {balance : Int} {id : String}
    {e : OutboxEvent} (ht : db.transactions.find? t.transactionId = some t)
    (hstatus : t.status = .FINALIZED) (he : db.outboxEvents.find? id = some e)
    (hu : IsLedgerUpdatedEvent t balance e) :
    db.hasProcessed Finalization.CONSUMER_NAME id = true := by
  have hs := h.stage t.transactionId
  have hr : (db.record t.transactionId).transaction = some t := ht
  have hmem : e ∈ (db.record t.transactionId).events := hu.transactionId ▸ Database.mem_trail he
  have hsettled : (db.record t.transactionId).settled = true →
      ∃ x ∈ (db.record t.transactionId).events, x.eventType = "LedgerUpdated" ∧
        db.hasProcessed Finalization.CONSUMER_NAME x.id = true := by
    intro hset
    obtain ⟨x, hx, hxt⟩ := List.any_eq_true.mp hset
    exact ⟨x, hx, by simpa using hxt⟩
  generalize db.record t.transactionId = r at hs hr hmem hsettled
  cases hs with
  | absent => cases hr
  | blocked hb => cases hr; simp [hb] at hstatus
  | completed hb => cases hr; simp [hb] at hstatus
  | posted hb => cases hr; simp [hb] at hstatus
  | compensated hb => cases hr; simp [hb] at hstatus
  | misposted hb => cases hr; simp [hb] at hstatus
  | @finalized _ _ e₁ _ e₂ e₃ _ _ hc _ hu' hf =>
    cases hr
    have honly : ∀ x ∈ [e₁, e₂, e₃], x.eventType = "LedgerUpdated" → x = e₂ := by
      intro x hx hxt
      simp only [List.mem_cons, List.not_mem_nil, or_false] at hx
      rcases hx with rfl | rfl | rfl
      · simp [hc.eventType] at hxt
      · rfl
      · simp [hf.eventType] at hxt
    obtain ⟨x, hx, hxt, hrec⟩ := hsettled rfl
    rw [honly x hx hxt, ← honly e hmem hu.eventType, Table.key_of_find? he] at hrec
    exact hrec

end Consistent

end Banking
