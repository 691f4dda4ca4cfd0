import Banking.Refinement.Decoding

/-!
# The workers refine their commits

Whatever other processes commit between the statements of the ledger worker, the finalization
worker and the timeout scan, they commit nothing but their steps of `Commits`. The finalization
worker reads the status without a lock; that it still finalizes completed transactions only is
argued from the ledger entry behind its event and from the uniqueness of processed events.
-/

namespace Banking

open Relational (Safe Tx Outcome)

variable {d : Deployment} {own : Lock → Prop} {now : Int} {born db : Database}

/-- Workers may end in any way. -/
private abbrev anyEnd : Outcome Reply → List (Database × Database) → Prop := fun _ _ ↦ True

/-- The end of a worker's transaction. -/
private abbrev close : Unit → Process Reply := fun _ ↦ .commit (.pure .done)

/-! ### The ledger worker -/

private theorem safe_postEntry {eventId : String} {event : TransactionEvent} {e : OutboxEvent}
    {t : Transaction} {balance : Int} (hfind : db.outboxEvents.find? eventId = some e)
    (hid : event.eventId = eventId)
    (hpayload : e.payload = .obj event.payload)
    (ht : db.transactions.find? t.transactionId = some t) (he : IsCompletedEvent t balance e) :
    Safe (Commits d) (.ledgerEvent eventId) anyEnd
      (Ledger.postEntry event >>= fun _ ↦
        Tx.query (Sql.createProcessedEvent Ledger.CONSUMER_NAME event.eventId) >>= close)
      (fun _ ↦ False) id [] now db := by
  unfold Ledger.postEntry
  split
  · exact trivial
  · next parsed hparsed =>
    obtain ⟨-, -, hbody⟩ := eventSchema_eq_some hparsed
    obtain ⟨input, ip, hreq, hdata⟩ := he
    have hbody : transactionCompletedPayloadSchema
        (some (completedEvent input t balance ip).payload) = some parsed.payload := by
      rw [← hdata, hpayload]
      exact hbody
    obtain ⟨hnonneg, hmove⟩ := completedEvent_parsed hreq hbody
    have hamount : 0 ≤ t.amount := hreq.amount ▸ Int.le_of_lt input.amountMinor_pos
    have htid : parsed.payload.transactionId = t.transactionId :=
      congrArg TransactionCompletedPayload.transactionId hmove
    have hupdated : Ledger.ledgerUpdatedEvent parsed.payload =
        Ledger.ledgerUpdatedEvent (movement t balance) :=
      show Ledger.ledgerUpdatedEvent
        { parsed.payload with ipAddress := none, deviceFingerprint := none } = _ from
        congrArg Ledger.ledgerUpdatedEvent hmove
    have hentry : ∀ id now, IsEntry t balance ⟨id, parsed.payload.transactionId,
        parsed.payload.accountId, parsed.payload.txnType, Js.bigInt parsed.payload.amount,
        Js.bigInt parsed.payload.balanceAfter, now⟩ := fun id now ↦
      { transactionId := htid
        accountId := congrArg TransactionCompletedPayload.accountId hmove
        type := congrArg TransactionCompletedPayload.txnType hmove
        amount := (congrArg Js.bigInt (congrArg TransactionCompletedPayload.amount hmove)).trans
          (Js.bigInt_toString hamount)
        balanceAfter := (congrArg Js.bigInt (congrArg TransactionCompletedPayload.balanceAfter
          hmove)).trans (Js.bigInt_toString hnonneg) }
    simp only [Tx.bind_assoc]
    refine Safe.query_bind (fun now₁ db₁ supply₁ _ he₁ _ _ ↦ ?_) (fun _ _ _ _ _ _ ↦ trivial)
    refine Safe.query_bind (fun now₂ db₂ supply₂ _ he₂ _ hr₂ ↦ ?_) (fun _ _ _ _ _ _ ↦ trivial)
    refine Safe.query_bind (fun now₃ db₃ supply₃ _ he₃ _ hr₃ ↦ ?_) (fun _ _ _ _ _ _ ↦ trivial)
    refine Safe.query_bind (fun now₄ db₄ supply₄ _ he₄ _ hr₄ ↦ ?_) (fun _ _ _ _ _ _ ↦ trivial)
    refine Safe.commit_pure fun db₅ he₅ ↦ ⟨.single ?_, trivial⟩
    have hlater : Evolves d (fun _ ↦ True) db db₅ :=
      ((((Evolves.all he₁).trans (Evolves.all he₂)).trans (Evolves.all he₃)).trans
        (Evolves.all he₄)).trans (Evolves.all he₅)
    have hlock : Lock.transaction t.transactionId ∈
        (Sql.selectTransactionForUpdate parsed.payload.transactionId).locks
          ⟨now₁, supply₁⟩ db₁ := by
      obtain ⟨status, ht₁, -⟩ := Evolves.transaction he₁ ht
      simp [Sql.selectTransactionForUpdate, htid, ht₁]
    have hentryLock : Lock.ledgerEntry parsed.payload.transactionId ∈ (Sql.createLedgerEntry
        parsed.payload.transactionId parsed.payload.accountId parsed.payload.txnType
        (Js.bigInt parsed.payload.amount) (Js.bigInt parsed.payload.balanceAfter)).locks
        ⟨now₂, supply₂⟩ db₂ := by
      simp [Sql.createLedgerEntry]
    have hnone₂ : db₂.ledgerEntries.find? parsed.payload.transactionId = none :=
      Sql.createLedgerEntry_result hr₂
    have hnone₃ := Evolves.ledgerEntry_absent he₃ hnone₂ (.inl fun hn ↦ hn (.inr hentryLock))
    have hnone₄ := Evolves.ledgerEntry_absent he₄ hnone₃
      (.inl fun hn ↦ hn (.inl (.inr hentryLock)))
    have hnone₅ := Evolves.ledgerEntry_absent he₅ hnone₄
      (.inl fun hn ↦ hn (.inl (.inl (.inr hentryLock))))
    have hunsent := (((Unsent.of_result db₃ hr₃ rfl).evolves he₄).mono fun _ ↦ Or.inl).evolves he₅
    have hunprocessed := (Unprocessed.of_result db₄ hr₄ rfl).evolves he₅
    obtain ⟨status, ht₅, -⟩ := Evolves.transaction hlater ht
    exact Commits.post (t := { t with status }) (Evolves.outboxEvent hlater hfind) ht₅
      (IsCompletedEvent.withStatus status ⟨input, ip, hreq, hdata⟩) ((hentry _ _).withStatus status)
      hnone₅ hupdated hunsent ⟨hid, rfl⟩ hunprocessed
      ⟨.inl (.inl (.inl (.inr hlock))), .inl (.inl (.inr (htid ▸ hentryLock)))⟩

/-- Whatever commits in between, a delivery to the ledger worker commits allowed steps only. -/
theorem safe_ledgerEvent {eventId : String} {event : TransactionEvent} (hc : Consistent born)
    (hd : delivered born eventId = some event) :
    Safe (Commits d) (.ledgerEvent eventId) (fun _ _ ↦ True)
      (do
        Ledger.handleEvent event
        return .done : Process Reply) (fun _ ↦ False) id [] now born := by
  obtain ⟨e, hfind, hid, htype, hpayload⟩ := hc.delivered hd
  rw [Ledger.handleEvent, Tx.transaction_bind, Tx.bind_assoc]
  refine Safe.read_bind (Sql.findProcessedEvent_reads _ _) fun now₁ db₁ _ _ he₁ found _ ↦ ?_
  have hc₁ := hc.evolves he₁
  have hfind₁ := Evolves.outboxEvent he₁ hfind
  cases found with
  | some _ => exact Safe.commit_unchanged fun _ _ ↦ trivial
  | none =>
    dsimp only
    split
    · next hcompleted =>
      obtain ⟨t, balance, ht, he⟩ := hc₁.completedEvent hfind₁ (htype.symm.trans hcompleted)
      rw [Tx.bind_assoc]
      exact safe_postEntry hfind₁ hid hpayload ht he
    · next hother =>
      refine Safe.query_bind (fun now₂ db₂ supply₂ _ he₂ _ hr₂ ↦ ?_) (fun _ _ _ _ _ _ ↦ trivial)
      refine Safe.commit_pure fun db₃ he₃ ↦ ⟨.single ?_, trivial⟩
      exact Commits.skip (Evolves.outboxEvent he₃ (Evolves.outboxEvent he₂ hfind₁))
        (fun h ↦ hother (htype.trans h)) ⟨hid, rfl⟩
        ((Unprocessed.of_result db₂ hr₂ rfl).evolves he₃)

/-! ### The finalization worker -/

private theorem safe_finalizeInTransaction {eventId : String} {e : OutboxEvent} {t : Transaction}
    {balance : Int} {l : LedgerEntry} (hc : Consistent db)
    (hfind : db.outboxEvents.find? eventId = some e)
    (ht : db.transactions.find? t.transactionId = some t) (he : IsLedgerUpdatedEvent t balance e)
    (hl : db.ledgerEntries.find? t.transactionId = some l) :
    Safe (Commits d) (.finalizationEvent eventId) anyEnd
      (Finalization.finalizeInTransaction eventId
        ⟨t.transactionId, t.accountId, t.type, toString t.amount, toString balance⟩ >>= close)
      (fun _ ↦ False) id [] now db := by
  rw [Finalization.finalizeInTransaction, Tx.bind_assoc]
  refine Safe.read_bind (Sql.findProcessedEvent_reads _ _) fun now₁ db₁ _ _ he₁ found _ ↦ ?_
  cases found with
  | some _ => exact Safe.commit_unchanged fun _ _ ↦ trivial
  | none =>
    dsimp only
    rw [Tx.bind_assoc]
    refine Safe.read_bind (Sql.findTransaction_reads _) fun now₂ db₂ _ _ he₂ found₂ hr₂ ↦ ?_
    have he' : Evolves d (fun l ↦ ¬ False) db db₂ := he₁.trans he₂
    have hc₂ := hc.evolves he'
    have hfind₂ := Evolves.outboxEvent he' hfind
    have hl₂ := Evolves.ledgerEntry he' hl
    obtain ⟨status, ht₂, -⟩ := Evolves.transaction he' ht
    obtain rfl : found₂ = some { t with status } := (Option.some.inj hr₂).symm.trans ht₂
    dsimp only
    split
    · next hstatus =>
      simp only [Tx.bind_assoc]
      refine Safe.query_bind (fun now₃ db₃ supply₃ _ he₃ _ _ ↦ ?_) (fun _ _ _ _ _ _ ↦ trivial)
      refine Safe.query_bind (fun now₄ db₄ supply₄ _ he₄ _ hr₄ ↦ ?_) (fun _ _ _ _ _ _ ↦ trivial)
      refine Safe.query_bind (fun now₅ db₅ supply₅ _ he₅ _ hr₅ ↦ ?_) (fun _ _ _ _ _ _ ↦ trivial)
      refine Safe.commit_pure fun db₆ he₆ ↦ ⟨.single ?_, trivial⟩
      have hlater : Evolves d (fun _ ↦ True) db₂ db₆ :=
        (((Evolves.all he₃).trans (Evolves.all he₄)).trans (Evolves.all he₅)).trans
          (Evolves.all he₆)
      have hunsent := ((Unsent.of_result db₄ hr₄ rfl).evolves he₅).mono (fun _ ↦ Or.inl)
        |>.evolves he₆
      have hunprocessed := (Unprocessed.of_result db₅ hr₅ rfl).evolves he₆
      have hfind₆ := Evolves.outboxEvent hlater hfind₂
      have hlock : Lock.transaction t.transactionId ∈
          (Sql.updateTransactionStatus t.transactionId .FINALIZED).locks ⟨now₃, supply₃⟩ db₃ := by
        simp [Sql.updateTransactionStatus]
      -- between the unlocked read and the commit the row can only have been finalized, and then
      -- the event would have been recorded
      obtain ⟨status₆, ht₆, hs₆⟩ := Evolves.status_posted hlater ht₂ hstatus.1 hl₂
      have hcompleted : status₆ = .COMPLETED := by
        refine hs₆.resolve_right fun hf ↦ ?_
        have hrec := (hc₂.evolves hlater).finalized_recorded (t := { t with status := status₆ })
          ht₆ hf hfind₆ (he.withStatus status₆)
        rw [Database.hasProcessed, hunprocessed.absent] at hrec
        cases hrec
      exact Commits.finalize (t := { t with status := status₆ }) hfind₆ ht₆ hcompleted
        (he.withStatus status₆) (Evolves.ledgerEntry hlater hl₂) rfl hunsent ⟨rfl, rfl⟩ hunprocessed
        (.inl (.inl (.inr hlock)))
    · next hstatus =>
      refine Safe.query_bind (fun now₃ db₃ supply₃ _ he₃ _ hr₃ ↦ ?_) (fun _ _ _ _ _ _ ↦ trivial)
      refine Safe.commit_pure fun db₄ he₄ ↦ ⟨.single ?_, trivial⟩
      have hlater : Evolves d (fun _ ↦ True) db₂ db₄ := (Evolves.all he₃).trans (Evolves.all he₄)
      have hother : status ≠ .COMPLETED := fun hs ↦
        hstatus ⟨hs, hc₂.authorized (t := { t with status }) ht₂ hs⟩
      exact Commits.pass (t := { t with status }) (Evolves.outboxEvent hlater hfind₂)
        (Evolves.transaction_settled hlater ht₂ hother) hother (he.withStatus status) ⟨rfl, rfl⟩
        ((Unprocessed.of_result db₃ hr₃ rfl).evolves he₄)

/-- Whatever commits in between, a delivery to the finalization worker commits allowed steps
only. -/
theorem safe_finalizationEvent {eventId : String} {event : TransactionEvent}
    (hc : Consistent born) (hd : delivered born eventId = some event) :
    Safe (Commits d) (.finalizationEvent eventId) (fun _ _ ↦ True)
      (do
        Finalization.handleEvent event
        return .done : Process Reply) (fun _ ↦ False) id [] now born := by
  obtain ⟨e, hfind, hid, htype, hpayload⟩ := hc.delivered hd
  rw [Finalization.handleEvent]
  split
  · exact trivial
  · next hupdated =>
    split
    · exact trivial
    · next parsed hparsed =>
      obtain ⟨t, balance, ht, he, ⟨input, hreq⟩, l, hl⟩ :=
        hc.ledgerUpdatedEvent hfind (htype.symm.trans (not_not.mp hupdated))
      obtain ⟨-, -, hbody⟩ := eventSchema_eq_some hparsed
      have hbody : ledgerUpdatedPayloadSchema
          (some (Ledger.ledgerUpdatedEvent (movement t balance)).payload) =
            some parsed.payload := by
        rw [← he, hpayload]
        exact hbody
      rw [Tx.transaction_bind, ledgerUpdatedEvent_parsed hreq hbody, hid]
      exact safe_finalizeInTransaction hc hfind ht he hl

/-! ### The timeout scan -/

private theorem safe_compensateInTransaction {candidate : String} {rest : Process Reply}
    {hist : List (Database × Database)}
    (hrest : ∀ hist now db,
      Safe (Commits d) .timeoutScan anyEnd rest (fun _ ↦ False) id hist now db) :
    Safe (Commits d) .timeoutScan anyEnd
      (Finalization.compensateInTransaction candidate >>= fun _ ↦ .commit rest)
      (fun _ ↦ False) id hist now db := by
  rw [Finalization.compensateInTransaction, Tx.bind_assoc]
  refine Safe.query_bind (fun now₁ db₁ supply₁ _ he₁ found hr₁ ↦ ?_) (fun _ _ _ _ _ _ ↦ trivial)
  cases found with
  | none => exact fun now' db' _ _ ↦ ⟨.refl, hrest _ _ _⟩
  | some t =>
    obtain ⟨ht₁, hstatus⟩ := Sql.selectCompletedForUpdate_result hr₁
    obtain rfl : t.transactionId = candidate := Relational.Table.key_of_find? ht₁
    have hlock : Lock.transaction t.transactionId ∈
        (Sql.selectCompletedForUpdate t.transactionId).locks ⟨now₁, supply₁⟩ db₁ := by
      have hview : db₁.transactions.find? t.transactionId = some t := ht₁
      simp [Sql.selectCompletedForUpdate, hview, hstatus]
    dsimp only
    rw [Tx.bind_assoc]
    refine Safe.read_bind (Sql.findLedgerEntry_reads _) fun now₂ db₂ _ _ he₂ entry hr₂ ↦ ?_
    cases entry with
    | some _ => exact fun now' db' _ _ ↦ ⟨.refl, hrest _ _ _⟩
    | none =>
      dsimp only
      rw [Tx.bind_assoc]
      refine Safe.query_bind (fun now₃ db₃ supply₃ _ he₃ balance hr₃ ↦ ?_)
        (fun _ _ _ _ _ _ ↦ trivial)
      cases balance with
      | none => exact trivial
      | some balance =>
        dsimp only
        split
        · exact fun now' db' _ _ ↦ ⟨.refl, hrest _ _ _⟩
        · next hnonneg =>
          obtain ⟨account, haccount, rfl⟩ := Option.map_eq_some_iff.mp (Option.some.inj hr₃)
          have hview : db₃.accounts.find? t.accountId = some account := haccount
          have haccountLock : Lock.account t.accountId ∈
              (Sql.selectBalanceForUpdate t.accountId).locks ⟨now₃, supply₃⟩ db₃ := by
            simp [Sql.selectBalanceForUpdate, hview]
          simp only [Tx.bind_assoc]
          refine Safe.query_bind (fun now₄ db₄ supply₄ _ he₄ _ _ ↦ ?_) (fun _ _ _ _ _ _ ↦ trivial)
          refine Safe.query_bind (fun now₅ db₅ supply₅ _ he₅ _ _ ↦ ?_) (fun _ _ _ _ _ _ ↦ trivial)
          refine Safe.query_bind (fun now₆ db₆ supply₆ _ he₆ _ hr₆ ↦ ?_)
            (fun _ _ _ _ _ _ ↦ trivial)
          refine fun now₇ db₇ _ he₇ ↦ ⟨.single ?_, hrest _ _ _⟩
          have hunsent := (Unsent.of_result db₆ hr₆ rfl).evolves he₇
          -- the row is locked since the first statement, the account since the third
          have haccount₇ : Evolves d (fun l ↦ ¬ _) db₃ db₇ :=
            ((he₄.trans (Evolves.fewer he₅ fun _ ↦ Or.inl)).trans
              (Evolves.fewer he₆ fun _ h ↦ .inl (.inl h))).trans
                (Evolves.fewer he₇ fun _ h ↦ .inl (.inl (.inl h)))
          have hentry₇ : Evolves d (fun l ↦ ¬ _) db₂ db₇ :=
            he₃.trans (Evolves.fewer haccount₇ fun _ ↦ Or.inl)
          have hown : ¬ ¬ (False ∨ Lock.transaction t.transactionId ∈
              (Sql.selectCompletedForUpdate t.transactionId).locks ⟨now₁, supply₁⟩ db₁) :=
            fun hn ↦ hn (.inr hlock)
          have hnone₂ : db₂.ledgerEntries.find? t.transactionId = none := Option.some.inj hr₂
          exact Commits.compensate (t := t)
            (Evolves.transaction_locked (he₂.trans hentry₇) ht₁ hown) hstatus
            (Evolves.ledgerEntry_absent hentry₇ hnone₂ (.inr hown))
            ((Evolves.account_locked haccount₇ fun hn ↦ hn (.inr haccountLock)).trans haccount) rfl
            (Int.not_lt.mp hnonneg) rfl hunsent
            ⟨.inl (.inl (.inl (.inl (.inr hlock)))), .inl (.inl (.inl (.inr haccountLock)))⟩

private theorem safe_compensateEach (candidates : List String) :
    ∀ hist now db, Safe (Commits d) .timeoutScan anyEnd
      (Finalization.compensateEach candidates >>= fun _ ↦ .pure .done) (fun _ ↦ False) id hist now
      db := by
  induction candidates with
  | nil => exact fun _ _ _ ↦ trivial
  | cons candidate rest ih =>
    intro hist now db
    rw [Finalization.compensateEach, Tx.bind_assoc, Tx.transaction_bind]
    exact safe_compensateInTransaction ih

/-- Whatever commits in between, a timeout scan commits reversals only. -/
theorem safe_timeoutScan :
    Safe (Commits d) .timeoutScan (fun _ _ ↦ True)
      (do
        Finalization.compensateTimedOutTransactions d
        return .done : Process Reply) (fun _ ↦ False) id [] now born := by
  simp only [Finalization.compensateTimedOutTransactions, Tx.bind_assoc]
  refine Safe.read_bind Sql.now_reads fun _ _ _ _ _ _ _ ↦ ?_
  refine Safe.read_bind (Sql.findTimedOut_reads _ _) fun _ _ _ _ _ candidates _ ↦ ?_
  exact safe_compensateEach candidates _ _ _

end Banking
