import Banking.Refinement.Decoding
import Banking.Refinement.SequentialWorkers
import Banking.Refinement.SerialCreate

/-!
# Workers take effect at their commits

Whatever other processes commit between the statements of the ledger worker, the finalization
worker and the timeout scan, each of their transactions leaves what it leaves when it runs alone at
the database of its commit.
-/

namespace Banking

open Relational (Env Promises Table Tx)

variable {d : Deployment} {own : Lock → Prop} {born db db' : Database}

/-- Workers may end in any way. -/
private abbrev anyway : List Database → List (Database × Database) →
    Relational.Outcome Reply → Prop := fun _ _ _ ↦ True

/-- The end of a worker's transaction. -/
private abbrev conclude : Unit → Process Reply := fun _ ↦ .commit (.pure .done)

/-- What the event of an outbox row decodes to stays. -/
private theorem delivered_evolves (he : Evolves d own db db') {eventId : String}
    {event : TransactionEvent} (h : delivered db eventId = some event) :
    delivered db' eventId = some event := by
  obtain ⟨row, hrow, hevent⟩ := Option.bind_eq_some_iff.mp h
  exact Option.bind_eq_some_iff.mpr ⟨row, he.outboxEvent hrow, hevent⟩

/-- A transaction that has changed nothing. -/
private theorem unchanged {call : Call} {seen : List Database} {hist : List (Database × Database)} :
    Promises (LockedCommits d) (SerialEffect d call) anyway
      (.commit (.pure .done) : Process Reply) own id seen hist db :=
  Promises.commit_pure fun _ _ ↦ ⟨.inl rfl, trivial⟩

/-! ### The ledger worker -/

/-- The insert of a ledger entry finds the transaction and the account, and no other entry. -/
private theorem createLedgerEntry_found {transactionId accountId : String} {type : TransactionType}
    {amount balanceAfter : Int} {env : Env Supply} {u : Unit}
    (h : (Sql.createLedgerEntry transactionId accountId type amount balanceAfter).result env db =
      some u) :
    db.ledgerEntries.find? transactionId = none ∧
      (∀ l ∈ db.ledgerEntries.rows, l.id ≠ env.supply.id) ∧
      (∃ t, db.transactions.find? transactionId = some t) ∧
      ∃ a, db.accounts.find? accountId = some a := by
  simp only [Sql.createLedgerEntry] at h
  split at h
  · next hc =>
    simpa only [Bool.and_eq_true, Option.isNone_iff_eq_none, List.all_eq_true, decide_eq_true_eq,
      Option.isSome_iff_exists, and_assoc] using hc
  · cases h

private theorem ledger_serial {eventId : String} {event : TransactionEvent} {a : Database}
    (env : Nat → Env Supply) (hd : delivered db eventId = some event)
    (h : (Ledger.handleEvent event).perform env 0 id db = (some (), a)) :
    SerialEffect d (.ledgerEvent eventId) db a := by
  refine .inr ⟨_, env, .done, congrArg (Option.map _) hd, ?_⟩
  refine (Tx.perform_map (fun _ ↦ Reply.done) _).trans ?_
  rw [h]
  rfl

private theorem promises_postEntry {eventId : String} {event : TransactionEvent}
    {seen : List Database} (hd : delivered db eventId = some event)
    (htype : event.eventType = "TransactionCompleted") :
    Promises (LockedCommits d) (SerialEffect d (.ledgerEvent eventId)) anyway
      (Ledger.postEntry event >>= fun _ ↦
        Tx.query (Sql.createProcessedEvent Ledger.CONSUMER_NAME event.eventId) >>= conclude)
      (fun _ ↦ False) id seen [] db := by
  unfold Ledger.postEntry
  split
  · exact trivial
  · next parsed hparsed =>
    simp only [Tx.bind_assoc]
    refine Promises.query_bind (fun _ db₁ he₁ _ _ ↦ ?_) (fun _ _ _ _ ↦ trivial)
    refine Promises.query_bind (fun env₂ db₂ he₂ _ hr₂ ↦ ?_) (fun _ _ _ _ ↦ trivial)
    refine Promises.query_bind (fun env₃ db₃ he₃ _ hr₃ ↦ ?_) (fun _ _ _ _ ↦ trivial)
    refine Promises.query_bind (fun env₄ db₄ he₄ _ hr₄ ↦ ?_) (fun _ _ _ _ ↦ trivial)
    refine Promises.commit_pure fun db₅ he₅ ↦ ⟨?_, trivial⟩
    obtain ⟨hunposted, hunused, ⟨t, ht⟩, account, haccount⟩ := createLedgerEntry_found hr₂
    have hlocks : Lock.ledgerEntry parsed.payload.transactionId ∈ (Sql.createLedgerEntry
        parsed.payload.transactionId parsed.payload.accountId parsed.payload.txnType
        (Js.bigInt parsed.payload.amount) (Js.bigInt parsed.payload.balanceAfter)).locks env₂ db₂ ∧
        Lock.ledgerEntryPk env₂.supply.id ∈ (Sql.createLedgerEntry
        parsed.payload.transactionId parsed.payload.accountId parsed.payload.txnType
        (Js.bigInt parsed.payload.amount) (Js.bigInt parsed.payload.balanceAfter)).locks env₂
          db₂ := by
      simp [Sql.createLedgerEntry]
    have hlater := ((evolves_of_locked he₃).all.trans (evolves_of_locked he₄).all).trans
      (evolves_of_locked he₅).all
    have hunposted₅ := (evolves_of_locked he₅).ledgerEntry_absent
      ((evolves_of_locked he₄).ledgerEntry_absent
        ((evolves_of_locked he₃).ledgerEntry_absent hunposted
          (.inl fun hn ↦ hn (.inr hlocks.1)))
        (.inl fun hn ↦ hn (.inl (.inr hlocks.1))))
      (.inl fun hn ↦ hn (.inl (.inl (.inr hlocks.1))))
    have hunused₅ := ledgerEntryPk_new he₅ (fun hn ↦ hn (.inl (.inl (.inr hlocks.2))))
      (ledgerEntryPk_new he₄ (fun hn ↦ hn (.inl (.inr hlocks.2)))
        (ledgerEntryPk_new he₃ (fun hn ↦ hn (.inr hlocks.2)) hunused))
    obtain ⟨status, ht₅, -⟩ := Evolves.transaction hlater ht
    obtain ⟨balance, haccount₅⟩ := Evolves.account hlater haccount
    have hunsent := (((Unsent.of_result db₃ hr₃ rfl).evolves (evolves_of_locked he₄)).mono
      fun _ ↦ Or.inl).evolves (evolves_of_locked he₅)
    have hunprocessed := (Unprocessed.of_result db₄ hr₄ rfl).evolves (evolves_of_locked he₅)
    have hd₅ : delivered db₅ eventId = some event :=
      delivered_evolves (((evolves_of_locked he₁).all.trans
        (evolves_of_locked he₂).all).trans hlater) hd
    refine ledger_serial (fun k ↦ if k = 2 then env₂ else if k = 3 then env₃ else env₄) hd₅ ?_
    exact Ledger.perform_post _ hunprocessed.absent htype hparsed hunposted₅ hunused₅
      (by rw [ht₅]; rfl) (by rw [haccount₅]; rfl) hunsent.absent

/-- Whatever commits in between, a delivery to the ledger worker takes effect at its commit. -/
theorem promises_ledgerEvent {eventId : String} {event : TransactionEvent}
    (hd : delivered born eventId = some event) :
    Promises (LockedCommits d) (SerialEffect d (.ledgerEvent eventId)) (fun _ _ _ ↦ True)
      (do
        Ledger.handleEvent event
        return .done : Process Reply) (fun _ ↦ False) id [born] [] born := by
  rw [Ledger.handleEvent, Tx.transaction_bind, Tx.bind_assoc]
  refine Promises.read_bind (Sql.findProcessedEvent_reads _ _) fun env₁ db₁ he₁ found _ ↦ ?_
  have hd₁ := delivered_evolves (evolves_of_locked he₁) hd
  cases found with
  | some _ => exact unchanged
  | none =>
    dsimp only
    split
    · next htype =>
      rw [Tx.bind_assoc]
      exact promises_postEntry hd₁ htype
    · next htype =>
      refine Promises.query_bind (fun env₂ db₂ he₂ _ hr₂ ↦ ?_) (fun _ _ _ _ ↦ trivial)
      refine Promises.commit_pure fun db₃ he₃ ↦ ⟨?_, trivial⟩
      have hunprocessed := (Unprocessed.of_result db₂ hr₂ rfl).evolves (evolves_of_locked he₃)
      have hd₃ := delivered_evolves (evolves_of_locked he₃)
        (delivered_evolves (evolves_of_locked he₂) hd₁)
      exact ledger_serial (fun _ ↦ env₂) hd₃
        (Ledger.perform_skip _ hunprocessed.absent htype)

/-! ### The finalization worker -/

private theorem promises_finalizeInTransaction {eventId : String} {e : OutboxEvent}
    {t : Transaction} {balance : Int} {l : LedgerEntry} {seen : List Database} (hc : Consistent db)
    (hfind : db.outboxEvents.find? eventId = some e)
    (ht : db.transactions.find? t.transactionId = some t) (he : IsLedgerUpdatedEvent t balance e)
    (hl : db.ledgerEntries.find? t.transactionId = some l)
    {payload : LedgerUpdatedPayload} (htid : payload.transactionId = t.transactionId)
    (hserial : ∀ {db' : Database}, Evolves d (fun _ ↦ True) db db' → ∀ env {a},
      (Tx.transaction (Finalization.finalizeInTransaction eventId payload)).perform env 0 id db' =
        (some (), a) → SerialEffect d (.finalizationEvent eventId) db' a) :
    Promises (LockedCommits d) (SerialEffect d (.finalizationEvent eventId)) anyway
      (Finalization.finalizeInTransaction eventId payload >>= conclude) (fun _ ↦ False) id seen []
      db := by
  rw [Finalization.finalizeInTransaction, Tx.bind_assoc]
  refine Promises.read_bind (Sql.findProcessedEvent_reads _ _) fun env₁ db₁ he₁ found _ ↦ ?_
  cases found with
  | some _ => exact unchanged
  | none =>
    dsimp only
    rw [Tx.bind_assoc]
    refine Promises.read_bind (Sql.findTransaction_reads _) fun env₂ db₂ he₂ found₂ hr₂ ↦ ?_
    have hearlier : Evolves d (fun _ ↦ True) db db₂ :=
      (evolves_of_locked he₁).all.trans (evolves_of_locked he₂).all
    have hc₂ := hc.evolves hearlier
    obtain ⟨status, ht₂, -⟩ := Evolves.transaction hearlier ht
    obtain rfl : found₂ = some { t with status } :=
      (Option.some.inj hr₂).symm.trans (htid ▸ ht₂)
    dsimp only
    split
    · next hstatus =>
      simp only [Tx.bind_assoc]
      refine Promises.query_bind (fun _ db₃ he₃ _ _ ↦ ?_) (fun _ _ _ _ ↦ trivial)
      refine Promises.query_bind (fun env₄ db₄ he₄ _ hr₄ ↦ ?_) (fun _ _ _ _ ↦ trivial)
      refine Promises.query_bind (fun env₅ db₅ he₅ _ hr₅ ↦ ?_) (fun _ _ _ _ ↦ trivial)
      refine Promises.commit_pure fun db₆ he₆ ↦ ⟨?_, trivial⟩
      have hlater : Evolves d (fun _ ↦ True) db₂ db₆ :=
        (((evolves_of_locked he₃).all.trans (evolves_of_locked he₄).all).trans
          (evolves_of_locked he₅).all).trans (evolves_of_locked he₆).all
      have hunsent := ((Unsent.of_result db₄ hr₄ rfl).evolves (evolves_of_locked he₅)).mono
        (fun _ ↦ Or.inl) |>.evolves (evolves_of_locked he₆)
      have hunprocessed := (Unprocessed.of_result db₅ hr₅ rfl).evolves (evolves_of_locked he₆)
      -- only this event finalizes the transaction, and it has not been recorded
      obtain ⟨status₆, ht₆, hs₆⟩ := Evolves.status_posted hlater ht₂ hstatus.1
        (Evolves.ledgerEntry hearlier hl)
      have hcompleted : status₆ = .COMPLETED := by
        refine hs₆.resolve_right fun hf ↦ ?_
        have hrec := (hc₂.evolves hlater).finalized_recorded (t := { t with status := status₆ })
          ht₆ hf (Evolves.outboxEvent hlater (Evolves.outboxEvent hearlier hfind))
          (he.withStatus status₆)
        rw [Database.hasProcessed, hunprocessed.absent] at hrec
        cases hrec
      refine hserial (hearlier.trans hlater) (fun k ↦ if k = 3 then env₄ else env₅) ?_
      exact Finalization.perform_finalize (t := { t with status := status₆ }) _ hunprocessed.absent
        (htid ▸ ht₆) ⟨hcompleted, hstatus.2⟩ hunsent.absent
    · next hstatus =>
      refine Promises.query_bind (fun env₃ db₃ he₃ _ hr₃ ↦ ?_) (fun _ _ _ _ ↦ trivial)
      refine Promises.commit_pure fun db₄ he₄ ↦ ⟨?_, trivial⟩
      have hlater : Evolves d (fun _ ↦ True) db₂ db₄ :=
        (evolves_of_locked he₃).all.trans (evolves_of_locked he₄).all
      have hunprocessed := (Unprocessed.of_result db₃ hr₃ rfl).evolves (evolves_of_locked he₄)
      have hother : status ≠ .COMPLETED := fun hs ↦
        hstatus ⟨hs, hc₂.authorized (t := { t with status }) ht₂ hs⟩
      refine hserial (hearlier.trans hlater) (fun _ ↦ env₃) ?_
      have ht₄ := Evolves.transaction_settled hlater ht₂ hother
      exact Finalization.perform_pass _ hunprocessed.absent (htid ▸ ht₄) hother

/-- Whatever commits in between, a delivery to the finalization worker takes effect at its
commit. -/
theorem promises_finalizationEvent {eventId : String} {event : TransactionEvent}
    (hc : Consistent born) (hd : delivered born eventId = some event) :
    Promises (LockedCommits d) (SerialEffect d (.finalizationEvent eventId)) (fun _ _ _ ↦ True)
      (do
        Finalization.handleEvent event
        return .done : Process Reply) (fun _ ↦ False) id [born] [] born := by
  obtain ⟨e, hfind, hid, htype, hpayload⟩ := hc.delivered hd
  have hserial : ∀ {db' : Database}, Evolves d (fun _ ↦ True) born db' → ∀ env {a},
      (Finalization.handleEvent event).perform env 0 id db' = (some (), a) →
        SerialEffect d (.finalizationEvent eventId) db' a := by
    intro db' he env a hperform
    refine .inr ⟨_, env, .done, congrArg (Option.map _) (delivered_evolves he hd), ?_⟩
    refine (Tx.perform_map (fun _ ↦ Reply.done) _).trans ?_
    rw [hperform]
    rfl
  rw [Finalization.handleEvent] at hserial ⊢
  split
  · exact trivial
  · next hupdated =>
    rw [if_neg hupdated] at hserial
    split
    · exact trivial
    · next parsed hparsed =>
      simp only [hparsed] at hserial
      obtain ⟨t, balance, ht, he, ⟨input, hreq⟩, l, hl⟩ :=
        hc.ledgerUpdatedEvent hfind (htype.symm.trans (not_not.mp hupdated))
      obtain ⟨-, -, hbody⟩ := eventSchema_eq_some hparsed
      have hbody : ledgerUpdatedPayloadSchema
          (some (Ledger.ledgerUpdatedEvent (movement t balance)).payload) =
            some parsed.payload := by
        rw [← he, hpayload]
        exact hbody
      have htid : parsed.payload.transactionId = t.transactionId :=
        congrArg LedgerUpdatedPayload.transactionId (ledgerUpdatedEvent_parsed hreq hbody)
      rw [hid] at hserial
      rw [Tx.transaction_bind, hid]
      exact promises_finalizeInTransaction hc hfind ht he hl htid hserial

/-! ### The timeout scan -/

private theorem promises_compensateInTransaction {candidate : String} {rest : Process Reply}
    {seen : List Database} {hist : List (Database × Database)}
    (hrest : ∀ seen hist db, Promises (LockedCommits d) (SerialEffect d .timeoutScan) anyway rest
      (fun _ ↦ False) id seen hist db) :
    Promises (LockedCommits d) (SerialEffect d .timeoutScan) anyway
      (Finalization.compensateInTransaction candidate >>= fun _ ↦ .commit rest)
      (fun _ ↦ False) id seen hist db := by
  rw [Finalization.compensateInTransaction, Tx.bind_assoc]
  refine Promises.query_bind (fun env₁ db₁ he₁ found hr₁ ↦ ?_) (fun _ _ _ _ ↦ trivial)
  cases found with
  | none => exact fun db' _ ↦ ⟨.inl rfl, hrest _ _ _⟩
  | some t =>
    obtain ⟨ht₁, hstatus⟩ := Sql.selectCompletedForUpdate_result hr₁
    obtain rfl : t.transactionId = candidate := Relational.Table.key_of_find? ht₁
    have hlock : Lock.transaction t.transactionId ∈
        (Sql.selectCompletedForUpdate t.transactionId).locks env₁ db₁ := by
      have hview : db₁.transactions.find? t.transactionId = some t := ht₁
      simp [Sql.selectCompletedForUpdate, hview, hstatus]
    dsimp only
    rw [Tx.bind_assoc]
    refine Promises.read_bind (Sql.findLedgerEntry_reads _) fun env₂ db₂ he₂ entry hr₂ ↦ ?_
    cases entry with
    | some _ => exact fun db' _ ↦ ⟨.inl rfl, hrest _ _ _⟩
    | none =>
      dsimp only
      rw [Tx.bind_assoc]
      refine Promises.query_bind (fun env₃ db₃ he₃ balance hr₃ ↦ ?_) (fun _ _ _ _ ↦ trivial)
      cases balance with
      | none => exact trivial
      | some balance =>
        dsimp only
        split
        · exact fun db' _ ↦ ⟨.inl rfl, hrest _ _ _⟩
        · next hnonneg =>
          obtain ⟨account, haccount, rfl⟩ := Option.map_eq_some_iff.mp (Option.some.inj hr₃)
          have hview : db₃.accounts.find? t.accountId = some account := haccount
          have haccountLock : Lock.account t.accountId ∈
              (Sql.selectBalanceForUpdate t.accountId).locks env₃ db₃ := by
            simp [Sql.selectBalanceForUpdate, hview]
          simp only [Tx.bind_assoc]
          refine Promises.query_bind (fun _ db₄ he₄ _ _ ↦ ?_) (fun _ _ _ _ ↦ trivial)
          refine Promises.query_bind (fun _ db₅ he₅ _ _ ↦ ?_) (fun _ _ _ _ ↦ trivial)
          refine Promises.query_bind (fun env₆ db₆ he₆ _ hr₆ ↦ ?_) (fun _ _ _ _ ↦ trivial)
          refine fun db₇ he₇ ↦ ⟨.inr ?_, hrest _ _ _⟩
          have hunsent := (Unsent.of_result db₆ hr₆ rfl).evolves (evolves_of_locked he₇)
          -- the row is locked since the first statement, the account since the third
          have haccount₇ : Evolves d (fun l ↦ ¬ _) db₃ db₇ :=
            (((evolves_of_locked he₄).trans (Evolves.fewer (evolves_of_locked he₅)
              fun _ ↦ Or.inl)).trans (Evolves.fewer (evolves_of_locked he₆)
                fun _ h ↦ .inl (.inl h))).trans (Evolves.fewer (evolves_of_locked he₇)
                  fun _ h ↦ .inl (.inl (.inl h)))
          have hentry₇ : Evolves d (fun l ↦ ¬ _) db₂ db₇ :=
            (evolves_of_locked he₃).trans (Evolves.fewer haccount₇ fun _ ↦ Or.inl)
          have hown : ¬ ¬ (False ∨ Lock.transaction t.transactionId ∈
              (Sql.selectCompletedForUpdate t.transactionId).locks env₁ db₁) :=
            fun hn ↦ hn (.inr hlock)
          have hunposted : db₂.ledgerEntries.find? t.transactionId = none := Option.some.inj hr₂
          refine ⟨t.transactionId, fun _ ↦ env₆, Finalization.perform_compensate _ 0
            (Evolves.transaction_locked ((evolves_of_locked he₂).trans hentry₇) ht₁ hown) hstatus
            (Evolves.ledgerEntry_absent hentry₇ hunposted (.inr hown))
            ((Evolves.account_locked haccount₇ fun hn ↦ hn (.inr haccountLock)).trans haccount)
            hnonneg hunsent.absent⟩

private theorem promises_compensateEach (candidates : List String) :
    ∀ seen hist db, Promises (LockedCommits d) (SerialEffect d .timeoutScan) anyway
      (Finalization.compensateEach candidates >>= fun _ ↦ .pure .done) (fun _ ↦ False) id seen hist
      db := by
  induction candidates with
  | nil => exact fun _ _ _ ↦ trivial
  | cons candidate rest ih =>
    intro seen hist db
    rw [Finalization.compensateEach, Tx.bind_assoc, Tx.transaction_bind]
    exact promises_compensateInTransaction ih

/-- Whatever commits in between, each transaction of a timeout scan takes effect at its commit. -/
theorem promises_timeoutScan :
    Promises (LockedCommits d) (SerialEffect d .timeoutScan) (fun _ _ _ ↦ True)
      (do
        Finalization.compensateTimedOutTransactions d
        return .done : Process Reply) (fun _ ↦ False) id [born] [] born := by
  simp only [Finalization.compensateTimedOutTransactions, Tx.bind_assoc]
  refine Promises.read_bind Sql.now_reads fun _ _ _ _ _ ↦ ?_
  refine Promises.read_bind (Sql.findTimedOut_reads _ _) fun _ _ _ candidates _ ↦ ?_
  exact promises_compensateEach candidates _ _ _

end Banking
