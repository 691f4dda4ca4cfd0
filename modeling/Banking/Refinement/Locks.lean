import Banking.Relational.Deadlock
import Banking.Refinement.System

/-!
# The order of the locks

The calls take their locks in one order: the row of a transaction, the account, the advisory lock
of its user, then the entries of unique indexes, those of a transaction first. One statement leaves
the order: a blocked request updates the row that it has inserted. Nobody else can have the lock
of that row, as nobody else sees it.
-/

namespace Banking

open Relational (Asks Ordered Tx Unshared)

/-- The place of a lock in the order. -/
def Lock.rank : Lock → Nat
  | .transaction _ => 0
  | .account _ => 1
  | .advisory _ => 2
  | .transactionId _ => 3
  | .transactionPk _ => 4
  | .ledgerEntry _ => 5
  | .ledgerEntryPk _ => 6
  | .outboxEventPk _ => 7
  | .processedEvent _ _ => 8

/-- Who has the lock of a transaction's row sees the row: it is committed, or inserted by the
process itself. -/
def Held (db : Database) (own : Lock → Prop) : Lock → Prop
  | .transaction id => (db.transactions.find? id).isSome ∨ own (.transactionId id)
  | _ => True

/-- Owning more locks shows no less. -/
theorem held_mono (db : Database) (own own' : Lock → Prop) (l : Lock) (ho : ∀ o, own o → own' o)
    (h : Held db own l) : Held db own' l := by
  cases l with
  | transaction id => exact h.imp_right (ho _)
  | _ => trivial

variable {d : Deployment} {own : Lock → Prop} {pending : Database → Database} {now : Int}
variable {db : Database}

/-- Committed rows stay. -/
theorem held_stable (db db' : Database) (own : Lock → Prop) (l : Lock)
    (he : Evolves d (fun l ↦ ¬ own l) db db') (h : Held db own l) : Held db' own l := by
  cases l with
  | transaction id =>
    refine h.imp_left fun hsome ↦ ?_
    obtain ⟨t, ht⟩ := Option.isSome_iff_exists.mp hsome
    obtain ⟨status, ht', -⟩ := Evolves.transaction he ht
    simp [ht']
  | _ => trivial

/-- The row of an insert that is not committed is out of reach of the others. -/
theorem unshared_inserted {id : String} (habsent : db.transactions.find? id = none)
    (hown : own (.transactionId id)) : Unshared Held own db (.transaction id) := by
  rintro own' hdisjoint - (hsome | hown')
  · simp [habsent] at hsome
  · exact hdisjoint _ hown' hown

/-! ### The statements -/

namespace Sql

/-- The lock of an account. -/
theorem selectAccountForUpdate_rises (id : String) :
    (selectAccountForUpdate id).Rises Lock.rank 1 2 := by
  intro env db
  simp only [selectAccountForUpdate]
  split <;> simp [Lock.rank]

/-- The lock of an account. -/
theorem selectBalanceForUpdate_rises (id : String) :
    (selectBalanceForUpdate id).Rises Lock.rank 1 2 := by
  intro env db
  simp only [selectBalanceForUpdate]
  split <;> simp [Lock.rank]

/-- The advisory lock. -/
theorem advisoryXactLock_rises (key : Int) : (advisoryXactLock key).Rises Lock.rank 2 3 := by
  intro env db
  simp [advisoryXactLock, Lock.rank]

/-- The unique entries of a transaction. -/
theorem createTransaction_rises (transactionId accountId : String) (type : TransactionType)
    (amount : Int) (status : TransactionStatus) (authorizedAt : Js.Date) :
    (createTransaction transactionId accountId type amount status authorizedAt).Rises
      Lock.rank 3 5 := by
  intro env db
  simp [createTransaction, Lock.rank]

/-- The lock of a transaction's row. -/
theorem updateTransactionStatus_rises (transactionId : String) (status : TransactionStatus) :
    (updateTransactionStatus transactionId status).Rises Lock.rank 0 1 := by
  intro env db
  simp [updateTransactionStatus, Lock.rank]

/-- The unique entry of an outbox row. -/
theorem createOutboxEvent_rises (data : OutboxEventData) :
    (createOutboxEvent data).Rises Lock.rank 7 8 := by
  intro env db
  simp [createOutboxEvent, Lock.rank]

/-- The unique entry of a processed event. -/
theorem createProcessedEvent_rises (consumerName eventId : String) :
    (createProcessedEvent consumerName eventId).Rises Lock.rank 8 9 := by
  intro env db
  simp [createProcessedEvent, Lock.rank]

/-- The lock of a transaction's row. -/
theorem selectTransactionForUpdate_rises (transactionId : String) :
    (selectTransactionForUpdate transactionId).Rises Lock.rank 0 1 := by
  intro env db
  simp only [selectTransactionForUpdate]
  split <;> simp [Lock.rank]

/-- The lock of a transaction's row. -/
theorem selectCompletedForUpdate_rises (transactionId : String) :
    (selectCompletedForUpdate transactionId).Rises Lock.rank 0 1 := by
  intro env db
  simp only [selectCompletedForUpdate]
  split <;> simp [Lock.rank]

/-- The unique entries of a ledger entry. -/
theorem createLedgerEntry_rises (transactionId accountId : String) (type : TransactionType)
    (amount balanceAfter : Int) :
    (createLedgerEntry transactionId accountId type amount balanceAfter).Rises Lock.rank 5 7 := by
  intro env db
  simp [createLedgerEntry, Lock.rank]

end Sql

/-! ### The calls -/

/-- The process takes its locks in order. -/
private abbrev InOrder (d : Deployment) : Process Reply → (Lock → Prop) → (Database → Database) →
    Int → Database → Prop :=
  Ordered (Commits d) Lock.rank Held

/-- A statement that takes locks above the rows of transactions needs to see no row. -/
private theorem above_bind {β : Type} {s : Query β} {lo hi : Nat} (hs : s.Rises Lock.rank lo hi)
    {f : β → Process Reply} (hown : ∀ o, own o → o.rank < lo) (hlo : 0 < lo) (hle : lo ≤ hi)
    (h : ∀ now' db' supply, Evolves d (fun l ↦ ¬ own l) db db' →
      (∀ o, own o ∨ o ∈ s.locks ⟨now', supply⟩ (pending db') → o.rank < hi) →
      ∀ b, s.result ⟨now', supply⟩ (pending db') = some b →
        InOrder d (f b) (fun l ↦ own l ∨ l ∈ s.locks ⟨now', supply⟩ (pending db'))
          (fun x ↦ s.write ⟨now', supply⟩ (pending db') (pending x)) now' db') :
    InOrder d (Tx.query s >>= f) own pending now db := by
  refine Ordered.rises_bind hs hown hle (fun now' db' supply _ l hl ↦ ?_) h
  have hpos : 0 < l.rank := Nat.lt_of_lt_of_le hlo ((hs _ _).2 l hl).1
  cases l with
  | transaction id => exact absurd hpos (Nat.lt_irrefl 0)
  | _ => trivial

/-- The end of a transaction. -/
private theorem commit_pure {reply : Reply} :
    InOrder d (.commit (.pure reply)) own pending now db :=
  fun _ _ _ _ ↦ trivial

/-- An event as the last statement of a transaction. -/
private theorem inOrder_event {data : OutboxEventData} {rest : Process Reply} {hi : Nat}
    (hown : ∀ o, own o → o.rank < hi) (hhi : hi ≤ 7)
    (hrest : ∀ now db, InOrder d rest (fun _ ↦ False) id now db) :
    InOrder d (Tx.query (Sql.createOutboxEvent data) >>= fun _ ↦ .commit rest) own pending now
      db := by
  refine above_bind (Sql.createOutboxEvent_rises data)
    (fun o ho ↦ Nat.lt_of_lt_of_le (hown o ho) hhi) (by decide) (by decide) fun _ _ _ _ _ _ _ ↦ ?_
  exact fun _ _ _ _ ↦ hrest _ _

section Create

variable {input : CreateTransactionInput} {request : Request} {account : Account}
variable {row : Transaction}

/-- The answer of the engine, committed. -/
private abbrev commitAnswer (result : TransactionResult) : Process Reply :=
  .commit (.pure (.transaction result))

private theorem inOrder_settle (hown : ∀ o, own o → o.rank < 5)
    (haccount : own (.account input.accountId)) :
    InOrder d (settle input request.ipAddress account row >>= commitAnswer) own pending now db := by
  simp only [settle, Tx.bind_assoc]
  -- the account is locked since the first statement
  refine Ordered.unshared_bind (fun _ _ ↦ rfl) hown (by simp [Lock.rank])
    (fun db' _ ↦ ⟨Unshared.of_own haccount, trivial⟩) fun _ _ _ _ hown₁ _ _ ↦ ?_
  exact inOrder_event hown₁ (by decide) fun _ _ ↦ trivial

private theorem inOrder_block (hown : ∀ o, own o → o.rank < 5)
    (habsent : db.transactions.find? input.transactionId = none)
    (hinserted : own (.transactionId input.transactionId)) (reason : String) :
    InOrder d (block input request.ipAddress row reason >>= commitAnswer) own pending now db := by
  simp only [block, Tx.bind_assoc]
  refine Ordered.unshared_bind (fun _ _ ↦ rfl) hown (by simp [Lock.rank]) (fun db' he ↦ ?_)
    fun _ _ _ _ hown₁ _ _ ↦ ?_
  · have habsent' := Evolves.transaction_absent he habsent fun hn ↦ hn hinserted
    exact ⟨unshared_inserted habsent' hinserted, .inr hinserted⟩
  · exact inOrder_event hown₁ (by decide) fun _ _ ↦ trivial

private theorem inOrder_applyFraudRules (hown : ∀ o, own o → o.rank < 3)
    (haccount : own (.account input.accountId)) :
    InOrder d (applyFraudRules d input request.ipAddress account >>= commitAnswer) own id now
      db := by
  simp only [applyFraudRules, Tx.bind_assoc]
  refine Ordered.read_bind Sql.now_reads fun _ _ _ _ _ _ ↦ ?_
  refine Ordered.read_bind (Sql.countTransactions_reads _ _) fun _ _ _ _ _ _ ↦ ?_
  refine Ordered.read_bind Sql.now_reads fun _ _ _ _ _ _ ↦ ?_
  refine Ordered.read_bind (Sql.sumDebits_reads _ _) fun _ _ _ _ _ _ ↦ ?_
  refine Ordered.read_bind Sql.now_reads fun _ _ _ _ _ _ ↦ ?_
  refine above_bind (Sql.createTransaction_rises _ _ _ _ _ _) hown (by decide) (by decide)
    fun _ _ _ _ hown₁ resultTxn hr ↦ ?_
  obtain ⟨habsent, -⟩ := Sql.createTransaction_result hr
  split
  · exact inOrder_block hown₁ habsent (.inr (by simp [Sql.createTransaction])) _
  · exact inOrder_settle hown₁ (.inl haccount)

/-- A request takes its locks in order. -/
theorem ordered_create :
    Ordered (Commits d) Lock.rank Held
      (do
        let result ← create d input request
        return .transaction result : Process Reply) (fun _ ↦ False) id now db := by
  unfold create
  split
  · exact trivial
  · next auth hauth =>
    rw [Tx.transaction_bind]
    simp only [createInTransaction, Tx.bind_assoc]
    refine above_bind (Sql.selectAccountForUpdate_rises _) (by simp) (by decide) (by decide)
      fun now₁ db₁ supply₁ _ hown₁ found hr₁ ↦ ?_
    cases found with
    | none => exact commit_pure
    | some account =>
      dsimp only
      split
      · exact commit_pure
      · have hlive : Sql.liveAccount db₁ input.accountId = some account := Option.some.inj hr₁
        simp only [Tx.bind_assoc]
        refine above_bind (Sql.advisoryXactLock_rises _) hown₁ (by decide) (by decide)
          fun _ _ _ _ hown₂ _ _ ↦ ?_
        refine Ordered.read_bind (Sql.findTransaction_reads _) fun _ _ _ _ existing _ ↦ ?_
        cases existing with
        | some existingTxn => exact commit_pure
        | none =>
          dsimp only
          split
          · exact commit_pure
          · refine inOrder_applyFraudRules hown₂ (.inl (.inr ?_))
            simp [Sql.selectAccountForUpdate, hlive]

end Create

section Workers

/-- The end of a worker's transaction. -/
private abbrev closeWorker : Unit → Process Reply := fun _ ↦ .commit (.pure .done)

private theorem inOrder_record (consumerName eventId : String) (hown : ∀ o, own o → o.rank < 8) :
    InOrder d (Tx.query (Sql.createProcessedEvent consumerName eventId) >>= closeWorker) own
      pending now db :=
  above_bind (Sql.createProcessedEvent_rises _ _) hown (by decide) (by decide)
    fun _ _ _ _ _ _ _ ↦ commit_pure

/-- A delivery to the ledger worker takes its locks in order. -/
theorem ordered_ledgerEvent {event : TransactionEvent} :
    Ordered (Commits d) Lock.rank Held
      (do
        Ledger.handleEvent event
        return .done : Process Reply) (fun _ ↦ False) id now db := by
  rw [Ledger.handleEvent, Tx.transaction_bind, Tx.bind_assoc]
  refine Ordered.read_bind (Sql.findProcessedEvent_reads _ _) fun _ _ _ _ found _ ↦ ?_
  cases found with
  | some _ => exact commit_pure
  | none =>
    dsimp only
    split
    · rw [Tx.bind_assoc, Ledger.postEntry]
      split
      · exact trivial
      · simp only [Tx.bind_assoc]
        refine Ordered.rises_bind (Sql.selectTransactionForUpdate_rises _) (by simp) (by decide)
          (fun _ _ _ _ l hl ↦ ?_) fun _ _ _ _ hown₁ _ _ ↦ ?_
        · simp only [Sql.selectTransactionForUpdate] at hl
          split at hl
          · next hsome => exact List.mem_singleton.mp hl ▸ .inl hsome
          · cases hl
        · refine above_bind (Sql.createLedgerEntry_rises _ _ _ _ _)
            (fun o ho ↦ Nat.lt_of_lt_of_le (hown₁ o ho) (by decide)) (by decide) (by decide)
            fun _ _ _ _ hown₂ _ _ ↦ ?_
          refine above_bind (Sql.createOutboxEvent_rises _) hown₂ (by decide) (by decide)
            fun _ _ _ _ hown₃ _ _ ↦ ?_
          exact inOrder_record _ _ hown₃
    · exact inOrder_record _ _ (by simp)

/-- A delivery to the finalization worker takes its locks in order. -/
theorem ordered_finalizationEvent {event : TransactionEvent} :
    Ordered (Commits d) Lock.rank Held
      (do
        Finalization.handleEvent event
        return .done : Process Reply) (fun _ ↦ False) id now db := by
  rw [Finalization.handleEvent]
  split
  · exact trivial
  · split
    · exact trivial
    · rw [Tx.transaction_bind, Finalization.finalizeInTransaction, Tx.bind_assoc]
      refine Ordered.read_bind (Sql.findProcessedEvent_reads _ _) fun _ _ _ _ found _ ↦ ?_
      cases found with
      | some _ => exact commit_pure
      | none =>
        dsimp only
        rw [Tx.bind_assoc]
        refine Ordered.read_bind (Sql.findTransaction_reads _) fun _ db₂ _ _ found₂ hr₂ ↦ ?_
        cases found₂ with
        | none => exact trivial
        | some t =>
          dsimp only
          split
          · simp only [Tx.bind_assoc]
            refine Ordered.rises_bind (Sql.updateTransactionStatus_rises _ _) (by simp)
              (by decide) (fun _ _ _ he l hl ↦ ?_) fun _ _ _ _ hown₁ _ _ ↦ ?_
            · -- the row has been read, and rows stay
              obtain ⟨status, ht, -⟩ := Evolves.transaction he (Option.some.inj hr₂)
              exact List.mem_singleton.mp hl ▸ .inl (by simp [ht])
            · refine above_bind (Sql.createOutboxEvent_rises _)
                (fun o ho ↦ Nat.lt_of_lt_of_le (hown₁ o ho) (by decide)) (by decide) (by decide)
                fun _ _ _ _ hown₂ _ _ ↦ ?_
              exact inOrder_record _ _ hown₂
          · exact inOrder_record _ _ (by simp)

private theorem inOrder_compensateInTransaction {candidate : String} {rest : Process Reply}
    (hrest : ∀ now db, InOrder d rest (fun _ ↦ False) id now db) :
    InOrder d (Finalization.compensateInTransaction candidate >>= fun _ ↦ .commit rest)
      (fun _ ↦ False) id now db := by
  have hend : ∀ own pending now db, InOrder d (.commit rest) own pending now db :=
    fun _ _ _ _ _ _ _ _ ↦ hrest _ _
  rw [Finalization.compensateInTransaction, Tx.bind_assoc]
  refine Ordered.rises_bind (Sql.selectCompletedForUpdate_rises _) (by simp) (by decide)
    (fun _ _ _ _ l hl ↦ ?_) fun _ db₁ _ _ hown₁ found hr₁ ↦ ?_
  · simp only [Sql.selectCompletedForUpdate] at hl
    split at hl
    · next hsome =>
      obtain ⟨t, ht⟩ := Option.isSome_iff_exists.mp hsome
      obtain ⟨ht, -⟩ := Option.filter_eq_some_iff.mp ht
      exact List.mem_singleton.mp hl ▸ .inl (Option.isSome_iff_exists.mpr ⟨t, ht⟩)
    · cases hl
  · cases found with
    | none => exact hend _ _ _ _
    | some t =>
      obtain ⟨ht₁, hstatus⟩ := Sql.selectCompletedForUpdate_result hr₁
      obtain rfl : t.transactionId = candidate := Relational.Table.key_of_find? ht₁
      have hview : db₁.transactions.find? t.transactionId = some t := ht₁
      dsimp only
      rw [Tx.bind_assoc]
      refine Ordered.read_bind (Sql.findLedgerEntry_reads _) fun _ db₂ _ he₂ entry _ ↦ ?_
      cases entry with
      | some _ => exact hend _ _ _ _
      | none =>
        dsimp only
        rw [Tx.bind_assoc]
        refine above_bind (Sql.selectBalanceForUpdate_rises _) hown₁ (by decide) (by decide)
          fun now₃ db₃ supply₃ he₃ hown₃ balance hr₃ ↦ ?_
        cases balance with
        | none => exact trivial
        | some balance =>
          dsimp only
          split
          · exact hend _ _ _ _
          · obtain ⟨account, haccount, -⟩ := Option.map_eq_some_iff.mp (Option.some.inj hr₃)
            have hview₃ : db₃.accounts.find? t.accountId = some account := haccount
            have haccountLock : Lock.account t.accountId ∈
                (Sql.selectBalanceForUpdate t.accountId).locks ⟨now₃, supply₃⟩ db₃ := by
              simp [Sql.selectBalanceForUpdate, hview₃]
            simp only [Tx.bind_assoc]
            -- both rows are locked already
            refine Ordered.unshared_bind (fun _ _ ↦ rfl) hown₃ (by simp [Lock.rank])
              (fun _ _ ↦ ⟨?_, ?_⟩) fun _ db₄ _ he₄ hown₄ _ _ ↦ ?_
            · exact Unshared.of_own (.inr haccountLock)
            · exact trivial
            · refine Ordered.unshared_bind (fun _ _ ↦ rfl) hown₄ (by simp [Lock.rank])
                (fun db₅ he₅ ↦ ⟨?_, ?_⟩) fun _ _ _ _ hown₅ _ _ ↦ ?_
              · exact Unshared.of_own
                  (.inl (.inl (.inr (by simp [Sql.selectCompletedForUpdate, hview, hstatus]))))
              · have hlater : Evolves d (fun _ ↦ True) db₁ db₅ :=
                  (((Evolves.all he₂).trans (Evolves.all he₃)).trans (Evolves.all he₄)).trans
                    (Evolves.all he₅)
                obtain ⟨status, ht₅, -⟩ := Evolves.transaction hlater hview
                exact .inl (Option.isSome_iff_exists.mpr ⟨_, ht₅⟩)
              · exact inOrder_event hown₅ (by decide) hrest

/-- A timeout scan takes the locks of each of its transactions in order. -/
theorem ordered_timeoutScan :
    Ordered (Commits d) Lock.rank Held
      (do
        Finalization.compensateTimedOutTransactions d
        return .done : Process Reply) (fun _ ↦ False) id now db := by
  have heach : ∀ candidates now db, InOrder d
      (Finalization.compensateEach candidates >>= fun _ ↦ .pure .done) (fun _ ↦ False) id now
      db := by
    intro candidates
    induction candidates with
    | nil => exact fun _ _ ↦ trivial
    | cons candidate rest ih =>
      intro now db
      rw [Finalization.compensateEach, Tx.bind_assoc, Tx.transaction_bind]
      exact inOrder_compensateInTransaction ih
  simp only [Finalization.compensateTimedOutTransactions, Tx.bind_assoc]
  refine Ordered.read_bind Sql.now_reads fun _ _ _ _ _ _ ↦ ?_
  refine Ordered.read_bind (Sql.findTimedOut_reads _ _) fun _ _ _ _ candidates _ ↦ ?_
  exact heach candidates _ _

end Workers

/-- Every call takes its locks in order. -/
theorem ordered_begins (call : Call) (db : Database) (program : Process Reply) (now : Int)
    (hb : begins d call db = some program) :
    Ordered (Commits d) Lock.rank Held program (fun _ ↦ False) id now db := by
  cases call with
  | create input request =>
    cases hb
    exact ordered_create
  | ledgerEvent eventId =>
    obtain ⟨event, -, rfl⟩ := Option.map_eq_some_iff.mp hb
    exact ordered_ledgerEvent
  | finalizationEvent eventId =>
    obtain ⟨event, -, rfl⟩ := Option.map_eq_some_iff.mp hb
    exact ordered_finalizationEvent
  | timeoutScan =>
    cases hb
    exact ordered_timeoutScan

/-- In every reachable state the processes take their locks in order. -/
theorem orderly {accounts : Relational.Table Account.id} {now : Js.Date} {s : SystemState}
    (h : Runs d (initial accounts now) s) : Relational.Orderly (Commits d) Lock.rank Held s :=
  (Relational.Orderly.initial now).runs (commits_mono d) held_mono held_stable
    (safe_begins (.opening accounts))
    (fun call db program now _ ↦ ordered_begins call db program now)
    (Relational.Sound.initial now) h

end Banking
