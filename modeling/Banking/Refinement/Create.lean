import Banking.Atomic.Stability

/-!
# The transaction engine refines its commits

Whatever other processes commit between the statements of `create`, it commits nothing but the
steps `Commits.complete` and `Commits.block`, at most one of them, and its answer says which.
-/

namespace Banking

open Js (Date)
open Relational (Safe Tx Outcome Table)

/-- How a `create` call that started on `born` may end, and what it has committed by then. -/
inductive CreateEnds (d : Deployment) (input : CreateTransactionInput) (request : Request)
    (born : Database) : Outcome Reply → List (Database × Database) → Prop
  /-- A statement failed after the `transactionId` was found unused. -/
  | threw {b} (later : Evolves d (fun _ ↦ True) born b)
      (fresh : b.transactions.find? input.transactionId = none) :
      CreateEnds d input request born .threw []
  | completed {b a row e} (later : Evolves d (fun _ ↦ True) born b)
      (fresh : b.transactions.find? input.transactionId = none)
      (inserted : ∃ id authorizedAt createdAt, row = newTransaction input id authorizedAt createdAt)
      (found : a.transactions.find? input.transactionId = some row)
      (sent : a.outboxEvents.find? e.id = some e)
      (event : e.eventType = "TransactionCompleted" ∧ e.transactionId = input.transactionId) :
      CreateEnds d input request born
        (.returned (.transaction (.success 201 (toTransactionResponse row none)))) [(b, a)]
  | blocked {b a row} (later : Evolves d (fun _ ↦ True) born b)
      (fresh : b.transactions.find? input.transactionId = none)
      (found : a.transactions.find? input.transactionId = some row)
      (requested : Requested input row) (status : row.status = .BLOCKED) :
      CreateEnds d input request born
        (.returned (.transaction (.failure 422 "Invalid transaction"))) [(b, a)]
  | unauthenticated (auth : request.auth = none) :
      CreateEnds d input request born
        (.returned (.transaction (.failure 401 "Authentication required"))) []
  | missing {b b'} (later : Evolves d (fun _ ↦ True) born b)
      (missing : Sql.liveAccount b input.accountId = none) :
      CreateEnds d input request born
        (.returned (.transaction (.failure 404 "Account not found"))) [(b', b')]
  | refused {b b' auth account result} (later : Evolves d (fun _ ↦ True) born b)
      (authenticated : request.auth = some auth)
      (found : Sql.liveAccount b input.accountId = some account)
      (refused : refusal input auth account = some result) :
      CreateEnds d input request born (.returned (.transaction result)) [(b', b')]
  | existing {b b' t} (later : Evolves d (fun _ ↦ True) born b)
      (found : b.transactions.find? input.transactionId = some t)
      (after : Evolves d (fun _ ↦ True) b b') :
      CreateEnds d input request born
        (.returned (.transaction (answerExisting input t))) [(b', b')]
  | underfunded {b b'} (later : Evolves d (fun _ ↦ True) born b)
      (fresh : b.transactions.find? input.transactionId = none) :
      CreateEnds d input request born
        (.returned (.transaction (.failure 422 "Insufficient balance"))) [(b', b')]

variable {d : Deployment} {input : CreateTransactionInput} {request : Request} {born : Database}
variable {own : Lock → Prop} {now : Int} {db : Database} {account : Account} {row : Transaction}

/-- The answer of the engine, committed. -/
private abbrev answer (result : TransactionResult) : Process Reply :=
  .commit (.pure (.transaction result))

/-! ### After the insert -/

private theorem safe_settle (hclear : Cleared d input request own db account row)
    (hlater : Evolves d (fun _ ↦ True) born db) :
    Safe (Commits d) (.create input request) (CreateEnds d input request born)
      (settle input request.ipAddress account row >>= answer) own
      (fun x ↦ x.addTransaction row) [] now db := by
  have hthrew : CreateEnds d input request born .threw [] := .threw hlater hclear.fresh
  simp only [settle, Tx.bind_assoc]
  refine Safe.query_bind (fun now₁ db₁ supply₁ _ he₁ _ _ ↦ ?_) (fun _ _ _ _ _ _ ↦ hthrew)
  refine Safe.query_bind (fun now₂ db₂ supply₂ _ he₂ _ hr₂ ↦ ?_) (fun _ _ _ _ _ _ ↦ hthrew)
  refine Safe.commit_pure fun db₃ he₃ ↦ ?_
  have hclear₃ := (((hclear.evolves he₁).mono fun _ ↦ Or.inl).evolves he₂).mono
    (fun _ ↦ Or.inl) |>.evolves he₃
  have hlater₃ : Evolves d (fun _ ↦ True) born db₃ :=
    ((hlater.trans (Evolves.all he₁)).trans (Evolves.all he₂)).trans (Evolves.all he₃)
  have hunsent := (Unsent.of_result db₂ hr₂ rfl).evolves he₃
  have hc := Commits.complete hclear₃ rfl hunsent
  refine ⟨.single hc, ?_⟩
  obtain ⟨id, authorizedAt, createdAt, rfl⟩ := hclear.inserted
  exact .completed hlater₃ hclear₃.fresh ⟨_, _, _, rfl⟩
    (Table.find?_insert_self (r := newTransaction input id authorizedAt createdAt) hclear₃.fresh)
    (Table.find?_insert_self hunsent.absent) ⟨rfl, rfl⟩

private theorem safe_block (hadm : Admitted d input request own db account row)
    (hlater : Evolves d (fun _ ↦ True) born db) (reason : String) :
    Safe (Commits d) (.create input request) (CreateEnds d input request born)
      (block input request.ipAddress row reason >>= answer) own
      (fun x ↦ x.addTransaction row) [] now db := by
  have hthrew : CreateEnds d input request born .threw [] := .threw hlater hadm.fresh
  simp only [block, Tx.bind_assoc]
  refine Safe.query_bind (fun now₁ db₁ supply₁ _ he₁ _ _ ↦ ?_) (fun _ _ _ _ _ _ ↦ hthrew)
  refine Safe.query_bind (fun now₂ db₂ supply₂ _ he₂ _ hr₂ ↦ ?_) (fun _ _ _ _ _ _ ↦ hthrew)
  refine Safe.commit_pure fun db₃ he₃ ↦ ?_
  have hadm₃ := (((hadm.evolves he₁).mono fun _ ↦ Or.inl).evolves he₂).mono
    (fun _ ↦ Or.inl) |>.evolves he₃
  have hlater₃ : Evolves d (fun _ ↦ True) born db₃ :=
    ((hlater.trans (Evolves.all he₁)).trans (Evolves.all he₂)).trans (Evolves.all he₃)
  have hunsent := (Unsent.of_result db₂ hr₂ rfl).evolves he₃
  have hc := Commits.block hadm₃ rfl hunsent
  obtain ⟨id, authorizedAt, createdAt, rfl⟩ := hadm.inserted
  rw [← Database.setStatus_addTransaction (t := newTransaction input id authorizedAt createdAt)
    hadm₃.fresh] at hc
  have hfound : (((db₃.addTransaction (newTransaction input id authorizedAt createdAt)).setStatus
      (newTransaction input id authorizedAt createdAt).transactionId .BLOCKED).transactions.find?
      input.transactionId) = some { newTransaction input id authorizedAt createdAt with
        status := .BLOCKED } := by
    rw [Database.setStatus_addTransaction (t := newTransaction input id authorizedAt createdAt)
      hadm₃.fresh]
    exact Table.find?_insert_self (r := { newTransaction input id authorizedAt createdAt with
      status := .BLOCKED }) hadm₃.fresh
  exact ⟨.single hc, .blocked hlater₃ hadm₃.fresh hfound ⟨rfl, rfl, rfl, rfl⟩ rfl⟩

/-! ### The fraud rules -/

private theorem safe_applyFraudRules (hacc : Accepted d input request own db account)
    (hlater : Evolves d (fun _ ↦ True) born db)
    (hthrew : CreateEnds d input request born .threw []) :
    Safe (Commits d) (.create input request) (CreateEnds d input request born)
      (applyFraudRules d input request.ipAddress account >>= answer) own id [] now db := by
  simp only [applyFraudRules, Tx.bind_assoc]
  refine Safe.read_bind Sql.now_reads fun now₁ db₁ _ _ he₁ countFrom hr₁ ↦ ?_
  refine Safe.read_bind (Sql.countTransactions_reads _ _) fun now₂ db₂ _ ht₂ he₂ count hr₂ ↦ ?_
  refine Safe.read_bind Sql.now_reads fun now₃ db₃ _ ht₃ he₃ amtFrom hr₃ ↦ ?_
  refine Safe.read_bind (Sql.sumDebits_reads _ _) fun now₄ db₄ _ ht₄ he₄ amt hr₄ ↦ ?_
  refine Safe.read_bind Sql.now_reads fun now₅ db₅ _ ht₅ he₅ authorizedAt hr₅ ↦ ?_
  refine Safe.query_bind (fun now₆ db₆ supply₆ ht₆ he₆ resultTxn hr₆ ↦ ?_)
    (fun _ _ _ _ _ _ ↦ hthrew)
  obtain ⟨hfresh, rfl⟩ := Sql.createTransaction_result hr₆
  cases hr₁
  cases hr₃
  have hown : ¬ ¬ own (.advisory (d.hashtextextended account.userId)) :=
    fun hn ↦ hn hacc.ownAdvisory
  have he : Evolves d (fun l ↦ ¬ own l) db db₆ :=
    ((((he₁.trans he₂).trans he₃).trans he₄).trans he₅).trans he₆
  have hadm : Admitted d input request (fun l ↦ own l ∨ l ∈ (Sql.createTransaction
      input.transactionId input.accountId input.type input.amountMinor .COMPLETED
        authorizedAt).locks ⟨now₆, supply₆⟩ db₆) db₆ account
      (newTransaction input supply₆.id authorizedAt now₆) :=
    ⟨(hacc.evolves he).mono fun _ ↦ Or.inl, hfresh, ⟨_, _, _, rfl⟩,
      .inr (by simp [Sql.createTransaction])⟩
  have hlater₆ : Evolves d (fun _ ↦ True) born db₆ := hlater.trans (Evolves.all he)
  split
  · exact safe_block hadm hlater₆ _
  · next hlimits =>
    simp only [Bool.or_eq_true, decide_eq_true_eq, not_or, Nat.not_lt, Int.not_lt] at hlimits
    -- both aggregates were computed under the advisory lock, which is still held
    have hcount : (db₆.recent account.userId (now₁ - 60000)).length = count := by
      rw [Evolves.count_locked (((he₃.trans he₄).trans he₅).trans he₆) hown]
      exact Option.some.inj hr₂
    have hamt : Sql.debitSum db₆ account.userId (now₃ - 60000) = amt.getD 0 := by
      rw [Evolves.debitSum_locked (he₅.trans he₆) hown]
      exact (Sql.sumDebits_result hr₄).symm
    have hcountFrom : now₁ - 60000 + 60000 ≤ now₆ := by omega
    have hamtFrom : now₃ - 60000 + 60000 ≤ now₆ := by omega
    exact safe_settle ⟨hadm, ⟨now₁ - 60000, hcountFrom, hcount ▸ hlimits.1⟩,
      ⟨now₃ - 60000, hamtFrom, hamt ▸ hlimits.2⟩⟩ hlater₆

/-! ### The whole call -/

private theorem safe_createInTransaction {auth : Auth} (hauth : request.auth = some auth) :
    Safe (Commits d) (.create input request) (CreateEnds d input request born)
      (createInTransaction d input request.ipAddress auth >>= answer) (fun _ ↦ False) id [] now
      born := by
  simp only [createInTransaction, Tx.bind_assoc]
  refine Safe.query_bind (fun now₁ db₁ supply₁ _ he₁ found hr₁ ↦ ?_)
    (fun _ _ _ _ _ hr ↦ nomatch hr)
  have hlater₁ := Evolves.all he₁
  cases found with
  | none =>
    exact Safe.commit_unchanged fun db₂ he₂ ↦ .missing hlater₁ (Option.some.inj hr₁)
  | some account =>
    have hlive : Sql.liveAccount db₁ input.accountId = some account := Option.some.inj hr₁
    dsimp only
    split
    · next result hrefused =>
      exact Safe.commit_unchanged fun db₂ he₂ ↦ .refused hlater₁ hauth hlive hrefused
    · next hallowed =>
      simp only [Tx.bind_assoc]
      refine Safe.query_bind (fun now₂ db₂ supply₂ _ he₂ _ _ ↦ ?_)
        (fun _ _ _ _ _ hr ↦ nomatch hr)
      refine Safe.read_bind (Sql.findTransaction_reads _) fun now₃ db₃ _ _ he₃ existing hr₃ ↦ ?_
      have hlater₃ : Evolves d (fun _ ↦ True) born db₃ :=
        (hlater₁.trans (Evolves.all he₂)).trans (Evolves.all he₃)
      cases existing with
      | some existingTxn =>
        exact Safe.commit_unchanged fun db₄ he₄ ↦
          .existing hlater₃ (Option.some.inj hr₃) (Evolves.all he₄)
      | none =>
        dsimp only
        split
        · exact Safe.commit_unchanged fun db₄ _ ↦ .underfunded hlater₃ (Option.some.inj hr₃)
        · next hfunded =>
          obtain ⟨hrow, hnotDeleted⟩ := Sql.liveAccount_eq_some.mp hlive
          have hown : Lock.account input.accountId ∈
              (Sql.selectAccountForUpdate input.accountId).locks ⟨now₁, supply₁⟩ db₁ := by
            simp [Sql.selectAccountForUpdate, hlive]
          have hacc : Accepted d input request (fun l ↦ ((False ∨ l ∈
              (Sql.selectAccountForUpdate input.accountId).locks ⟨now₁, supply₁⟩ db₁) ∨ l ∈
              (Sql.advisoryXactLock (d.hashtextextended account.userId)).locks ⟨now₂, supply₂⟩ db₂))
              db₂ account :=
            { found := (Evolves.account_locked he₂ fun hn ↦ hn (.inr hown)).trans hrow
              live := hnotDeleted
              allowed := ⟨auth, hauth, hallowed⟩
              funded := fun htype ↦ by simpa [htype] using hfunded
              ownAccount := .inl (.inr hown)
              ownAdvisory := .inr (by simp [Sql.advisoryXactLock]) }
          exact safe_applyFraudRules (hacc.evolves he₃) hlater₃
            (.threw hlater₃ (Option.some.inj hr₃))

/-- Whatever commits in between, a `create` call commits at most one allowed step and ends as
its answer says. -/
theorem safe_create :
    Safe (Commits d) (.create input request) (CreateEnds d input request born)
      (do
        let result ← create d input request
        return .transaction result : Process Reply) (fun _ ↦ False) id [] now born := by
  unfold create
  split
  · next hauth => exact .unauthenticated hauth
  · next auth hauth =>
    rw [Tx.transaction_bind]
    exact safe_createInTransaction hauth

end Banking
