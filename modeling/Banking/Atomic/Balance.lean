import Banking.Atomic.Commits

/-!
# Balances

The balance of an account is its opening balance plus what its live transactions do to it.
Every commit that writes a balance changes the live transactions of that account by the same
amount, and no other commit changes what is live. From non-negative opening balances no balance
becomes negative.
-/

namespace Banking

open Relational (Table)

/-- What a transaction does to the balance of its account. -/
def Transaction.signedAmount (t : Transaction) : Int :=
  match t.type with
  | .DEBIT => -t.amount
  | .CREDIT => t.amount

/-- A request writes the balance changed by what its transaction does. -/
theorem newBalance_eq (t : Transaction) (balance : Int) :
    newBalance t.type balance t.amount = balance + t.signedAmount := by
  unfold newBalance Transaction.signedAmount
  cases t.type <;> rfl

/-- A reversal writes the balance without what its transaction did. -/
theorem restoredBalance_eq (t : Transaction) (balance : Int) :
    Finalization.restoredBalance t.type balance t.amount = balance - t.signedAmount := by
  unfold Finalization.restoredBalance Transaction.signedAmount
  cases t.type with
  | DEBIT =>
    simp only
    omega
  | CREDIT => rfl

/-- Completed and finalized transactions count towards the balance. -/
def Transaction.isLive (t : Transaction) : Bool :=
  t.status = .COMPLETED || t.status = .FINALIZED

/-- The amounts of the live transactions of one type of an account. -/
def Database.liveSum (db : Database) (accountId : String) (type : TransactionType) : Int :=
  ((db.transactions.rows.filter
    (fun t ↦ decide (t.accountId = accountId) && decide (t.type = type) && t.isLive)).map
      Transaction.amount).sum

/-- What a row contributes to the balance of an account. -/
def effect (accountId : String) (t : Transaction) : Int :=
  if t.accountId = accountId ∧ t.isLive = true then t.signedAmount else 0

/-- What the live transactions of an account add up to. -/
def Database.netEffect (db : Database) (accountId : String) : Int :=
  (db.transactions.rows.map (effect accountId)).sum

private theorem sum_effect (accountId : String) (rows : List Transaction) :
    (rows.map (effect accountId)).sum =
      ((rows.filter (fun t ↦ decide (t.accountId = accountId) && decide (t.type = .CREDIT) &&
        t.isLive)).map Transaction.amount).sum -
      ((rows.filter (fun t ↦ decide (t.accountId = accountId) && decide (t.type = .DEBIT) &&
        t.isLive)).map Transaction.amount).sum := by
  induction rows with
  | nil => rfl
  | cons t rows ih =>
    rw [List.map_cons, List.sum_cons, ih]
    by_cases hcount : t.accountId = accountId ∧ t.isLive = true
    · cases htype : t.type <;> simp [effect, Transaction.signedAmount, hcount, htype] <;> omega
    · have hskip : ∀ type, ¬ (decide (t.accountId = accountId) && decide (t.type = type) &&
          t.isLive) = true := by
        intro type h
        simp only [Bool.and_eq_true, decide_eq_true_eq] at h
        exact hcount ⟨h.1.1, h.2⟩
      simp only [List.filter_cons]
      rw [if_neg (hskip _), if_neg (hskip _), effect, if_neg hcount, Int.zero_add]

/-- The net effect is the credits less the debits. -/
theorem Database.netEffect_eq (db : Database) (accountId : String) :
    db.netEffect accountId = db.liveSum accountId .CREDIT - db.liveSum accountId .DEBIT :=
  sum_effect accountId db.transactions.rows

/-! ### What the writes do to the net effect -/

section Writes

variable {db : Database}

private theorem netEffect_addTransaction {t : Transaction}
    (ht : db.transactions.find? t.transactionId = none) (id : String) :
    (db.addTransaction t).netEffect id = db.netEffect id + effect id t :=
  Table.sum_insert ht (effect id)

private theorem netEffect_setStatus {t : Transaction}
    (ht : db.transactions.find? t.transactionId = some t) (status : TransactionStatus)
    (id : String) :
    (db.setStatus t.transactionId status).netEffect id =
      db.netEffect id - effect id t + effect id { t with status } :=
  Table.sum_modify ht (fun t ↦ { t with status }) (fun _ ↦ rfl) (effect id)

private theorem effect_of_live {t : Transaction} (h : t.isLive = true) (id : String) :
    effect id t = if t.accountId = id then t.signedAmount else 0 := by
  simp [effect, h]

private theorem effect_of_not_live {t : Transaction} (h : t.isLive = false) (id : String) :
    effect id t = 0 := by
  simp [effect, h]

end Writes

/-! ### The invariant -/

/-- Every account holds its opening balance and what its live transactions add up to. -/
def Balanced (accounts : Table Account.id) (db : Database) : Prop :=
  ∀ id a, db.accounts.find? id = some a →
    ∃ a₀, accounts.find? id = some a₀ ∧ a.balance = a₀.balance + db.netEffect id

/-- No account is overdrawn. -/
def Solvent (db : Database) : Prop := ∀ id a, db.accounts.find? id = some a → 0 ≤ a.balance

variable {d : Deployment} {call : Call} {own : Lock → Prop} {db db' : Database}
variable {accounts : Table Account.id}

/-- Before any transaction every account holds its opening balance. -/
theorem Balanced.opening (accounts : Table Account.id) :
    Balanced accounts (Database.opening accounts) :=
  fun id a ha ↦ ⟨a, ha, by simp [Database.netEffect, Database.opening]⟩

/-- A write of one balance goes with the same change of the live transactions. -/
private theorem Balanced.move (h : Balanced accounts db) {id₀ : String} {account : Account}
    {delta : Int} (hfound : db.accounts.find? id₀ = some account)
    (haccounts : db'.accounts = (db.setBalance id₀ (account.balance + delta)).accounts)
    (hnet : ∀ id, db'.netEffect id = db.netEffect id + if id₀ = id then delta else 0) :
    Balanced accounts db' := by
  intro id a ha
  rw [haccounts, Database.accounts_setBalance, Table.find?_modify] at ha
  rw [hnet]
  split at ha
  · next hid =>
    subst hid
    rw [hfound] at ha
    cases ha
    obtain ⟨a₀, ha₀, hbalance⟩ := h id account hfound
    refine ⟨a₀, ha₀, ?_⟩
    simp only [if_true, hbalance]
    omega
  · next hid =>
    obtain ⟨a₀, ha₀, hbalance⟩ := h id a ha
    exact ⟨a₀, ha₀, by rw [hbalance, if_neg (Ne.symm hid), Int.add_zero]⟩

private theorem Balanced.keep (h : Balanced accounts db) (haccounts : db'.accounts = db.accounts)
    (hnet : ∀ id, db'.netEffect id = db.netEffect id) : Balanced accounts db' := by
  intro id a ha
  rw [haccounts] at ha
  rw [hnet]
  exact h id a ha

/-- Every commit keeps the balances right. -/
theorem Balanced.step (h : Balanced accounts db) (hc : Commits d call own db db') :
    Balanced accounts db' := by
  cases hc with
  | @complete input request _ _ account row event hclear hevent hunsent =>
    obtain ⟨id, authorizedAt, createdAt, rfl⟩ := hclear.inserted
    have hbalance := newBalance_eq (newTransaction input id authorizedAt createdAt) account.balance
    refine h.move hclear.found (by rw [← hbalance]; rfl) fun id' ↦ ?_
    have hnet := netEffect_addTransaction (t := newTransaction input id authorizedAt createdAt)
      hclear.fresh id'
    rw [effect_of_live rfl] at hnet
    exact hnet
  | @block input request _ _ account row event reason hadm hevent hunsent =>
    obtain ⟨id, authorizedAt, createdAt, rfl⟩ := hadm.inserted
    refine h.keep rfl fun id' ↦ ?_
    have hnet := netEffect_addTransaction
      (t := { newTransaction input id authorizedAt createdAt with status := .BLOCKED })
      hadm.fresh id'
    rw [effect_of_not_live rfl, Int.add_zero] at hnet
    exact hnet
  | @finalize _ _ _ t balance event entry event' processed hfind ht hstatus =>
    refine h.keep rfl fun id' ↦ ?_
    have hnet := netEffect_setStatus ht .FINALIZED id'
    rw [effect_of_live (by simp [Transaction.isLive, hstatus]), effect_of_live rfl] at hnet
    exact hnet.trans (Int.sub_add_cancel _ _)
  | @compensate _ _ t account balance event ht hstatus hentry hfound hbalance =>
    have hrestored : balance = account.balance + -t.signedAmount := by
      rw [hbalance, restoredBalance_eq, Int.sub_eq_add_neg]
    refine h.move hfound (by rw [← hrestored]; rfl) fun id' ↦ ?_
    have hnet := netEffect_setStatus ht .BLOCKED id'
    rw [effect_of_live (by simp [Transaction.isLive, hstatus]), effect_of_not_live rfl] at hnet
    apply hnet.trans
    split <;> omega
  | post => exact h.keep rfl fun _ ↦ rfl
  | skip => exact h.keep rfl fun _ ↦ rfl
  | pass => exact h.keep rfl fun _ ↦ rfl

private theorem Solvent.write (h : Solvent db) {id₀ : String} {balance : Int}
    (hbalance : 0 ≤ balance) (haccounts : db'.accounts = (db.setBalance id₀ balance).accounts) :
    Solvent db' := by
  intro id a ha
  rw [haccounts, Database.accounts_setBalance, Table.find?_modify] at ha
  split at ha
  · obtain ⟨a', -, rfl⟩ := Option.map_eq_some_iff.mp ha
    exact hbalance
  · exact h id a ha

/-- Every commit leaves the accounts solvent. -/
theorem Solvent.step (h : Solvent db) (hc : Commits d call own db db') : Solvent db' := by
  cases hc with
  | @complete input request _ _ account row event hclear hevent hunsent =>
    obtain ⟨id, authorizedAt, createdAt, rfl⟩ := hclear.inserted
    have hbefore := h _ _ hclear.found
    have hpos := input.amountMinor_pos
    have hafter : 0 ≤ newBalance input.type account.balance input.amountMinor := by
      unfold newBalance
      split
      · next htype =>
        have := hclear.funded htype
        omega
      · omega
    exact h.write hafter rfl
  | compensate ht hstatus hentry hfound hbalance hnonneg => exact h.write hnonneg rfl
  | block => exact h
  | post => exact h
  | skip => exact h
  | finalize => exact h
  | pass => exact h

end Banking
