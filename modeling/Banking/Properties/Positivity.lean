import Banking.Atomic.Balance
import Banking.Refinement.System

/-!
# Positive balances stay positive

A request may not empty an account. The timeout scan only refuses to overdraw it, so the reversal
of a credit whose amount is all that is left empties the account. Every other step keeps positive
balances positive.
-/

namespace Banking

open Relational (Table)

/-- Every account with a positive balance still has one. -/
def KeepsPositive (db db' : Database) : Prop :=
  ∀ id a, db.accounts.find? id = some a → 0 < a.balance →
    ∃ a', db'.accounts.find? id = some a' ∧ 0 < a'.balance

/-- No timeout scan is about to commit the reversal of a credit that is all its account holds. A
scan that has come to its commit owns the rows of the transaction it reverses and of the account
of that transaction. -/
def sparing (s : SystemState) : SystemAction → Bool
  | .exec i _ =>
    match s.session i with
    | some ⟨.timeoutScan, _, .running (.commit _) _⟩ =>
      !s.db.transactions.rows.any fun t ↦
        decide (s.owner (.transaction t.transactionId) = some i) &&
          decide (s.owner (.account t.accountId) = some i) &&
          decide (t.type = .CREDIT) && decide (t.status = .COMPLETED) &&
          (s.db.ledgerEntries.find? t.transactionId).isNone &&
          (s.db.accounts.find? t.accountId).any fun a ↦ decide (a.balance = t.amount)
    | _ => true
  | _ => true

namespace KeepsPositive

variable {db db' db'' : Database}

/-- Accounts that do not change stay positive. -/
theorem of_accounts_eq (h : db'.accounts = db.accounts) : KeepsPositive db db' :=
  fun _ a ha hpos ↦ ⟨a, h ▸ ha, hpos⟩

/-- Keeping positive balances is transitive. -/
theorem trans (h : KeepsPositive db db') (h' : KeepsPositive db' db'') : KeepsPositive db db'' := by
  intro id a ha hpos
  obtain ⟨a', ha', hpos'⟩ := h id a ha hpos
  exact h' id a' ha' hpos'

/-- Writing a balance that is positive if the account's was keeps positive balances. -/
theorem write {id : String} {account : Account} {balance : Int}
    (hfound : db.accounts.find? id = some account)
    (hbalance : 0 < account.balance → 0 < balance)
    (haccounts : db'.accounts = (db.setBalance id balance).accounts) : KeepsPositive db db' := by
  intro k a ha hpos
  rw [haccounts, Database.accounts_setBalance, Table.find?_modify]
  by_cases hk : k = id
  · subst hk
    rw [hfound] at ha
    cases ha
    exact ⟨{ account with balance }, by rw [if_pos rfl, hfound]; rfl, hbalance hpos⟩
  · exact ⟨a, by rw [if_neg hk]; exact ha, hpos⟩

end KeepsPositive

/-- A commit keeps positive balances, unless it reverses a credit that is all its account
holds. -/
theorem keepsPositive_commit {d : Deployment} {call : Call} {own : Lock → Prop}
    {db db' : Database} (hc : Consistent db) (h : Commits d call own db db')
    (hspare : ∀ t account, call = .timeoutScan → db.transactions.find? t.transactionId = some t →
      own (.transaction t.transactionId) → own (.account t.accountId) → t.type = .CREDIT →
      t.status = .COMPLETED → db.ledgerEntries.find? t.transactionId = none →
      db.accounts.find? t.accountId = some account → account.balance ≠ t.amount) :
    KeepsPositive db db' := by
  cases h with
  | @complete input request _ _ account row event hclear hevent hunsent =>
    obtain ⟨id, authorizedAt, createdAt, rfl⟩ := hclear.inserted
    refine .write hclear.found (fun hpos ↦ ?_) rfl
    have hamount := input.amountMinor_pos
    simp only [newTransaction, newBalance]
    cases htype : input.type with
    | DEBIT =>
      have hfunded := hclear.funded htype
      simp only
      omega
    | CREDIT =>
      simp only
      omega
  | @compensate _ _ t account balance event ht hstatus hentry hfound hbalance hnonneg hevent
      hunsent hlocks =>
    refine .write hfound (fun hpos ↦ ?_) rfl
    have hamount := hc.amount_pos ht
    rw [hbalance, restoredBalance_eq] at hnonneg ⊢
    unfold Transaction.signedAmount at hnonneg ⊢
    cases htype : t.type with
    | DEBIT =>
      simp only
      omega
    | CREDIT =>
      have hne := hspare t account rfl ht hlocks.1 hlocks.2 htype hstatus hentry hfound
      simp only [htype] at hnonneg ⊢
      omega
  | block => exact .of_accounts_eq rfl
  | post => exact .of_accounts_eq rfl
  | skip => exact .of_accounts_eq rfl
  | finalize => exact .of_accounts_eq rfl
  | pass => exact .of_accounts_eq rfl

variable {d : Deployment} {accounts : Table Account.id} {now : Js.Date} {s s' : SystemState}

private theorem spared_of_sparing {i : Nat} {supply : Supply} {born : Database}
    {next : Process Reply} {pending : Database → Database}
    (hi : s.session i = some ⟨.timeoutScan, born, .running (.commit next) pending⟩)
    (h : sparing s (.exec i supply) = true) {t : Transaction} {account : Account}
    (ht : s.db.transactions.find? t.transactionId = some t)
    (hrow : s.owner (.transaction t.transactionId) = some i)
    (haccount : s.owner (.account t.accountId) = some i) (htype : t.type = .CREDIT)
    (hstatus : t.status = .COMPLETED)
    (hentry : s.db.ledgerEntries.find? t.transactionId = none)
    (hfound : s.db.accounts.find? t.accountId = some account) : account.balance ≠ t.amount := by
  intro hbalance
  simp only [sparing, hi, Bool.not_eq_true', List.any_eq_false] at h
  have hnot := h t (Table.mem_of_find? ht)
  simp [hrow, haccount, htype, hstatus, hentry, hfound, hbalance] at hnot

/-- A step from a reachable state that empties no account by a reversal keeps positive balances. -/
private theorem keepsPositive_step (h : Runs d (initial accounts now) s) {a : SystemAction}
    (hspare : sparing s a = true) (hstep : Relational.step (begins d) s a = some s') :
    KeepsPositive s.db s'.db := by
  cases Relational.step_kind hstep with
  | @commit i supply call born next pending hi =>
    have hcommit := (sound h).commit hi
    rcases (Relation.reflGen_iff _ _ _).mp hcommit with hsame | hcommit
    · exact .of_accounts_eq (congrArg Database.accounts hsame)
    · refine keepsPositive_commit (consistent h) hcommit ?_
      rintro t account rfl ht hrow haccount htype hstatus hentry hfound
      exact spared_of_sparing hi hspare ht hrow haccount htype hstatus hentry hfound
  | start free hb => exact .of_accounts_eq rfl
  | stmt hi free => exact .of_accounts_eq rfl
  | done hi ends => exact .of_accounts_eq rfl
  | fail hi => exact .of_accounts_eq rfl
  | tick ht => exact .of_accounts_eq rfl

/-- From any reachable state on, as long as no timeout scan commits the reversal of a credit that
is all its account holds, an account with a positive balance keeps a positive balance. -/
theorem positive_of_sparing (h : Runs d (initial accounts now) s)
    (hs : Relational.RunsUnder (begins d) (fun s a ↦ sparing s a = true) s s') :
    KeepsPositive s.db s'.db := by
  induction hs with
  | refl => exact .of_accounts_eq rfl
  | @tail t t' hrun hstep ih =>
    obtain ⟨a, hspare, ha⟩ := hstep
    have hreach : Runs d (initial accounts now) t :=
      Relation.ReflTransGen.trans h (Relational.RunsUnder.runs hrun)
    exact ih.trans (keepsPositive_step hreach hspare ha)

/-! ### Two runs -/

namespace Sample

/-- A credit of fifty minor units. -/
def credit : CreateTransactionInput :=
  { input with
    transactionId := "txn-2"
    type := .CREDIT
    amountMinor := 50
    transactionId_trimmed := by decide
    transactionId_length := by decide
    amountMinor_pos := by decide }

/-- A debit of all but fifty of what the account holds after the credit. -/
def spending : CreateTransactionInput :=
  { input with amountMinor := 100, amountMinor_pos := by decide }

/-- The request of an administrator. -/
def adminRequest : Request := ⟨some ⟨"admin-1", .ADMIN⟩, some "127.0.0.1", none⟩

/-- Process 0 credits the account, and process 1 spends most of it. -/
def creditAndSpend : List SystemAction :=
  .start 0 (.create credit adminRequest) :: execute 0 13 0 ++
    .start 1 (.create spending request) :: execute 1 13 1

/-- Process 2 scans a minute and more later and meets the credit first. -/
def reverseCredit (n : Nat) : List SystemAction :=
  .tick 100000 :: .start 2 .timeoutScan :: List.replicate n (.exec 2 ⟨uuid 2, ["txn-2"]⟩)

end Sample

/-- The reversal of the sample debit leaves the account with a positive balance. -/
theorem positive_of_sparing_debit : ∃ s s',
    Sample.after Sample.debit = some s ∧
      Relational.runUnder (begins Sample.deployment) sparing s (Sample.reverse 1 1) = some s' ∧
      (s'.db.accounts.find? Sample.accountId).map Account.balance = some 100 ∧
      KeepsPositive s.db s'.db := by
  have hrun : ((Sample.after Sample.debit).bind fun s ↦
      (Relational.runUnder (begins Sample.deployment) sparing s (Sample.reverse 1 1)).map fun s' ↦
        (s'.db.accounts.find? Sample.accountId).map Account.balance) = some (some 100) := by
    decide +kernel
  obtain ⟨s, hs, hrest⟩ := Option.bind_eq_some_iff.mp hrun
  obtain ⟨s', hs', hbalance⟩ := Option.map_eq_some_iff.mp hrest
  exact ⟨s, s', hs, hs', hbalance,
    positive_of_sparing (Relational.runs_of_run hs) (Relational.runsUnder_of_run hs')⟩

/-- A late reversal of the credit leaves the account, which holds fifty by then, with nothing. -/
theorem reversal_empties_account : ∃ s a s',
    Runs Sample.deployment (initial Sample.accounts 1000) s ∧
      Relational.step (begins Sample.deployment) s a = some s' ∧
      (s.db.accounts.find? Sample.accountId).map Account.balance = some 50 ∧
      (s'.db.accounts.find? Sample.accountId).map Account.balance = some 0 ∧
      ¬ KeepsPositive s.db s'.db := by
  have hrun : ((Sample.after (Sample.creditAndSpend ++ Sample.reverseCredit 8)).bind fun s ↦
      (Relational.step (begins Sample.deployment) s (.exec 2 ⟨Sample.uuid 2, []⟩)).map fun s' ↦
        ((s.db.accounts.find? Sample.accountId).map Account.balance,
          (s'.db.accounts.find? Sample.accountId).map Account.balance)) =
      some (some 50, some 0) := by
    decide +kernel
  obtain ⟨s, hs, hrest⟩ := Option.bind_eq_some_iff.mp hrun
  obtain ⟨s', hs', hbalances⟩ := Option.map_eq_some_iff.mp hrest
  obtain ⟨hbefore, hafter⟩ := Prod.mk.inj hbalances
  refine ⟨s, _, s', Relational.runs_of_run hs, hs', hbefore, hafter, fun hkeeps ↦ ?_⟩
  obtain ⟨a, ha, hfifty⟩ := Option.map_eq_some_iff.mp hbefore
  obtain ⟨a', ha', hpos⟩ := hkeeps _ a ha (by omega)
  rw [ha', Option.map_some, Option.some.injEq] at hafter
  omega

end Banking
